/-
  File:      ServerCore/Lib/Trans.lean
  Subject:   State machines executed by labels: the states reached, the invariant rule, runs.

  A machine is its step function `next s l` (`none`: the label is not enabled in `s`). The
  condition `ok s l` restricts the steps of a run; `Reach next ok s₀` are the states of the runs
  all of whose steps meet it.

  * `Reach.invariant`: what holds at the start and is kept by every admitted step holds at every
    state reached.
  * `Reach.simulate`: where each step is a run of another machine between related states, so is
    every run.
  * `Reach.mono`: a stronger condition reaches fewer states, also over another step function.
  * `traced` is the machine that keeps the history of its run, of which conditions and results may
    then speak; `Reach.untraced` forgets it.
  * `exec` runs a list of labels, checking each step (`exec_cons_eq_some` gives its first step);
    the state it ends in is a reached one (`Reach.of_exec`), and where a measure falls the run is
    no longer than it (`length_add_le_of_exec`).
  * `Along` states a condition of each step of a run; `along_iff` trades one for another.
  * `exec_lockstep`: two machines whose related states take the same labels to related states
    take the same runs to related states.
-/
import Mathlib.Logic.Function.Basic

namespace Trans

variable {σ ι : Type _} {next : σ → ι → Option σ} {ok : σ → ι → Prop} {s₀ : σ}

/-- **The states reached** from `s₀` by steps that each meet `ok`. -/
inductive Reach (next : σ → ι → Option σ) (ok : σ → ι → Prop) (s₀ : σ) : σ → Prop where
  | start : Reach next ok s₀ s₀
  | step (s s' : σ) (l : ι) (h : Reach next ok s₀ s) (hok : ok s l) (hs : next s l = some s') :
      Reach next ok s₀ s'

/-- No condition on the steps. -/
def always (_ : σ) (_ : ι) : Prop := True

instance (s : σ) (l : ι) : Decidable (always s l) := .isTrue trivial

/-- **The invariant rule.** -/
theorem Reach.invariant {I : σ → Prop} (hstart : I s₀)
    (hstep : ∀ s s' l, I s → ok s l → next s l = some s' → I s') {s : σ}
    (hr : Reach next ok s₀ s) : I s := by
  induction hr with
  | start => exact hstart
  | step s s' l _ hok hs ih => exact hstep s s' l ih hok hs

/-- A run whose steps are admitted elsewhere is a run there. -/
theorem Reach.mono {next' : σ → ι → Option σ} {ok' : σ → ι → Prop}
    (hok : ∀ s l, ok s l → ok' s l) (hnext : ∀ s s' l, next s l = some s' → next' s l = some s')
    {s : σ} (hr : Reach next ok s₀ s) : Reach next' ok' s₀ s := by
  induction hr with
  | start => exact .start
  | step s s' l _ h hs ih => exact .step s s' l ih (hok s l h) (hnext s s' l hs)

/-- A run from a reached state continues the run to it. -/
theorem Reach.trans {s s' : σ} (h : Reach next ok s₀ s) (h' : Reach next ok s s') :
    Reach next ok s₀ s' := by
  induction h' with
  | start => exact h
  | step s₁ s₂ l _ hok hs ih => exact .step s₁ s₂ l ih hok hs

/-- **The rule of forward simulation**: where each step from related states is a run of the other
    machine, to related states again, so is every run. -/
theorem Reach.simulate {τ κ : Type _} {next' : τ → κ → Option τ} {ok' : τ → κ → Prop} {t₀ : τ}
    {R : σ → τ → Prop} (hstart : R s₀ t₀)
    (hstep : ∀ s s' l t, R s t → ok s l → next s l = some s' →
      ∃ t', Reach next' ok' t t' ∧ R s' t') {s : σ} (hr : Reach next ok s₀ s) :
    ∃ t, Reach next' ok' t₀ t ∧ R s t := by
  induction hr with
  | start => exact ⟨t₀, .start, hstart⟩
  | step s s' l _ hok hs ih =>
      obtain ⟨t, ht, hR⟩ := ih
      obtain ⟨t', ht', hR'⟩ := hstep s s' l t hR hok hs
      exact ⟨t', ht.trans ht', hR'⟩

/-- A state with the history of its run: the steps taken, each with the state it was taken in, the
    last one first. -/
structure Traced (σ ι : Type _) where
  state : σ
  history : List (σ × ι)

/-- **The machine that keeps its history.** -/
def traced (next : σ → ι → Option σ) (t : Traced σ ι) (l : ι) : Option (Traced σ ι) :=
  (next t.state l).map fun s => ⟨s, (t.state, l) :: t.history⟩

theorem traced_eq_some_iff {t t' : Traced σ ι} {l : ι} :
    traced next t l = some t' ↔
      next t.state l = some t'.state ∧ t'.history = (t.state, l) :: t.history := by
  unfold traced
  rw [Option.map_eq_some_iff]
  constructor
  · rintro ⟨s, hs, rfl⟩
    exact ⟨hs, rfl⟩
  · rintro ⟨hs, hh⟩
    refine ⟨t'.state, hs, ?_⟩
    rw [← hh]

/-- The states of a run without its history. -/
theorem Reach.untraced {okt : Traced σ ι → ι → Prop} {t₀ t : Traced σ ι}
    (hok : ∀ t l, okt t l → ok t.state l) (hr : Reach (traced next) okt t₀ t) :
    Reach next ok t₀.state t.state := by
  induction hr with
  | start => exact .start
  | step t t' l _ h hs ih => exact .step _ _ l ih (hok t l h) (traced_eq_some_iff.mp hs).1

/-- The state a list of labels leads to, if every step is enabled and meets `ok`. -/
def exec (next : σ → ι → Option σ) (ok : σ → ι → Prop) [∀ s l, Decidable (ok s l)] :
    σ → List ι → Option σ
  | s, [] => some s
  | s, l :: ls => if ok s l then (next s l).bind fun s' => exec next ok s' ls else none

/-- A run that begins with an enabled label. -/
theorem exec_cons [∀ s l, Decidable (ok s l)] {s s' : σ} {l : ι} (hok : ok s l)
    (h : next s l = some s') (ls : List ι) : exec next ok s (l :: ls) = exec next ok s' ls := by
  rw [exec, if_pos hok, h]
  rfl

/-- The first step of a run that goes through, and the run that is left. -/
theorem exec_cons_eq_some [∀ s l, Decidable (ok s l)] {s s' : σ} {l : ι} {ls : List ι}
    (h : exec next ok s (l :: ls) = some s') :
    ok s l ∧ ∃ s₁, next s l = some s₁ ∧ exec next ok s₁ ls = some s' := by
  rw [exec] at h
  split at h
  · rename_i hok
    exact ⟨hok, Option.bind_eq_some_iff.mp h⟩
  · nomatch h

/-- A run in two parts. -/
theorem exec_append [∀ s l, Decidable (ok s l)] (ls ls' : List ι) :
    ∀ s : σ, exec next ok s (ls ++ ls') =
      (exec next ok s ls).bind fun s' => exec next ok s' ls' := by
  induction ls with
  | nil => exact fun s => rfl
  | cons l ls ih =>
      intro s
      rw [List.cons_append, exec, exec]
      split
      · cases next s l with
        | none => rfl
        | some s' => exact ih s'
      · rfl

/-- A run that comes back to its start can be made any number of times. -/
theorem exec_replicate [∀ s l, Decidable (ok s l)] {s : σ} {ls : List ι}
    (h : exec next ok s ls = some s) (n : Nat) :
    exec next ok s (List.replicate n ls).flatten = some s := by
  induction n with
  | zero => rfl
  | succ n ih => rw [List.replicate_succ, List.flatten_cons, exec_append, h, Option.bind_some, ih]

/-- **The state a run ends in is reached.** -/
theorem Reach.of_exec [∀ s l, Decidable (ok s l)] :
    ∀ (ls : List ι) {s s' : σ}, exec next ok s ls = some s' → Reach next ok s s'
  | [], s, s', h => by
      cases h
      exact .start
  | l :: ls, s, s', h => by
      obtain ⟨hok, s₁, h₁, h₂⟩ := exec_cons_eq_some h
      exact (Reach.step s s₁ l .start hok h₁).trans (Reach.of_exec ls h₂)

/-- **The rule of the decreasing measure**: where every admitted step keeps `I` and lowers `μ`, a
    run is no longer than `μ` is at its start. -/
theorem length_add_le_of_exec [∀ s l, Decidable (ok s l)] {I : σ → Prop} {μ : σ → Nat}
    (hstep : ∀ s s' l, I s → ok s l → next s l = some s' → I s' ∧ μ s' < μ s) :
    ∀ (ls : List ι) {s s' : σ}, I s → exec next ok s ls = some s' → ls.length + μ s' ≤ μ s
  | [], s, s', _, h => by
      cases h
      exact Nat.le_of_eq (Nat.zero_add _)
  | l :: ls, s, s', hI, h => by
      obtain ⟨hok, s₁, h₁, h₂⟩ := exec_cons_eq_some h
      obtain ⟨hI₁, hlt⟩ := hstep s s₁ l hI hok h₁
      have hrest := length_add_le_of_exec hstep ls hI₁ h₂
      rw [List.length_cons]
      omega

/-- Each step of the run of `ls` from `s`, as far as it goes, meets `P`. -/
def Along (next : σ → ι → Option σ) (P : σ → ι → Prop) : σ → List ι → Prop
  | _, [] => True
  | s, l :: ls => P s l ∧ ∀ s', next s l = some s' → Along next P s' ls

/-- A run that was executed under a condition meets it. -/
theorem Along.of_exec [∀ s l, Decidable (ok s l)] :
    ∀ (ls : List ι) {s s' : σ}, exec next ok s ls = some s' → Along next ok s ls
  | [], _, _, _ => trivial
  | l :: ls, s, s', h => by
      obtain ⟨hok, s₁, h₁, h₂⟩ := exec_cons_eq_some h
      refine ⟨hok, fun s₂ hs => ?_⟩
      obtain rfl := Option.some.inj (h₁.symm.trans hs)
      exact Along.of_exec ls h₂

/-- **The rule of the two conditions**: where the steps that meet `Q` keep `I`, and under `I` a step
    meets `P` exactly if it meets `Q`, the runs along which all steps meet them are the same. -/
theorem along_iff {I : σ → Prop} {P Q : σ → ι → Prop} (hPQ : ∀ s l, I s → (P s l ↔ Q s l))
    (hstep : ∀ s s' l, I s → Q s l → next s l = some s' → I s') :
    ∀ (ls : List ι) {s : σ}, I s → (Along next P s ls ↔ Along next Q s ls)
  | [], _, _ => Iff.rfl
  | l :: ls, s, hI => by
      have hrest : Q s l → ((∀ s', next s l = some s' → Along next P s' ls) ↔
          ∀ s', next s l = some s' → Along next Q s' ls) := fun hQ =>
        forall₂_congr fun s' hs => along_iff hPQ hstep ls (hstep s s' l hI hQ hs)
      rw [Along, Along, hPQ s l hI]
      exact and_congr_right hrest

section Lockstep

variable {τ α : Type _} {next' : τ → ι → Option τ} {R : σ → τ → Prop} {Q : ι → Prop}
  {I : σ → Prop} {J : τ → Prop}

/-- **The lockstep rule**: where related states take the same labels of `Q`, and to related states
    again, they take the same runs of such labels, and to related states again. Both machines
    may use an invariant of theirs. -/
theorem exec_lockstep (hI : ∀ s s' l, I s → next s l = some s' → I s')
    (hJ : ∀ s s' l, J s → next' s l = some s' → J s')
    (hstep : ∀ s s' l, I s → J s' → R s s' → Q l → Option.Rel R (next s l) (next' s' l)) :
    ∀ (ls : List ι) {s : σ} {s' : τ}, I s → J s' → R s s' → (∀ l ∈ ls, Q l) →
      Option.Rel R (exec next always s ls) (exec next' always s' ls)
  | [], _, _, _, _, h, _ => .some h
  | l :: ls, s, s', hs, hs', h, hls => by
      have hrel := hstep s s' l hs hs' h (hls l List.mem_cons_self)
      have hrest : ∀ m ∈ ls, Q m := fun m hm => hls m (List.mem_cons_of_mem _ hm)
      rw [exec, exec, if_pos (show always s l from trivial),
        if_pos (show always s' l from trivial)]
      generalize hn : next s l = o at hrel ⊢
      generalize hn' : next' s' l = o' at hrel ⊢
      cases hrel with
      | none => exact .none
      | some h₁ =>
          exact exec_lockstep hI hJ hstep ls (hI s _ l hs hn) (hJ s' _ l hs' hn') h₁ hrest

/-- What related states show alike, related results show alike. -/
theorem map_eq_of_rel {f : σ → α} {g : τ → α} (hR : ∀ s s', R s s' → f s = g s') {o : Option σ}
    {o' : Option τ} (h : Option.Rel R o o') : o.map f = o'.map g := by
  cases h with
  | some hab => exact congrArg some (hR _ _ hab)
  | none => rfl

end Lockstep

end Trans
