/-
  File:      ServerCore/Lib/Multicast.lean
  Subject:   Ordered multicast: messages are cast one after another, each to an audience, and every
             member takes up what was cast to it in that order.

  The casts are numbered. A member has its pending casts in front of it; it takes up the first, and
  either gets it or misses it.

  * `Inv`: what was cast to a member it got, missed or has in front of it, only one of these, and
    each of them in the order of the casts.
  * `common_order`: what two members both got, they got in the same order.
-/
import Mathlib.Data.Finset.Basic
import Mathlib.Data.List.Sort
import ServerCore.Lib.Trans

namespace Multicast

open Trans

variable {ι μ : Type _}

/-- A message and whom it is for. -/
structure Cast (ι μ : Type _) where
  message : μ
  audience : Finset ι

/-- The casts a member has in front of it, those it got, and those it missed. -/
structure Member where
  pending : List Nat
  got : List Nat
  missed : List Nat
  deriving DecidableEq

namespace Member

/-- It takes up a cast, and gets it. -/
def get (m : Member) : Option Member :=
  match m.pending with
  | [] => none
  | n :: later => some { m with pending := later, got := m.got ++ [n] }

/-- It takes up a cast, and misses it. -/
def miss (m : Member) : Option Member :=
  match m.pending with
  | [] => none
  | n :: later => some { m with pending := later, missed := m.missed ++ [n] }

theorem get_of_pending {m : Member} {n : Nat} {later : List Nat} (h : m.pending = n :: later) :
    m.get = some { m with pending := later, got := m.got ++ [n] } := by
  rw [get, h]

theorem miss_of_pending {m : Member} {n : Nat} {later : List Nat} (h : m.pending = n :: later) :
    m.miss = some { m with pending := later, missed := m.missed ++ [n] } := by
  rw [miss, h]

end Member

/-- What was cast, and the members. -/
structure State (ι μ : Type _) where
  casts : List (Cast ι μ)
  member : ι → Member

/-- What happens next. -/
inductive Label (ι μ : Type _) where
  | cast (c : Cast ι μ)
  | get (i : ι)
  | miss (i : ι)

/-- Nothing was cast. -/
def empty : State ι μ := ⟨[], fun _ => ⟨[], [], []⟩⟩

/-- **The step function.** -/
def next [DecidableEq ι] (s : State ι μ) : Label ι μ → Option (State ι μ)
  | .cast c => some {
      casts := s.casts ++ [c]
      member := fun i =>
        if i ∈ c.audience then
          { s.member i with pending := (s.member i).pending ++ [s.casts.length] }
        else s.member i }
  | .get i => (s.member i).get.map fun m => { s with member := Function.update s.member i m }
  | .miss i => (s.member i).miss.map fun m => { s with member := Function.update s.member i m }

/-! ## What a member has met with -/

/-- **The invariant of the member `i`.** -/
structure Inv (casts : List (Cast ι μ)) (i : ι) (m : Member) : Prop where
  got : (m.got ++ m.pending).Pairwise (· < ·)
  missed : (m.missed ++ m.pending).Pairwise (· < ·)
  apart : ∀ n ∈ m.got, n ∉ m.missed
  addressed : ∀ n, n ∈ m.got ∨ n ∈ m.missed ∨ n ∈ m.pending →
    ∃ c, casts[n]? = some c ∧ i ∈ c.audience
  handled : ∀ n c, casts[n]? = some c → i ∈ c.audience →
    n ∈ m.got ∨ n ∈ m.missed ∨ n ∈ m.pending

theorem inv_empty (i : ι) : Inv ([] : List (Cast ι μ)) i ⟨[], [], []⟩ where
  got := .nil
  missed := .nil
  apart _ h := by cases h
  addressed _ h := by rcases h with h | h | h <;> cases h
  handled _ _ h := by cases h

section Step

variable {casts : List (Cast ι μ)} {i : ι} {m m' : Member}

/-- All it has met with was cast. -/
theorem Inv.lt_length (h : Inv casts i m) {n : Nat}
    (hn : n ∈ m.got ∨ n ∈ m.missed ∨ n ∈ m.pending) : n < casts.length := by
  obtain ⟨c, hc, -⟩ := h.addressed n hn
  exact (List.getElem?_eq_some_iff.mp hc).1

/-- What was cast stays so. -/
theorem Inv.addressed_append (h : Inv casts i m) (c : Cast ι μ) {n : Nat}
    (hn : n ∈ m.got ∨ n ∈ m.missed ∨ n ∈ m.pending) :
    ∃ c', (casts ++ [c])[n]? = some c' ∧ i ∈ c'.audience := by
  obtain ⟨c', hc', hi⟩ := h.addressed n hn
  exact ⟨c', by rw [List.getElem?_append_left (h.lt_length hn), hc'], hi⟩

/-- One cast more: the last, or one from before. -/
theorem getElem?_snoc {c c' : Cast ι μ} {n : Nat} (h : (casts ++ [c])[n]? = some c') :
    casts[n]? = some c' ∨ n = casts.length ∧ c' = c := by
  rcases Nat.lt_trichotomy n casts.length with hlt | rfl | hlt
  · rw [List.getElem?_append_left hlt] at h
    exact .inl h
  · rw [List.getElem?_concat_length] at h
    exact .inr ⟨rfl, (Option.some.inj h).symm⟩
  · rw [List.getElem?_eq_none (by rw [List.length_append]; exact hlt)] at h
    cases h

/-- A cast for others. -/
theorem Inv.castOthers (h : Inv casts i m) {c : Cast ι μ} (hi : i ∉ c.audience) :
    Inv (casts ++ [c]) i m where
  got := h.got
  missed := h.missed
  apart := h.apart
  addressed _ hn := h.addressed_append c hn
  handled n c' hc' hmem := by
    rcases getElem?_snoc hc' with hc' | ⟨-, rfl⟩
    · exact h.handled n c' hc' hmem
    · exact absurd hmem hi

/-- Behind an ascending list of numbers of casts comes the next one. -/
theorem pairwise_snoc {l : List Nat} {n : Nat} (h : l.Pairwise (· < ·)) (hn : ∀ k ∈ l, k < n) :
    (l ++ [n]).Pairwise (· < ·) :=
  List.pairwise_append.mpr ⟨h, List.pairwise_singleton _ _, fun k hk _ hm =>
    List.mem_singleton.mp hm ▸ hn k hk⟩

/-- A cast for the member. -/
theorem Inv.cast (h : Inv casts i m) {c : Cast ι μ} (hi : i ∈ c.audience) :
    Inv (casts ++ [c]) i { m with pending := m.pending ++ [casts.length] } where
  got := by
    rw [← List.append_assoc]
    refine pairwise_snoc h.got fun k hk => h.lt_length ?_
    rcases List.mem_append.mp hk with hk | hk
    · exact .inl hk
    · exact .inr (.inr hk)
  missed := by
    rw [← List.append_assoc]
    exact pairwise_snoc h.missed fun k hk => h.lt_length (.inr (List.mem_append.mp hk))
  apart := h.apart
  addressed n hn := by
    rw [List.mem_append, List.mem_singleton, ← or_assoc, ← or_assoc] at hn
    rcases hn with hn | rfl
    · exact h.addressed_append c (by rwa [← or_assoc])
    · exact ⟨c, List.getElem?_concat_length, hi⟩
  handled n c' hc' hmem := by
    rw [List.mem_append, List.mem_singleton]
    rcases getElem?_snoc hc' with hc' | ⟨rfl, -⟩
    · rcases h.handled n c' hc' hmem with hn | hn | hn
      · exact .inl hn
      · exact .inr (.inl hn)
      · exact .inr (.inr (.inl hn))
    · exact .inr (.inr (.inr rfl))

/-- What is in front of a member it has not met with. -/
theorem Inv.head (h : Inv casts i m) {n : Nat} {later : List Nat} (hp : m.pending = n :: later) :
    (∀ k ∈ m.got, k < n) ∧ (∀ k ∈ m.missed, k < n) := by
  have hmem : n ∈ m.pending := hp ▸ List.mem_cons_self
  exact ⟨fun k hk => (List.pairwise_append.mp h.got).2.2 k hk n hmem,
    fun k hk => (List.pairwise_append.mp h.missed).2.2 k hk n hmem⟩

theorem Inv.get (h : Inv casts i m) (hs : m.get = some m') : Inv casts i m' := by
  unfold Member.get at hs
  split at hs
  · cases hs
  · rename_i n later hp
    cases hs
    obtain ⟨hgot, hmissed⟩ := h.head hp
    have hnot : n ∉ m.missed := fun hn => Nat.lt_irrefl n (hmissed n hn)
    refine ⟨?_, ?_, ?_, fun k hk => h.addressed k ?_, fun k c hc hi => ?_⟩
    · rw [List.append_assoc, List.singleton_append, ← hp]
      exact h.got
    · have hm := h.missed
      rw [hp] at hm
      exact hm.sublist (List.Sublist.append_left (List.sublist_cons_self n later) _)
    · exact List.forall_mem_append.mpr ⟨h.apart, List.forall_mem_singleton.mpr hnot⟩
    · simp only [List.mem_append, List.mem_singleton] at hk
      rw [hp, List.mem_cons]
      tauto
    · have hk := h.handled k c hc hi
      rw [hp, List.mem_cons] at hk
      simp only [List.mem_append, List.mem_singleton]
      tauto

theorem Inv.miss (h : Inv casts i m) (hs : m.miss = some m') : Inv casts i m' := by
  unfold Member.miss at hs
  split at hs
  · cases hs
  · rename_i n later hp
    cases hs
    obtain ⟨hgot, hmissed⟩ := h.head hp
    refine ⟨?_, ?_, fun k hk => ?_, fun k hk => h.addressed k ?_, fun k c hc hi => ?_⟩
    · have hg := h.got
      rw [hp] at hg
      exact hg.sublist (List.Sublist.append_left (List.sublist_cons_self n later) _)
    · rw [List.append_assoc, List.singleton_append, ← hp]
      exact h.missed
    · rw [List.mem_append, List.mem_singleton]
      rintro (hm | rfl)
      · exact h.apart k hk hm
      · exact Nat.lt_irrefl k (hgot k hk)
    · simp only [List.mem_append, List.mem_singleton] at hk
      rw [hp, List.mem_cons]
      tauto
    · have hk := h.handled k c hc hi
      rw [hp, List.mem_cons] at hk
      simp only [List.mem_append, List.mem_singleton]
      tauto

end Step

section Run

variable [DecidableEq ι] {s s' : State ι μ}

theorem inv_update {f : ι → Member} {casts : List (Cast ι μ)} (h : ∀ i, Inv casts i (f i)) {j : ι}
    {m : Member} (hm : Inv casts j m) (i : ι) : Inv casts i (Function.update f j m i) := by
  by_cases hj : i = j
  · subst hj
    rw [Function.update_self]
    exact hm
  · rw [Function.update_of_ne hj]
    exact h i

/-- **A step keeps the invariant** of every member. -/
theorem inv_step (h : ∀ i, Inv s.casts i (s.member i)) {l : Label ι μ}
    (hs : next s l = some s') (i : ι) : Inv s'.casts i (s'.member i) := by
  cases l with
  | cast c =>
      cases hs
      dsimp only
      split
      · rename_i hi
        exact (h i).cast hi
      · rename_i hi
        exact (h i).castOthers hi
  | get j =>
      obtain ⟨m, hm, rfl⟩ := Option.map_eq_some_iff.mp hs
      exact inv_update h ((h j).get hm) i
  | miss j =>
      obtain ⟨m, hm, rfl⟩ := Option.map_eq_some_iff.mp hs
      exact inv_update h ((h j).miss hm) i

/-- **Every run keeps it.** -/
theorem inv_of_reach (hr : Reach next always (empty : State ι μ) s) (i : ι) :
    Inv s.casts i (s.member i) :=
  hr.invariant (I := fun s => ∀ i, Inv s.casts i (s.member i)) inv_empty
    (fun _ _ _ h _ hs => inv_step h hs) i

end Run

/-- **Ascending lists have what they share in the same order.** -/
theorem common_order {l₁ l₂ : List Nat} (h₁ : l₁.Pairwise (· < ·)) (h₂ : l₂.Pairwise (· < ·)) :
    l₁.filter (· ∈ l₂) = l₂.filter (· ∈ l₁) := by
  refine List.Pairwise.eq_of_mem_iff (h₁.filter _) (h₂.filter _) fun n => ?_
  simp only [List.mem_filter, decide_eq_true_eq]
  exact And.comm

end Multicast
