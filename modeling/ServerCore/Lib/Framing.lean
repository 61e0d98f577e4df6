/-
  File:      ServerCore/Lib/Framing.lean
  Subject:   Greedy framing of a stream, and why cutting the stream does not matter.

  A `Framer` decides from the front of a sequence whether a complete frame is there and how
  long it is. Two laws: a frame lies inside the sequence (`le_length`), and more input does not
  show a decision already taken (`stable`).

  * `Framer.Parse bs ps t`: the greedy left-to-right parse of `bs` emits the frames `ps` and
    stops at the incomplete tail `t`; every frame it takes is non-empty. It is a function of
    `bs` (`Parse.unique`) and loses nothing (`Parse.flatten_append`).
  * `Framer.Positive bs`: no frame the parse reaches is empty; exactly then there is a parse
    (`exists_parse`).
  * `Parse.split`, `Parse.append`: parsing a prefix, then the tail of that followed by the
    rest, is parsing the whole -- the step of every proof about a stream that arrives in pieces.
  * `parse_frames`, `parse_prefix`: a stream of whole frames parses as these, a prefix of it as the
    first of them.
  * `firstFrames`, `dropFrames`: the cut up to a number of frames, which empty frames do not stop
    (`firstFrames_append`, `parse_of_short`).
-/
import Mathlib.Data.List.Basic

variable {α : Type _}

/-- A decision procedure for the first frame of a sequence: `some n` means the first `n`
    elements are one complete frame, `none` that more input is needed. -/
structure Framer (α : Type _) where
  frame : List α → Option Nat
  le_length : ∀ {bs n}, frame bs = some n → n ≤ bs.length
  stable : ∀ {bs n} (more : List α), frame bs = some n → frame (bs ++ more) = some n

namespace Framer

variable {F : Framer α}

/-- **The greedy parse.** It takes non-empty frames from the front for as long as one is
    complete. -/
inductive Parse (F : Framer α) : List α → List (List α) → List α → Prop where
  | stop {bs : List α} (h : F.frame bs = none) : Parse F bs [] bs
  | take {bs : List α} {n : Nat} {ps : List (List α)} {t : List α} (h : F.frame bs = some n)
      (hn : 0 < n) (hp : Parse F (bs.drop n) ps t) : Parse F bs (bs.take n :: ps) t

/-- The suffixes a greedy parse of `bs` looks at. -/
inductive Reaches (F : Framer α) : List α → List α → Prop where
  | here (bs : List α) : Reaches F bs bs
  | take {bs c : List α} {n : Nat} (h : F.frame bs = some n) (hr : Reaches F (bs.drop n) c) :
      Reaches F bs c

/-- The parse goes on from where it has come to. -/
theorem Reaches.step {bs c : List α} {n : Nat} (hr : F.Reaches bs c) (h : F.frame c = some n) :
    F.Reaches bs (c.drop n) := by
  induction hr with
  | here bs => exact .take h (.here _)
  | take hf _ ih => exact .take hf (ih h)

/-- No frame that a greedy parse of `bs` reaches is empty. -/
def Positive (F : Framer α) (bs : List α) : Prop := ∀ c, F.Reaches bs c → F.frame c ≠ some 0

/-- **Where no empty frame is reached, there is a parse.** -/
theorem exists_parse {bs : List α} (h : F.Positive bs) : ∃ ps t, F.Parse bs ps t := by
  induction hl : bs.length using Nat.strongRecOn generalizing bs with
  | ind k ih =>
      cases hf : F.frame bs with
      | none => exact ⟨[], bs, .stop hf⟩
      | some n =>
          have hn : 0 < n := Nat.pos_of_ne_zero fun e => h bs (.here bs) (e ▸ hf)
          have hle := F.le_length hf
          have hlt : (bs.drop n).length < k := by
            rw [List.length_drop]
            omega
          have hpos : F.Positive (bs.drop n) := fun c hc => h c (.take hf hc)
          obtain ⟨ps, t, hp⟩ := ih _ hlt hpos rfl
          exact ⟨_, _, .take hf hn hp⟩

/-- A parse reaches no empty frame. -/
theorem Parse.positive {bs t : List α} {ps : List (List α)} (h : F.Parse bs ps t) :
    F.Positive bs := by
  induction h with
  | stop hs =>
      intro c hc
      cases hc with
      | here => rw [hs]; exact Option.some_ne_none 0 ∘ Eq.symm
      | take hf _ => rw [hs] at hf; cases hf
  | take hs hn _ ih =>
      intro c hc
      cases hc with
      | here =>
          rw [hs]
          intro e
          cases e
          exact Nat.lt_irrefl 0 hn
      | take hf hr =>
          rw [hs] at hf
          cases hf
          exact ih c hr

/-- The tail of a parse holds no complete frame. -/
theorem Parse.frame_tail {bs t : List α} {ps : List (List α)} (h : F.Parse bs ps t) :
    F.frame t = none := by
  induction h with
  | stop h => exact h
  | take _ _ _ ih => exact ih

/-- **A parse loses nothing**: the frames and the tail are the input. -/
theorem Parse.flatten_append {bs t : List α} {ps : List (List α)} (h : F.Parse bs ps t) :
    ps.flatten ++ t = bs := by
  induction h with
  | stop _ => rfl
  | @take bs n ps t _ _ _ ih =>
      rw [List.flatten_cons, List.append_assoc, ih, List.take_append_drop]

/-- **The parse is a function of the input.** -/
theorem Parse.unique {bs t t' : List α} {ps ps' : List (List α)} (h : F.Parse bs ps t)
    (h' : F.Parse bs ps' t') : ps = ps' ∧ t = t' := by
  induction h generalizing ps' t' with
  | stop hn =>
      cases h' with
      | stop _ => exact ⟨rfl, rfl⟩
      | take hs _ _ => rw [hn] at hs; cases hs
  | take hs _ _ ih =>
      cases h' with
      | stop hn => rw [hn] at hs; cases hs
      | take hs' _ hp' =>
          rw [hs] at hs'
          cases hs'
          obtain ⟨rfl, rfl⟩ := ih hp'
          exact ⟨rfl, rfl⟩

/-- **A parse of a prefix, continued with the rest, is a parse of the whole.** -/
theorem Parse.append {bs more t t' : List α} {ps ps' : List (List α)} (h : F.Parse bs ps t)
    (h' : F.Parse (t ++ more) ps' t') : F.Parse (bs ++ more) (ps ++ ps') t' := by
  induction h with
  | stop _ => exact h'
  | @take bs n ps t hs hn _ ih =>
      have hle := F.le_length hs
      have e1 : (bs ++ more).take n = bs.take n := List.take_append_of_le_length hle
      have e2 : (bs ++ more).drop n = bs.drop n ++ more := List.drop_append_of_le_length hle
      rw [List.cons_append, ← e1]
      exact .take (F.stable more hs) hn (by rw [e2]; exact ih h')

/-- **A parse of the whole parses every prefix**, and goes on from the prefix's tail. -/
theorem Parse.split {more t : List α} : ∀ {bs : List α} {ps : List (List α)},
    F.Parse (bs ++ more) ps t →
    ∃ ps₁ t₁ ps₂, F.Parse bs ps₁ t₁ ∧ F.Parse (t₁ ++ more) ps₂ t ∧ ps = ps₁ ++ ps₂ := by
  intro bs
  -- the frames of the prefix are frames of the whole, so the prefix shrinks with each of them
  induction hl : bs.length using Nat.strongRecOn generalizing bs with
  | ind k ih =>
      intro ps h
      cases hf : F.frame bs with
      | none => exact ⟨[], bs, ps, .stop hf, h, rfl⟩
      | some n =>
          have hle := F.le_length hf
          have hw := F.stable more hf
          cases h with
          | stop hn => rw [hw] at hn; cases hn
          | @take _ n' ps' _ hs hn hp =>
              rw [hw] at hs
              cases hs
              rw [List.drop_append_of_le_length hle] at hp
              have hlt : (bs.drop n).length < k := by
                rw [List.length_drop]
                omega
              obtain ⟨ps₁, t₁, ps₂, h₁, h₂, rfl⟩ := ih _ hlt rfl hp
              refine ⟨bs.take n :: ps₁, t₁, ps₂, .take hf hn h₁, h₂, ?_⟩
              rw [List.take_append_of_le_length hle, List.cons_append]

/-- **Whole frames, one after another, parse as themselves.** -/
theorem parse_frames (hnil : F.frame [] = none) : ∀ {ps : List (List α)},
    (∀ p ∈ ps, F.frame p = some p.length ∧ 0 < p.length) → F.Parse ps.flatten ps []
  | [], _ => .stop hnil
  | p :: ps, h => by
      obtain ⟨hf, hpos⟩ := h p List.mem_cons_self
      have hrest := parse_frames hnil fun q hq => h q (List.mem_cons_of_mem p hq)
      have ht : F.Parse (p ++ ps.flatten) ((p ++ ps.flatten).take p.length :: ps) [] :=
        .take (F.stable _ hf) hpos (by rw [List.drop_left]; exact hrest)
      rw [List.take_left] at ht
      exact ht

/-- **A prefix of whole frames** parses as the first of them, and what it leaves of the next one
    goes on in the rest. -/
theorem parse_prefix (hnil : F.frame [] = none) {ps : List (List α)}
    (hps : ∀ p ∈ ps, F.frame p = some p.length ∧ 0 < p.length) {bs rest : List α}
    (hcat : bs ++ rest = ps.flatten) :
    ∃ ps₁ ps₂ t, ps = ps₁ ++ ps₂ ∧ F.Parse bs ps₁ t ∧ t ++ rest = ps₂.flatten := by
  have hwhole := parse_frames hnil hps
  rw [← hcat] at hwhole
  obtain ⟨ps₁, t, ps₂, h₁, h₂, rfl⟩ := hwhole.split
  refine ⟨ps₁, ps₂, t, rfl, h₁, ?_⟩
  rw [← h₂.flatten_append, List.append_nil]

/-- What holds no complete frame holds none of the frames it consists of. -/
theorem eq_nil_of_frame_none {ps : List (List α)} (hps : ∀ p ∈ ps, F.frame p = some p.length)
    (h : F.frame ps.flatten = none) : ps = [] := by
  cases ps with
  | nil => rfl
  | cons p ps =>
      rw [List.flatten_cons, F.stable _ (hps p List.mem_cons_self)] at h
      cases h

/-! ## So many frames -/

/-- The first `k` frames of the greedy cut, empty ones as well; fewer, where it stops before. -/
def firstFrames (F : Framer α) : Nat → List α → List (List α)
  | 0, _ => []
  | k + 1, bs => match F.frame bs with
    | none => []
    | some n => bs.take n :: F.firstFrames k (bs.drop n)

/-- What is left behind them. -/
def dropFrames (F : Framer α) : Nat → List α → List α
  | 0, bs => bs
  | k + 1, bs => match F.frame bs with
    | none => bs
    | some n => F.dropFrames k (bs.drop n)

theorem firstFrames_none {k : Nat} {bs : List α} (h : F.frame bs = none) :
    F.firstFrames k bs = [] := by
  cases k with
  | zero => rfl
  | succ k => rw [firstFrames, h]

theorem firstFrames_some {k n : Nat} {bs : List α} (h : F.frame bs = some n) :
    F.firstFrames (k + 1) bs = bs.take n :: F.firstFrames k (bs.drop n) := by
  rw [firstFrames, h]

/-- **Cutting a prefix first changes nothing**: its frames are the first of the whole, and the cut
    goes on from what is left of it. -/
theorem firstFrames_append (k : Nat) (more : List α) : ∀ bs : List α,
    F.firstFrames k (bs ++ more) = F.firstFrames k bs ++
      F.firstFrames (k - (F.firstFrames k bs).length) (F.dropFrames k bs ++ more) := by
  induction k with
  | zero => exact fun bs => rfl
  | succ k ih =>
      intro bs
      cases hf : F.frame bs with
      | none =>
          rw [firstFrames_none hf, dropFrames, hf, List.nil_append, List.length_nil, Nat.sub_zero]
      | some n =>
          have hle := F.le_length hf
          rw [firstFrames_some (F.stable more hf), List.take_append_of_le_length hle,
            List.drop_append_of_le_length hle, ih, firstFrames_some hf, dropFrames, hf,
            List.length_cons, Nat.add_sub_add_right, List.cons_append]

/-- **Where there are not so many frames, the cut is a parse.** -/
theorem parse_of_short (k : Nat) : ∀ {bs : List α}, (F.firstFrames k bs).length < k →
    F.Parse bs (F.firstFrames k bs) (F.dropFrames k bs) := by
  induction k with
  | zero => exact fun h => absurd h (Nat.not_lt_zero _)
  | succ k ih =>
      intro bs hshort
      cases hf : F.frame bs with
      | none =>
          rw [firstFrames_none hf, dropFrames, hf]
          exact .stop hf
      | some n =>
          rw [firstFrames_some hf, List.length_cons] at hshort
          have hrest := ih (Nat.lt_of_succ_lt_succ hshort)
          rw [firstFrames_some hf, dropFrames, hf]
          refine .take hf (Nat.pos_of_ne_zero fun h0 => ?_) hrest
          -- an empty frame would come again and again
          subst h0
          exact hrest.positive _ (.here _) hf

end Framer
