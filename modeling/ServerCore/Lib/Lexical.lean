/-
  File:      ServerCore/Lib/Lexical.lean
  Subject:   Lexical resolution of path components: `.` and the empty component stay, `..` goes up.

  A directory is a stack of components, the innermost first. `push` resolves one component,
  `resolve` a list of them. In a relative path a `..` that finds nothing to undo is kept, under a
  root it is dropped.

  * `push_eq_cons_iff`: a component leads to an entry of the directory it starts from just when it
    is a proper name (no `.`, no `..`, not empty).
  * `resolve_split_trailing`: separators at the end of a path do not matter.
-/
import Mathlib.Data.List.Basic

namespace Lexical

variable {α : Type _} [DecidableEq α] (dot : α)

/-! ## 1. One component -/

/-- The names of entries: all but the empty one, `.` and `..`. -/
def Proper (c : List α) : Prop := c ≠ [] ∧ c ≠ [dot] ∧ c ≠ [dot, dot]

instance (c : List α) : Decidable (Proper dot c) :=
  inferInstanceAs (Decidable (c ≠ [] ∧ c ≠ [dot] ∧ c ≠ [dot, dot]))

/-- `..`: up by one directory. -/
def up (rooted : Bool) : List (List α) → List (List α)
  | [] => if rooted then [] else [[dot, dot]]
  | t :: rest => if t = [dot, dot] then [dot, dot] :: t :: rest else rest

/-- One component, seen from the directory `stack`. -/
def push (rooted : Bool) (stack : List (List α)) (c : List α) : List (List α) :=
  if c = [] ∨ c = [dot] then stack
  else if c = [dot, dot] then up dot rooted stack
  else c :: stack

theorem push_nil (rooted : Bool) (stack : List (List α)) : push dot rooted stack [] = stack := by
  unfold push
  rw [if_pos (.inl rfl)]

theorem push_proper {rooted : Bool} {stack : List (List α)} {c : List α} (h : Proper dot c) :
    push dot rooted stack c = c :: stack := by
  obtain ⟨hempty, hdot, hup⟩ := h
  unfold push
  rw [if_neg (not_or.mpr ⟨hempty, hdot⟩), if_neg hup]

/-- Going up does not lead to an entry. -/
theorem up_ne_cons {rooted : Bool} {stack : List (List α)} {c : List α} (h : Proper dot c) :
    up dot rooted stack ≠ c :: stack := by
  intro e
  cases stack with
  | nil =>
      cases rooted with
      | true => nomatch e
      | false => exact h.2.2 (List.cons.inj e).1.symm
  | cons t rest =>
      unfold up at e
      dsimp only at e
      split at e
      · exact h.2.2 (List.cons.inj e).1.symm
      · have hlen := congrArg List.length e
        rw [List.length_cons, List.length_cons] at hlen
        omega

/-- **A component leads to an entry** of the directory just when it is its name. -/
theorem push_eq_cons_iff {rooted : Bool} {stack : List (List α)} {x c : List α}
    (hc : Proper dot c) : push dot rooted stack x = c :: stack ↔ x = c := by
  constructor
  · intro h
    unfold push at h
    split at h
    · exact absurd h.symm (List.cons_ne_self _ _)
    · split at h
      · exact absurd h (up_ne_cons dot hc)
      · exact (List.cons.inj h).1
  · rintro rfl
    exact push_proper dot hc

/-! ## 2. A list of components -/

/-- The components `cs`, seen from `stack`. -/
def resolve (rooted : Bool) (stack : List (List α)) (cs : List (List α)) : List (List α) :=
  cs.foldl (push dot rooted) stack

theorem resolve_append (rooted : Bool) (stack : List (List α)) (cs ds : List (List α)) :
    resolve dot rooted stack (cs ++ ds) = resolve dot rooted (resolve dot rooted stack cs) ds :=
  List.foldl_append

theorem resolve_concat (rooted : Bool) (stack : List (List α)) (cs : List (List α)) (c : List α) :
    resolve dot rooted stack (cs ++ [c]) = push dot rooted (resolve dot rooted stack cs) c := by
  rw [resolve_append]
  rfl

/-- **Separators at the end** of a path do not matter. -/
theorem resolve_split_trailing {sep : α → Bool} (rooted : Bool) (stack : List (List α))
    (p seps : List α) (h : ∀ s ∈ seps, sep s = true) :
    resolve dot rooted stack ((p ++ seps).splitOnP sep) =
      resolve dot rooted stack (p.splitOnP sep) := by
  induction seps generalizing p with
  | nil => rw [List.append_nil]
  | cons s seps ih =>
      have hs := h s (List.mem_cons_self ..)
      rw [show p ++ s :: seps = (p ++ [s]) ++ seps by rw [List.append_assoc]; rfl,
        ih (p ++ [s]) fun t ht => h t (List.mem_cons_of_mem _ ht),
        List.splitOnP_append_cons p [] hs, List.splitOnP_nil, resolve_concat, push_nil]

/-! ## 3. The last component -/

omit [DecidableEq α] in
/-- The part of a path behind its last separator. -/
theorem exists_last_component (sep : α → Bool) (p : List α) :
    (∀ c ∈ p, sep c = false) ∨
      ∃ dir s base, p = dir ++ s :: base ∧ sep s = true ∧ ∀ c ∈ base, sep c = false := by
  induction p with
  | nil => exact .inl fun _ h => nomatch h
  | cons c p ih =>
      rcases ih with hnone | ⟨dir, s, base, rfl, hs, hbase⟩
      · by_cases hc : sep c = true
        · exact .inr ⟨[], c, p, rfl, hc, hnone⟩
        · refine .inl fun d hd => ?_
          rcases List.mem_cons.mp hd with rfl | hd
          · exact Bool.not_eq_true _ ▸ hc
          · exact hnone d hd
      · exact .inr ⟨c :: dir, s, base, rfl, hs, hbase⟩

omit [DecidableEq α] in
/-- **The last component** takes what is appended without a separator. -/
theorem exists_split_concat (sep : α → Bool) (p : List α) :
    ∃ pre last, p.splitOnP sep = pre ++ [last] ∧
      ∀ q, (∀ c ∈ q, sep c = false) → (p ++ q).splitOnP sep = pre ++ [last ++ q] := by
  rcases exists_last_component sep p with hnone | ⟨dir, s, base, rfl, hs, hbase⟩
  · refine ⟨[], p, List.splitOnP_eq_singleton hnone, fun q hq => ?_⟩
    exact List.splitOnP_eq_singleton (List.forall_mem_append.mpr ⟨hnone, hq⟩)
  · refine ⟨dir.splitOnP sep, base, ?_, fun q hq => ?_⟩
    · rw [List.splitOnP_append_cons dir base hs, List.splitOnP_eq_singleton hbase]
    · rw [List.append_assoc, List.cons_append, List.splitOnP_append_cons dir _ hs,
        List.splitOnP_eq_singleton (List.forall_mem_append.mpr ⟨hbase, hq⟩)]

end Lexical
