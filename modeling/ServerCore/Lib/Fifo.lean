/-
  File:      ServerCore/Lib/Fifo.lean
  Subject:   A bounded queue: elements are put in behind and taken out in front.

  * `Queue`: the elements of a queue, no more than its bound.
  * `next`: one operation. A run is `Trans.exec` of it.
  * `conservation`: what was in the queue and what a run has put in, is what the run has taken out
    and what is left, in this order; so nothing is lost, doubled or overtaken.
-/
import ServerCore.Lib.Trans

namespace Fifo

open Trans

variable {α : Type _} {bound : Nat}

/-- The elements of a queue for at most `bound`, the oldest first. -/
structure Queue (α : Type _) (bound : Nat) where
  elems : List α
  le : elems.length ≤ bound

theorem length_append_le {q xs : List α} (h : q.length + xs.length ≤ bound) :
    (q ++ xs).length ≤ bound := by
  rwa [List.length_append]

theorem length_drop_le {q : List α} (h : q.length ≤ bound) (n : Nat) :
    (q.drop n).length ≤ bound := by
  rw [List.length_drop]
  omega

theorem length_nil_le : ([] : List α).length ≤ bound := Nat.zero_le bound

/-- What is done to a queue. -/
inductive Op (α : Type _) where
  | put (xs : List α)
  | take (n : Nat)
  | keep

namespace Queue

/-- Nothing is in it. -/
def empty : Queue α bound := ⟨[], length_nil_le⟩

/-- **The queue**: it takes in what it has room for, and gives out what it has. -/
def next (q : Queue α bound) : Op α → Option (Queue α bound)
  | .put xs =>
      if h : q.elems.length + xs.length ≤ bound then some ⟨q.elems ++ xs, length_append_le h⟩
      else none
  | .take n =>
      if n ≤ q.elems.length then some ⟨q.elems.drop n, length_drop_le q.le n⟩ else none
  | .keep => some q

theorem next_put {q : Queue α bound} {xs : List α} (h : q.elems.length + xs.length ≤ bound) :
    q.next (.put xs) = some ⟨q.elems ++ xs, length_append_le h⟩ := dif_pos h

theorem next_take {q : Queue α bound} {n : Nat} (h : n ≤ q.elems.length) :
    q.next (.take n) = some ⟨q.elems.drop n, length_drop_le q.le n⟩ := if_pos h

/-- What the operation gives out. -/
def output (q : Queue α bound) : Op α → List α
  | .take n => q.elems.take n
  | .put _ | .keep => []

end Queue

/-- What the operation puts in. -/
def Op.input : Op α → List α
  | .put xs => xs
  | .take _ | .keep => []

/-- All that the operations put in. -/
def inputs (ops : List (Op α)) : List α := ops.flatMap Op.input

/-- All that they take out, beginning with the queue `q`. -/
def outputs : Queue α bound → List (Op α) → List α
  | _, [] => []
  | q, op :: ops => q.output op ++ ((q.next op).map fun q' => outputs q' ops).getD []

/-- One operation. -/
theorem Queue.next_conserves {q q' : Queue α bound} {op : Op α} (h : q.next op = some q') :
    q.elems ++ op.input = q.output op ++ q'.elems := by
  cases op with
  | put xs =>
      unfold Queue.next at h
      dsimp only at h
      split at h
      · obtain rfl := Option.some.inj h
        rfl
      · nomatch h
  | take n =>
      unfold Queue.next at h
      dsimp only at h
      split at h
      · obtain rfl := Option.some.inj h
        rw [Queue.output, List.take_append_drop, Op.input, List.append_nil]
      · nomatch h
  | keep =>
      obtain rfl := Option.some.inj h
      exact List.append_nil _

/-- **First in, first out**: what was in the queue and what a run has put in, is what the run has
    taken out, and then what is left. -/
theorem conservation (ops : List (Op α)) : ∀ {q q' : Queue α bound},
    exec Queue.next always q ops = some q' →
      q.elems ++ inputs ops = outputs q ops ++ q'.elems := by
  induction ops with
  | nil =>
      intro q q' h
      obtain rfl := Option.some.inj h
      exact List.append_nil _
  | cons op ops ih =>
      intro q q' h
      obtain ⟨-, q₁, h₁, hrest⟩ := exec_cons_eq_some h
      rw [outputs, h₁, Option.map_some, Option.getD_some, List.append_assoc, ← ih hrest,
        ← List.append_assoc, ← Queue.next_conserves h₁, List.append_assoc]
      rfl

end Fifo
