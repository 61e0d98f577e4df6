/-
  File:      ServerCore/Lib/Mutex.lean
  Subject:   A mutex, plain or re-entrant, as the number of times each thread holds it.

  A held mutex records its holder and the nested acquisitions beyond the first, so a held mutex
  is held at least once by construction. `acquire` answers `none` where the call blocks: on a
  mutex another thread holds, and, for the plain kind, on one the caller holds itself.

  Proofs speak of `depth m t`, the number of times `t` holds `m`: `acquire` adds one to the
  caller's, `release` takes one from the holder's, no other thread's moves (`depth_acquire`,
  `depth_release`), and at most one thread has any (`holder_unique`). A program whose threads
  each know how often they hold the mutex keeps `HeldBy` through the two calls.
-/
import Mathlib.Logic.Function.Basic

namespace Mutex

/-- Whether the holder may acquire again. -/
inductive Kind where
  | plain
  | reentrant
  deriving DecidableEq, Repr

variable {τ : Type _} [DecidableEq τ]

/-- A mutex: free, or its holder and the holder's nested acquisitions beyond the first. -/
abbrev State (τ : Type _) := Option (τ × Nat)

/-- `lock()` by `t`; `none`: the call blocks. -/
def acquire (k : Kind) (m : State τ) (t : τ) : Option (State τ) :=
  match m with
  | none => some (some (t, 0))
  | some (h, d) => if h = t ∧ k = .reentrant then some (some (h, d + 1)) else none

/-- `unlock()` by the holder. -/
def release (m : State τ) : State τ :=
  match m with
  | some (h, d + 1) => some (h, d)
  | _ => none

/-- How many times `t` holds the mutex. -/
def depth (m : State τ) (t : τ) : Nat :=
  match m with
  | none => 0
  | some (h, d) => if h = t then d + 1 else 0

/-- **At most one thread holds a mutex.** -/
theorem holder_unique {m : State τ} {t u : τ} (ht : 0 < depth m t) (hu : 0 < depth m u) :
    t = u := by
  cases m with
  | none => exact absurd ht (Nat.lt_irrefl 0)
  | some hd =>
      obtain ⟨h, d⟩ := hd
      unfold depth at ht hu
      simp only at ht hu
      split at ht
      · split at hu
        · rename_i e₁ e₂
          exact e₁.symm.trans e₂
        · exact absurd hu (Nat.lt_irrefl 0)
      · exact absurd ht (Nat.lt_irrefl 0)

/-- **Acquiring adds one to the caller** and moves no other thread. -/
theorem depth_acquire {k : Kind} {m m' : State τ} {t : τ} (h : acquire k m t = some m') :
    depth m' t = depth m t + 1 ∧ ∀ u, u ≠ t → depth m' u = depth m u := by
  cases m with
  | none =>
      cases h
      refine ⟨by simp [depth], fun u hu => ?_⟩
      simp [depth, Ne.symm hu]
  | some hd =>
      obtain ⟨o, d⟩ := hd
      simp only [acquire] at h
      split at h
      · rename_i hc
        cases h
        obtain ⟨rfl, -⟩ := hc
        refine ⟨by simp [depth], fun u hu => ?_⟩
        simp [depth, Ne.symm hu]
      · cases h

/-- **Releasing takes one from the holder** and moves no other thread. -/
theorem depth_release {m : State τ} {t : τ} (h : 0 < depth m t) :
    depth (release m) t = depth m t - 1 ∧ ∀ u, u ≠ t → depth (release m) u = depth m u := by
  cases m with
  | none => exact absurd h (Nat.lt_irrefl 0)
  | some hd =>
      obtain ⟨o, d⟩ := hd
      have ho : o = t := by
        unfold depth at h
        simp only at h
        split at h
        · assumption
        · exact absurd h (Nat.lt_irrefl 0)
      subst ho
      cases d with
      | zero => exact ⟨by simp [release, depth], fun u hu => by simp [release, depth, Ne.symm hu]⟩
      | succ d => exact ⟨by simp [release, depth], fun u hu => by simp [release, depth, Ne.symm hu]⟩

/-- A mutex its holder holds once is free when released. -/
theorem release_eq_none {m : State τ} {t : τ} (h : depth m t = 1) : release m = none := by
  cases m with
  | none => rfl
  | some hd =>
      obtain ⟨o, d⟩ := hd
      unfold depth at h
      simp only at h
      split at h
      · obtain rfl : d = 0 := Nat.succ.inj h
        rfl
      · nomatch h

/-- **A plain mutex never lets its holder in again.** -/
theorem acquire_plain_of_held {m : State τ} {t : τ} (h : 0 < depth m t) :
    acquire .plain m t = none := by
  cases m with
  | none => exact absurd h (Nat.lt_irrefl 0)
  | some hd => simp [acquire]

/-- **A re-entrant mutex always lets its holder in again.** -/
theorem acquire_reentrant_of_held {m : State τ} {t : τ} (h : 0 < depth m t) :
    ∃ m', acquire .reentrant m t = some m' := by
  cases m with
  | none => exact absurd h (Nat.lt_irrefl 0)
  | some hd =>
      obtain ⟨o, d⟩ := hd
      unfold depth at h
      simp only at h
      split at h
      · rename_i ho
        exact ⟨some (o, d + 1), if_pos ⟨ho, rfl⟩⟩
      · exact absurd h (Nat.lt_irrefl 0)

/-! ## Threads that know how often they hold the mutex -/

/-- Every thread holds the mutex as often as `held` says. -/
def HeldBy (m : State τ) (held : τ → Nat) : Prop := ∀ t, depth m t = held t

/-- Nobody holds a free mutex. -/
theorem HeldBy.free {held : τ → Nat} (h : ∀ t, held t = 0) : HeldBy none held :=
  fun t => (h t).symm

/-- A thread moves on without the mutex. -/
theorem HeldBy.keep {m : State τ} {held : τ → Nat} (h : HeldBy m held) {t : τ} {n : Nat}
    (hn : n = held t) : HeldBy m (Function.update held t n) := by
  rw [hn, Function.update_eq_self]
  exact h

/-- A thread acquires the mutex. -/
theorem HeldBy.acquire {k : Kind} {m m' : State τ} {held : τ → Nat} (h : HeldBy m held) {t : τ}
    {n : Nat} (ha : Mutex.acquire k m t = some m') (hn : n = held t + 1) :
    HeldBy m' (Function.update held t n) := by
  obtain ⟨hself, hother⟩ := depth_acquire ha
  intro u
  by_cases hu : u = t
  · subst hu
    rw [Function.update_self, hself, h u, hn]
  · rw [Function.update_of_ne hu, hother u hu, h u]

/-- A thread that holds the mutex releases it. -/
theorem HeldBy.release {m : State τ} {held : τ → Nat} (h : HeldBy m held) {t : τ} {n : Nat}
    (hn : held t = n + 1) : HeldBy (Mutex.release m) (Function.update held t n) := by
  obtain ⟨hself, hother⟩ := depth_release (m := m) (t := t) (by rw [h t, hn]; exact Nat.succ_pos n)
  intro u
  by_cases hu : u = t
  · subst hu
    rw [Function.update_self, hself, h u, hn]
    rfl
  · rw [Function.update_of_ne hu, hother u hu, h u]

/-- Two threads that hold the mutex are one. -/
theorem HeldBy.unique {m : State τ} {held : τ → Nat} (h : HeldBy m held) {t u : τ}
    (ht : 0 < held t) (hu : 0 < held u) : t = u :=
  holder_unique (by rw [h t]; exact ht) (by rw [h u]; exact hu)

end Mutex
