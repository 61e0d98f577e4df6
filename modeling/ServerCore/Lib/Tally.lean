/-
  File:      ServerCore/Lib/Tally.lean
  Subject:   Statistics of keyed samples, kept while the samples arrive.

  A sample is a key and a value, and a key may come again. The keys are kept as a set, of the values
  the sum, the greatest and the least; so the sum is over all samples where the size of the set
  counts each key once.

  * `firsts` and `repeats` part the values by whether the key was new; `card_keys` counts the first,
    `sum_firsts_add_sum_repeats` adds them up.
  * `mean_between_iff`: the mean that divides the sum by the number of keys lies between the least
    and the greatest value exactly where the repeats add up to no more than the first values leave
    below the greatest, and what the sum lost to no more than all have above the least.
-/
import Mathlib.Algebra.Order.Field.Rat
import Mathlib.Algebra.Ring.Nat
import Mathlib.Data.Finset.Card
import Mathlib.Data.Finset.Lattice.Fold
import Mathlib.Tactic.FieldSimp

namespace Tally

/-! ## 1. The greatest and the least value -/

/-- The greatest of `values`, from 0 on. -/
def greatest (values : List Nat) : Nat := values.foldl max 0

/-- The least of `values`, from `top` on. -/
def least (top : Nat) (values : List Nat) : Nat := values.foldl min top

theorem foldl_max_le_iff {bound : Nat} : ∀ (values : List Nat) (v : Nat),
    values.foldl max v ≤ bound ↔ v ≤ bound ∧ ∀ x ∈ values, x ≤ bound
  | [], v => by simp
  | x :: values, v => by
      rw [List.foldl_cons, foldl_max_le_iff values, max_le_iff, List.forall_mem_cons, and_assoc]

theorem le_foldl_min_iff {bound : Nat} : ∀ (values : List Nat) (v : Nat),
    bound ≤ values.foldl min v ↔ bound ≤ v ∧ ∀ x ∈ values, bound ≤ x
  | [], v => by simp
  | x :: values, v => by
      rw [List.foldl_cons, le_foldl_min_iff values, le_min_iff, List.forall_mem_cons, and_assoc]

theorem greatest_le_iff {values : List Nat} {bound : Nat} :
    greatest values ≤ bound ↔ ∀ v ∈ values, v ≤ bound := by
  rw [greatest, foldl_max_le_iff]
  exact and_iff_right (Nat.zero_le _)

theorem le_least_iff {top : Nat} {values : List Nat} {bound : Nat} :
    bound ≤ least top values ↔ bound ≤ top ∧ ∀ v ∈ values, bound ≤ v :=
  le_foldl_min_iff values top

theorem le_greatest {values : List Nat} {v : Nat} (h : v ∈ values) : v ≤ greatest values :=
  greatest_le_iff.mp (Nat.le_refl _) v h

theorem least_le {top : Nat} {values : List Nat} {v : Nat} (h : v ∈ values) :
    least top values ≤ v :=
  (le_least_iff.mp (Nat.le_refl _)).2 v h

/-- The least value is 0 exactly where 0 is one of the values. -/
theorem least_eq_zero_iff {top : Nat} (htop : 0 < top) {values : List Nat} :
    least top values = 0 ↔ 0 ∈ values := by
  rw [← not_iff_not, ← Ne, ← Nat.one_le_iff_ne_zero, le_least_iff]
  constructor
  · rintro ⟨-, h⟩ hmem
    exact absurd (h 0 hmem) (by decide)
  · intro h
    exact ⟨htop, fun v hv => Nat.pos_of_ne_zero fun hzero => h (hzero ▸ hv)⟩

/-! ## 2. First samples and repeats -/

variable {κ : Type _} [DecidableEq κ]

/-- The keys of `samples`. -/
def keys (samples : List (κ × Nat)) : Finset κ := (samples.map Prod.fst).toFinset

/-- The values whose key is new, where `seen` have come before. -/
def firsts (seen : Finset κ) : List (κ × Nat) → List Nat
  | [] => []
  | (k, v) :: samples =>
      if k ∈ seen then firsts seen samples else v :: firsts (insert k seen) samples

/-- The values whose key has come before. -/
def repeats (seen : Finset κ) : List (κ × Nat) → List Nat
  | [] => []
  | (k, v) :: samples =>
      if k ∈ seen then v :: repeats seen samples else repeats (insert k seen) samples

theorem mem_of_mem_firsts {v : Nat} : ∀ {seen : Finset κ} {samples : List (κ × Nat)},
    v ∈ firsts seen samples → v ∈ samples.map Prod.snd
  | _, [], h => h
  | seen, (k, w) :: samples, h => by
      rw [List.map_cons, List.mem_cons]
      unfold firsts at h
      split at h
      · exact .inr (mem_of_mem_firsts h)
      · exact (List.mem_cons.mp h).imp id mem_of_mem_firsts

/-- Where no key comes again there are no repeats. -/
theorem repeats_eq_nil : ∀ {seen : Finset κ} {samples : List (κ × Nat)},
    (samples.map Prod.fst).Nodup → (∀ k ∈ samples.map Prod.fst, k ∉ seen) →
    repeats seen samples = []
  | _, [], _, _ => rfl
  | seen, (k, v) :: samples, hnodup, hnew => by
      obtain ⟨hk, hnodup⟩ := List.nodup_cons.mp hnodup
      obtain ⟨hfirst, hnew⟩ := List.forall_mem_cons.mp hnew
      unfold repeats
      rw [if_neg hfirst]
      refine repeats_eq_nil hnodup fun k' hk' => ?_
      rw [Finset.mem_insert, not_or]
      exact ⟨fun e => hk (e ▸ hk'), hnew k' hk'⟩

/-- **Each sample is a first one or a repeat.** -/
theorem sum_firsts_add_sum_repeats : ∀ (seen : Finset κ) (samples : List (κ × Nat)),
    (firsts seen samples).sum + (repeats seen samples).sum = (samples.map Prod.snd).sum
  | _, [] => rfl
  | seen, (k, v) :: samples => by
      unfold firsts repeats
      split
      · have ih := sum_firsts_add_sum_repeats seen samples
        rw [List.map_cons, List.sum_cons, List.sum_cons]
        omega
      · have ih := sum_firsts_add_sum_repeats (insert k seen) samples
        rw [List.map_cons, List.sum_cons, List.sum_cons]
        omega

theorem card_union_keys : ∀ (seen : Finset κ) (samples : List (κ × Nat)),
    (seen ∪ keys samples).card = seen.card + (firsts seen samples).length
  | seen, [] => by
      unfold keys firsts
      rw [List.map_nil, List.toFinset_nil, Finset.union_empty]
      rfl
  | seen, (k, v) :: samples => by
      have hkeys : seen ∪ keys ((k, v) :: samples) = insert k seen ∪ keys samples := by
        unfold keys
        rw [List.map_cons, List.toFinset_cons, Finset.union_insert, Finset.insert_union]
      rw [hkeys]
      unfold firsts
      split
      · rename_i hk
        rw [Finset.insert_eq_of_mem hk, card_union_keys seen samples]
      · rename_i hk
        rw [card_union_keys (insert k seen) samples, Finset.card_insert_of_notMem hk,
          List.length_cons]
        omega

/-- **The first samples are one for each key.** -/
theorem card_keys (samples : List (κ × Nat)) :
    (keys samples).card = (firsts ∅ samples).length := by
  have h := card_union_keys ∅ samples
  rwa [Finset.empty_union, Finset.card_empty, Nat.zero_add] at h

theorem card_keys_pos {samples : List (κ × Nat)} (hne : samples ≠ []) :
    0 < (keys samples).card := by
  obtain ⟨⟨k, v⟩, rest, rfl⟩ := List.exists_cons_of_ne_nil hne
  exact Finset.card_pos.mpr ⟨k, List.mem_toFinset.mpr List.mem_cons_self⟩

/-! ## 3. The mean -/

/-- What `values` leave below `high`, all together. -/
def slack (high : Nat) (values : List Nat) : Nat := (values.map (high - ·)).sum

/-- What `values` have above `low`, all together. -/
def surplus (low : Nat) (values : List Nat) : Nat := (values.map (· - low)).sum

theorem sum_add_slack {high : Nat} : ∀ {values : List Nat}, (∀ v ∈ values, v ≤ high) →
    values.sum + slack high values = values.length * high
  | [], _ => by simp [slack]
  | v :: values, h => by
      obtain ⟨hv, hrest⟩ := List.forall_mem_cons.mp h
      have ih := sum_add_slack hrest
      unfold slack at ih ⊢
      rw [List.map_cons, List.sum_cons, List.sum_cons, List.length_cons, Nat.succ_mul]
      omega

theorem sum_eq_surplus {low : Nat} : ∀ {values : List Nat}, (∀ v ∈ values, low ≤ v) →
    values.sum = surplus low values + values.length * low
  | [], _ => by simp [surplus]
  | v :: values, h => by
      obtain ⟨hv, hrest⟩ := List.forall_mem_cons.mp h
      have ih := sum_eq_surplus hrest
      unfold surplus at ih ⊢
      rw [List.map_cons, List.sum_cons, List.sum_cons, List.length_cons, Nat.succ_mul]
      omega

/-- A fraction between two whole numbers. -/
theorem div_between_iff {total count low high : Nat} (hcount : 0 < count) :
    ((low : ℚ) ≤ total / count ∧ (total : ℚ) / count ≤ high) ↔
      count * low ≤ total ∧ total ≤ count * high := by
  have hpos : (0 : ℚ) < count := Nat.cast_pos.mpr hcount
  rw [le_div_iff₀ hpos, div_le_iff₀ hpos, mul_comm (low : ℚ), mul_comm (high : ℚ)]
  norm_cast

/-- **The mean by the number of keys**, of a sum that has lost `lost`. -/
theorem mean_between_iff {samples : List (κ × Nat)} (hne : samples ≠ []) {total lost low high : Nat}
    (htotal : total + lost = (samples.map Prod.snd).sum)
    (hlow : ∀ v ∈ samples.map Prod.snd, low ≤ v) (hhigh : ∀ v ∈ samples.map Prod.snd, v ≤ high) :
    ((low : ℚ) ≤ total / (keys samples).card ∧ (total : ℚ) / (keys samples).card ≤ high) ↔
      (repeats ∅ samples).sum ≤ slack high (firsts ∅ samples) + lost ∧
        lost ≤ surplus low (firsts ∅ samples) + (repeats ∅ samples).sum := by
  have hcard := card_keys samples
  have hsum := sum_firsts_add_sum_repeats ∅ samples
  have hfirsts : ∀ v ∈ firsts ∅ samples, v ∈ samples.map Prod.snd := fun v => mem_of_mem_firsts
  have hslack := sum_add_slack fun v hv => hhigh v (hfirsts v hv)
  have hsurplus := sum_eq_surplus fun v hv => hlow v (hfirsts v hv)
  rw [div_between_iff (card_keys_pos hne), hcard]
  omega

end Tally
