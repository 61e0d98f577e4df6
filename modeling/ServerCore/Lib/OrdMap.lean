/-
  File:      ServerCore/Lib/OrdMap.lean
  Subject:   An ordered map from numbers: insert or assign, erase, find, and the entry of the
             largest key.

  The entries are a list in ascending order of their keys, so the order is part of the type and
  two entries never share a key. Proofs speak of `find?` alone: `find?_insert` says what an
  insertion changes, and `rbegin?_eq_some_iff` that the last entry is the one of the largest key.
-/
import Mathlib.Data.List.Basic

/-- A map from numbers to `α`, its entries in ascending order of the keys. -/
structure OrdMap (α : Type _) where
  entries : List (Nat × α)
  sorted : entries.Pairwise fun a b => a.1 < b.1

namespace OrdMap

variable {α : Type _}

/-! ## 1. Sorted entry lists -/

/-- The value of the key `k`. -/
def lookup (k : Nat) : List (Nat × α) → Option α
  | [] => none
  | e :: es => if e.1 = k then some e.2 else lookup k es

/-- The entries with `k` assigned to `v`. -/
def assign (k : Nat) (v : α) : List (Nat × α) → List (Nat × α)
  | [] => [(k, v)]
  | e :: es =>
      if k < e.1 then (k, v) :: e :: es
      else if e.1 = k then (k, v) :: es
      else e :: assign k v es

theorem mem_assign {k : Nat} {v : α} {x : Nat × α} :
    ∀ {es : List (Nat × α)}, x ∈ assign k v es → x = (k, v) ∨ x ∈ es
  | [], h => .inl (List.mem_singleton.mp h)
  | e :: es, h => by
      unfold assign at h
      split at h
      · exact List.mem_cons.mp h
      · split at h
        · rcases List.mem_cons.mp h with h | h
          · exact .inl h
          · exact .inr (List.mem_cons_of_mem e h)
        · rcases List.mem_cons.mp h with rfl | h
          · exact .inr List.mem_cons_self
          · rcases mem_assign h with h | h
            · exact .inl h
            · exact .inr (List.mem_cons_of_mem e h)

theorem sorted_assign {k : Nat} {v : α} :
    ∀ {es : List (Nat × α)}, es.Pairwise (fun a b => a.1 < b.1) →
      (assign k v es).Pairwise fun a b => a.1 < b.1
  | [], _ => List.pairwise_singleton _ _
  | e :: es, h => by
      obtain ⟨he, hes⟩ := List.pairwise_cons.mp h
      unfold assign
      split
      · rename_i hlt
        refine List.pairwise_cons.mpr ⟨fun x hx => ?_, h⟩
        rcases List.mem_cons.mp hx with rfl | hx
        · exact hlt
        · exact Nat.lt_trans hlt (he x hx)
      · split
        · rename_i heq
          exact List.pairwise_cons.mpr ⟨fun x hx => heq ▸ he x hx, hes⟩
        · rename_i hnlt hne
          refine List.pairwise_cons.mpr ⟨fun x hx => ?_, sorted_assign hes⟩
          rcases mem_assign hx with rfl | hx
          · show e.1 < k
            omega
          · exact he x hx

theorem lookup_assign (k : Nat) (v : α) (k' : Nat) :
    ∀ (es : List (Nat × α)), es.Pairwise (fun a b => a.1 < b.1) →
      lookup k' (assign k v es) = if k' = k then some v else lookup k' es
  | [], _ => by
      simp only [assign, lookup]
      by_cases h : k' = k
      · simp [h]
      · simp [h, Ne.symm h]
  | e :: es, hs => by
      obtain ⟨-, hes⟩ := List.pairwise_cons.mp hs
      unfold assign
      split
      · by_cases h : k' = k
        · simp [lookup, h]
        · simp [lookup, h, Ne.symm h]
      · split
        · rename_i heq
          by_cases h : k' = k
          · simp [lookup, h]
          · simp [lookup, h, Ne.symm h, heq]
        · rename_i hne
          simp only [lookup]
          rw [lookup_assign k v k' es hes]
          by_cases h : k' = k
          · simp [h, hne]
          · simp [h]

theorem lookup_eq_some_iff {k : Nat} {v : α} :
    ∀ {es : List (Nat × α)}, es.Pairwise (fun a b => a.1 < b.1) →
      (lookup k es = some v ↔ (k, v) ∈ es)
  | [], _ => by simp [lookup]
  | e :: es, hs => by
      obtain ⟨he, hes⟩ := List.pairwise_cons.mp hs
      unfold lookup
      split
      · rename_i heq
        constructor
        · rintro ⟨⟩
          exact heq ▸ List.mem_cons_self
        · intro h
          rcases List.mem_cons.mp h with h | h
          · rw [← h]
          · exact absurd (he _ h) (by simp [heq])
      · rename_i hne
        rw [lookup_eq_some_iff hes, List.mem_cons]
        constructor
        · exact .inr
        · rintro (h | h)
          · exact absurd (congrArg Prod.fst h).symm hne
          · exact h

theorem lookup_filter_ne (k k' : Nat) : ∀ es : List (Nat × α),
    lookup k' (es.filter fun e => decide (e.1 ≠ k)) = if k' = k then none else lookup k' es
  | [] => by
      simp only [List.filter_nil, lookup]
      split <;> rfl
  | e :: es => by
      rw [List.filter_cons]
      by_cases he : e.1 = k
      · rw [if_neg (by simpa using he), lookup_filter_ne k k' es]
        split
        · rfl
        · rename_i hne
          rw [lookup, if_neg fun h => hne (h.symm.trans he)]
      · rw [if_pos (by simpa using he), lookup, lookup_filter_ne k k' es, lookup]
        by_cases hk : e.1 = k'
        · rw [if_pos hk, if_pos hk, if_neg fun h => he (hk.trans h)]
        · rw [if_neg hk, if_neg hk]

/-! ## 2. The map -/

/-- The empty map. -/
def empty : OrdMap α := ⟨[], .nil⟩

/-- `find(k)` -/
def find? (m : OrdMap α) (k : Nat) : Option α := lookup k m.entries

/-- `m[k] = v` -/
def insert (m : OrdMap α) (k : Nat) (v : α) : OrdMap α :=
  ⟨assign k v m.entries, sorted_assign m.sorted⟩

/-- `erase(k)` -/
def erase (m : OrdMap α) (k : Nat) : OrdMap α :=
  ⟨m.entries.filter fun e => decide (e.1 ≠ k), m.sorted.filter _⟩

/-- `rbegin()`: the entry of the largest key, if there is one. -/
def rbegin? (m : OrdMap α) : Option (Nat × α) := m.entries.getLast?

/-- **An insertion changes its key**, and no other. -/
theorem find?_insert (m : OrdMap α) (k : Nat) (v : α) (k' : Nat) :
    (m.insert k v).find? k' = if k' = k then some v else m.find? k' :=
  lookup_assign k v k' m.entries m.sorted

@[simp] theorem find?_insert_self (m : OrdMap α) (k : Nat) (v : α) :
    (m.insert k v).find? k = some v := by
  rw [find?_insert, if_pos rfl]

theorem find?_insert_of_ne (m : OrdMap α) {k k' : Nat} (v : α) (h : k' ≠ k) :
    (m.insert k v).find? k' = m.find? k' := by
  rw [find?_insert, if_neg h]

/-- **An erasure removes its key**, and no other. -/
theorem find?_erase (m : OrdMap α) (k k' : Nat) :
    (m.erase k).find? k' = if k' = k then none else m.find? k' :=
  lookup_filter_ne k k' m.entries

/-- **The last entry is the one of the largest key.** -/
theorem rbegin?_eq_some_iff {m : OrdMap α} {k : Nat} {v : α} :
    m.rbegin? = some (k, v) ↔ m.find? k = some v ∧ ∀ k' v', m.find? k' = some v' → k' ≤ k := by
  unfold rbegin? find?
  constructor
  · intro h
    obtain ⟨es, hes⟩ := List.getLast?_eq_some_iff.mp h
    refine ⟨(lookup_eq_some_iff m.sorted).mpr (hes ▸ by simp), fun k' v' h' => ?_⟩
    have hmem := (lookup_eq_some_iff m.sorted).mp h'
    have hs := m.sorted
    rw [hes] at hmem hs
    rcases List.mem_append.mp hmem with hmem | hmem
    · exact Nat.le_of_lt ((List.pairwise_append.mp hs).2.2 _ hmem _ (List.mem_singleton_self _))
    · exact Nat.le_of_eq (congrArg Prod.fst (List.mem_singleton.mp hmem))
  · rintro ⟨hk, hmax⟩
    have hmem := (lookup_eq_some_iff m.sorted).mp hk
    cases hl : m.entries.getLast? with
    | none =>
        rw [List.getLast?_eq_none_iff.mp hl] at hmem
        cases hmem
    | some e =>
        obtain ⟨es, hes⟩ := List.getLast?_eq_some_iff.mp hl
        have hlast : m.find? e.1 = some e.2 :=
          (lookup_eq_some_iff m.sorted).mpr (by rw [hes]; simp)
        have hle := hmax e.1 e.2 hlast
        have hs := m.sorted
        rw [hes] at hmem hs
        rcases List.mem_append.mp hmem with hmem | hmem
        · have := (List.pairwise_append.mp hs).2.2 _ hmem _ (List.mem_singleton_self _)
          exact absurd this (Nat.not_lt.mpr hle)
        · rw [List.mem_singleton.mp hmem]

/-- A key above all others becomes the last entry. -/
theorem rbegin?_insert_of_le (m : OrdMap α) {k : Nat} (v : α)
    (h : ∀ k' v', m.find? k' = some v' → k' ≤ k) : (m.insert k v).rbegin? = some (k, v) := by
  refine rbegin?_eq_some_iff.mpr ⟨find?_insert_self m k v, fun k' v' h' => ?_⟩
  rw [find?_insert] at h'
  split at h'
  · rename_i e
    exact Nat.le_of_eq e
  · exact h k' v' h'

/-- An assignment to the largest key keeps it the last entry. -/
theorem rbegin?_insert_self {m : OrdMap α} {k : Nat} {v₀ : α} (h : m.rbegin? = some (k, v₀))
    (v : α) : (m.insert k v).rbegin? = some (k, v) :=
  m.rbegin?_insert_of_le v (rbegin?_eq_some_iff.mp h).2

end OrdMap
