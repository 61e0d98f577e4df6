/-
  File:      ServerCore/Lib/Layout.lean
  Subject:   A record in memory: fields stored one after another at their offsets.

  * `Stored`: bytes and where they go; `storeAll` stores a list of them in order.
  * `LaidOut`: the fields lie inside the memory and apart from one another. Then each of them reads
    back as it was stored (`slice_storeAll`), whatever was there before, and the rest is as it was
    (`slice_storeAll_of_apart`).
  * `readLe_storeAll`: the same for a number in little endian.
-/
import ServerCore.Lib.LittleEndian

namespace Layout

open Seg LittleEndian

variable {α : Type _}

/-- Bytes, and the offset they go to. -/
structure Stored (α : Type _) where
  offset : Nat
  bytes : List α

/-- The offset behind the field. -/
def Stored.stop (f : Stored α) : Nat := f.offset + f.bytes.length

/-- A number of `w` bytes. -/
def Stored.le (offset w n : Nat) : Stored UInt8 := ⟨offset, LittleEndian.le w n⟩

@[simp] theorem Stored.stop_mk (offset : Nat) (bytes : List α) :
    (Stored.mk offset bytes).stop = offset + bytes.length := rfl

@[simp] theorem Stored.offset_le (offset w n : Nat) : (Stored.le offset w n).offset = offset := rfl

@[simp] theorem Stored.stop_le (offset w n : Nat) : (Stored.le offset w n).stop = offset + w := by
  rw [stop, le, length_le]

/-- One field ends before the other begins. -/
def Stored.Apart (f g : Stored α) : Prop := f.stop ≤ g.offset ∨ g.stop ≤ f.offset

/-- The fields are stored, one after another. -/
def storeAll (l : List α) (fields : List (Stored α)) : List α :=
  fields.foldl (fun l f => splice l f.offset f.bytes) l

/-- **The fields lie inside `n` bytes and apart from one another.** -/
structure LaidOut (n : Nat) (fields : List (Stored α)) : Prop where
  inside : ∀ f ∈ fields, f.stop ≤ n
  apart : fields.Pairwise Stored.Apart

theorem length_storeAll : ∀ {fields : List (Stored α)} {l : List α},
    (∀ f ∈ fields, f.stop ≤ l.length) → (storeAll l fields).length = l.length
  | [], _, _ => rfl
  | f :: fields, l, h => by
      obtain ⟨hf, hrest⟩ := List.forall_mem_cons.mp h
      have hlen : (splice l f.offset f.bytes).length = l.length := length_splice hf
      show (storeAll (splice l f.offset f.bytes) fields).length = l.length
      rw [length_storeAll (hlen ▸ hrest), hlen]

/-- **Apart from the fields the memory is as it was.** -/
theorem slice_storeAll_of_apart {i n : Nat} : ∀ {fields : List (Stored α)} {l : List α},
    (∀ f ∈ fields, f.stop ≤ l.length) → (∀ f ∈ fields, f.stop ≤ i ∨ i + n ≤ f.offset) →
    slice (storeAll l fields) i n = slice l i n
  | [], _, _, _ => rfl
  | f :: fields, l, h, hi => by
      obtain ⟨hf, hrest⟩ := List.forall_mem_cons.mp h
      obtain ⟨hfi, hirest⟩ := List.forall_mem_cons.mp hi
      have hlen : (splice l f.offset f.bytes).length = l.length := length_splice hf
      show slice (storeAll (splice l f.offset f.bytes) fields) i n = slice l i n
      rw [slice_storeAll_of_apart (hlen ▸ hrest) hirest, slice_splice_of_disjoint hf hfi.symm]

/-- **Each field reads back as it was stored.** -/
theorem slice_storeAll : ∀ {fields : List (Stored α)} {l : List α}, LaidOut l.length fields →
    ∀ f ∈ fields, slice (storeAll l fields) f.offset f.bytes.length = f.bytes
  | [], _, _, _, hf => nomatch hf
  | g :: fields, l, h, f, hf => by
      obtain ⟨hg, hrest⟩ := List.forall_mem_cons.mp h.inside
      obtain ⟨hapart, hpair⟩ := List.pairwise_cons.mp h.apart
      have hlen : (splice l g.offset g.bytes).length = l.length := length_splice hg
      show slice (storeAll (splice l g.offset g.bytes) fields) f.offset f.bytes.length = f.bytes
      rcases List.mem_cons.mp hf with rfl | hf
      · -- the fields behind leave it alone
        rw [slice_storeAll_of_apart (hlen ▸ hrest) fun g' hg' => (hapart g' hg').symm]
        exact slice_splice_self hg
      · exact slice_storeAll ⟨hlen ▸ hrest, hpair⟩ f hf

/-- A number that was stored. -/
theorem readLe_storeAll {fields : List (Stored UInt8)} {l : List UInt8}
    (h : LaidOut l.length fields) {offset w n : Nat} (hf : Stored.le offset w n ∈ fields) :
    readLe (storeAll l fields) offset w = n % 256 ^ w := by
  have hslice := slice_storeAll h _ hf
  unfold Stored.le at hslice
  dsimp only at hslice
  rw [length_le] at hslice
  rw [readLe, hslice, unLe_le]

end Layout
