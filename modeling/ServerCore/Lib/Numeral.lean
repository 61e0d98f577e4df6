/-
  File:      ServerCore/Lib/Numeral.lean
  Subject:   Formatted input of unsigned numbers, as a stream extracts them from its text.

  Blanks are skipped; then comes a numeral, which is digits with or without a sign in front. A
  numeral too large fails, and a minus sign wraps the number around.

  * `Reads`: the texts of which a number is read, and what is behind it.
  * `extract_eq_some_iff`: just these are extracted.
  * `reads_format`: what is formatted is read again.
-/
import Mathlib.Data.List.TakeWhile

namespace Numeral

/-! ## 1. Characters -/

/-- `isspace` of the "C" locale. -/
def isSpace (c : UInt8) : Bool := c = 32 || (9 ≤ c && c ≤ 13)

/-- `isdigit`. -/
def isDigit (c : UInt8) : Bool := 48 ≤ c && c ≤ 57

/-- The number that the digits stand for. -/
def decimal (digits : List UInt8) : Nat :=
  digits.foldl (fun n c => 10 * n + (c.toNat - 48)) 0

/-- The text does not go on with a digit. -/
def Stops (text : List UInt8) : Prop := ∀ c ∈ text.head?, isDigit c = false

theorem not_isSpace_of_isDigit {c : UInt8} (h : isDigit c = true) : isSpace c = false := by
  unfold isDigit at h
  unfold isSpace
  simp only [Bool.and_eq_true, decide_eq_true_eq, UInt8.le_iff_toNat_le] at h
  simp only [Bool.or_eq_false_iff, Bool.and_eq_false_iff, decide_eq_false_iff_not,
    UInt8.le_iff_toNat_le, ← UInt8.toNat_inj]
  have h48 : UInt8.toNat 48 = 48 := rfl
  have h13 : UInt8.toNat 13 = 13 := rfl
  have h32 : UInt8.toNat 32 = 32 := rfl
  omega

/-! ## 2. Extraction -/

/-- The sign in front of a numeral, and what is behind it. -/
def splitSign : List UInt8 → Bool × List UInt8
  | 45 :: text => (true, text)
  | 43 :: text => (false, text)
  | text => (false, text)

/-- The value of a numeral. -/
def signed (bound : Nat) (negative : Bool) (n : Nat) : Nat :=
  if negative then (bound - n) % bound else n

theorem signed_lt {bound n : Nat} (negative : Bool) (hn : n < bound) :
    signed bound negative n < bound := by
  unfold signed
  split
  · exact Nat.mod_lt _ (Nat.zero_lt_of_lt hn)
  · exact hn

/-- **The extraction** of a number below `bound`: its value, and the text behind it. `none`: it
    fails. -/
def extract (bound : Nat) (text : List UInt8) : Option (Fin bound × List UInt8) :=
  let (negative, text) := splitSign (text.dropWhile isSpace)
  let digits := text.takeWhile isDigit
  if h : digits ≠ [] ∧ decimal digits < bound then
    some (⟨signed bound negative (decimal digits), signed_lt negative h.2⟩, text.dropWhile isDigit)
  else none

/-- **The text is read as** the number `value`, with `rest` behind it. -/
inductive Reads (bound : Nat) : List UInt8 → Nat → List UInt8 → Prop where
  | intro (blanks digits rest : List UInt8) (negative : Bool) (sign : List UInt8)
      (hblanks : ∀ c ∈ blanks, isSpace c = true)
      (hsign : sign = [45] ∧ negative = true ∨ (sign = [43] ∨ sign = []) ∧ negative = false)
      (hne : digits ≠ []) (hdigits : ∀ c ∈ digits, isDigit c = true) (hrest : Stops rest)
      (hlt : decimal digits < bound) :
      Reads bound (blanks ++ (sign ++ (digits ++ rest)))
        (signed bound negative (decimal digits)) rest

theorem takeWhile_digits {digits rest : List UInt8} (hdigits : ∀ c ∈ digits, isDigit c = true)
    (hrest : Stops rest) : (digits ++ rest).takeWhile isDigit = digits ∧
      (digits ++ rest).dropWhile isDigit = rest := by
  have hnil : rest.takeWhile isDigit = [] ∧ rest.dropWhile isDigit = rest := by
    cases rest with
    | nil => exact ⟨rfl, rfl⟩
    | cons c rest =>
        have hc : isDigit c = false := hrest c rfl
        rw [List.takeWhile_cons, List.dropWhile_cons, hc]
        exact ⟨rfl, rfl⟩
  rw [List.takeWhile_append_of_pos hdigits, List.dropWhile_append_of_pos hdigits, hnil.1, hnil.2,
    List.append_nil]
  exact ⟨rfl, rfl⟩

/-- What follows the blanks is none. -/
theorem dropWhile_blanks {blanks text : List UInt8} (hblanks : ∀ c ∈ blanks, isSpace c = true)
    (htext : ∀ c ∈ text.head?, isSpace c = false) :
    (blanks ++ text).dropWhile isSpace = text := by
  rw [List.dropWhile_append_of_pos hblanks]
  cases text with
  | nil => rfl
  | cons c text =>
      rw [List.dropWhile_cons, htext c rfl]
      rfl

theorem splitSign_of_isDigit {text : List UInt8} (h : ∀ c ∈ text.head?, isDigit c = true) :
    splitSign text = (false, text) := by
  unfold splitSign
  split
  · exact absurd (h 45 rfl) (by decide)
  · exact absurd (h 43 rfl) (by decide)
  · rfl

/-- What a text that is read gives. -/
theorem Reads.extract {bound value : Nat} {text rest : List UInt8}
    (h : Reads bound text value rest) :
    ∃ hlt : value < bound, extract bound text = some (⟨value, hlt⟩, rest) := by
  cases h with
  | intro blanks digits rest negative sign hblanks hsign hne hdigits hrest hlt =>
      obtain ⟨htake, hdrop⟩ := takeWhile_digits hdigits hrest
      obtain ⟨d, ds, rfl⟩ := List.exists_cons_of_ne_nil hne
      have hd : isDigit d = true := hdigits d List.mem_cons_self
      have hspace : ∀ c ∈ (sign ++ (d :: ds ++ rest)).head?, isSpace c = false := by
        rcases hsign with ⟨rfl, -⟩ | ⟨rfl | rfl, -⟩
        · rintro c ⟨⟩
          decide
        · rintro c ⟨⟩
          decide
        · rintro c ⟨⟩
          exact not_isSpace_of_isDigit hd
      have hsplit : splitSign (sign ++ (d :: ds ++ rest)) = (negative, d :: ds ++ rest) := by
        rcases hsign with ⟨rfl, rfl⟩ | ⟨rfl | rfl, rfl⟩
        · rfl
        · rfl
        · refine splitSign_of_isDigit ?_
          rintro c ⟨⟩
          exact hd
      refine ⟨signed_lt negative hlt, ?_⟩
      unfold Numeral.extract
      simp only [dropWhile_blanks hblanks hspace, hsplit, htake, hdrop]
      exact dif_pos ⟨hne, hlt⟩

/-- The text in front of what `splitSign` leaves. -/
theorem splitSign_spec (text : List UInt8) : ∃ sign, text = sign ++ (splitSign text).2 ∧
    (sign = [45] ∧ (splitSign text).1 = true ∨
      (sign = [43] ∨ sign = []) ∧ (splitSign text).1 = false) := by
  unfold splitSign
  split
  · exact ⟨[45], rfl, .inl ⟨rfl, rfl⟩⟩
  · exact ⟨[43], rfl, .inr ⟨.inl rfl, rfl⟩⟩
  · exact ⟨[], rfl, .inr ⟨.inr rfl, rfl⟩⟩

theorem stops_dropWhile (text : List UInt8) : Stops (text.dropWhile isDigit) := by
  intro c hc
  exact Bool.eq_false_iff.mpr fun h => by
    have := List.head?_dropWhile_not isDigit text
    rw [hc] at this
    simp [h] at this

theorem reads_of_extract {bound : Nat} {value : Fin bound} {text rest : List UInt8}
    (h : extract bound text = some (value, rest)) : Reads bound text value rest := by
  unfold extract at h
  dsimp only at h
  split at h
  · rename_i hok
    obtain ⟨rfl, rfl⟩ := Prod.mk.inj (Option.some.inj h)
    obtain ⟨sign, htext, hsign⟩ := splitSign_spec (text.dropWhile isSpace)
    have hall : text = text.takeWhile isSpace ++ (sign ++
        ((splitSign (text.dropWhile isSpace)).2.takeWhile isDigit ++
          (splitSign (text.dropWhile isSpace)).2.dropWhile isDigit)) := by
      rw [List.takeWhile_append_dropWhile, ← htext, List.takeWhile_append_dropWhile]
    have hreads := Reads.intro (text.takeWhile isSpace) _ _ _ sign
      (fun c hc => List.mem_takeWhile_imp hc) hsign hok.1 (fun c hc => List.mem_takeWhile_imp hc)
      (stops_dropWhile (splitSign (text.dropWhile isSpace)).2) hok.2
    rw [← hall] at hreads
    exact hreads
  · cases h

/-- **What is extracted** is what is read. -/
theorem extract_eq_some_iff {bound : Nat} {value : Fin bound} {text rest : List UInt8} :
    extract bound text = some (value, rest) ↔ Reads bound text value rest := by
  refine ⟨reads_of_extract, fun h => ?_⟩
  obtain ⟨_, hextract⟩ := h.extract
  exact hextract

/-! ## 3. Formatted output -/

/-- The digits of a number. -/
def format (n : Nat) : List UInt8 :=
  if n < 10 then [(48 + n).toUInt8] else format (n / 10) ++ [(48 + n % 10).toUInt8]

theorem toNat_digit {d : Nat} (hd : d < 10) : ((48 + d).toUInt8).toNat = 48 + d := by
  show (48 + d) % 256 = 48 + d
  omega

theorem isDigit_digit {d : Nat} (hd : d < 10) : isDigit (48 + d).toUInt8 = true := by
  unfold isDigit
  simp only [Bool.and_eq_true, decide_eq_true_eq, UInt8.le_iff_toNat_le, toNat_digit hd]
  have h48 : UInt8.toNat 48 = 48 := rfl
  have h57 : UInt8.toNat 57 = 57 := rfl
  omega

theorem decimal_snoc (digits : List UInt8) (c : UInt8) :
    decimal (digits ++ [c]) = 10 * decimal digits + (c.toNat - 48) := by
  unfold decimal
  rw [List.foldl_append]
  rfl

/-- **The digits of a number stand for it.** -/
theorem format_spec (n : Nat) : format n ≠ [] ∧ (∀ c ∈ format n, isDigit c = true) ∧
    decimal (format n) = n := by
  induction n using Nat.strongRecOn with
  | ind n ih =>
      rw [format]
      split
      · rename_i hn
        refine ⟨List.cons_ne_nil _ _, List.forall_mem_singleton.mpr (isDigit_digit hn), ?_⟩
        show 10 * 0 + (((48 + n).toUInt8).toNat - 48) = n
        rw [toNat_digit hn]
        omega
      · rename_i hn
        obtain ⟨hne, hdigits, hdecimal⟩ := ih (n / 10) (by omega)
        have hmod : n % 10 < 10 := Nat.mod_lt n (by decide)
        refine ⟨List.append_ne_nil_of_left_ne_nil hne _, ?_, ?_⟩
        · exact List.forall_mem_append.mpr
            ⟨hdigits, List.forall_mem_singleton.mpr (isDigit_digit hmod)⟩
        · rw [decimal_snoc, hdecimal, toNat_digit hmod]
          omega

/-- **What is formatted is read again.** -/
theorem reads_format {bound n : Nat} (hn : n < bound) {blanks rest : List UInt8}
    (hblanks : ∀ c ∈ blanks, isSpace c = true) (hrest : Stops rest) :
    Reads bound (blanks ++ (format n ++ rest)) n rest := by
  obtain ⟨hne, hdigits, hdecimal⟩ := format_spec n
  have h := Reads.intro blanks (format n) rest false [] hblanks
    (.inr ⟨.inr rfl, rfl⟩) hne hdigits hrest (by rwa [hdecimal])
  rw [hdecimal] at h
  exact h

end Numeral
