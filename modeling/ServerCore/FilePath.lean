/-
  File:      ServerCore/FilePath.lean
  Subject:   Paths as FileTransfer.cpp uses them: the part of std::filesystem::path, and which
             paths name one file.

  A path is the string the code passes on; both '/' and '\' separate. `normal` is its lexical
  normal form: the separators, `.` and `..` resolved. Two paths with one normal form name one file
  (`SameFile`); links, and what a file system folds besides, such as the case of letters, are left
  out.
-/
import ServerCore.Lib.Lexical
import Mathlib.Data.List.TakeWhile

namespace ServerCore

/-! ## 1. Paths -/

/-- A narrow string: its bytes. -/
abbrev Path := List UInt8

namespace Path

/-- '/' and '\' -/
def isSeparator (c : UInt8) : Bool := c == 0x2F || c == 0x5C

/-- A drive letter. -/
def isLetter (c : UInt8) : Bool := (0x41 ≤ c && c ≤ 0x5A) || (0x61 ≤ c && c ≤ 0x7A)

/-- The path without its drive designator `X:`. -/
def dropDrive : Path → Path
  | c :: d :: rest => if isLetter c && d == 0x3A then rest else c :: d :: rest
  | p => p

/-- `path(p).filename()` -/
def filename (p : Path) : Path := ((dropDrive p).reverse.takeWhile fun c => !isSeparator c).reverse

/-- The root of a path: its drive designator and the separators behind it. -/
def rootPath (p : Path) : Path :=
  p.take (p.length - (dropDrive p).length) ++ (dropDrive p).takeWhile isSeparator

/-- `path(p).parent_path()`: the path up to its file name, without the separators between, but
    for those of the root. -/
def parentPath (p : Path) : Path :=
  let relative := (dropDrive p).dropWhile isSeparator
  rootPath p ++ ((relative.reverse.dropWhile fun c => !isSeparator c).dropWhile isSeparator).reverse

/-- A string literal. -/
def ofString (s : String) : Path := s.toUTF8.toList

end Path

/-! ## 2. Strings -/

theorem toList_loop (bytes : ByteArray) (i : Nat) (acc : List UInt8) :
    ByteArray.toList.loop bytes i acc = acc.reverse ++ bytes.data.toList.drop i := by
  induction i, acc using ByteArray.toList.loop.induct bytes with
  | case1 i acc h ih =>
      have hi : i < bytes.data.toList.length := h
      unfold ByteArray.toList.loop
      rw [if_pos h, ih, List.drop_eq_getElem_cons hi, List.reverse_cons, List.append_assoc,
        List.singleton_append]
      congr 2
      exact getElem!_pos bytes.data i h
  | case2 i acc h =>
      unfold ByteArray.toList.loop
      rw [if_neg h, List.drop_eq_nil_of_le (Nat.le_of_not_lt h), List.append_nil]

namespace Path

theorem ofString_ofList (l : List Char) :
    ofString (String.ofList l) = l.flatMap String.utf8EncodeChar := by
  unfold ofString ByteArray.toList
  rw [toList_loop, String.toUTF8_eq_toByteArray, String.toByteArray_ofList]
  unfold List.utf8Encode
  rw [List.toList_data_toByteArray]
  rfl

theorem ofString_bak : ofString ".bak" = [0x2E, 0x62, 0x61, 0x6B] := by
  rw [show ".bak" = String.ofList ['.', 'b', 'a', 'k'] from rfl, ofString_ofList]
  decide

theorem ofString_received :
    ofString "/received_" = 0x2F :: [0x72, 0x65, 0x63, 0x65, 0x69, 0x76, 0x65, 0x64, 0x5F] := by
  rw [show "/received_" = String.ofList ['/', 'r', 'e', 'c', 'e', 'i', 'v', 'e', 'd', '_'] from rfl,
    ofString_ofList]
  decide

theorem ofString_bin : ofString ".bin" = [0x2E, 0x62, 0x69, 0x6E] := by
  rw [show ".bin" = String.ofList ['.', 'b', 'i', 'n'] from rfl, ofString_ofList]
  decide

/-- No digit is a separator. -/
theorem not_isSeparator_of_mem_toString {n : Nat} {b : UInt8} (h : b ∈ ofString (toString n)) :
    isSeparator b = false := by
  rw [Nat.toString_eq_ofList_toDigits, ofString_ofList] at h
  obtain ⟨c, hc, hb⟩ := List.mem_flatMap.mp h
  have hdigit := Nat.isDigit_of_mem_toDigits (by decide) (by decide) hc
  obtain ⟨hlow, hhigh⟩ : 48 ≤ c.val ∧ c.val ≤ 57 := by
    simpa [Char.isDigit] using hdigit
  have hsize : c.utf8Size = 1 := by
    unfold Char.utf8Size
    rw [if_pos (UInt32.le_trans hhigh (by decide))]
  rw [String.utf8EncodeChar_eq_singleton hsize, List.mem_singleton] at hb
  have hlow' : 48 ≤ c.val.toNat := UInt32.le_iff_toNat_le.mp hlow
  have hhigh' : c.val.toNat ≤ 57 := UInt32.le_iff_toNat_le.mp hhigh
  have hval : b.toNat = c.val.toNat := by
    rw [hb, UInt32.toNat_toUInt8]
    omega
  unfold isSeparator
  rw [Bool.or_eq_false_iff, beq_eq_false_iff_ne, beq_eq_false_iff_ne]
  constructor
  · rintro rfl
    change 47 = _ at hval
    omega
  · rintro rfl
    change 92 = _ at hval
    omega

/-! ## 3. The lexical normal form -/

/-- `.` -/
abbrev dot : UInt8 := 0x2E

/-- The drive designator, if there is one. -/
def drive (p : Path) : Path := p.take (p.length - (dropDrive p).length)

/-- A separator stands at the beginning, behind the drive designator. -/
def isRooted (p : Path) : Bool := (dropDrive p).head?.any isSeparator

/-- A path with its separators and its `.` and `..` resolved; the components from the innermost
    out. -/
structure NormalPath where
  drive : Path
  rooted : Bool
  components : List Path
  deriving DecidableEq, Repr

/-- **The lexical normal form.** -/
def normal (p : Path) : NormalPath where
  drive := drive p
  rooted := isRooted p
  components := Lexical.resolve dot (isRooted p) [] ((dropDrive p).splitOnP isSeparator)

/-- **`p` and `q` name one file.** -/
def SameFile (p q : Path) : Prop := normal p = normal q

instance (p q : Path) : Decidable (SameFile p q) := inferInstanceAs (Decidable (_ = _))

/-- The path that goes on from the directory `d` with the components `below`. -/
def NormalPath.join (d : NormalPath) (below : List Path) : NormalPath :=
  { d with components := below ++ d.components }

/-- The components of `k` from the directory `d` on; `none`: `k` is neither `d` nor in it. -/
def NormalPath.below? (d k : NormalPath) : Option (List Path) :=
  let below := k.components.take (k.components.length - d.components.length)
  if k = d.join below ∧ ∀ c ∈ below, ¬ c = [dot, dot] then some below else none

theorem NormalPath.below?_eq_some_iff {d k : NormalPath} {below : List Path} :
    d.below? k = some below ↔ k = d.join below ∧ [dot, dot] ∉ below := by
  unfold below?
  dsimp only
  simp only [List.forall_mem_ne']
  constructor
  · intro h
    split at h
    · rename_i hk
      rwa [Option.some.inj h] at hk
    · nomatch h
  · rintro ⟨rfl, hup⟩
    have htake : (d.join below).components.take ((d.join below).components.length -
        d.components.length) = below := by
      unfold join
      rw [List.length_append, Nat.add_sub_cancel, List.take_left]
    rw [htake, if_pos ⟨rfl, hup⟩]

/-- **`p` is the directory `d` or in it**, at any depth. -/
def IsInside (p d : Path) : Prop := ((normal d).below? (normal p)).isSome = true

instance (p d : Path) : Decidable (IsInside p d) := inferInstanceAs (Decidable (_ = _))

theorem isInside_of_sameFile {p d : Path} (h : SameFile p d) : IsInside p d :=
  Option.isSome_iff_exists.mpr ⟨[], NormalPath.below?_eq_some_iff.mpr ⟨h, List.not_mem_nil⟩⟩

/-- **`p` is an entry of the directory `d`**: directly in it, under a proper name. -/
def IsChildOf (p d : Path) : Prop :=
  ∃ name, Lexical.Proper dot name ∧
    normal p = { normal d with components := name :: (normal d).components }

theorem IsChildOf.isInside {p d : Path} (h : IsChildOf p d) : IsInside p d := by
  obtain ⟨name, hproper, hnormal⟩ := h
  refine Option.isSome_iff_exists.mpr ⟨[name], NormalPath.below?_eq_some_iff.mpr ⟨hnormal, ?_⟩⟩
  rw [List.mem_singleton]
  exact Ne.symm hproper.2.2

/-- A directory is not in its entries. -/
theorem IsChildOf.not_isInside {p d : Path} (h : IsChildOf p d) : ¬ IsInside d p := by
  obtain ⟨name, -, hnormal⟩ := h
  intro hinside
  obtain ⟨below, hbelow⟩ := Option.isSome_iff_exists.mp hinside
  obtain ⟨hd, -⟩ := NormalPath.below?_eq_some_iff.mp hbelow
  have hlen := congrArg (fun k => k.components.length) hd
  rw [hnormal] at hlen
  unfold NormalPath.join at hlen
  simp only [List.length_append, List.length_cons] at hlen
  omega

/-- What is in a directory is in all that this one is in. -/
theorem IsInside.trans {p q d : Path} (h : IsInside p q) (h' : IsInside q d) : IsInside p d := by
  obtain ⟨below, hbelow⟩ := Option.isSome_iff_exists.mp h
  obtain ⟨below', hbelow'⟩ := Option.isSome_iff_exists.mp h'
  obtain ⟨hp, hup⟩ := NormalPath.below?_eq_some_iff.mp hbelow
  obtain ⟨hq, hup'⟩ := NormalPath.below?_eq_some_iff.mp hbelow'
  refine Option.isSome_iff_exists.mpr ⟨below ++ below', NormalPath.below?_eq_some_iff.mpr ⟨?_, ?_⟩⟩
  · rw [hp, hq]
    exact congrArg (fun cs => { normal d with components := cs }) (List.append_assoc ..).symm
  · exact fun hmem => (List.mem_append.mp hmem).elim hup hup'

theorem not_isLetter_of_isSeparator {s : UInt8} (h : isSeparator s = true) :
    isLetter s = false ∧ (s == 0x3A) = false := by
  unfold isSeparator at h
  rw [Bool.or_eq_true, beq_iff_eq, beq_iff_eq] at h
  rcases h with rfl | rfl <;> decide

/-- What follows a separator does not change the drive designator. -/
theorem dropDrive_append (p : Path) {s : UInt8} (hs : isSeparator s = true) (q : Path) :
    dropDrive (p ++ s :: q) = dropDrive p ++ s :: q := by
  obtain ⟨hletter, hcolon⟩ := not_isLetter_of_isSeparator hs
  cases p with
  | nil =>
      cases q with
      | nil => rfl
      | cons c q =>
          unfold dropDrive
          rw [List.nil_append]
          dsimp only
          rw [hletter, Bool.false_and, if_neg Bool.false_ne_true]
  | cons c p =>
      cases p with
      | nil =>
          unfold dropDrive
          rw [List.singleton_append]
          dsimp only
          rw [hcolon, Bool.and_false, if_neg Bool.false_ne_true]
      | cons d p =>
          unfold dropDrive
          rw [List.cons_append, List.cons_append]
          dsimp only
          split <;> rfl

theorem length_dropDrive_le (p : Path) : (dropDrive p).length ≤ p.length := by
  unfold dropDrive
  split
  · split
    · exact Nat.le_add_right _ 2
    · exact Nat.le_refl _
  · exact Nat.le_refl _

theorem drive_append (p : Path) {s : UInt8} (hs : isSeparator s = true) (q : Path) :
    drive (p ++ s :: q) = drive p := by
  have hle := length_dropDrive_le p
  unfold drive
  rw [dropDrive_append p hs, List.length_append, List.length_append, Nat.add_sub_add_right,
    List.take_append_of_le_length (Nat.sub_le _ _)]

/-- A path that goes on behind a directory: the components follow those of the directory. -/
theorem normal_append {p : Path} (hp : dropDrive p ≠ []) {s : UInt8} (hs : isSeparator s = true)
    (q : Path) : normal (p ++ s :: q) = { normal p with
      components := Lexical.resolve dot (isRooted p) (normal p).components
        (q.splitOnP isSeparator) } := by
  have hrooted : isRooted (p ++ s :: q) = isRooted p := by
    unfold isRooted
    rw [dropDrive_append p hs, List.head?_append_of_ne_nil _ hp]
  unfold normal
  rw [hrooted, drive_append p hs, dropDrive_append p hs, List.splitOnP_append_cons _ _ hs,
    Lexical.resolve_append]

/-- Behind a bare drive designator, or nothing, a separator makes a rooted path. -/
theorem normal_append_of_nil {p : Path} (hp : dropDrive p = []) {s : UInt8}
    (hs : isSeparator s = true) (q : Path) : (normal (p ++ s :: q)).rooted ≠ (normal p).rooted := by
  unfold normal isRooted
  dsimp only
  rw [dropDrive_append p hs, hp]
  simp [hs]

/-- Separators at the end do not matter. -/
theorem normal_trailing {p : Path} (hp : dropDrive p ≠ []) {seps : Path}
    (h : ∀ s ∈ seps, isSeparator s = true) : normal (p ++ seps) = normal p := by
  cases seps with
  | nil => rw [List.append_nil]
  | cons s seps =>
      have hs := h s (List.mem_cons_self ..)
      have hempty := Lexical.resolve_split_trailing dot (isRooted p) (normal p).components []
        seps fun t ht => h t (List.mem_cons_of_mem _ ht)
      rw [normal_append hp hs, ← List.nil_append seps, hempty, List.splitOnP_nil]
      exact congrArg (fun cs => { normal p with components := cs })
        (Lexical.push_nil dot (isRooted p) (normal p).components)

/-! ## 4. Entries of a directory -/

/-- **`p` is written as an entry of `d`**: a directory that is `d`, a separator and a proper name
    without separators. -/
def IsEntry (p d : Path) : Prop :=
  ∃ dir s name, p = dir ++ s :: name ∧ isSeparator s = true ∧ (∀ c ∈ name, isSeparator c = false) ∧
    Lexical.Proper dot name ∧ dropDrive dir ≠ [] ∧ normal dir = normal d

theorem IsEntry.isChildOf {p d : Path} (h : IsEntry p d) : IsChildOf p d := by
  obtain ⟨dir, s, name, rfl, hs, hname, hproper, hdir, hnormal⟩ := h
  refine ⟨name, hproper, ?_⟩
  rw [normal_append hdir hs, List.splitOnP_eq_singleton hname, ← hnormal]
  exact congrArg (fun cs => { normal dir with components := cs })
    (Lexical.push_proper dot hproper)

theorem bak_free : ∀ c ∈ ofString ".bak", isSeparator c = false := by
  rw [ofString_bak]
  simp [isSeparator]

/-- A name with more than two bytes is proper. -/
theorem proper_of_length {name : Path} (h : 2 < name.length) : Lexical.Proper dot name := by
  refine ⟨?_, ?_, ?_⟩
  all_goals
    rintro rfl
    exact absurd h (by decide)

theorem proper_append_bak (name : Path) : Lexical.Proper dot (name ++ ofString ".bak") := by
  refine proper_of_length ?_
  rw [ofString_bak, List.length_append]
  exact Nat.lt_of_lt_of_le (by decide) (Nat.le_add_left 4 _)

/-- A `.bak` at the end does not change the drive designator. -/
theorem dropDrive_append_bak (p : Path) :
    dropDrive (p ++ ofString ".bak") = dropDrive p ++ ofString ".bak" := by
  rw [ofString_bak]
  match p with
  | [] => rfl
  | [c] =>
      show (if isLetter c && false then _ else _) = _
      rw [Bool.and_false, if_neg Bool.false_ne_true]
      rfl
  | c :: d :: rest =>
      show (if isLetter c && d == 0x3A then _ else _) =
        (if isLetter c && d == 0x3A then _ else _) ++ _
      split <;> rfl

/-- **No file is its own backup.** -/
theorem not_sameFile_append_bak (p : Path) : ¬ SameFile (p ++ ofString ".bak") p := by
  intro h
  have hrooted : isRooted (p ++ ofString ".bak") = isRooted p := congrArg NormalPath.rooted h
  have hcomponents := congrArg NormalPath.components h
  obtain ⟨pre, last, hsplit, hsplitBak⟩ := Lexical.exists_split_concat isSeparator (dropDrive p)
  unfold normal at hcomponents
  dsimp only at hcomponents
  rw [hrooted, dropDrive_append_bak, hsplit, hsplitBak _ bak_free, Lexical.resolve_concat,
    Lexical.resolve_concat, Lexical.push_proper dot (proper_append_bak last)] at hcomponents
  have hlast := (Lexical.push_eq_cons_iff dot (proper_append_bak last)).mp hcomponents.symm
  have hlen := congrArg List.length hlast
  rw [ofString_bak, List.length_append] at hlen
  exact absurd hlen (Nat.ne_of_lt (Nat.lt_add_of_pos_right (by decide)))

/-- The backup of an entry is one. -/
theorem IsEntry.backup {p d : Path} (h : IsEntry p d) : IsEntry (p ++ ofString ".bak") d := by
  obtain ⟨dir, s, name, rfl, hs, hname, hproper, hdir, hnormal⟩ := h
  refine ⟨dir, s, name ++ ofString ".bak", by rw [List.append_assoc]; rfl, hs,
    List.forall_mem_append.mpr ⟨hname, bak_free⟩, proper_append_bak name, hdir, hnormal⟩

theorem drive_append_dropDrive (p : Path) : drive p ++ dropDrive p = p := by
  unfold drive dropDrive
  split
  · rename_i c d rest
    split
    · rw [show (c :: d :: rest).length - rest.length = 2 by
        rw [List.length_cons, List.length_cons]
        omega]
      rfl
    · rw [Nat.sub_self]
      rfl
  · rw [Nat.sub_self]
    rfl

/-- `parentPath` of an entry, behind the drive designator of its directory. -/
theorem parentPath_eq (dir : Path) {s : UInt8} (name : Path) (hs : isSeparator s = true) :
    parentPath (dir ++ s :: name) = drive dir ++
      (dropDrive dir ++ s :: name).takeWhile isSeparator ++
      ((((dropDrive dir ++ s :: name).dropWhile isSeparator).reverse.dropWhile
        fun c => !isSeparator c).dropWhile isSeparator).reverse := by
  unfold parentPath rootPath
  rw [← drive_append dir hs name, dropDrive_append dir hs]
  unfold drive
  rw [dropDrive_append dir hs]

theorem not_isSeparator_reverse {name : Path} (hname : ∀ c ∈ name, isSeparator c = false) :
    ∀ c ∈ name.reverse, (!isSeparator c) = true := by
  intro c hc
  rw [hname c (List.mem_reverse.mp hc)]
  rfl

/-- The directory is a root: it stays, with the separator. -/
theorem parentPath_of_root {dir : Path} (hall : ∀ c ∈ dropDrive dir, isSeparator c = true)
    {s : UInt8} {name : Path} (hs : isSeparator s = true)
    (hname : ∀ c ∈ name, isSeparator c = false) : parentPath (dir ++ s :: name) = dir ++ [s] := by
  have htake : name.takeWhile isSeparator = [] := by
    cases name with
    | nil => rfl
    | cons c name => exact List.takeWhile_cons_of_neg (by
        rw [hname c (List.mem_cons_self ..)]
        decide)
  have hdrop : name.dropWhile isSeparator = name := by
    cases name with
    | nil => rfl
    | cons c name => exact List.dropWhile_cons_of_neg (by
        rw [hname c (List.mem_cons_self ..)]
        decide)
  rw [parentPath_eq dir name hs, List.takeWhile_append_of_pos hall,
    List.takeWhile_cons_of_pos hs, htake, List.dropWhile_append_of_pos hall,
    List.dropWhile_cons_of_pos hs, hdrop,
    List.dropWhile_eq_nil_iff.mpr (not_isSeparator_reverse hname), List.dropWhile_nil,
    List.reverse_nil, List.append_nil, ← List.append_assoc, drive_append_dropDrive]

/-- A path behind its drive designator that is no root: its separators, then the rest, which
    begins with another byte. -/
theorem exists_lead {bytes : Path} {c : UInt8} (hc : c ∈ bytes) (hcs : isSeparator c = false) :
    ∃ lead c' rest, bytes = lead ++ c' :: rest ∧ (∀ t ∈ lead, isSeparator t = true) ∧
      ¬ isSeparator c' = true := by
  obtain ⟨c', rest, hrest⟩ : ∃ c' rest, bytes.dropWhile isSeparator = c' :: rest := by
    refine List.exists_cons_of_ne_nil fun hnil => ?_
    rw [List.dropWhile_eq_nil_iff.mp hnil c hc] at hcs
    cases hcs
  refine ⟨bytes.takeWhile isSeparator, c', rest, ?_, fun t ht => List.mem_takeWhile_imp ht, ?_⟩
  · rw [← hrest, List.takeWhile_append_dropWhile]
  · have hne : bytes.dropWhile isSeparator ≠ [] := by
      rw [hrest]
      exact List.cons_ne_nil _ _
    simpa [hrest] using List.head_dropWhile_not isSeparator hne

/-- The directory is no root: it loses its last separators. -/
theorem parentPath_of_dir {dir : Path} {c : UInt8} (hc : c ∈ dropDrive dir)
    (hcs : isSeparator c = false) {s : UInt8} {name : Path} (hs : isSeparator s = true)
    (hname : ∀ c ∈ name, isSeparator c = false) :
    ∃ seps, (∀ t ∈ seps, isSeparator t = true) ∧
      dir = parentPath (dir ++ s :: name) ++ seps := by
  obtain ⟨lead, c', rest, hsplit, hlead, hneg⟩ := exists_lead hc hcs
  have hmore := List.takeWhile_append_dropWhile (p := isSeparator) (l := (c' :: rest).reverse)
  refine ⟨((c' :: rest).reverse.takeWhile isSeparator).reverse, fun t ht =>
    List.mem_takeWhile_imp (List.mem_reverse.mp ht), ?_⟩
  have hlast : (name.reverse ++ s :: (c' :: rest).reverse).dropWhile (fun c => !isSeparator c) =
      s :: (c' :: rest).reverse := by
    rw [List.dropWhile_append_of_pos (not_isSeparator_reverse hname)]
    exact List.dropWhile_cons_of_neg (by rw [hs]; decide)
  have htake : (lead ++ c' :: rest ++ s :: name).takeWhile isSeparator = lead := by
    rw [List.append_assoc, List.takeWhile_append_of_pos hlead, List.cons_append,
      List.takeWhile_cons_of_neg hneg, List.append_nil]
  have hdrop : (lead ++ c' :: rest ++ s :: name).dropWhile isSeparator =
      c' :: rest ++ s :: name := by
    rw [List.append_assoc, List.dropWhile_append_of_pos hlead, List.cons_append,
      List.dropWhile_cons_of_neg hneg]
  have hreverse : (c' :: rest ++ s :: name).reverse =
      name.reverse ++ s :: (c' :: rest).reverse := by
    rw [List.reverse_append, List.reverse_cons, List.append_assoc, List.singleton_append]
  rw [parentPath_eq dir name hs, hsplit, htake, hdrop, hreverse, hlast,
    List.dropWhile_cons_of_pos hs, List.append_assoc, ← List.reverse_append, hmore,
    List.reverse_reverse, List.append_assoc, ← hsplit, drive_append_dropDrive]

/-- `parentPath` of an entry: the directory with the separator where the directory is a root, or
    else without its last separators. -/
theorem parentPath_cases (dir : Path) {s : UInt8} {name : Path} (hs : isSeparator s = true)
    (hname : ∀ c ∈ name, isSeparator c = false) :
    parentPath (dir ++ s :: name) = dir ++ [s] ∨
      ∃ seps, (∀ t ∈ seps, isSeparator t = true) ∧
        dir = parentPath (dir ++ s :: name) ++ seps ∧
        ∃ c ∈ dropDrive dir, isSeparator c = false := by
  by_cases hall : ∀ c ∈ dropDrive dir, isSeparator c = true
  · exact .inl (parentPath_of_root hall hs hname)
  · obtain ⟨c, hc, hcs⟩ : ∃ c ∈ dropDrive dir, isSeparator c = false := by
      simpa using hall
    obtain ⟨seps, hseps, hdir⟩ := parentPath_of_dir hc hcs hs hname
    exact .inr ⟨seps, hseps, hdir, c, hc, hcs⟩

/-- **The directory of an entry** is the one it is written with, up to separators at the end. -/
theorem parentPath_of_entry {dir : Path} {s : UInt8} {name : Path} (hs : isSeparator s = true)
    (hname : ∀ c ∈ name, isSeparator c = false) (hdir : dropDrive dir ≠ []) :
    dropDrive (parentPath (dir ++ s :: name)) ≠ [] ∧
      normal (parentPath (dir ++ s :: name)) = normal dir := by
  rcases parentPath_cases dir hs hname with h | ⟨seps, hseps, h, c, hc, hcs⟩
  · rw [h]
    refine ⟨?_, normal_trailing hdir (List.forall_mem_singleton.mpr hs)⟩
    rw [dropDrive_append dir hs []]
    exact List.append_ne_nil_of_left_ne_nil hdir _
  · have hne : dropDrive (parentPath (dir ++ s :: name)) ≠ [] := by
      intro hempty
      cases seps with
      | nil =>
          rw [List.append_nil] at h
          rw [← h] at hempty
          exact hdir hempty
      | cons t seps =>
          rw [h, dropDrive_append _ (hseps t (List.mem_cons_self ..)), hempty] at hc
          rw [hseps c hc] at hcs
          nomatch hcs
    refine ⟨hne, ?_⟩
    have htrailing := normal_trailing hne hseps
    rw [← h] at htrailing
    exact htrailing.symm


/-- A path with a separator has a directory. -/
theorem parentPath_ne_nil {p : Path} {s : UInt8} (hp : s ∈ dropDrive p)
    (hs : isSeparator s = true) : parentPath p ≠ [] := by
  unfold parentPath rootPath
  by_cases hall : ∀ c ∈ dropDrive p, isSeparator c = true
  · -- the separators are the root
    rw [List.takeWhile_eq_self_iff.mpr hall]
    exact List.append_ne_nil_of_left_ne_nil
      (List.append_ne_nil_of_right_ne_nil _ (List.ne_nil_of_mem hp)) _
  · obtain ⟨c, hc, hcs⟩ : ∃ c ∈ dropDrive p, isSeparator c = false := by
      simpa using hall
    obtain ⟨lead, c', rest, hsplit, hlead, hneg⟩ := exists_lead hc hcs
    rw [hsplit] at hp ⊢
    rw [List.takeWhile_append_of_pos hlead, List.takeWhile_cons_of_neg hneg, List.append_nil,
      List.dropWhile_append_of_pos hlead, List.dropWhile_cons_of_neg hneg]
    rcases List.mem_append.mp hp with hp | hp
    · exact List.append_ne_nil_of_left_ne_nil
        (List.append_ne_nil_of_right_ne_nil _ (List.ne_nil_of_mem hp)) _
    · -- what is in front of the last separator begins with `c'`
      refine List.append_ne_nil_of_right_ne_nil _ fun hnil => ?_
      have hseps := List.dropWhile_eq_nil_iff.mp (List.reverse_eq_nil_iff.mp hnil)
      have hne : (c' :: rest).reverse.dropWhile (fun c => !isSeparator c) ≠ [] := fun hnone => by
        have hs' := List.dropWhile_eq_nil_iff.mp hnone s (List.mem_reverse.mpr hp)
        rw [hs] at hs'
        nomatch hs'
      have hlast := List.IsSuffix.getLast (List.dropWhile_suffix fun c => !isSeparator c) hne
      rw [List.getLast_reverse, List.head_cons] at hlast
      have hmem := List.getLast_mem hne
      rw [hlast] at hmem
      exact hneg (hseps c' hmem)

end Path

end ServerCore
