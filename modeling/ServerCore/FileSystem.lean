/-
  File:      ServerCore/FileSystem.lean
  Subject:   The part of <filesystem> and <fstream> that FileTransfer.cpp uses: the file system as
             a map from paths to contents, and an output file stream.

  Files and directories are kept by the normal form of their paths, so that all paths of one file
  lead to it. An operation that may fail in the environment takes the failure as an argument, and
  fails as the library says: an `ec` overload reports it, a stream goes bad and ignores what
  follows.
-/
import Mathlib.Logic.Function.Basic
import Mathlib.Algebra.Group.Nat.Defs
import ServerCore.FilePath
import ServerCore.Lib.Seg

namespace ServerCore

open Seg ServerCore.Path

/-! ## 1. The file system -/

/-- The files with their contents, and the directories. -/
structure FileSystem where
  contents : NormalPath → Option (List UInt8)
  directories : NormalPath → Bool

namespace FileSystem

/-- The file `p` -/
def files (fs : FileSystem) (p : Path) : Option (List UInt8) := fs.contents (normal p)

/-- The directory `p` -/
def dirs (fs : FileSystem) (p : Path) : Bool := fs.directories (normal p)

/-- No file, no directory. -/
def empty : FileSystem := ⟨fun _ => none, fun _ => false⟩

/-- `fs::exists(p)` -/
def exists? (fs : FileSystem) (p : Path) : Bool := (fs.files p).isSome || fs.dirs p

/-- `fs::create_directories(p)`, with those on the way. -/
def createDirectories (fs : FileSystem) (p : Path) : FileSystem :=
  { fs with directories := fun k => fs.directories k || (k.below? (normal p)).isSome }

/-- What `k` was called before the directory `p` was renamed to `q`. -/
def movedFrom (p q k : NormalPath) : Option NormalPath :=
  match q.below? k with
  | some below => some (p.join below)
  | none => if (p.below? k).isSome then none else some k

/-- `fs::rename(p, q)`: a file moves with its content; a directory with all that is in it, unless
    something has the name or it would be moved into itself. -/
def rename (fs : FileSystem) (p q : Path) : FileSystem :=
  match fs.files p with
  | some content =>
      { fs with contents :=
          Function.update (Function.update fs.contents (normal q) (some content)) (normal p) none }
  | none =>
      if fs.exists? q = true ∨ IsInside q p then fs
      else
        { contents := fun k => (movedFrom (normal p) (normal q) k).bind fs.contents
          directories := fun k => (movedFrom (normal p) (normal q) k).any fs.directories }

/-- The file `p` holds `content`. -/
def setFile (fs : FileSystem) (p : Path) (content : List UInt8) : FileSystem :=
  { fs with contents := Function.update fs.contents (normal p) (some content) }

@[simp] theorem files_setFile_self (fs : FileSystem) (p : Path) (content : List UInt8) :
    (fs.setFile p content).files p = some content :=
  Function.update_self ..

theorem files_setFile_of_ne (fs : FileSystem) {p q : Path} (content : List UInt8)
    (h : ¬ SameFile q p) : (fs.setFile p content).files q = fs.files q :=
  Function.update_of_ne h _ _

/-- All paths of a file lead to it. -/
theorem files_congr (fs : FileSystem) {p q : Path} (h : SameFile p q) : fs.files p = fs.files q :=
  congrArg fs.contents h

/-- What is neither in `p` nor in `q` keeps its name. -/
theorem movedFrom_of_ne {p q r : Path} (hp : ¬ IsInside r p) (hq : ¬ IsInside r q) :
    movedFrom (normal p) (normal q) (normal r) = some (normal r) := by
  unfold movedFrom
  rw [Option.not_isSome_iff_eq_none.mp hq]
  exact if_neg hp

/-- What is neither renamed nor in what is renamed stays, and so does what is not where it goes. -/
theorem files_rename_of_ne (fs : FileSystem) {p q r : Path} (hp : ¬ IsInside r p)
    (hq : ¬ IsInside r q) : (fs.rename p q).files r = fs.files r := by
  unfold rename
  split
  · exact (Function.update_of_ne (mt isInside_of_sameFile hp) _ _).trans
      (Function.update_of_ne (mt isInside_of_sameFile hq) _ _)
  · split
    · rfl
    · show (movedFrom (normal p) (normal q) (normal r)).bind fs.contents = _
      rw [movedFrom_of_ne hp hq]
      rfl

theorem dirs_rename_of_ne (fs : FileSystem) {p q r : Path} (hp : ¬ IsInside r p)
    (hq : ¬ IsInside r q) : (fs.rename p q).dirs r = fs.dirs r := by
  unfold rename
  split
  · rfl
  · split
    · rfl
    · show (movedFrom (normal p) (normal q) (normal r)).any fs.directories = _
      rw [movedFrom_of_ne hp hq]
      rfl

/-- A directory that is made brings those on the way to it with it, and no others. -/
theorem dirs_createDirectories (fs : FileSystem) (d p : Path) :
    (fs.createDirectories d).dirs p = true ↔ fs.dirs p = true ∨ IsInside d p :=
  Bool.or_eq_true_iff

end FileSystem

/-! ## 2. Output file streams -/

/-- An open `std::ofstream`: its file, its put position, and whether it is good. -/
structure OFStream where
  path : Path
  pos : Nat
  good : Bool

namespace OFStream

/-- `seekp(pos)`: the position is signed, and a negative one is refused. -/
def seekp (s : OFStream) (pos : Nat) : OFStream :=
  if s.good ∧ pos < 2 ^ 63 then { s with pos } else { s with good := false }

/-- The content of a file after a write of `bytes` at `pos`; a gap before `pos` reads zero. -/
def stored (content : List UInt8) (pos : Nat) (bytes : List UInt8) : List UInt8 :=
  if bytes.isEmpty then content else patch 0 content pos bytes

/-- What of `bytes` reaches the file on a device that fails after `fault` of them. -/
def reached (bytes : List UInt8) : Option Nat → List UInt8
  | none => bytes
  | some n => bytes.take n

/-- `write(bytes)`. The stream holds bytes back until it is flushed, so it may notice a failure of
    the device no sooner than then (`late`). -/
def write (s : OFStream) (fs : FileSystem) (bytes : List UInt8) (fault : Option Nat)
    (late : Bool) : OFStream × FileSystem :=
  if s.good then
    let content := (fs.files s.path).getD []
    ({ s with pos := s.pos + bytes.length, good := fault.isNone || late },
      fs.setFile s.path (stored content s.pos (reached bytes fault)))
  else (s, fs)

/-- `put(0); flush();` -/
def put0 (s : OFStream) (fs : FileSystem) (fault : Option Nat) : OFStream × FileSystem :=
  s.write fs [0] fault false

/-- A write stores to the file of the stream, and to no other. -/
theorem files_write_of_ne (s : OFStream) (fs : FileSystem) (bytes : List UInt8)
    (fault : Option Nat) (late : Bool) {q : Path} (h : ¬ SameFile q s.path) :
    (s.write fs bytes fault late).2.files q = fs.files q := by
  unfold write
  split
  · exact fs.files_setFile_of_ne _ h
  · rfl

/-- A write makes no directory. -/
theorem dirs_write (s : OFStream) (fs : FileSystem) (bytes : List UInt8) (fault : Option Nat)
    (late : Bool) : (s.write fs bytes fault late).2.dirs = fs.dirs := by
  unfold write
  split <;> rfl

@[simp] theorem path_seekp (s : OFStream) (pos : Nat) : (s.seekp pos).path = s.path := by
  unfold seekp
  split <;> rfl

@[simp] theorem path_write (s : OFStream) (fs : FileSystem) (bytes : List UInt8)
    (fault : Option Nat) (late : Bool) : (s.write fs bytes fault late).1.path = s.path := by
  unfold write
  split <;> rfl

end OFStream

end ServerCore
