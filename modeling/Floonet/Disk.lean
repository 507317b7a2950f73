import Floonet.Concurrent.Lockstep
import Floonet.Lines
import Mathlib.Data.List.DropRight

/-!
# Files, their paths and their modes

The calls to the file system that the setup wizard makes, on a disk whose
files are told apart by the text of their paths.  Any call can fail, and a
write that fails can have written a part.  A file is hidden from everyone but
its owner by its own mode or by the mode of its directory.
-/

namespace Floonet

open Concurrent Streams Text

/-! ## Paths -/

namespace Path

/-- The root or the current directory in front of a path, and the rest. -/
def front : List Char → List Char × List Char
  | '/' :: body => (['/'], body)
  | ['.'] => (['.'], [])
  | '.' :: '/' :: body => (['.'], '/' :: body)
  | path => ([], path)

/-- The parts of a path that are no component of it. -/
def isNoise (segment : List Char) : Bool :=
  segment.isEmpty || segment == ['.']

/-- `Path::parent`. -/
def parent (path : String) : Option String :=
  let (start, body) := front path.toList
  match (body.splitOn '/').rdropWhile isNoise with
  | [] => if start = ['.'] then some "" else none
  | components => some (.ofList (start ++
      ['/'].intercalate (components.dropLast.rdropWhile isNoise)))

/-- `Path::join` with a relative name. -/
def join (dir name : String) : String :=
  if dir.isEmpty || dir.toList.getLast? == some '/' then dir ++ name
  else dir ++ "/" ++ name

/-- The directory in which a file lies. -/
def dirOf (path : String) : String :=
  match parent path with
  | some dir => if dir.isEmpty then "." else dir
  | none => "."

/-- A name is one component. -/
structure IsName (name : List Char) : Prop where
  noSlash : '/' ∉ name
  noNoise : isNoise name = false

theorem front_append {dir : List Char} (given : dir ≠ [])
    (rest : List Char) :
    front (dir ++ '/' :: rest) = ((front dir).1, (front dir).2 ++ '/' :: rest) := by
  cases dir with
  | nil => exact absurd rfl given
  | cons c chars =>
      by_cases root : c = '/'
      · subst root
        rfl
      · by_cases current : c = '.'
        · subst current
          cases chars with
          | nil => rfl
          | cons d chars =>
              by_cases slash : d = '/'
              · subst slash
                rfl
              · simp [front, slash]
        · simp [front, root, current]

theorem front_eq (path : List Char) : (front path).1 ++ (front path).2 = path := by
  unfold front
  split <;> rfl

theorem parent_append {dir sub name : List Char} (given : dir ≠ [])
    (isSub : IsName sub) (isName : IsName name) :
    parent (.ofList (dir ++ '/' :: sub ++ '/' :: name)) =
      some (.ofList (dir ++ '/' :: sub)) := by
  have long : dir ++ '/' :: sub ≠ [] := by simp
  have kept : ∀ {segments : List (List Char)} {last : List Char},
      isNoise last = false → (segments ++ [last]).rdropWhile isNoise =
        segments ++ [last] := fun proper =>
    List.rdropWhile_concat_neg _ _ _ (Bool.eq_false_iff.mp proper)
  have split : ((front dir).2 ++ '/' :: sub ++ '/' :: name).splitOn '/' =
      ((front dir).2.splitOn '/' ++ [sub]) ++ [name] := by
    rw [List.splitOn_append_cons_self, List.splitOn_append_cons_self,
      List.splitOn_eq_singleton isSub.noSlash,
      List.splitOn_eq_singleton isName.noSlash]
  have joined : ['/'].intercalate ((front dir).2.splitOn '/' ++ [sub]) =
      (front dir).2 ++ '/' :: sub := by
    rw [← List.splitOn_eq_singleton isSub.noSlash,
      ← List.splitOn_append_cons_self, List.intercalate_splitOn]
  unfold parent
  rw [String.toList_ofList, front_append long, front_append given]
  dsimp only
  rw [split, kept isName.noNoise]
  have shape : ∃ first later, ((front dir).2.splitOn '/' ++ [sub]) ++ [name] =
      first :: later := by
    cases (front dir).2.splitOn '/' with
    | nil => exact ⟨_, _, rfl⟩
    | cons first later => exact ⟨_, _, rfl⟩
  obtain ⟨first, later, isCons⟩ := shape
  rw [isCons]
  dsimp only
  rw [← isCons, List.dropLast_concat, kept isSub.noNoise, joined,
    ← List.append_assoc, front_eq]

theorem IsName.last {name : List Char} (isName : IsName name) :
    ∃ c, name.getLast? = some c ∧ c ≠ '/' := by
  cases last : name.getLast? with
  | none =>
      have noise := isName.noNoise
      rw [List.getLast?_eq_none_iff.mp last] at noise
      cases noise
  | some c =>
      refine ⟨c, rfl, ?_⟩
      rintro rfl
      exact isName.noSlash (List.mem_of_getLast? last)

theorem join_toList {dir name : String} {c : Char}
    (last : dir.toList.getLast? = some c) (plain : c ≠ '/') :
    (join dir name).toList = dir.toList ++ '/' :: name.toList := by
  have slash : "/".toList = ['/'] := toList_eq rfl
  have given : dir.isEmpty = false := by
    rw [isEmpty_eq_false]
    rintro rfl
    cases last
  have other : (some c == some '/') = false := beq_false_of_ne fun same =>
    plain (Option.some.inj same)
  unfold join
  rw [given, last, other]
  simp [String.toList_append, slash]

theorem join_last {name : String} (isName : IsName name.toList)
    (dir : String) : ∃ c, (join dir name).toList.getLast? = some c ∧ c ≠ '/' := by
  obtain ⟨c, last, plain⟩ := isName.last
  refine ⟨c, ?_, plain⟩
  unfold join
  split
  · rw [String.toList_append, List.getLast?_append, last]
    rfl
  · rw [String.toList_append, List.getLast?_append, last]
    rfl

/-- A file in a subdirectory lies there. -/
theorem dirOf_join {dir sub name : String} {c : Char}
    (last : dir.toList.getLast? = some c) (plain : c ≠ '/')
    (isSub : IsName sub.toList) (isName : IsName name.toList) :
    dirOf (join (join dir sub) name) = join dir sub := by
  obtain ⟨d, subLast, subPlain⟩ := join_last isSub dir
  have given : dir.toList ≠ [] := by
    intro empty
    rw [empty] at last
    cases last
  have isJoin : join dir sub = .ofList (dir.toList ++ '/' :: sub.toList) := by
    rw [← join_toList last plain, String.ofList_toList]
  have isPath : join (join dir sub) name =
      .ofList (dir.toList ++ '/' :: sub.toList ++ '/' :: name.toList) := by
    rw [← join_toList last plain, ← join_toList subLast subPlain,
      String.ofList_toList]
  have nonempty : (join dir sub).isEmpty = false := by
    rw [isEmpty_eq_false]
    intro empty
    rw [empty] at subLast
    cases subLast
  unfold dirOf
  rw [isPath, parent_append given isSub isName, ← isJoin]
  dsimp only
  rw [nonempty]
  rfl

theorem join_length (dir name : String) :
    dir.toList.length + name.toList.length ≤ (join dir name).toList.length := by
  unfold join
  split
  · rw [String.toList_append, List.length_append]
  · rw [String.toList_append, String.toList_append, List.length_append,
      List.length_append]
    omega

theorem join_ne {dir name : String} {c : Char}
    (last : dir.toList.getLast? = some c) (plain : c ≠ '/') :
    join dir name ≠ dir := by
  intro same
  have lengths := congrArg (fun path => path.toList.length) same
  rw [join_toList last plain, List.length_append, List.length_cons] at lengths
  omega

end Path

/-! ## The disk -/

/-- A file with its permission bits. -/
structure File where
  contents : List UInt8
  mode : Nat
deriving DecidableEq

/-- The files and the modes of the directories, by their paths. -/
structure Disk where
  file : String → Option File
  dir : String → Option Nat

/-- The modes that the process gives to what it creates. -/
structure Umask where
  fileMode : Nat
  dirMode : Nat

/-- A call fails for a reason; a write may have written so many bytes. -/
structure Fault where
  reason : IoError
  written : Option Nat

/-- The calls to the file system. -/
inductive FileCall where
  | createDirAll (dir : String)
  | setPermissions (path : String) (mode : Nat)
  | removeFile (path : String)
  | write (path : String) (contents : List UInt8)

namespace Disk

variable (umask : Umask) (disk : Disk)

/-- The file is created, or emptied with the mode it has, and filled. -/
def filled (path : String) (contents : List UInt8) : Disk :=
  let mode := ((disk.file path).map File.mode).getD umask.fileMode
  { disk with file := Function.update disk.file path (some ⟨contents, mode⟩) }

/-- The disk after a call that succeeds. -/
def succeed : FileCall → Disk
  | .createDirAll dir =>
      let mode := (disk.dir dir).getD umask.dirMode
      { disk with dir := Function.update disk.dir dir (some mode) }
  | .setPermissions path mode =>
      { file := Function.update disk.file path
          ((disk.file path).map fun file => { file with mode := mode })
        dir := Function.update disk.dir path
          ((disk.dir path).map fun _ => mode) }
  | .removeFile path =>
      { disk with file := Function.update disk.file path none }
  | .write path contents => disk.filled umask path contents

/-- The disk after a call that fails: some of a write may have been done. -/
def fail (written : Option Nat) : FileCall → Disk
  | .write path contents =>
      match written with
      | some count => disk.filled umask path (contents.take count)
      | none => disk
  | _ => disk

end Disk

/-- A disk and what happens to the next calls; those behind them succeed. -/
structure Machine where
  disk : Disk
  faults : List (Option Fault)

/-- The answers of the calls. -/
abbrev FileAnswer (_ : FileCall) := Except IoError Unit

/-- A call succeeds unless the machine has a fault for it. -/
def FileCall.exec (umask : Umask) (call : FileCall) (machine : Machine) :
    Except IoError Unit × Machine :=
  match machine.faults.head?.join with
  | none => (.ok (), ⟨machine.disk.succeed umask call, machine.faults.tail⟩)
  | some fault => (.error fault.reason,
      ⟨machine.disk.fail umask fault.written call, machine.faults.tail⟩)

/-! ## What others see -/

/-- The mode gives no one but the owner a way into the directory. -/
def closedDir (mode : Nat) : Bool := mode &&& 0o011 == 0

/-- The mode lets no one but the owner read the file. -/
def closedFile (mode : Nat) : Bool := mode &&& 0o044 == 0

/-- What users other than the owner see of a file: nothing in a closed
directory, and no contents of a closed file. -/
def Disk.seenFile (disk : Disk) (path : String) :
    Option (Nat × Option (List UInt8)) :=
  if (disk.dir (Path.dirOf path)).any closedDir then none
  else (disk.file path).map fun file =>
    (file.mode, if closedFile file.mode then none else some file.contents)

/-- What users other than the owner see of a disk. -/
def Machine.seen (machine : Machine) :
    (String → Option (Nat × Option (List UInt8))) × (String → Option Nat) :=
  (machine.disk.seenFile, machine.disk.dir)

end Floonet
