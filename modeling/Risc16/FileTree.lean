import Risc16.Path
import Risc16.Text.Order

/-!
# File trees

Directories and files without links, seen from a current directory, and what can go wrong when a
path is followed. Each part of a path is looked up in turn, so a part that goes up has to stand
behind a directory that exists. What may be done at a place can be restricted; in a tree alone
everything may be done.
-/

namespace Risc16

/-- Why a file cannot be used. -/
inductive FileFault
  | noEntry
  | denied
  | notDirectory
  | isDirectory
  | nameTooLong
  | other (number : Nat) (reason : String)
deriving DecidableEq, Repr

namespace FileFault

/-- The number of the fault. -/
def number : FileFault → Nat
  | .noEntry => 2
  | .denied => 13
  | .notDirectory => 20
  | .isDirectory => 21
  | .nameTooLong => 36
  | .other number _ => number

/-- The fault in words. -/
def reason : FileFault → String
  | .noEntry => "No such file or directory"
  | .denied => "Permission denied"
  | .notDirectory => "Not a directory"
  | .isDirectory => "Is a directory"
  | .nameTooLong => "File name too long"
  | .other _ reason => reason

/-- The message about a path. -/
def message (path : Path) (fault : FileFault) : String :=
  s!"[Errno {fault.number}] {fault.reason}: {Text.quoted path.render}"

end FileFault

/-- What a path can lead to. -/
inductive EntryKind
  | file
  | directory
  /-- A file that may not be read. -/
  | closedFile
deriving DecidableEq, Repr

/-- An entry of a file tree. -/
inductive Node
  | directory
  | file (bytes : List UInt8)
deriving DecidableEq, Repr

/-- A place in a file tree: the names from the root on. -/
abbrev Place : Type := List String

/-- A file tree. The root is always a directory. -/
structure FileTree where
  entries : List (Place × Node)
  current : Place
deriving DecidableEq, Repr

namespace FileTree

/-- The entry at a place. -/
def find? (t : FileTree) (place : Place) : Option Node :=
  if place = [] then some .directory else t.entries.lookup place

/-- The tree with an entry at a place. -/
def insert (t : FileTree) (place : Place) (node : Node) : FileTree :=
  { t with entries := (place, node) :: t.entries.filter fun entry => entry.1 ≠ place }

/-- The tree without the entry at a place. -/
def erase (t : FileTree) (place : Place) : FileTree :=
  { t with entries := t.entries.filter fun entry => entry.1 ≠ place }

theorem find?_insert_self (t : FileTree) {place : Place} (h : place ≠ []) (node : Node) :
    (t.insert place node).find? place = some node := by
  simp [find?, insert, h]

/-- The most bytes in one name. -/
def maxNameBytes : Nat := 255

/-- The most bytes in a path. -/
def maxPathBytes : Nat := 4095

/-- The names to follow for a path that is not in normal form. A slash at the end asks for a
directory. -/
def rawNames (text : String) : List String :=
  let names := Path.components text
  names.dropLast.filter (· ≠ "") ++ [if names.getLast? = some "" then "." else names.getLastD "."]

end FileTree

/-- What may be done at a place. -/
structure Rights where
  /-- Read the file. -/
  read : Bool := true
  /-- Write to the file, or make and remove entries of the directory. -/
  write : Bool := true
  /-- Look for entries of the directory. -/
  search : Bool := true
deriving DecidableEq, Repr

/-- A file tree with the rights at each place. A file that is made has the rights of its place. -/
structure GuardedTree where
  tree : FileTree
  rights : Place → Rights

namespace GuardedTree

/-- Follow names from a place. All but the last have to be there, in directories that may be
searched. -/
def follow (g : GuardedTree) (place : Place) : List String → Except FileFault Place
  | [] => .ok place
  | name :: rest =>
    match g.tree.find? place with
    | none => .error .noEntry
    | some (.file _) => .error .notDirectory
    | some .directory =>
      if !(g.rights place).search then .error .denied
      else if name = "." then g.follow place rest
      else if name = ".." then g.follow place.dropLast rest
      else if name.utf8ByteSize > FileTree.maxNameBytes then .error .nameTooLong
      else g.follow (place ++ [name]) rest

/-- The place that a path leads to. -/
def locate (g : GuardedTree) (path : Path) : Except FileFault Place :=
  if path.render.utf8ByteSize > FileTree.maxPathBytes then .error .nameTooLong
  else g.follow (if path.start = .current then g.tree.current else []) path.parts

/-- The kind of an entry at a place. -/
def kindAt (g : GuardedTree) (place : Place) : Node → EntryKind
  | .directory => .directory
  | .file _ => if (g.rights place).read then .file else .closedFile

/-- What a path that is not in normal form leads to. The empty path leads nowhere. -/
def kind? (g : GuardedTree) (text : String) : Option EntryKind :=
  if text.isEmpty ∨ text.utf8ByteSize > FileTree.maxPathBytes then none
  else
    let start := if PathStart.ofText text.toList = .current then g.tree.current else []
    match g.follow start (FileTree.rawNames text) with
    | .ok place => (g.tree.find? place).map (g.kindAt place)
    | .error _ => none

/-- The bytes of a file. -/
def read (g : GuardedTree) (path : Path) : Except FileFault (List UInt8) :=
  match g.locate path with
  | .error fault => .error fault
  | .ok place =>
    match g.tree.find? place with
    | none => .error .noEntry
    | some node =>
      if !(g.rights place).read then .error .denied
      else
        match node with
        | .directory => .error .isDirectory
        | .file bytes => .ok bytes

/-- Whether entries of the directory around a place may be made and removed. -/
def mayChange (g : GuardedTree) (place : Place) : Bool :=
  (g.rights place.dropLast).write

/-- Whether a file may be written at a place: the one that is there, or a new one. -/
def mayWrite (g : GuardedTree) (place : Place) : Bool :=
  if (g.tree.find? place).isSome then (g.rights place).write else g.mayChange place

/-- The tree with new bytes in a file. -/
def write (g : GuardedTree) (path : Path) (bytes : List UInt8) : Except FileFault GuardedTree :=
  match g.locate path with
  | .error fault => .error fault
  | .ok place =>
    if g.tree.find? place = some .directory then .error .isDirectory
    else if g.mayWrite place then .ok { g with tree := g.tree.insert place (.file bytes) }
    else .error .denied

/-- The tree without a file. If there is nothing at the path, nothing changes. -/
def remove (g : GuardedTree) (path : Path) : Except FileFault GuardedTree :=
  match g.locate path with
  | .error .noEntry => .ok g
  | .error fault => .error fault
  | .ok place =>
    match g.tree.find? place with
    | none => .ok g
    | some node =>
      if !g.mayChange place then .error .denied
      else
        match node with
        | .directory => .error .isDirectory
        | .file _ => .ok { g with tree := g.tree.erase place }

end GuardedTree

namespace FileTree

/-- The tree with all rights at all places. -/
def unguarded (t : FileTree) : GuardedTree :=
  ⟨t, fun _ => {}⟩

/-- The place that a path leads to. -/
def locate (t : FileTree) (path : Path) : Except FileFault Place :=
  t.unguarded.locate path

/-- What a path that is not in normal form leads to. -/
def kind? (t : FileTree) (text : String) : Option EntryKind :=
  t.unguarded.kind? text

/-- The bytes of a file. -/
def read (t : FileTree) (path : Path) : Except FileFault (List UInt8) :=
  t.unguarded.read path

/-- The tree with new bytes in a file. -/
def write (t : FileTree) (path : Path) (bytes : List UInt8) : Except FileFault FileTree :=
  (t.unguarded.write path bytes).map GuardedTree.tree

/-- The tree without a file. -/
def remove (t : FileTree) (path : Path) : Except FileFault FileTree :=
  (t.unguarded.remove path).map GuardedTree.tree

/-- The tree with a directory at a place, and all directories on the way there. -/
def addDirectories (t : FileTree) (place : Place) : FileTree :=
  ((List.range place.length).map fun n => place.take (n + 1)).foldl
    (fun t place => if (t.find? place).isSome then t else t.insert place .directory) t

/-- The tree with nothing but the current directory. -/
def new (current : Place) : FileTree :=
  FileTree.addDirectories ⟨[], current⟩ current

/-- The tree with a file, and all directories on the way there. -/
def addFile (t : FileTree) (path : Path) (bytes : List UInt8) : FileTree :=
  let place := path.resolve t.current
  (t.addDirectories place.dropLast).insert place (.file bytes)

/-- The tree with a directory, and all directories on the way there. -/
def addDirectory (t : FileTree) (path : Path) : FileTree :=
  t.addDirectories (path.resolve t.current)

/-- The files below the current directory with their paths from there, in the order of the paths. -/
def filesBelow (t : FileTree) : List (String × List UInt8) :=
  let files := t.entries.filterMap fun entry =>
    match entry.2 with
    | .file bytes =>
      if t.current.isPrefixOf entry.1 then
        some ("/".intercalate (entry.1.drop t.current.length), bytes)
      else none
    | .directory => none
  files.mergeSort fun a b => Text.codePointLe a.1.toList b.1.toList

end FileTree

end Risc16
