import Risc16.Text.Lines
import Risc16.Text.Quoted

/-!
# Paths

Paths of files in a normal form: no empty parts and no parts that stay where they are. A part that
goes up stays, since what it means depends on the file system.
-/

namespace Risc16

/-- Where a path starts: at the current directory, at the root, or at the root that two slashes
name. -/
inductive PathStart
  | current | root | doubleRoot
deriving DecidableEq, Repr

/-- A path in normal form. -/
structure Path where
  start : PathStart
  parts : List String
deriving DecidableEq, Repr

namespace PathStart

def render : PathStart → String
  | .current => ""
  | .root => "/"
  | .doubleRoot => "//"

/-- The start that the slashes before a path give. Three or more are as good as one. -/
def ofText (text : List Char) : PathStart :=
  match (text.takeWhile (· == '/')).length with
  | 0 => .current
  | 2 => .doubleRoot
  | _ => .root

end PathStart

namespace Path

/-- The parts of a text between slashes. -/
def components (text : String) : List String :=
  (text.toList.splitOn '/').map String.ofList

/-- The normal form of a text. -/
def ofText (text : String) : Path :=
  ⟨PathStart.ofText text.toList, (components text).filter fun part => part ≠ "" ∧ part ≠ "."⟩

/-- The path as text. The path without parts is a dot. -/
def render (p : Path) : String :=
  let text := p.start.render ++ "/".intercalate p.parts
  if text.isEmpty then "." else text

/-- The last part, if there is one. -/
def name? (p : Path) : Option String :=
  p.parts.getLast?

/-- A name without its suffix. The suffix starts at the last dot, unless that is the first or the
last character. -/
def stem (name : List Char) : List Char :=
  let suffix := (name.reverse.takeWhile (· ≠ '.')).length
  if 0 < suffix ∧ suffix + 1 < name.length then name.take (name.length - (suffix + 1)) else name

/-- The path with another suffix. A path without a last part has none. -/
def withSuffix? (p : Path) (suffix : String) : Option Path :=
  p.name?.map fun name =>
    { p with parts := p.parts.dropLast ++ [String.ofList (stem name.toList) ++ suffix] }

/-- The path of the byte image of a source file: the same name with another suffix. -/
def image? (source : Path) : Option Path :=
  source.withSuffix? ".bin"

/-- What is said about a path that has no image path. -/
def emptyNameMessage (p : Path) : String :=
  s!"PosixPath({Text.quoted p.render}) has an empty name"

/-- The parts from the root on, where a part that goes up takes the part before it away. -/
def resolve (current : List String) (p : Path) : List String :=
  let start := if p.start = .current then current else []
  p.parts.foldl (fun place part => if part = ".." then place.dropLast else place ++ [part]) start

end Path

end Risc16
