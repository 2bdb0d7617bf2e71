import Risc16.Location
import Risc16.Text.Lines
import Risc16.Diagnostic

/-!
# Source lines

A line of source text with its number and the name of its file.
-/

namespace Risc16

/-- A source line. Its text has no line end. -/
structure SourceLine where
  file : String
  number : Int
  text : List Char
deriving DecidableEq, Repr

namespace SourceLine

/-- The line that a raw text gives: carriage returns and line feeds at its end are dropped. -/
def ofText (file : String) (number : Int) (raw : List Char) : SourceLine :=
  ⟨file, number, Text.dropLineEnd raw⟩

/-- The place of a column. -/
def place (line : SourceLine) (column : Nat) : Location :=
  ⟨line.file, line.number, column⟩

/-- A diagnostic about a place on the line. -/
def diagnose (line : SourceLine) (location : Location) (cause : Cause) : Diagnostic :=
  ⟨cause, some location, some (String.ofList line.text)⟩

/-- The source lines of raw lines, numbered from `number`. -/
def numberFrom (file : String) (number : Int) : List (List Char) → List SourceLine
  | [] => []
  | raw :: rest => ofText file number raw :: numberFrom file (number + 1) rest

/-- The source lines of a text. -/
def ofSource (file : String) (source : List Char) : List SourceLine :=
  numberFrom file 1 (Text.splitLines source)

end SourceLine

end Risc16
