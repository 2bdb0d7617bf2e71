import Risc16.Output

/-!
# Reading reports back

The rows of a listing and of a symbol file as data again. A row that does not have the form of its
report is not read.
-/

namespace Risc16.Output

/-- The value of a hexadecimal digit in capitals. -/
def hexDigit? (c : Char) : Option Nat :=
  if c.isDigit then some (c.toNat - '0'.toNat)
  else if 'A'.toNat ≤ c.toNat ∧ c.toNat ≤ 'F'.toNat then some (c.toNat - 'A'.toNat + 10)
  else none

/-- The number that hexadecimal digits write behind those of the number `n`. -/
def readHexFrom? (n : Nat) (digits : List Char) : Option Nat :=
  digits.foldlM (fun n c => (hexDigit? c).map (16 * n + ·)) n

/-- The number that hexadecimal digits write, one of them at least. -/
def readHex? (digits : List Char) : Option Nat :=
  if digits = [] then none else readHexFrom? 0 digits

/-- The number that decimal digits write. -/
def readDecimal? (digits : List Char) : Option Nat :=
  if Word.isNumeral digits then some (Nat.ofDigitChars 10 digits 0) else none

/-- The text from the first character on that is not a space. -/
def skipSpaces (text : List Char) : List Char :=
  text.dropWhile (· = ' ')

/-- The text before the first space, and the text from there on. -/
def cutAtSpace (text : List Char) : List Char × List Char :=
  text.span (· ≠ ' ')

/-- A row of the listing as data. -/
structure InstructionRow where
  address : Nat
  word : Nat
  line : Nat
  text : String
deriving DecidableEq, Repr

/-- Read the row of an instruction: behind a dollar sign its address, then the four digits of its
word, the number of its line, and two columns further its text. -/
def readInstructionRow? : List Char → Option InstructionRow
  | '$' :: row => do
    let (address, row) := cutAtSpace row
    let (word, row) := cutAtSpace (skipSpaces row)
    let (line, row) := cutAtSpace (skipSpaces row)
    let address ← readHex? address
    let word ← if word.length = 4 then readHex? word else none
    let line ← readDecimal? line
    return ⟨address, word, line, String.ofList (row.drop 2)⟩
  | _ => none

/-- A label by its name and the digits of its address. -/
def readLabel? (name digits : List Char) : Option (String × Int) :=
  (readHex? digits).map fun (address : Nat) => (String.ofList name, (address : Int))

/-- Read the row of a label: its name up to the first space, and its address behind an equals sign
and a dollar sign. -/
def readSymbolRow? (row : List Char) : Option (String × Int) :=
  let (name, row) := cutAtSpace row
  match skipSpaces row with
  | '=' :: ' ' :: '$' :: address => readLabel? name address
  | _ => none

/-- A listing as data. -/
structure Listing where
  rows : List InstructionRow
  labels : List (String × Int)
deriving DecidableEq, Repr

/-- The lines of a text, each of which has to have its line feed. -/
def endedLines (text : List Char) : List (List Char) :=
  (Text.splitLines text).dropLast

/-- Read a listing. Five lines are its heading, then come the instructions up to an empty line, and
below two more lines the labels. -/
def readListing? (text : List Char) : Option Listing := do
  let body := (endedLines text).drop 5
  let rows ← (body.takeWhile (· ≠ [])).mapM readInstructionRow?
  let labels ← ((body.dropWhile (· ≠ [])).drop 3).mapM readSymbolRow?
  return ⟨rows, labels⟩

/-- Read a line of the symbol file: its name up to the space, and its address behind a dollar
sign. -/
def readSymbolLine? (line : List Char) : Option (String × Int) :=
  match cutAtSpace line with
  | (name, ' ' :: '$' :: address) => readLabel? name address
  | _ => none

/-- The labels of a symbol file. Lines that start with a hash are remarks. -/
def readSymbolFile? (text : List Char) : Option (List (String × Int)) :=
  ((endedLines text).filter fun line => line.head? ≠ some '#').mapM readSymbolLine?

end Risc16.Output
