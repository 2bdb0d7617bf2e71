import Risc16.Calls
import Risc16.Encoding
import Risc16.Statement
import Risc16.Text.Lines

/-!
# Output

What a successful assembly gives: the program with all labels replaced, its symbols and its words,
and from these the byte image, the listing and the symbol file.
-/

namespace Risc16

/-- The output of an assembly. -/
structure Output where
  program : Program
  symbols : SymbolTable
  words : List Nat

namespace Output

/-- The output before any assembly. -/
def empty : Output :=
  ⟨Program.empty, SymbolTable.empty, []⟩

/-- The byte image, or the first word that does not fit 16 bits. -/
def image (o : Output) : Except Nat (List UInt8) :=
  imageOf o.words

/-- The row of an instruction in the listing. -/
def instructionRow (i : Instruction) (word : Nat) : String :=
  let line := String.ofList (Text.padStart 4 ' ' (toString i.location.line).toList)
  s!"${Text.hexText 2 i.address}   {Text.hexText 4 word}  {line}  {i.text}"

/-- The row of a label in the listing. -/
def symbolRow (name : String) (address : Int) : String :=
  let column := String.ofList (Text.padEnd 20 ' ' name.toList)
  s!"{column} = ${Text.hexText 2 address}"

/-- A line of one character over and over. -/
def ruler (c : Char) (width : Nat) : String :=
  String.ofList (List.replicate width c)

/-- The lines of the listing: the instructions with their addresses, words and source lines, then
the labels by name. -/
def listingLines (o : Output) : List String :=
  ["BRISC Assembler Listing", ruler '=' 60, "", "Addr  Code  Line  Source", ruler '-' 60] ++
  (o.program.instructions.zip o.words).map (fun row => instructionRow row.1 row.2) ++
  ["", "Symbol Table", ruler '-' 30] ++
  o.symbols.sortedAddresses.map (fun row => symbolRow row.1 row.2)

/-- The lines of the symbol file: a heading, then the labels by name. -/
def symbolFileLines (o : Output) : List String :=
  ["# Symbol table", "# Generated by brisc-asm"] ++
  o.symbols.sortedAddresses.map (fun row => s!"{row.1} ${Text.hexText 2 row.2}")

def listing (o : Output) : String :=
  Text.ofLines o.listingLines

def symbolFile (o : Output) : String :=
  Text.ofLines o.symbolFileLines

end Output

/-- Replace labels by addresses and encode all instructions. First the program has to fit the
memory, then all its labels have to be in the table, then all values have to fit their fields. -/
def Program.build (s : Settings) (p : Program) (symbols : SymbolTable) :
    Except Diagnostic Output :=
  if (p.size : Int) > s.capacity then .error ⟨.programSize p.size s.capacity, none, none⟩
  else do
    let resolved ← p.resolve symbols
    let words ← resolved.instructions.mapM (Instruction.encode s)
    return ⟨resolved, symbols, words⟩

/-- A builder keeps the output of its last successful run. -/
structure Builder where
  settings : Settings
  output : Output

/-- A builder that has not run. -/
def Builder.new (s : Settings) : Builder :=
  ⟨s, Output.empty⟩

/-- Run a builder. A failed run leaves its output as it was. The addresses and the capacity may have
any number of digits, so its report may not be written. -/
def Builder.build (b : Builder) (p : Program) (symbols : SymbolTable) :
    Except Failure Output × Builder :=
  match p.build b.settings symbols with
  | .ok output => (.ok output, { b with output := output })
  | .error d => (.error (.ofReport d), b)

end Risc16
