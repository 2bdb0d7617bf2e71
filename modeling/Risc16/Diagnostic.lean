import Risc16.Location
import Risc16.Token
import Risc16.Machine.Layout
import Risc16.Machine.Device
import Risc16.Text.Numeral

/-!
# Diagnostics

What can be wrong with a program. A diagnostic is a cause with the place and the source line that
show it; the words of all messages are in `Cause.message` and `Cause.hint?`. A report is written
when it is raised, and that fails if its numbers are too long or its caret is too far to the right.
-/

namespace Risc16

/-- A fault in the caller's own words. -/
structure Remark where
  message : String
  hint? : Option String
deriving DecidableEq, Repr

/-- Why a word is no token. -/
inductive WordFault
  /-- It looks like nothing that could stand in a program. -/
  | notAToken
  /-- It declares a label, but the part before the colon is no name. -/
  | labelName (name : String)
  /-- It starts like a number, but is none, or has too many digits. -/
  | integer
  | stated (message : String)
deriving DecidableEq, Repr

/-- The fault that a message states. Without one, or with an empty one, nothing is known but that
the word is no token. -/
def WordFault.ofMessage? : Option String → WordFault
  | none => .notAToken
  | some message => if message.isEmpty then .notAToken else .stated message

/-- Why the tokens of a line are no statement. -/
inductive StatementFault
  | notAnInstruction (found : Lexeme)
  | labelNamesRegister (name : String)
  | unknownMnemonic (name : String) (similar : List String)
  | missingOperand (mnemonic : Mnemonic) (given : Nat)
  | missingComma (found : Lexeme)
  | emptyOperand
  | noSuchRegister (number : Nat)
  | misplacedLabel (name : String)
  | wrongOperand (mnemonic : Mnemonic) (slot : Slot) (position : Nat) (found : Lexeme)
  | unknownDevice (way : Direction) (name : String)
  | trailingComma
  | extraOperand (mnemonic : Mnemonic) (found : Lexeme)
  | stated (remark : Remark)
deriving DecidableEq, Repr

/-- Why a value does not fit its field. -/
inductive RangeFault
  | immediate (value : Int)
  | target (value : Int) (capacity : Int)
  | device (way : Direction) (value : Int)
  /-- The number fits, but no such device is wired and only wired ones are allowed. -/
  | unwired (way : Direction) (value : Int)
  | stated (remark : Remark)
deriving DecidableEq, Repr

/-- What is wrong. -/
inductive Cause
  | general (remark : Remark)
  | word (text : String) (fault : WordFault)
  | statement (fault : StatementFault)
  | duplicateLabel (name : String) (first? : Option Location)
  | undefinedLabel (name : String) (similar : List String)
  | range (fault : RangeFault)
  | programSize (count : Int) (capacity : Int)
deriving DecidableEq, Repr

/-- A cause with the place that shows it and the text of the line there. -/
structure Diagnostic where
  cause : Cause
  location? : Option Location
  sourceLine? : Option String
deriving DecidableEq, Repr

/-- Names between single quotes, with commas between them. -/
def quotedNames (names : List String) : String :=
  ", ".intercalate (names.map fun name => s!"'{name}'")

/-- The hint that asks after similar names, if there are any. -/
def didYouMean? : List String → Option String
  | [] => none
  | names => some s!"did you mean {quotedNames names}?"

/-- A count of operands in words. -/
def operandCount (count : Nat) : String :=
  if count = 1 then s!"{count} operand" else s!"{count} operands"

/-- The kinds of operand that a slot takes, in words. -/
def Slot.describe (slot : Slot) : String :=
  " or ".intercalate (slot.kinds.map OperandKind.name)

def WordFault.message (text : String) : WordFault → String
  | .notAToken => s!"invalid token '{text}'"
  | .labelName name => s!"invalid label name '{name}'"
  | .integer => s!"malformed integer literal '{text}'"
  | .stated message => message

def StatementFault.message : StatementFault → String
  | .notAnInstruction found => s!"expected an instruction, found {found.describe}"
  | .labelNamesRegister name => s!"label name '{name}' collides with a register name"
  | .unknownMnemonic name _ => s!"unknown mnemonic '{name}'"
  | .missingOperand mnemonic given =>
    s!"'{mnemonic.name}' expects {operandCount mnemonic.arity}, found {given}"
  | .missingComma found => s!"expected ',' between operands, found {found.describe}"
  | .emptyOperand => s!"expected an operand, found {Lexeme.comma.describe}"
  | .noSuchRegister number => s!"register 'r{number}' out of range (r0-r{registerCount - 1})"
  | .misplacedLabel name => s!"label declaration '{name}:' must start the line"
  | .wrongOperand mnemonic slot position found =>
    s!"operand {position + 1} of '{mnemonic.name}' must be {slot.describe}, found {found.describe}"
  | .unknownDevice way name => s!"unknown {way.noun} '{name}'"
  | .trailingComma => "trailing ',' after last operand"
  | .extraOperand mnemonic found =>
    s!"'{mnemonic.name}' takes {operandCount mnemonic.arity}, found extra {found.describe}"
  | .stated remark => remark.message

def StatementFault.hint? : StatementFault → Option String
  | .unknownMnemonic _ similar => didYouMean? similar
  | .unknownDevice way _ =>
    let names := ", ".intercalate (way.devices.map Prod.fst)
    some s!"known {way.noun}s: {names}"
  | .stated remark => remark.hint?
  | _ => none

def RangeFault.message : RangeFault → String
  | .immediate value => s!"immediate {value} out of range ({immediateMin}..{immediateMax})"
  | .target value capacity => s!"jump target {value} out of range (0..{capacity - 1})"
  | .device way value => s!"{way.noun} id {value} out of range (0..{deviceMax})"
  | .unwired way value => s!"no {way.noun} with id {value}"
  | .stated remark => remark.message

def RangeFault.hint? : RangeFault → Option String
  | .unwired way _ =>
    let devices := ", ".intercalate (way.devices.map fun device => s!"{device.1}={device.2}")
    some s!"known {way.noun}s: {devices}"
  | .stated remark => remark.hint?
  | _ => none

/-- The description of the cause, without its place. -/
def Cause.message : Cause → String
  | .general remark => remark.message
  | .word text fault => fault.message text
  | .statement fault => fault.message
  | .duplicateLabel name _ => s!"duplicate label '{name}'"
  | .undefinedLabel name _ => s!"undefined label '{name}'"
  | .range fault => fault.message
  | .programSize count capacity => s!"program has {count} instructions, maximum is {capacity}"

/-- Advice on how to mend the cause. -/
def Cause.hint? : Cause → Option String
  | .general remark => remark.hint?
  | .word _ _ => none
  | .statement fault => fault.hint?
  | .duplicateLabel name first? =>
    first?.map fun first => s!"'{name}' was first declared at {first.render}"
  | .undefinedLabel _ similar => didYouMean? (similar.take 3)
  | .range fault => fault.hint?
  | .programSize _ _ => some "split the program or raise max_instructions"

/-- The numbers in the message that were not counted in a source: the values of operands, which may
come from a table, and what the settings say. -/
def Cause.numbers : Cause → List Int
  | .range (.immediate value) | .range (.device _ value) | .range (.unwired _ value) => [value]
  | .range (.target value capacity) => [value, capacity - 1]
  | .programSize _ capacity => [capacity]
  | _ => []

/-- Why a report cannot be written. -/
inductive ReportFault
  /-- A number in it has too many digits. -/
  | longNumber
  /-- The column of its caret is beyond all indices of a text. -/
  | beyondIndex
  /-- No memory holds the blanks before its caret. -/
  | beyondMemory
deriving DecidableEq, Repr

/-- The name of the fault's class. -/
def ReportFault.className : ReportFault → String
  | .longNumber => "ValueError"
  | .beyondIndex => "OverflowError"
  | .beyondMemory => "MemoryError"

def ReportFault.message : ReportFault → String
  | .longNumber =>
    s!"Exceeds the limit ({Text.digitLimit} digits) for integer string conversion; " ++
      "use sys.set_int_max_str_digits() to increase the limit"
  | .beyondIndex => "cannot fit 'int' into an index-sized integer"
  | .beyondMemory => ""

/-- What keeps a report with this cause from being written. The places of a source are not in
question, as no text has so many lines. -/
def Cause.fault? (c : Cause) : Option ReportFault :=
  if c.numbers.any Text.isTooLong then some .longNumber else none

namespace Diagnostic

/-- The source line and a caret under the place. A place before the first column has no caret. -/
def excerpt (line : String) (column : Int) : List String :=
  if column > 0 then
    [s!"    {line}", String.ofList (List.replicate (4 + column - 1).toNat ' ') ++ "^"]
  else [s!"    {line}"]

/-- The places that a report names. -/
def places (d : Diagnostic) : List Location :=
  match d.cause with
  | .duplicateLabel _ first? => first?.toList ++ d.location?.toList
  | _ => d.location?.toList

/-- The largest index of a text. -/
def maxIndex : Int := 0x7FFFFFFFFFFFFFFF

/-- The most blanks that a line can start with. -/
def maxIndent : Int := 0xFFFFFFFFFF

/-- What keeps a caret from being drawn under a column. -/
def caretFault? (column : Int) : Option ReportFault :=
  if 4 + column - 1 > maxIndex then some .beyondIndex
  else if 4 + column - 1 > maxIndent then some .beyondMemory
  else none

/-- What keeps a report from being written whose places a caller has made up. Numbers are written
before the caret is drawn. -/
def fault? (d : Diagnostic) : Option ReportFault :=
  if (d.cause.numbers ++ d.places.flatMap fun place => [place.line, place.column]).any
      Text.isTooLong then
    some .longNumber
  else
    match d.location?, d.sourceLine? with
    | some location, some _ => caretFault? location.column
    | _, _ => none

/-- The lines of the full message: place and description, then the source line with a caret if both
place and line are known, then the hint if there is one. -/
def renderLines (d : Diagnostic) : List String :=
  let head :=
    match d.location? with
    | some location => s!"{location.render}: error: {d.cause.message}"
    | none => s!"error: {d.cause.message}"
  let context :=
    match d.location?, d.sourceLine? with
    | some location, some line => excerpt line location.column
    | _, _ => []
  let advice :=
    match d.cause.hint? with
    | some hint => if hint.isEmpty then [] else [s!"hint: {hint}"]
    | none => []
  head :: context ++ advice

/-- The full message. -/
def render (d : Diagnostic) : String :=
  "\n".intercalate d.renderLines

end Diagnostic

end Risc16
