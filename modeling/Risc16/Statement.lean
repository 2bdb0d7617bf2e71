import Risc16.Program
import Risc16.Token.Stream

/-!
# Statements

Reading of source lines into a program. A line is any number of label declarations, then at most one
instruction. A label stands for the address of the next instruction. Labels may be used before they
are declared, so references are checked after the last line.

All tokens of a line are classified before any is read. On a line, labels are declared one after the
other, and only then the instruction is read: that decides which of two faults is reported.
-/

namespace Risc16

namespace SourceLine

/-- The first of the tokens still to come. After the last one stands the end of the line. -/
def peek (line : SourceLine) : List Token → Token
  | [] => line.endToken
  | token :: _ => token

/-- The diagnostic that a token does not fit. -/
def refuse (line : SourceLine) (token : Token) (fault : StatementFault) : Diagnostic :=
  line.diagnose token.location (.statement fault)

/-- The diagnostic about an operand that is missing or not what the slot takes. -/
def refuseOperand (line : SourceLine) (m : Mnemonic) (slot : Slot) (position : Nat)
    (tokens : List Token) : Diagnostic :=
  let token := line.peek tokens
  line.refuse token <|
    match token.lexeme with
    | .lineEnd => .missingOperand m position
    | .comma => .emptyOperand
    | .labelDef name => .misplacedLabel name
    | found => .wrongOperand m slot position found

/-- Read the comma before the operand at `position`. -/
def readComma (line : SourceLine) (m : Mnemonic) (position : Nat) (tokens : List Token) :
    Except Diagnostic (List Token) :=
  let token := line.peek tokens
  match token.lexeme with
  | .comma => .ok tokens.tail
  | .lineEnd => .error (line.refuse token (.missingOperand m position))
  | found => .error (line.refuse token (.missingComma found))

/-- Read a register. -/
def readRegister (line : SourceLine) (m : Mnemonic) (position : Nat) :
    List Token → Except Diagnostic (Located Register × List Token)
  | ⟨.register number, location⟩ :: rest =>
    if h : number < registerCount then .ok (⟨⟨number, h⟩, location⟩, rest)
    else .error (line.refuse ⟨.register number, location⟩ (.noSuchRegister number))
  | tokens => .error (line.refuseOperand m .register position tokens)

/-- Read an immediate. -/
def readImmediate (line : SourceLine) (m : Mnemonic) (position : Nat) :
    List Token → Except Diagnostic (Located Int × List Token)
  | ⟨.immediate value, location⟩ :: rest => .ok (⟨value, location⟩, rest)
  | tokens => .error (line.refuseOperand m .immediate position tokens)

/-- Read a device, by number or by name. -/
def readDevice (line : SourceLine) (m : Mnemonic) (way : Direction) (position : Nat) :
    List Token → Except Diagnostic (Located Int × List Token)
  | ⟨.immediate value, location⟩ :: rest => .ok (⟨value, location⟩, rest)
  | ⟨.label name, location⟩ :: rest =>
    match way.deviceNumber? name with
    | some number => .ok (⟨number, location⟩, rest)
    | none => .error (line.refuse ⟨.label name, location⟩ (.unknownDevice way name))
  | tokens => .error (line.refuseOperand m .device position tokens)

/-- Read a jump target, by address or by label. -/
def readTarget (line : SourceLine) (m : Mnemonic) (position : Nat) :
    List Token → Except Diagnostic (Located Target × List Token)
  | ⟨.immediate value, location⟩ :: rest => .ok (⟨.address value, location⟩, rest)
  | ⟨.label name, location⟩ :: rest => .ok (⟨.label name, location⟩, rest)
  | tokens => .error (line.refuseOperand m .target position tokens)

/-- Read the operands of an instruction. -/
def readOperands (line : SourceLine) (m : Mnemonic) (tokens : List Token) :
    Except Diagnostic (Operation × List Token) :=
  match m with
  | .nop => .ok (.nop, tokens)
  | .alu op => do
    let (a, tokens) ← line.readRegister m 0 tokens
    let tokens ← line.readComma m 1 tokens
    let (b, tokens) ← line.readRegister m 1 tokens
    return (.alu op a b, tokens)
  | .inv => do
    let (a, tokens) ← line.readRegister m 0 tokens
    return (.inv a, tokens)
  | .ldi => do
    let (a, tokens) ← line.readRegister m 0 tokens
    let tokens ← line.readComma m 1 tokens
    let (value, tokens) ← line.readImmediate m 1 tokens
    return (.ldi a value, tokens)
  | .transfer way => do
    let (a, tokens) ← line.readRegister m 0 tokens
    let tokens ← line.readComma m 1 tokens
    let (device, tokens) ← line.readDevice m way 1 tokens
    return (.transfer way a device, tokens)
  | .branch condition => do
    let (a, tokens) ← line.readRegister m 0 tokens
    let tokens ← line.readComma m 1 tokens
    let (target, tokens) ← line.readTarget m 1 tokens
    return (.branch condition a target, tokens)
  | .jump => do
    let (target, tokens) ← line.readTarget m 0 tokens
    return (.jump target, tokens)

/-- Check that nothing follows the operands. -/
def checkLineEnd (line : SourceLine) (m : Mnemonic) (tokens : List Token) :
    Except Diagnostic Unit :=
  let token := line.peek tokens
  match token.lexeme with
  | .lineEnd => .ok ()
  | .comma =>
    if m.arity ≠ 0 ∧ (line.peek tokens.tail).lexeme = .lineEnd then
      .error (line.refuse token .trailingComma)
    else .error (line.refuse token (.extraOperand m .comma))
  | found => .error (line.refuse token (.extraOperand m found))

end SourceLine

/-- The instructions whose names are close to a word. A word in capitals may be close to none, and
then the same word in small letters is meant. -/
def similarMnemonics (name : String) : List String :=
  match Text.closeNames name Mnemonic.sortedNames with
  | [] => if (Mnemonic.ofName? name.toLower).isSome then [name.toLower] else []
  | names => names

/-- A program as it is read: its instructions may still refer to labels. -/
structure Draft where
  program : Program
  symbols : SymbolTable

namespace Draft

def empty : Draft :=
  ⟨Program.empty, SymbolTable.empty⟩

/-- Declare a label at the address of the next instruction. -/
def declare (line : SourceLine) (d : Draft) (label : Located String) : Except Diagnostic Draft :=
  if (Word.registerDigits? label.value.toList).isSome then
    .error (line.diagnose label.location (.statement (.labelNamesRegister label.value)))
  else
    let symbol := Symbol.mk label.value d.program.size (some label.location)
    (d.symbols.declare symbol (some (String.ofList line.text))).map fun symbols =>
      ⟨{ d.program with labels := d.program.labels ++ [symbol] }, symbols⟩

/-- Add an instruction at the end. -/
def push (line : SourceLine) (location : Location) (operation : Operation) (d : Draft) : Draft :=
  let i := Instruction.mk operation d.program.size location (String.ofList line.text)
  { d with program := { d.program with instructions := d.program.instructions ++ [i] } }

/-- Read the instruction of a line, if it has one. -/
def readInstruction (line : SourceLine) (d : Draft) (tokens : List Token) :
    Except Diagnostic Draft :=
  let token := line.peek tokens
  match token.lexeme with
  | .lineEnd => .ok d
  | .mnemonic name =>
    match Mnemonic.ofName? name with
    | none => .error (line.refuse token (.unknownMnemonic name (similarMnemonics name)))
    | some m => do
      let (operation, rest) ← line.readOperands m tokens.tail
      line.checkLineEnd m rest
      return d.push line token.location operation
  | found => .error (line.refuse token (.notAnInstruction found))

/-- Read the tokens of a line: the labels that it declares, then its instruction. -/
def readTokens (line : SourceLine) (d : Draft) : List Token → Except Diagnostic Draft
  | ⟨.labelDef name, location⟩ :: rest => do
    let d ← d.declare line ⟨name, location⟩
    d.readTokens line rest
  | tokens => d.readInstruction line tokens

/-- Read a line. -/
def readLine (d : Draft) (line : SourceLine) : Except Diagnostic Draft := do
  let tokens ← line.tokens
  d.readTokens line tokens

/-- Read lines, up to the first fault. -/
def readLines (d : Draft) : List SourceLine → Except Diagnostic Draft
  | [] => .ok d
  | line :: rest => do
    let d ← d.readLine line
    d.readLines rest

/-- Read a program whose references are all declared. -/
def ofLines (lines : List SourceLine) : Except Diagnostic Draft := do
  let d ← empty.readLines lines
  d.program.checkLabels d.symbols
  return d

/-- Read the program of a source text. -/
def ofSource (file : String) (source : List Char) : Except Diagnostic Draft :=
  ofLines (SourceLine.ofSource file source)

end Draft

end Risc16
