import Risc16.SymbolTable
import Risc16.Token.Piece
import Risc16.Machine.Layout

/-!
# Programs

Instructions with their operands, and the replacement of labels by addresses.
-/

namespace Risc16

/-- Where a jump goes. -/
inductive Target
  | address (value : Int)
  | label (name : String)
deriving DecidableEq, Repr

/-- An instruction with its operands, each at its place. -/
inductive Operation
  | nop
  | alu (op : Alu) (a b : Located Register)
  | inv (a : Located Register)
  | ldi (a : Located Register) (value : Located Int)
  | transfer (way : Direction) (a : Located Register) (device : Located Int)
  | branch (condition : Condition) (a : Located Register) (target : Located Target)
  | jump (target : Located Target)
deriving DecidableEq, Repr

/-- An operand on its own. -/
inductive Operand
  | register (number : Register)
  | immediate (value : Int)
  | label (name : String)
deriving DecidableEq, Repr

namespace Operand

def kind : Operand → OperandKind
  | .register _ => .register
  | .immediate _ => .immediate
  | .label _ => .label

/-- The value of the operand as text. -/
def value : Operand → String
  | .register number => toString number.val
  | .immediate value => toString value
  | .label name => name

/-- The operand as source text. -/
def render : Operand → String
  | .register number => s!"r{number.val}"
  | .immediate value => toString value
  | .label name => name

end Operand

def Target.operand : Target → Operand
  | .address value => .immediate value
  | .label name => .label name

namespace Operation

def mnemonic : Operation → Mnemonic
  | .nop => .nop
  | .alu op _ _ => .alu op
  | .inv _ => .inv
  | .ldi _ _ => .ldi
  | .transfer way _ _ => .transfer way
  | .branch condition _ _ => .branch condition
  | .jump _ => .jump

/-- The operands in their order in source text. -/
def operands : Operation → List (Located Operand)
  | .nop => []
  | .alu _ a b => [⟨.register a.value, a.location⟩, ⟨.register b.value, b.location⟩]
  | .inv a => [⟨.register a.value, a.location⟩]
  | .ldi a value => [⟨.register a.value, a.location⟩, ⟨.immediate value.value, value.location⟩]
  | .transfer _ a device =>
    [⟨.register a.value, a.location⟩, ⟨.immediate device.value, device.location⟩]
  | .branch _ a target =>
    [⟨.register a.value, a.location⟩, ⟨target.value.operand, target.location⟩]
  | .jump target => [⟨target.value.operand, target.location⟩]

/-- The operation as source text. -/
def render (o : Operation) : String :=
  match o.operands with
  | [] => o.mnemonic.name
  | operands =>
    let list := ", ".intercalate (operands.map fun operand => operand.value.render)
    s!"{o.mnemonic.name} {list}"

/-- The jump target, if the operation has one. -/
def target? : Operation → Option (Located Target)
  | .branch _ _ target => some target
  | .jump target => some target
  | _ => none

/-- The label that the operation refers to, if it does. -/
def reference? (o : Operation) : Option (Located String) :=
  match o.target? with
  | some ⟨.label name, location⟩ => some ⟨name, location⟩
  | _ => none

end Operation

/-- An instruction of a program: its operation, the address of its word, the place of its name and
the text of its line. -/
structure Instruction where
  operation : Operation
  address : Nat
  location : Location
  sourceLine : String
deriving DecidableEq, Repr

/-- The address of a jump target, which for a label is the one in the table. -/
def SymbolTable.resolveTarget (t : SymbolTable) (sourceLine : String) :
    Located Target → Except Diagnostic (Located Target)
  | ⟨.address value, location⟩ => .ok ⟨.address value, location⟩
  | ⟨.label name, location⟩ =>
    (t.addressOf name (some location) (some sourceLine)).map fun value => ⟨.address value, location⟩

namespace Instruction

/-- The source text of the instruction: its line without the comment and the white space around. -/
def text (i : Instruction) : String :=
  String.ofList (Text.trim (withoutComment i.sourceLine.toList))

/-- Whether the instruction refers to no label. -/
def isResolved (i : Instruction) : Bool :=
  i.operation.reference?.isNone

/-- The instruction with the address in place of its label. -/
def resolve (t : SymbolTable) (i : Instruction) : Except Diagnostic Instruction :=
  match i.operation with
  | .branch condition a target =>
    (t.resolveTarget i.sourceLine target).map fun target =>
      { i with operation := .branch condition a target }
  | .jump target =>
    (t.resolveTarget i.sourceLine target).map fun target => { i with operation := .jump target }
  | _ => .ok i

end Instruction

/-- The instructions in the order of their addresses, and the label declarations in the order of the
source. -/
structure Program where
  instructions : List Instruction
  labels : List Symbol
deriving DecidableEq, Repr

namespace Program

def empty : Program :=
  ⟨[], []⟩

/-- The number of instructions, which is also the address after the last one. -/
def size (p : Program) : Nat :=
  p.instructions.length

/-- Whether no instruction refers to a label. -/
def isResolved (p : Program) : Bool :=
  p.instructions.all Instruction.isResolved

/-- The references to labels with their instructions, in program order. -/
def references (p : Program) : List (Instruction × Located String) :=
  p.instructions.filterMap fun i => i.operation.reference?.map fun reference => (i, reference)

/-- Check that every label that the program refers to is declared. -/
def checkLabels (p : Program) (t : SymbolTable) : Except Diagnostic Unit :=
  match p.references.find? fun reference => !t.contains reference.2.value with
  | some (i, reference) =>
    .error (t.undefined reference.value (some reference.location) (some i.sourceLine))
  | none => .ok ()

/-- The program with addresses in place of labels. -/
def resolve (p : Program) (t : SymbolTable) : Except Diagnostic Program :=
  (p.instructions.mapM (Instruction.resolve t)).map fun instructions => ⟨instructions, p.labels⟩

end Program

end Risc16
