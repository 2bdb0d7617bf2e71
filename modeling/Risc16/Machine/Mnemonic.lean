/-!
# The instruction set

The instructions of the machine, grouped by the operands that they take. Opcode 4 is free.
-/

namespace Risc16

/-- The operations on two registers. -/
inductive Alu
  | add | sub | and | or | xor | sr | sl
deriving DecidableEq, Repr

/-- The way of a transfer between a register and a device. -/
inductive Direction
  | input | output
deriving DecidableEq, Repr

/-- What a conditional jump asks of its register. -/
inductive Condition
  | zero | negative
deriving DecidableEq, Repr

/-- The instructions, without their operands. -/
inductive Mnemonic
  | nop
  | alu (op : Alu)
  | inv
  | ldi
  | transfer (way : Direction)
  | branch (condition : Condition)
  | jump
deriving DecidableEq, Repr

/-- What an operand can be. -/
inductive OperandKind
  | register | immediate | label
deriving DecidableEq, Repr

/-- What the instruction does with the operand at a position. A device is given by its number or by
its name, a jump target by its address or by a label. -/
inductive Slot
  | register | immediate | device | target
deriving DecidableEq, Repr

def OperandKind.name : OperandKind → String
  | .register => "register"
  | .immediate => "immediate"
  | .label => "label"

/-- The kinds of operand that a slot takes. The name of a device stands for a number. -/
def Slot.kinds : Slot → List OperandKind
  | .register => [.register]
  | .immediate => [.immediate]
  | .device => [.immediate]
  | .target => [.immediate, .label]

/-- How an instruction lays its operands out in its word. -/
inductive Format
  | empty | registers | register | immediate | device | branch | target
deriving DecidableEq, Repr

/-- The name of the format in the reference table. -/
def Format.name : Format → String
  | .empty => "NONE"
  | .registers => "REG_REG"
  | .register => "REG"
  | .immediate => "REG_IMM"
  | .device => "REG_IO"
  | .branch => "REG_TARGET"
  | .target => "TARGET"

/-- The operands that a format has room for, in order. -/
def Format.slots : Format → List Slot
  | .empty => []
  | .registers => [.register, .register]
  | .register => [.register]
  | .immediate => [.register, .immediate]
  | .device => [.register, .device]
  | .branch => [.register, .target]
  | .target => [.target]

namespace Mnemonic

/-- All instructions, in the order of the reference table. -/
def all : List Mnemonic := [
  .nop, .alu .add, .alu .sub, .alu .and, .alu .or, .alu .xor, .alu .sr, .alu .sl, .inv, .ldi,
  .transfer .input, .transfer .output, .branch .zero, .branch .negative, .jump]

/-- The spelling in source text. -/
def name : Mnemonic → String
  | .nop => "nop"
  | .alu .add => "add"
  | .alu .sub => "sub"
  | .alu .and => "and"
  | .alu .or => "or"
  | .alu .xor => "xor"
  | .alu .sr => "sr"
  | .alu .sl => "sl"
  | .inv => "inv"
  | .ldi => "ldi"
  | .transfer .input => "in"
  | .transfer .output => "out"
  | .branch .zero => "jz"
  | .branch .negative => "jlt"
  | .jump => "j"

def opcode : Mnemonic → Nat
  | .nop => 0
  | .alu .add => 1
  | .ldi => 2
  | .alu .sub => 3
  | .alu .and => 5
  | .alu .or => 6
  | .inv => 7
  | .alu .xor => 8
  | .alu .sr => 9
  | .alu .sl => 10
  | .transfer .input => 11
  | .transfer .output => 12
  | .branch .zero => 13
  | .branch .negative => 14
  | .jump => 15

def format : Mnemonic → Format
  | .nop => .empty
  | .alu _ => .registers
  | .inv => .register
  | .ldi => .immediate
  | .transfer _ => .device
  | .branch _ => .branch
  | .jump => .target

/-- The operands that the instruction takes, in order. -/
def slots (m : Mnemonic) : List Slot :=
  m.format.slots

/-- The number of operands. -/
def arity (m : Mnemonic) : Nat :=
  m.slots.length

/-- What the instruction does, in one line. -/
def description : Mnemonic → String
  | .nop => "no operation"
  | .alu .add => "rA = rA + rB"
  | .alu .sub => "rA = rA - rB"
  | .alu .and => "rA = rA & rB"
  | .alu .or => "rA = rA | rB"
  | .alu .xor => "rA = rA ^ rB"
  | .alu .sr => "rA = rA >> rB"
  | .alu .sl => "rA = rA << rB"
  | .inv => "rA = ~rA"
  | .ldi => "rA = imm8"
  | .transfer .input => "rA = source"
  | .transfer .output => "sink = rA"
  | .branch .zero => "jump to target if rA == 0"
  | .branch .negative => "jump to target if rA < 0"
  | .jump => "jump to target"

/-- Whether the instruction may jump. -/
def isJump (m : Mnemonic) : Bool :=
  m.format == .branch || m.format == .target

/-- Whether the instruction talks to a device. -/
def isTransfer : Mnemonic → Bool
  | .transfer _ => true
  | _ => false

/-- The instruction with this spelling. Capitals make another word. -/
def ofName? (name : String) : Option Mnemonic :=
  all.find? fun m => m.name == name

/-- The instruction with this opcode. -/
def ofOpcode? (opcode : Int) : Option Mnemonic :=
  all.find? fun m => (m.opcode : Int) == opcode

theorem mem_all (m : Mnemonic) : m ∈ all := by
  rcases m with _ | op | _ | _ | way | condition | _
  · decide
  · cases op <;> decide
  · decide
  · decide
  · cases way <;> decide
  · cases condition <;> decide
  · decide

/-- Each instruction is found by its spelling. -/
theorem ofName?_name (m : Mnemonic) : ofName? m.name = some m := by
  have h : ∀ m ∈ all, ofName? m.name = some m := by decide
  exact h m m.mem_all

/-- Each instruction is found by its opcode. -/
theorem ofOpcode?_opcode (m : Mnemonic) : ofOpcode? m.opcode = some m := by
  have h : ∀ m ∈ all, ofOpcode? m.opcode = some m := by decide
  exact h m m.mem_all

/-- The spellings in alphabetical order. -/
def sortedNames : List String := [
  "add", "and", "in", "inv", "j", "jlt", "jz", "ldi", "nop", "or", "out", "sl", "sr", "sub", "xor"]

end Mnemonic

end Risc16
