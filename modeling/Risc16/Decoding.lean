import Risc16.Encoding

/-!
# Decoding

The instruction that a word stands for, read off its fields, and the words that bytes hold.
-/

namespace Risc16

/-- The four bits of the opcode. -/
def opcodeField (word : Nat) : Nat :=
  (word >>> opcodeShift) % (fieldMax + 1)

/-- The four bits of register A. -/
def registerAField (word : Nat) : Nat :=
  (word >>> registerAShift) % (fieldMax + 1)

/-- The four bits of register B, which also hold the number of a device. -/
def registerBField (word : Nat) : Nat :=
  (word >>> registerBShift) % (fieldMax + 1)

/-- The lowest four bits, which an instruction without immediate or target leaves empty. -/
def lowestField (word : Nat) : Nat :=
  word % (fieldMax + 1)

/-- The low byte. -/
def lowByte (word : Nat) : Nat :=
  word % (byteMax + 1)

/-- The low byte as a signed number. -/
def signedLowByte (word : Nat) : Int :=
  if lowByte word ≤ immediateMax then lowByte word else (lowByte word : Int) - (byteMax + 1)

/-- Register A as an operand. -/
def registerAIn (word : Nat) : Operand :=
  .register ⟨registerAField word, Nat.mod_lt _ (by decide)⟩

/-- Register B as an operand. -/
def registerBIn (word : Nat) : Operand :=
  .register ⟨registerBField word, Nat.mod_lt _ (by decide)⟩

/-- The operands of an instruction, read off its word. -/
def Mnemonic.operandsIn (m : Mnemonic) (word : Nat) : List Operand :=
  match m with
  | .nop => []
  | .alu _ => [registerAIn word, registerBIn word]
  | .inv => [registerAIn word]
  | .ldi => [registerAIn word, .immediate (signedLowByte word)]
  | .transfer _ => [registerAIn word, .immediate (registerBField word)]
  | .branch _ => [registerAIn word, .immediate (lowByte word)]
  | .jump => [.immediate (lowByte word)]

/-- The fields of a word that an instruction does not use. -/
def Mnemonic.unusedIn (m : Mnemonic) (word : Nat) : List Nat :=
  match m with
  | .nop => [registerAField word, lowByte word]
  | .alu _ => [lowestField word]
  | .inv => [lowByte word]
  | .ldi => []
  | .transfer _ => [lowestField word]
  | .branch _ => []
  | .jump => [registerAField word]

/-- The instruction of a word with its operands. -/
def decodeWord? (word : Nat) : Option (Mnemonic × List Operand) :=
  (Mnemonic.ofOpcode? (opcodeField word)).map fun m => (m, m.operandsIn word)

/-- The words that bytes hold, two bytes each and the higher first. -/
def wordsOf : List UInt8 → List Nat
  | high :: low :: rest => (high.toNat * (byteMax + 1) + low.toNat) :: wordsOf rest
  | _ => []

end Risc16
