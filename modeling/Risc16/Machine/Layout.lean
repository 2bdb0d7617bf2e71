/-!
# Layout of an instruction word

A word has 16 bits: the opcode in the highest four, then register A in four. The low byte holds
register B or a device number in its upper half, or an immediate, or a jump target.
-/

namespace Risc16

def wordBits : Nat := 16

def wordBytes : Nat := wordBits / 8

/-- The greatest value of a word. -/
def wordMax : Nat := (1 <<< wordBits) - 1

def registerCount : Nat := 16

def opcodeShift : Nat := 12

def registerAShift : Nat := 8

def registerBShift : Nat := 4

def deviceShift : Nat := 4

/-- The greatest value of a field of four bits. -/
def fieldMax : Nat := 15

/-- The greatest value of the low byte. -/
def byteMax : Nat := 255

/-- The least immediate: immediates are signed bytes. -/
def immediateMin : Int := -128

/-- The greatest immediate. -/
def immediateMax : Int := 127

/-- The greatest device number. -/
def deviceMax : Nat := fieldMax

/-- The number of a register. -/
abbrev Register : Type := Fin registerCount

/-- Whether a number names a register. -/
def isRegisterNumber (n : Int) : Bool :=
  0 ≤ n && n < registerCount

end Risc16
