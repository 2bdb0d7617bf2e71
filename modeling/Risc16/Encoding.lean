import Risc16.Program
import Risc16.Settings

/-!
# Encoding

The word of an instruction. Each value is checked against the range of its field and then put
there; nothing is cut off to make it fit. The range of jump targets is the capacity of the
settings, so with a capacity beyond the largest memory a word can outgrow its 16 bits.
-/

namespace Risc16

/-- The low byte of an immediate. -/
def encodeImmediate (value : Located Int) : Except (Located Cause) Nat :=
  if immediateMin ≤ value.value ∧ value.value ≤ immediateMax then
    .ok (value.value % (byteMax + 1)).toNat
  else .error ⟨.range (.immediate value.value), value.location⟩

/-- The address of a jump target. A label that is still there is undefined. -/
def encodeTarget (s : Settings) : Located Target → Except (Located Cause) Nat
  | ⟨.address value, location⟩ =>
    if 0 ≤ value ∧ value < s.capacity then .ok value.toNat
    else .error ⟨.range (.target value s.capacity), location⟩
  | ⟨.label name, location⟩ => .error ⟨.undefinedLabel name [], location⟩

/-- The number of a device. -/
def encodeDevice (s : Settings) (way : Direction) (device : Located Int) :
    Except (Located Cause) Nat :=
  if 0 ≤ device.value ∧ device.value ≤ deviceMax then
    if s.strictDevices ∧ device.value.toNat ∉ way.deviceNumbers then
      .error ⟨.range (.unwired way device.value), device.location⟩
    else .ok device.value.toNat
  else .error ⟨.range (.device way device.value), device.location⟩

/-- The word with an opcode and nothing else. -/
def Mnemonic.word (m : Mnemonic) : Nat :=
  m.opcode <<< opcodeShift

/-- The word with an opcode and register A. -/
def Mnemonic.wordWith (m : Mnemonic) (a : Located Register) : Nat :=
  m.word ||| a.value.val <<< registerAShift

/-- The word of an operation. -/
def Operation.encode (s : Settings) (o : Operation) : Except (Located Cause) Nat :=
  match o with
  | .nop => .ok o.mnemonic.word
  | .alu _ a b => .ok (o.mnemonic.wordWith a ||| b.value.val <<< registerBShift)
  | .inv a => .ok (o.mnemonic.wordWith a)
  | .ldi a value => (encodeImmediate value).map (o.mnemonic.wordWith a ||| ·)
  | .transfer way a device =>
    (encodeDevice s way device).map fun n => o.mnemonic.wordWith a ||| n <<< deviceShift
  | .branch _ a target => (encodeTarget s target).map (o.mnemonic.wordWith a ||| ·)
  | .jump target => (encodeTarget s target).map (o.mnemonic.word ||| ·)

/-- The word of an instruction. -/
def Instruction.encode (s : Settings) (i : Instruction) : Except Diagnostic Nat :=
  (i.operation.encode s).mapError fun cause =>
    ⟨cause.value, some cause.location, some i.sourceLine⟩

/-- The two bytes of a word, the higher first. -/
def wordBytesOf (word : Nat) : List UInt8 :=
  [UInt8.ofNat (word / (byteMax + 1)), UInt8.ofNat (word % (byteMax + 1))]

/-- The bytes of words, or the first word that does not fit 16 bits. -/
def imageOf (words : List Nat) : Except Nat (List UInt8) :=
  match words.find? (wordMax < ·) with
  | some word => .error word
  | none => .ok (words.flatMap wordBytesOf)

end Risc16
