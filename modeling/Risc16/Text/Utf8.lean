/-!
# UTF-8

Text as bytes. Reading fails on the first sequence that is not well formed and says which bytes are
at fault: the longest start of a well-formed sequence that stands there, or one byte that starts no
sequence.
-/

namespace Risc16.Text.Utf8

/-- Why a sequence of bytes is not text. -/
inductive Reason
  /-- The byte starts no sequence. -/
  | start
  /-- The byte after the sequence does not continue it. -/
  | continuation
  /-- The bytes end within the sequence. -/
  | truncated
deriving DecidableEq, Repr

/-- The first malformed sequence: where it starts, how many bytes it has, its first byte, and what
is wrong with it. -/
structure Fault where
  position : Nat
  length : Nat
  byte : UInt8
  reason : Reason
deriving DecidableEq, Repr

/-- Whether a byte continues a sequence. -/
def isContinuation (b : UInt8) : Bool :=
  0x80 ≤ b.toNat && b.toNat ≤ 0xBF

/-- Whether `b` may follow `lead` in a sequence of three bytes. Overlong forms and the range of
surrogates are left out. -/
def isSecondOfThree (lead b : UInt8) : Bool :=
  (if lead.toNat = 0xE0 then 0xA0 else 0x80) ≤ b.toNat &&
    b.toNat ≤ (if lead.toNat = 0xED then 0x9F else 0xBF)

/-- Whether `b` may follow `lead` in a sequence of four bytes. Overlong forms and values past the
last code point are left out. -/
def isSecondOfFour (lead b : UInt8) : Bool :=
  (if lead.toNat = 0xF0 then 0x90 else 0x80) ≤ b.toNat &&
    b.toNat ≤ (if lead.toNat = 0xF4 then 0x8F else 0xBF)

/-- The low six bits of a byte. -/
def payload (b : UInt8) : Nat :=
  b.toNat % 64

/-- Read bytes that start at `position`. -/
def decodeFrom (position : Nat) : List UInt8 → Except Fault (List Char)
  | [] => .ok []
  | a :: rest =>
    if a.toNat < 0x80 then
      (decodeFrom (position + 1) rest).map (Char.ofNat a.toNat :: ·)
    else if 0xC2 ≤ a.toNat ∧ a.toNat ≤ 0xDF then
      match rest with
      | [] => .error ⟨position, 1, a, .truncated⟩
      | b :: rest =>
        if isContinuation b then
          (decodeFrom (position + 2) rest).map (Char.ofNat (a.toNat % 32 * 64 + payload b) :: ·)
        else .error ⟨position, 1, a, .continuation⟩
    else if 0xE0 ≤ a.toNat ∧ a.toNat ≤ 0xEF then
      match rest with
      | [] => .error ⟨position, 1, a, .truncated⟩
      | b :: rest =>
        if isSecondOfThree a b then
          match rest with
          | [] => .error ⟨position, 2, a, .truncated⟩
          | c :: rest =>
            if isContinuation c then
              (decodeFrom (position + 3) rest).map
                (Char.ofNat ((a.toNat % 16 * 64 + payload b) * 64 + payload c) :: ·)
            else .error ⟨position, 2, a, .continuation⟩
        else .error ⟨position, 1, a, .continuation⟩
    else if 0xF0 ≤ a.toNat ∧ a.toNat ≤ 0xF4 then
      match rest with
      | [] => .error ⟨position, 1, a, .truncated⟩
      | b :: rest =>
        if isSecondOfFour a b then
          match rest with
          | [] => .error ⟨position, 2, a, .truncated⟩
          | c :: rest =>
            if isContinuation c then
              match rest with
              | [] => .error ⟨position, 3, a, .truncated⟩
              | d :: rest =>
                if isContinuation d then
                  (decodeFrom (position + 4) rest).map
                    (Char.ofNat
                      (((a.toNat % 8 * 64 + payload b) * 64 + payload c) * 64 + payload d) :: ·)
                else .error ⟨position, 3, a, .continuation⟩
            else .error ⟨position, 2, a, .continuation⟩
        else .error ⟨position, 1, a, .continuation⟩
    else .error ⟨position, 1, a, .start⟩

/-- The text that bytes hold. -/
def decode (bytes : List UInt8) : Except Fault (List Char) :=
  decodeFrom 0 bytes

/-- The bytes of a text. -/
def encode (text : List Char) : List UInt8 :=
  text.flatMap String.utf8EncodeChar

end Risc16.Text.Utf8
