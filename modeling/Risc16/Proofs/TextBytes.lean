import Mathlib.Data.String.Basic
import Risc16.Text.Utf8
import Risc16.Proofs.Outcome

/-!
# Bytes that are text

The reader of bytes takes one well-formed sequence after another. Each of them is how one character
is written, and each character is written as such a sequence, so the bytes that can be read are
those that a text is written as.

Results:
1. `Text.Utf8.Sequence.encode`, `Text.Utf8.sequence_encode`: well-formed sequences are the
   characters as they are written.
2. `Text.Utf8.decodeFrom_sequence`: the reader takes one sequence, and goes on.
3. `Text.Utf8.decode_ok`: bytes can be read as a text exactly if it is written as them.
-/

namespace Risc16.Text.Utf8

open Outcome

/-! ## Sequences -/

/-- `Sequence bytes n`: a well-formed sequence of bytes, and its code point. -/
inductive Sequence : List UInt8 → Nat → Prop
  | one {a : UInt8} : a.toNat < 0x80 → Sequence [a] a.toNat
  | two {a b : UInt8} :
      0xC2 ≤ a.toNat ∧ a.toNat ≤ 0xDF → isContinuation b = true →
      Sequence [a, b] (a.toNat % 32 * 64 + payload b)
  | three {a b c : UInt8} :
      0xE0 ≤ a.toNat ∧ a.toNat ≤ 0xEF → isSecondOfThree a b = true → isContinuation c = true →
      Sequence [a, b, c] ((a.toNat % 16 * 64 + payload b) * 64 + payload c)
  | four {a b c d : UInt8} :
      0xF0 ≤ a.toNat ∧ a.toNat ≤ 0xF4 → isSecondOfFour a b = true → isContinuation c = true →
      isContinuation d = true →
      Sequence [a, b, c, d] (((a.toNat % 8 * 64 + payload b) * 64 + payload c) * 64 + payload d)

theorem isContinuation_iff {b : UInt8} :
    isContinuation b = true ↔ 0x80 ≤ b.toNat ∧ b.toNat ≤ 0xBF := by
  simp [isContinuation]

theorem isSecondOfThree_iff {a b : UInt8} :
    isSecondOfThree a b = true ↔ (0x80 ≤ b.toNat ∧ b.toNat ≤ 0xBF) ∧
      (a.toNat = 0xE0 → 0xA0 ≤ b.toNat) ∧ (a.toNat = 0xED → b.toNat ≤ 0x9F) := by
  rw [isSecondOfThree, Bool.and_eq_true, decide_eq_true_iff, decide_eq_true_iff]
  split <;> split <;> omega

theorem isSecondOfFour_iff {a b : UInt8} :
    isSecondOfFour a b = true ↔ (0x80 ≤ b.toNat ∧ b.toNat ≤ 0xBF) ∧
      (a.toNat = 0xF0 → 0x90 ≤ b.toNat) ∧ (a.toNat = 0xF4 → b.toNat ≤ 0x8F) := by
  rw [isSecondOfFour, Bool.and_eq_true, decide_eq_true_iff, decide_eq_true_iff]
  split <;> split <;> omega

theorem toNat_ofNat {n : Nat} (h : n.isValidChar) : (Char.ofNat n).toNat = n := by
  rw [Char.ofNat, dif_pos h]
  rfl

theorem exists_byte {n : Nat} (h : n < 256) : ∃ b : UInt8, UInt8.ofNat n = b ∧ b.toNat = n :=
  ⟨_, rfl, UInt8.toNat_ofNat_of_lt h⟩

theorem ofNat_eq {b : UInt8} {n : Nat} (h : n = b.toNat) : UInt8.ofNat n = b := by
  rw [h, UInt8.ofNat_toNat]

/-- A well-formed sequence is how the character of its code point is written. -/
theorem Sequence.encode {bytes : List UInt8} {n : Nat} (h : Sequence bytes n) :
    String.utf8EncodeChar (Char.ofNat n) = bytes := by
  -- In each case the code point is in the range of characters that take so many bytes, and cutting
  -- it gives the bytes back.
  cases h with
  | @one a ha =>
    rw [String.utf8EncodeChar, Char.toNat_val, toNat_ofNat (.inl (by omega)), if_pos (by omega),
      UInt8.ofNat_toNat]
  | @two a b ha hb =>
    rw [isContinuation_iff] at hb
    rw [payload]
    generalize hn : a.toNat % 32 * 64 + b.toNat % 64 = n
    have hrange : 0x80 ≤ n ∧ n < 0x800 := by omega
    have ha : n / 64 % 32 + 192 = a.toNat := by omega
    have hb : n % 64 + 128 = b.toNat := by omega
    rw [String.utf8EncodeChar, Char.toNat_val, toNat_ofNat (.inl (by omega)), if_neg (by omega),
      if_pos (by omega), ofNat_eq ha, ofNat_eq hb]
  | @three a b c ha hb hc =>
    rw [isSecondOfThree_iff] at hb
    rw [isContinuation_iff] at hc
    rw [payload, payload]
    generalize hn : (a.toNat % 16 * 64 + b.toNat % 64) * 64 + c.toNat % 64 = n
    have hrange : 0x800 ≤ n ∧ n < 0x10000 := by omega
    have hvalid : n < 0xD800 ∨ 0xDFFF < n ∧ n < 0x110000 := by omega
    have ha : n / 4096 % 16 + 224 = a.toNat := by omega
    have hb : n / 64 % 64 + 128 = b.toNat := by omega
    have hc : n % 64 + 128 = c.toNat := by omega
    rw [String.utf8EncodeChar, Char.toNat_val, toNat_ofNat hvalid, if_neg (by omega),
      if_neg (by omega), if_pos (by omega), ofNat_eq ha, ofNat_eq hb, ofNat_eq hc]
  | @four a b c d ha hb hc hd =>
    rw [isSecondOfFour_iff] at hb
    rw [isContinuation_iff] at hc hd
    rw [payload, payload, payload]
    generalize hn :
      ((a.toNat % 8 * 64 + b.toNat % 64) * 64 + c.toNat % 64) * 64 + d.toNat % 64 = n
    have hrange : 0x10000 ≤ n ∧ n < 0x110000 := by omega
    have ha : n / 262144 % 8 + 240 = a.toNat := by omega
    have hb : n / 4096 % 64 + 128 = b.toNat := by omega
    have hc : n / 64 % 64 + 128 = c.toNat := by omega
    have hd : n % 64 + 128 = d.toNat := by omega
    rw [String.utf8EncodeChar, Char.toNat_val, toNat_ofNat (.inr (by omega)), if_neg (by omega),
      if_neg (by omega), if_neg (by omega), ofNat_eq ha, ofNat_eq hb, ofNat_eq hc, ofNat_eq hd]

/-- A character is written as a well-formed sequence with its code point. -/
theorem sequence_encode (c : Char) : Sequence (String.utf8EncodeChar c) c.toNat := by
  have hvalid : c.toNat < 0xD800 ∨ 0xDFFF < c.toNat ∧ c.toNat < 0x110000 := c.valid
  rw [String.utf8EncodeChar, Char.toNat_val]
  generalize c.toNat = n at hvalid
  split
  · obtain ⟨a, hofNat, ha⟩ := exists_byte (show n < 256 by omega)
    rw [hofNat, ← ha]
    exact .one (by omega)
  split
  · obtain ⟨a, hfirst, ha⟩ := exists_byte (show n / 64 % 32 + 192 < 256 by omega)
    obtain ⟨b, hsecond, hb⟩ := exists_byte (show n % 64 + 128 < 256 by omega)
    have hn : n = a.toNat % 32 * 64 + payload b := by
      rw [payload]
      omega
    rw [hfirst, hsecond, hn]
    exact .two (by omega) (isContinuation_iff.2 (by omega))
  split
  · obtain ⟨a, hfirst, ha⟩ := exists_byte (show n / 4096 % 16 + 224 < 256 by omega)
    obtain ⟨b, hsecond, hb⟩ := exists_byte (show n / 64 % 64 + 128 < 256 by omega)
    obtain ⟨c, hthird, hc⟩ := exists_byte (show n % 64 + 128 < 256 by omega)
    have hmiddle : isSecondOfThree a b = true := isSecondOfThree_iff.2 (by omega)
    have hn : n = (a.toNat % 16 * 64 + payload b) * 64 + payload c := by
      rw [payload, payload]
      omega
    rw [hfirst, hsecond, hthird, hn]
    exact .three (by omega) hmiddle (isContinuation_iff.2 (by omega))
  · obtain ⟨a, hfirst, ha⟩ := exists_byte (show n / 262144 % 8 + 240 < 256 by omega)
    obtain ⟨b, hsecond, hb⟩ := exists_byte (show n / 4096 % 64 + 128 < 256 by omega)
    obtain ⟨c, hthird, hc⟩ := exists_byte (show n / 64 % 64 + 128 < 256 by omega)
    obtain ⟨d, hfourth, hd⟩ := exists_byte (show n % 64 + 128 < 256 by omega)
    have hmiddle : isSecondOfFour a b = true := isSecondOfFour_iff.2 (by omega)
    have hn : n = ((a.toNat % 8 * 64 + payload b) * 64 + payload c) * 64 + payload d := by
      rw [payload, payload, payload]
      omega
    rw [hfirst, hsecond, hthird, hfourth, hn]
    exact .four (by omega) hmiddle (isContinuation_iff.2 (by omega))
      (isContinuation_iff.2 (by omega))

/-! ## Reading -/

/-- The reader takes one well-formed sequence, and goes on. -/
theorem decodeFrom_sequence {bytes rest : List UInt8} {n position : Nat} (h : Sequence bytes n) :
    decodeFrom position (bytes ++ rest) =
      (decodeFrom (position + bytes.length) rest).map (Char.ofNat n :: ·) := by
  cases h with
  | one ha =>
    rw [List.singleton_append, decodeFrom.eq_def]
    dsimp only
    rw [if_pos ha]
    rfl
  | two ha hb =>
    rw [List.cons_append, List.singleton_append, decodeFrom.eq_def]
    dsimp only
    rw [if_neg (by omega), if_pos ha, if_pos hb]
    rfl
  | three ha hb hc =>
    rw [List.cons_append, List.cons_append, List.singleton_append, decodeFrom.eq_def]
    dsimp only
    rw [if_neg (by omega), if_neg (by omega), if_pos ha, if_pos hb, if_pos hc]
    rfl
  | four ha hb hc hd =>
    rw [List.cons_append, List.cons_append, List.cons_append, List.singleton_append,
      decodeFrom.eq_def]
    dsimp only
    rw [if_neg (by omega), if_neg (by omega), if_neg (by omega), if_pos ha, if_pos hb, if_pos hc,
      if_pos hd]
    rfl

/-- The step: a sequence is in front of bytes that are a text as it is written. -/
theorem eq_encode_cons {bytes rest : List UInt8} {n position : Nat} {text : List Char}
    (hsequence : Sequence bytes n)
    (hrest : ∀ {text}, decodeFrom position rest = .ok text → rest = encode text)
    (h : (decodeFrom position rest).map (Char.ofNat n :: ·) = .ok text) :
    bytes ++ rest = encode text := by
  obtain ⟨text, htext, rfl⟩ := map_ok.1 h
  rw [encode, List.flatMap_cons, hsequence.encode, hrest htext, encode]

theorem eq_encode_of_decodeFrom {bytes : List UInt8} {text : List Char} {position : Nat}
    (h : decodeFrom position bytes = .ok text) : bytes = encode text := by
  fun_induction decodeFrom position bytes generalizing text with
  | case1 =>
    cases h
    rfl
  | case2 position a rest ha ih => exact eq_encode_cons (.one ha) ih h
  | case4 position a _ ha b rest hb ih => exact eq_encode_cons (.two ha hb) ih h
  | case8 position a _ _ ha b hb c rest hc ih => exact eq_encode_cons (.three ha hb hc) ih h
  | case14 position a _ _ _ ha b hb c hc d rest hd ih =>
    exact eq_encode_cons (.four ha hb hc hd) ih h
  | _ => cases h

theorem decodeFrom_encode (text : List Char) (position : Nat) :
    decodeFrom position (encode text) = .ok text := by
  induction text generalizing position with
  | nil => rfl
  | cons c text ih =>
    rw [encode, List.flatMap_cons, decodeFrom_sequence (sequence_encode c), ← encode, ih,
      Char.ofNat_toNat]
    rfl

/-- Bytes can be read as a text exactly if it is written as them. -/
theorem decode_ok {bytes : List UInt8} {text : List Char} :
    decode bytes = .ok text ↔ bytes = encode text := by
  refine ⟨eq_encode_of_decodeFrom, ?_⟩
  rintro rfl
  exact decodeFrom_encode text 0

end Risc16.Text.Utf8
