import Risc16.Decoding
import Risc16.Proofs.FieldRange

/-!
# Layout of encoded words

A word is put together by shifts and disjunctions, without any mask. Nothing spills from one field
into another as long as each value stays within its bits, and then every field can be read back.

Results:
1. `Fields.pack_eq_or`: packing by shifts is a sum, so the fields do not overlap.
2. `Operation.encode_readsBack`: on a machine that can be built, the word of an operation decodes to
   the operation, and the bits that it does not use are zero.
3. `imageOf_ok`, `wordsOf_flatMap_wordBytesOf`: words of 16 bits have an image, from which they can
   be read back.
-/

namespace Risc16

open Outcome

/-! ## Fields -/

/-- What a word holds: an instruction, the bits of register A and the low byte. -/
structure Fields where
  mnemonic : Mnemonic
  a : Register
  low : Fin (byteMax + 1)

theorem Mnemonic.opcode_le (m : Mnemonic) : m.opcode ≤ fieldMax := by
  have h : ∀ m ∈ all, m.opcode ≤ fieldMax := by decide
  exact h m m.mem_all

namespace Fields

/-- The word with these fields. -/
def pack (f : Fields) : Nat :=
  4096 * f.mnemonic.opcode + 256 * f.a.val + f.low.val

theorem a_le (f : Fields) : f.a.val ≤ 15 :=
  Nat.le_of_lt_succ f.a.isLt

theorem low_le (f : Fields) : f.low.val ≤ 255 :=
  Nat.le_of_lt_succ f.low.isLt

/-- Each field stays below the lowest bit of the next one, so that the disjunction is a sum. -/
theorem pack_eq_or (f : Fields) (location : Location) :
    f.pack = f.mnemonic.wordWith ⟨f.a, location⟩ ||| f.low.val := by
  have ha := f.a_le
  have hlow : f.low.val < 2 ^ 8 := Nat.lt_succ_of_le f.low_le
  have hbyte : f.a.val <<< 8 + f.low.val < 2 ^ 12 := by
    rw [Nat.shiftLeft_eq]
    omega
  simp only [Mnemonic.wordWith, Mnemonic.word, opcodeShift, registerAShift]
  -- From the lowest field up: each disjunction has nothing to carry into the field above.
  rw [Nat.or_assoc, ← Nat.shiftLeft_add_eq_or_of_lt hlow, ← Nat.shiftLeft_add_eq_or_of_lt hbyte,
    Nat.shiftLeft_eq, Nat.shiftLeft_eq, pack]
  omega

/-- The word of an instruction without registers. -/
theorem pack_eq_word_or (m : Mnemonic) (low : Fin (byteMax + 1)) :
    pack ⟨m, ⟨0, by decide⟩, low⟩ = m.word ||| low.val := by
  rw [pack_eq_or _ ⟨"", 0, 0⟩, Mnemonic.wordWith, Nat.zero_shiftLeft, Nat.or_zero]

theorem pack_le (f : Fields) : f.pack ≤ wordMax := by
  have hopcode : f.mnemonic.opcode ≤ 15 := f.mnemonic.opcode_le
  have ha := f.a_le
  have hlow := f.low_le
  show f.pack ≤ 65535
  unfold pack
  omega

@[simp]
theorem opcodeField_pack (f : Fields) : opcodeField f.pack = f.mnemonic.opcode := by
  have hopcode : f.mnemonic.opcode ≤ 15 := f.mnemonic.opcode_le
  have ha := f.a_le
  have hlow := f.low_le
  simp only [opcodeField, opcodeShift, fieldMax, Nat.shiftRight_eq_div_pow, pack]
  omega

@[simp]
theorem registerAField_pack (f : Fields) : registerAField f.pack = f.a.val := by
  have ha := f.a_le
  have hlow := f.low_le
  simp only [registerAField, registerAShift, fieldMax, Nat.shiftRight_eq_div_pow, pack]
  omega

@[simp]
theorem registerBField_pack (f : Fields) : registerBField f.pack = f.low.val / 16 := by
  have hlow := f.low_le
  simp only [registerBField, registerBShift, fieldMax, Nat.shiftRight_eq_div_pow, pack]
  omega

@[simp]
theorem lowestField_pack (f : Fields) : lowestField f.pack = f.low.val % 16 := by
  simp only [lowestField, fieldMax, pack]
  omega

@[simp]
theorem lowByte_pack (f : Fields) : lowByte f.pack = f.low.val := by
  have hlow := f.low_le
  simp only [lowByte, byteMax, pack]
  omega

@[simp]
theorem registerAIn_pack (f : Fields) : registerAIn f.pack = .register f.a := by
  simp only [registerAIn, registerAField_pack]

theorem registerBIn_pack {f : Fields} {b : Register} (hlow : f.low.val = 16 * b.val) :
    registerBIn f.pack = .register b := by
  have hb : f.low.val / 16 = b.val := by omega
  simp only [registerBIn, registerBField_pack, hb]

theorem decodeWord?_pack (f : Fields) :
    decodeWord? f.pack = some (f.mnemonic, f.mnemonic.operandsIn f.pack) := by
  rw [decodeWord?, opcodeField_pack, Mnemonic.ofOpcode?_opcode, Option.map_some]

end Fields

/-! ## Operations -/

/-- A word tells an operation: it has 16 bits, decodes to the instruction and its operands, and the
fields that the instruction does not use are zero. -/
structure Operation.ReadsBack (o : Operation) (word : Nat) : Prop where
  word_le : word ≤ wordMax
  decoded : decodeWord? word = some (o.mnemonic, o.operands.map Located.value)
  unused : ∀ field ∈ o.mnemonic.unusedIn word, field = 0

/-- The low byte of a jump is its target. -/
theorem Operation.ReadsBack.lowByte_eq {o : Operation} {word : Nat} {target : Located Target}
    {address : Int} (h : o.ReadsBack word) (htarget : o.target? = some target)
    (haddress : target.value = .address address) : (lowByte word : Int) = address := by
  have hdecoded := h.decoded
  rw [decodeWord?, Option.map_eq_some_iff] at hdecoded
  obtain ⟨m, _, hm⟩ := hdecoded
  obtain ⟨rfl, hoperands⟩ := Prod.mk.inj hm
  cases o with
  | branch condition a target' =>
    cases htarget
    have hboth : registerAIn word = .register a.value ∧ (lowByte word : Int) = address := by
      simpa [mnemonic, operands, Mnemonic.operandsIn, haddress, Target.operand] using hoperands
    exact hboth.2
  | jump target' =>
    cases htarget
    simpa [mnemonic, operands, Mnemonic.operandsIn, haddress, Target.operand] using hoperands
  | _ => cases htarget

/-- A word with the right fields tells the operation. -/
theorem Operation.readsBack_pack {o : Operation} {f : Fields} (hmnemonic : f.mnemonic = o.mnemonic)
    (hoperands : o.mnemonic.operandsIn f.pack = o.operands.map Located.value)
    (hunused : ∀ field ∈ o.mnemonic.unusedIn f.pack, field = 0) : o.ReadsBack f.pack where
  word_le := f.pack_le
  decoded := by rw [f.decodeWord?_pack, hmnemonic, hoperands]
  unused := hunused

/-- The low byte of an immediate reads back as the immediate. -/
theorem signedLowByte_pack {f : Fields} {value : Int} (hmin : -128 ≤ value) (hmax : value ≤ 127)
    (hlow : f.low.val = (value % 256).toNat) : signedLowByte f.pack = value := by
  simp only [signedLowByte, Fields.lowByte_pack, hlow, immediateMax, byteMax]
  split <;> omega

/-- Targets have eight bits on a machine that can be built. -/
theorem target_lt_of_isValid {s : Settings} {n : Nat} (hvalid : s.isValid = true)
    (h : (n : Int) < s.capacity) : n < byteMax + 1 := by
  have hmax := (Settings.isValid_iff.1 hvalid).2
  show n < 256
  omega

/-- The word of an operation tells the operation. Each case names the fields of the word: how the
low byte is filled is what sets the cases apart. -/
theorem Operation.encode_readsBack {s : Settings} {o : Operation} {word : Nat}
    (hvalid : s.isValid = true) (h : o.encode s = .ok word) : o.ReadsBack word := by
  cases o with
  | nop =>
    cases h
    have hword := Fields.pack_eq_word_or .nop ⟨0, by decide⟩
    rw [Nat.or_zero] at hword
    rw [mnemonic, ← hword]
    exact readsBack_pack rfl rfl (by simp [mnemonic, Mnemonic.unusedIn])
  | alu op a b =>
    cases h
    have hb : b.value.val < 16 := b.value.isLt
    have hlow : b.value.val <<< registerBShift = 16 * b.value.val := by
      rw [registerBShift, Nat.shiftLeft_eq]
      omega
    have hword := Fields.pack_eq_or
      ⟨.alu op, a.value, ⟨16 * b.value.val, show 16 * b.value.val < 256 by omega⟩⟩ a.location
    rw [hlow, mnemonic, ← hword]
    refine readsBack_pack rfl ?_ ?_
    · simp only [mnemonic, Mnemonic.operandsIn, operands, Fields.registerAIn_pack, List.map_cons,
        List.map_nil]
      rw [Fields.registerBIn_pack rfl]
    · simp [mnemonic, Mnemonic.unusedIn]
  | inv a =>
    cases h
    have hword := Fields.pack_eq_or ⟨.inv, a.value, ⟨0, by decide⟩⟩ a.location
    rw [Nat.or_zero] at hword
    rw [mnemonic, ← hword]
    refine readsBack_pack rfl ?_ ?_
    · simp [mnemonic, Mnemonic.operandsIn, operands]
    · simp [mnemonic, Mnemonic.unusedIn]
  | ldi a value =>
    obtain ⟨n, hn, rfl⟩ := map_ok.1 h
    obtain ⟨⟨hmin, hmax⟩, rfl⟩ := encodeImmediate_ok.1 hn
    have hword := Fields.pack_eq_or ⟨.ldi, a.value, ⟨(value.value % 256).toNat,
      show (value.value % 256).toNat < 256 by omega⟩⟩ a.location
    rw [mnemonic, ← hword]
    refine readsBack_pack rfl ?_ ?_
    · simp [mnemonic, Mnemonic.operandsIn, operands, signedLowByte_pack hmin hmax]
    · simp [mnemonic, Mnemonic.unusedIn]
  | transfer way a device =>
    obtain ⟨n, hn, rfl⟩ := map_ok.1 h
    obtain ⟨hdevice, hmax⟩ := encodeDevice_ok hn
    have hlow : n <<< deviceShift = 16 * n := by
      rw [deviceShift, Nat.shiftLeft_eq]
      omega
    have hword := Fields.pack_eq_or
      ⟨.transfer way, a.value, ⟨16 * n, show 16 * n < 256 by omega⟩⟩ a.location
    rw [hlow, mnemonic, ← hword]
    refine readsBack_pack rfl ?_ ?_
    · simp [mnemonic, Mnemonic.operandsIn, operands, hdevice]
    · simp [mnemonic, Mnemonic.unusedIn]
  | branch condition a target =>
    obtain ⟨n, hn, rfl⟩ := map_ok.1 h
    obtain ⟨htarget, hmax⟩ := encodeTarget_ok.1 hn
    have hword := Fields.pack_eq_or
      ⟨.branch condition, a.value, ⟨n, target_lt_of_isValid hvalid hmax⟩⟩ a.location
    rw [mnemonic, ← hword]
    refine readsBack_pack rfl ?_ ?_
    · simp [mnemonic, Mnemonic.operandsIn, operands, htarget, Target.operand]
    · simp [mnemonic, Mnemonic.unusedIn]
  | jump target =>
    obtain ⟨n, hn, rfl⟩ := map_ok.1 h
    obtain ⟨htarget, hmax⟩ := encodeTarget_ok.1 hn
    have hword := Fields.pack_eq_word_or .jump ⟨n, target_lt_of_isValid hvalid hmax⟩
    rw [mnemonic, ← hword]
    refine readsBack_pack rfl ?_ ?_
    · simp [mnemonic, Mnemonic.operandsIn, operands, htarget, Target.operand]
    · simp [mnemonic, Mnemonic.unusedIn]

/-! ## Images -/

theorem imageOf_ok {words : List Nat} (h : ∀ word ∈ words, word ≤ wordMax) :
    imageOf words = .ok (words.flatMap wordBytesOf) := by
  have hfind : words.find? (wordMax < ·) = none := by
    rw [List.find?_eq_none]
    intro word hword
    have := h word hword
    simpa using this
  simp only [imageOf, hfind]

theorem length_flatMap_wordBytesOf (words : List Nat) :
    (words.flatMap wordBytesOf).length = 2 * words.length := by
  induction words with
  | nil => rfl
  | cons word words ih =>
    rw [List.flatMap_cons, List.length_append, ih, List.length_cons, wordBytesOf]
    simp only [List.length_cons, List.length_nil]
    omega

/-- Both bytes of a word come back, for its high byte fits a byte too. -/
theorem wordsOf_flatMap_wordBytesOf {words : List Nat} (h : ∀ word ∈ words, word ≤ wordMax) :
    wordsOf (words.flatMap wordBytesOf) = words := by
  induction words with
  | nil => rfl
  | cons word words ih =>
    have hword : word ≤ 65535 := h word List.mem_cons_self
    have hrest := ih fun w hw => h w (List.mem_cons_of_mem word hw)
    simp only [List.flatMap_cons, wordBytesOf, List.cons_append, List.nil_append, wordsOf, hrest,
      byteMax, UInt8.toNat_ofNat']
    congr 1
    omega

end Risc16
