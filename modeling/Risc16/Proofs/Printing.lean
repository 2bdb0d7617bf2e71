import Risc16.Proofs.Reading
import Risc16.Proofs.ReportFaults
import Risc16.Proofs.Spelling

/-!
# Printed operations

Every operation without labels can be written as a line of source text, and the line spells that
operation again: the printer writes words that the reader of words takes as they are, with white
space and commas where the reader of operands wants them. Only the places are new.

Results:
1. `Text.readDigits?_toDigits`, `Text.Writable.of_readDigits?`: numbers that are read can be written
   and read again.
2. `Operand.spells_render`: the word of an operand spells it.
3. `SourceLine.runPieces_operands`: so does the text of a list of operands.
4. `Operation.exists_spelledLine`: the line of an operation spells it.
-/

namespace Risc16

/-! ## Numerals -/

namespace Text

theorem isNumeral_toDigits (n : Nat) : Word.isNumeral (Nat.toDigits 10 n) = true := by
  refine Word.isNumeral_iff.2 ⟨Nat.toDigits_ne_nil, ?_⟩
  intro c hc
  exact Nat.isDigit_of_mem_toDigits (by decide) (by decide) hc

theorem readDigits?_toDigits {n : Nat} (h : Writable n) :
    readDigits? (Nat.toDigits 10 n) = some n := by
  have hread : readDigits? (Nat.toDigits 10 n) = some (Nat.ofDigitChars 10 (Nat.toDigits 10 n) 0) :=
    if_pos h
  rw [hread, Nat.ofDigitChars_ten_toDigits]

theorem digit_le {c : Char} (h : c.isDigit = true) : c.toNat - '0'.toNat ≤ 9 := by
  have hle : c.toNat ≤ '9'.toNat := (Char.isDigit_iff_toNat.1 h).2
  exact Nat.sub_le_sub_right hle '0'.toNat

/-- A number has no more digits than any numeral for it. -/
theorem length_toDigits_le {digits : List Char} (h : Word.isNumeral digits = true) :
    (Nat.toDigits 10 (Nat.ofDigitChars 10 digits 0)).length ≤ digits.length := by
  obtain ⟨hne, hdigits⟩ := Word.isNumeral_iff.1 h
  rw [Nat.length_toDigits_le_iff (by decide) (List.length_pos_iff.2 hne)]
  -- With what was read before, so that the induction can go through the digits from the left.
  have hbound : ∀ init, Nat.ofDigitChars 10 digits init < (init + 1) * 10 ^ digits.length := by
    clear hne h
    induction digits with
    | nil => simp
    | cons c digits ih =>
      intro init
      have hc := digit_le (hdigits c List.mem_cons_self)
      have hstep := ih (fun d hd => hdigits d (List.mem_cons_of_mem c hd))
        (10 * init + (c.toNat - '0'.toNat))
      calc Nat.ofDigitChars 10 (c :: digits) init
          = Nat.ofDigitChars 10 digits (10 * init + (c.toNat - '0'.toNat)) :=
            Nat.ofDigitChars_cons
        _ < (10 * init + (c.toNat - '0'.toNat) + 1) * 10 ^ digits.length := hstep
        _ ≤ ((init + 1) * 10) * 10 ^ digits.length := Nat.mul_le_mul_right _ (by omega)
        _ = (init + 1) * 10 ^ (c :: digits).length := by
            rw [List.length_cons, Nat.pow_succ, Nat.mul_assoc, Nat.mul_comm 10]
  simpa using hbound 0

theorem Writable.of_readDigits? {digits : List Char} {n : Nat} (h : Word.isNumeral digits = true)
    (hread : readDigits? digits = some n) : Writable n := by
  unfold readDigits? at hread
  split at hread
  · next hlength =>
    cases hread
    exact Nat.le_trans (length_toDigits_le h) hlength
  · cases hread

end Text

/-! ## Operands -/

namespace Operand

/-- The token that the word of an operand is. -/
def lexeme : Operand → Lexeme
  | .register number => .register number.val
  | .immediate value => .immediate value
  | .label name => .label name

/-- An operand that can be printed and read again: a register, or a number that is not too long. -/
def Printable : Operand → Prop
  | .register _ => True
  | .immediate value => Text.Writable value.natAbs
  | .label _ => False

theorem toList_render_register (r : Register) :
    (Operand.register r).render.toList = 'r' :: Nat.toDigits 10 r.val := by
  have hrender : (Operand.register r).render = "r" ++ toString r.val := rfl
  rw [hrender, String.toList_append, Nat.toString_eq_ofList_toDigits, String.toList_ofList,
    String.toList_ofList]
  rfl

theorem toList_render_immediate (value : Int) :
    (Operand.immediate value).render.toList =
      if 0 ≤ value then Nat.toDigits 10 value.natAbs
      else '-' :: Nat.toDigits 10 value.natAbs := by
  rw [render, Int.toString_eq_repr, Int.repr_eq_if]
  split
  · next h =>
    have habs : value.toNat = value.natAbs := by omega
    rw [Nat.toList_repr, habs]
  · next h =>
    have habs : (-value).toNat = value.natAbs := by omega
    rw [String.toList_append, Nat.toList_repr, habs]
    rfl

theorem writable_register (r : Register) : Text.Writable r.val := by
  have hlength : (Nat.toDigits 10 r.val).length ≤ 2 := by
    revert r
    decide
  exact Nat.le_trans hlength (by decide)

/-- The word of an operand spells it. -/
theorem spells_render {operand : Operand} (h : operand.Printable) :
    Word.Spells false operand.render.toList operand.lexeme := by
  cases operand with
  | register r =>
    rw [toList_render_register]
    exact .register (Text.isNumeral_toDigits _) (Text.readDigits?_toDigits (writable_register r))
  | immediate value =>
    have hread := Text.readDigits?_toDigits h
    have hnumeral := Text.isNumeral_toDigits value.natAbs
    rw [toList_render_immediate]
    split
    · next hpos =>
      have hvalue : value = (value.natAbs : Int) := by omega
      rw [lexeme]
      nth_rewrite 2 [hvalue]
      exact .natural hnumeral hread
    · next hneg =>
      have hvalue : value = -(value.natAbs : Int) := by omega
      rw [lexeme]
      nth_rewrite 2 [hvalue]
      exact .negative hnumeral hread
  | label name => exact h.elim

theorem isPlain_of_mem_toDigits {n : Nat} {c : Char} (h : c ∈ Nat.toDigits 10 n) :
    Text.isPlain c = true := by
  have hdigit := Nat.isDigit_of_mem_toDigits (by decide) (by decide) h
  exact Word.isPlain_of_isNameChar (Word.isNameChar_of_isDigit hdigit)

theorem isPlain_render {operand : Operand} (h : operand.Printable) :
    ∀ c ∈ operand.render.toList, Text.isPlain c = true := by
  intro c hc
  cases operand with
  | register r =>
    rw [toList_render_register] at hc
    rcases List.mem_cons.1 hc with rfl | hc
    · decide
    · exact isPlain_of_mem_toDigits hc
  | immediate value =>
    rw [toList_render_immediate] at hc
    split at hc
    · exact isPlain_of_mem_toDigits hc
    · rcases List.mem_cons.1 hc with rfl | hc
      · decide
      · exact isPlain_of_mem_toDigits hc
  | label name => exact h.elim

theorem fullWord_render {operand : Operand} {rest : List Char} (h : operand.Printable)
    (hrest : Text.Breaks rest) : FullWord operand.render.toList rest := by
  refine .of_plain ?_ (isPlain_render h) hrest
  intro hnil
  have hspells := spells_render h
  rw [hnil] at hspells
  have hclassify := Word.classify_ok.2 hspells
  cases hclassify

/-- Operands as source text, with commas between them. -/
def text (operands : List Operand) : List Char :=
  [',', ' '].intercalate (operands.map fun operand => operand.render.toList)

theorem text_singleton (operand : Operand) : text [operand] = operand.render.toList ++ [] := by
  rw [List.append_nil]
  exact List.intercalate_singleton

theorem text_cons_cons (operand next : Operand) (operands : List Operand) :
    text (operand :: next :: operands) =
      operand.render.toList ++ ',' :: ' ' :: text (next :: operands) := by
  rw [text, List.map_cons, List.map_cons, List.intercalate_cons_cons, List.append_assoc]
  rfl

/-- Between operands stand commas and spaces, and within them no white space. -/
theorem isBlank_of_mem_text {operands : List Operand}
    (h : ∀ operand ∈ operands, operand.Printable) {c : Char} (hc : c ∈ text operands) :
    c = ' ' ∨ Text.isBlank c = false := by
  induction operands with
  | nil => cases hc
  | cons operand operands ih =>
    have hoperand : ∀ c ∈ operand.render.toList, c = ' ' ∨ Text.isBlank c = false := fun c hc =>
      .inr (Text.isPlain_iff.1 (isPlain_render (h operand List.mem_cons_self) c hc)).1
    cases operands with
    | nil =>
      rw [text_singleton, List.append_nil] at hc
      exact hoperand c hc
    | cons next operands =>
      rw [text_cons_cons] at hc
      rcases List.mem_append.1 hc with hc | hc
      · exact hoperand c hc
      · rcases List.mem_cons.1 hc with rfl | hc
        · exact .inr (by decide)
        · rcases List.mem_cons.1 hc with rfl | hc
          · exact .inl rfl
          · exact ih (fun operand' h' => h operand' (List.mem_cons_of_mem operand h')) hc

end Operand

/-! ## Lines -/

namespace SourceLine

/-- A word in front of a text is the first token of its line. -/
theorem runPieces_word {line : SourceLine} {leading : Bool} {column : Nat}
    {word rest : List Char} {lexeme : Lexeme} (hword : FullWord word rest)
    (hspells : Word.Spells leading word lexeme) :
    line.runPieces leading (Piece.cut column (word ++ rest)) =
      ⟨⟨lexeme, line.place column⟩ ::
        (line.runPieces (leading && lexeme.keepsLeading)
          (Piece.cut (column + word.length) rest)).tokens,
        (line.runPieces (leading && lexeme.keepsLeading)
          (Piece.cut (column + word.length) rest)).fault?⟩ := by
  have hclassify : Piece.classify leading ⟨column, word⟩ = .ok lexeme := by
    rw [Piece.classify, if_neg hword.ne_comma]
    exact Word.classify_ok.2 hspells
  rw [Piece.cut_word hword, runPieces, hclassify]

theorem runPieces_blank {line : SourceLine} {leading : Bool} {column : Nat} {rest : List Char} :
    line.runPieces leading (Piece.cut column (' ' :: rest)) =
      line.runPieces leading (Piece.cut (column + 1) rest) := by
  rw [Piece.cut_blank (by decide)]

theorem runPieces_comma {line : SourceLine} {column : Nat} {rest : List Char} :
    line.runPieces false (Piece.cut column (',' :: rest)) =
      ⟨⟨.comma, line.place column⟩ :: (line.runPieces false (Piece.cut (column + 1) rest)).tokens,
        (line.runPieces false (Piece.cut (column + 1) rest)).fault?⟩ := by
  rw [Piece.cut_comma]
  rfl

/-- The text of operands gives their tokens, in the slots that take them. -/
theorem runPieces_operands {line : SourceLine} {m : Mnemonic} {slots : List Slot}
    {operands : List Operand}
    (hgives : List.Forall₂ (fun slot operand => Gives m slot operand.lexeme operand) slots operands)
    (hprintable : ∀ operand ∈ operands, operand.Printable) (column : Nat) :
    ∃ tokens located,
      line.runPieces false (Piece.cut column (Operand.text operands)) =
        ⟨tokens ++ [line.endToken], none⟩ ∧
      located.map Located.value = operands ∧ OperandTokens m slots tokens located := by
  induction hgives generalizing column with
  | nil => exact ⟨[], [], rfl, rfl, .none⟩
  | @cons slot operand slots operands hgive hrest ih =>
    have hoperand := hprintable operand List.mem_cons_self
    have hmore : ∀ operand' ∈ operands, operand'.Printable :=
      fun operand' h => hprintable operand' (List.mem_cons_of_mem operand h)
    have hspells := Operand.spells_render hoperand
    cases hrest with
    | nil =>
      have hword : FullWord operand.render.toList [] :=
        Operand.fullWord_render hoperand (by simp [Text.Breaks])
      refine ⟨[⟨operand.lexeme, line.place column⟩], [⟨operand, line.place column⟩], ?_, rfl,
        .last hgive⟩
      rw [Operand.text_singleton, runPieces_word hword hspells]
      rfl
    | @cons next operand' slots operands hnext hrest =>
      have hword : FullWord operand.render.toList
          (',' :: ' ' :: Operand.text (operand' :: operands)) :=
        Operand.fullWord_render hoperand (by simp [Text.Breaks])
      obtain ⟨tokens, located, hrun, hvalues, htokens⟩ :=
        ih hmore (column + operand.render.toList.length + 1 + 1)
      refine ⟨⟨operand.lexeme, line.place column⟩ ::
        ⟨.comma, line.place (column + operand.render.toList.length)⟩ :: tokens,
        ⟨operand, line.place column⟩ :: located, ?_, ?_, .more hgive rfl htokens⟩
      · rw [Operand.text_cons_cons, runPieces_word hword hspells, Bool.false_and, runPieces_comma,
          runPieces_blank, hrun]
        rfl
      · rw [List.map_cons, hvalues]

end SourceLine

/-! ## Operations -/

/-- The name of an instruction spells it in front of a line. -/
theorem Mnemonic.spells_name (m : Mnemonic) :
    Word.Spells true m.name.toList (.mnemonic m.name) := by
  have hall : ∀ m ∈ all, Word.isName m.name.toList = true ∧
      Word.registerDigits? m.name.toList = none := by decide
  obtain ⟨hname, hregister⟩ := hall m m.mem_all
  have hspells : Word.Spells true m.name.toList (.mnemonic (String.ofList m.name.toList)) :=
    .mnemonic rfl hname hregister
  rwa [String.ofList_toList] at hspells

theorem Mnemonic.isPlain_name (m : Mnemonic) : ∀ c ∈ m.name.toList, Text.isPlain c = true := by
  have hall : ∀ m ∈ all, m.name.toList.all Text.isPlain = true := by decide
  exact List.all_eq_true.1 (hall m m.mem_all)

theorem Mnemonic.fullWord_name (m : Mnemonic) {rest : List Char} (hrest : Text.Breaks rest) :
    FullWord m.name.toList rest := by
  have hall : ∀ m ∈ all, m.name.toList ≠ [] := by decide
  exact .of_plain (hall m m.mem_all) m.isPlain_name hrest

namespace Operation

/-- The operation with its first operand at `p` and its second at `q`. -/
def placed (p q : Location) : Operation → Operation
  | .nop => .nop
  | .alu op a b => .alu op ⟨a.value, p⟩ ⟨b.value, q⟩
  | .inv a => .inv ⟨a.value, p⟩
  | .ldi a value => .ldi ⟨a.value, p⟩ ⟨value.value, q⟩
  | .transfer way a device => .transfer way ⟨a.value, p⟩ ⟨device.value, q⟩
  | .branch condition a target => .branch condition ⟨a.value, p⟩ ⟨target.value, q⟩
  | .jump target => .jump ⟨target.value, p⟩

/-- The operands without their places. -/
def values (o : Operation) : List Operand :=
  o.operands.map Located.value

@[simp]
theorem mnemonic_placed (p q : Location) (o : Operation) :
    (o.placed p q).mnemonic = o.mnemonic := by
  cases o <;> rfl

@[simp]
theorem values_placed (p q : Location) (o : Operation) : (o.placed p q).values = o.values := by
  cases o <;> rfl

theorem eq_one_of_map {located : List (Located Operand)} {a : Operand}
    (h : located.map Located.value = [a]) : ∃ p, located = [⟨a, p⟩] := by
  obtain ⟨⟨value, p⟩, rest, rfl, rfl, hrest⟩ := List.map_eq_cons_iff.1 h
  cases List.map_eq_nil_iff.1 hrest
  exact ⟨p, rfl⟩

theorem eq_two_of_map {located : List (Located Operand)} {a b : Operand}
    (h : located.map Located.value = [a, b]) : ∃ p q, located = [⟨a, p⟩, ⟨b, q⟩] := by
  obtain ⟨⟨value, p⟩, rest, rfl, rfl, hrest⟩ := List.map_eq_cons_iff.1 h
  obtain ⟨q, rfl⟩ := eq_one_of_map hrest
  exact ⟨p, q, rfl⟩

/-- Operands of the same values are those of the operation, at their places. -/
theorem exists_placed {o : Operation} {located : List (Located Operand)}
    (h : located.map Located.value = o.values) : ∃ p q, (o.placed p q).operands = located := by
  cases o with
  | nop =>
    cases List.map_eq_nil_iff.1 h
    exact ⟨⟨"", 0, 0⟩, ⟨"", 0, 0⟩, rfl⟩
  | inv a | jump target =>
    obtain ⟨p, rfl⟩ := eq_one_of_map h
    exact ⟨p, p, rfl⟩
  | alu op a b | ldi a value | transfer way a device | branch condition a target =>
    obtain ⟨p, q, rfl⟩ := eq_two_of_map h
    exact ⟨p, q, rfl⟩

theorem gives_values (o : Operation) :
    List.Forall₂ (fun slot operand => Gives o.mnemonic slot operand.lexeme operand)
      o.mnemonic.slots o.values := by
  cases o with
  | nop => exact .nil
  | alu op a b => exact .cons (.register _) (.cons (.register _) .nil)
  | inv a => exact .cons (.register _) .nil
  | ldi a value => exact .cons (.register _) (.cons (.immediate _) .nil)
  | transfer way a device => exact .cons (.register _) (.cons (.deviceNumber _) .nil)
  | branch condition a target =>
    obtain ⟨value | name, place⟩ := target
    · exact .cons (.register _) (.cons (.address _) .nil)
    · exact .cons (.register _) (.cons (.label _) .nil)
  | jump target =>
    obtain ⟨value | name, place⟩ := target
    · exact .cons (.address _) .nil
    · exact .cons (.label _) .nil

/-- The text of an operation after the name of its instruction. -/
def tail (o : Operation) : List Char :=
  match o.values with
  | [] => []
  | values => ' ' :: Operand.text values

theorem toList_render (o : Operation) : o.render.toList = o.mnemonic.name.toList ++ o.tail := by
  unfold render tail values
  cases o.operands with
  | nil => exact (List.append_nil _).symm
  | cons operand operands =>
    show (o.mnemonic.name ++ " " ++ ", ".intercalate
      ((operand :: operands).map fun operand => operand.value.render)).toList = _
    rw [String.toList_append, String.toList_append, String.toList_intercalate, List.map_map,
      List.append_assoc]
    show _ = o.mnemonic.name.toList ++ ' ' :: Operand.text ((operand :: operands).map Located.value)
    rw [Operand.text, List.map_map]
    rfl

/-- An operation that can be printed and read again. -/
def Printable (o : Operation) : Prop :=
  ∀ operand ∈ o.values, operand.Printable

theorem runPieces_tail (line : SourceLine) {o : Operation} (h : o.Printable) (column : Nat) :
    ∃ tokens located,
      line.runPieces false (Piece.cut column o.tail) = ⟨tokens ++ [line.endToken], none⟩ ∧
      located.map Located.value = o.values ∧
      OperandTokens o.mnemonic o.mnemonic.slots tokens located := by
  have hgives := o.gives_values
  unfold Printable at h
  unfold tail
  cases hvalues : o.values with
  | nil =>
    rw [hvalues] at hgives
    exact SourceLine.runPieces_operands hgives (by simp) column
  | cons value values =>
    rw [hvalues] at hgives h
    rw [SourceLine.runPieces_blank]
    exact SourceLine.runPieces_operands hgives h (column + 1)

/-- The line of an operation spells it: nothing changes but the places. -/
theorem exists_spelledLine {o : Operation} (h : o.Printable) (file : String) (number : Int) :
    ∃ (x : SpelledLine) (p q place : Location), x.line = ⟨file, number, o.render.toList⟩ ∧
      x.statement = ⟨[], some ⟨o.placed p q, place⟩⟩ := by
  let line : SourceLine := ⟨file, number, o.render.toList⟩
  have hbreaks : Text.Breaks o.tail := by
    unfold tail
    split <;> simp [Text.Breaks, Text.isBlank]
  obtain ⟨tokens, located, htail, hvalues, hused⟩ :=
    runPieces_tail line h (1 + o.mnemonic.name.toList.length)
  obtain ⟨p, q, rfl⟩ := exists_placed hvalues
  have hrun : line.run =
      ⟨⟨.mnemonic o.mnemonic.name, line.place 1⟩ :: tokens ++ [line.endToken], none⟩ := by
    show line.runPieces true (Piece.cut 1 o.render.toList) = _
    rw [toList_render, SourceLine.runPieces_word (o.mnemonic.fullWord_name hbreaks)
      o.mnemonic.spells_name]
    show TokenRun.mk (_ :: (line.runPieces false _).tokens) (line.runPieces false _).fault? = _
    rw [htail]
    rfl
  have hname : Mnemonic.ofName? o.mnemonic.name = some (o.placed p q).mnemonic := by
    rw [mnemonic_placed]
    exact o.mnemonic.ofName?_name
  have hspelled : Statement.Spelled ⟨[], some ⟨o.placed p q, line.place 1⟩⟩ line.run.tokens := by
    rw [← mnemonic_placed p q o] at hused
    rw [hrun]
    exact .instruction hname hused
  exact ⟨⟨line, _, by rw [hrun], hspelled, by simp⟩, p, q, line.place 1, rfl, rfl⟩

/-- A printed operation has no white space but the space, so it stays on its line. -/
theorem isBlank_of_mem_render {o : Operation} (h : o.Printable) {c : Char}
    (hc : c ∈ o.render.toList) : c = ' ' ∨ Text.isBlank c = false := by
  rw [toList_render] at hc
  rcases List.mem_append.1 hc with hc | hc
  · exact .inr (Text.isPlain_iff.1 (o.mnemonic.isPlain_name c hc)).1
  · unfold tail at hc
    split at hc
    · cases hc
    · rcases List.mem_cons.1 hc with rfl | hc
      · exact .inl rfl
      · exact Operand.isBlank_of_mem_text h hc

end Operation

end Risc16
