import Risc16.Statement
import Risc16.Proofs.Outcome

/-!
# The grammar of a line

What the tokens of a line have to look like, said without a reader: label declarations, then at most
one instruction with its operands, then the end of the line. Reading a line token by token accepts
exactly the lines of this form.

Results:
1. `SourceLine.readOperands_ok`: the operands that are read are those that the grammar gives.
2. `SourceLine.run_endsLine`: the end of the line is the last token and no other.
-/

namespace Risc16

open Outcome

/-! ## The grammar -/

/-- `Gives m slot lexeme operand`: in a slot of the instruction `m`, a lexeme gives an operand. The
name of a device gives its number. -/
inductive Gives (m : Mnemonic) : Slot → Lexeme → Operand → Prop
  | register (r : Register) : Gives m .register (.register r.val) (.register r)
  | immediate (value : Int) : Gives m .immediate (.immediate value) (.immediate value)
  | deviceNumber (value : Int) : Gives m .device (.immediate value) (.immediate value)
  | deviceName {way : Direction} {name : String} {number : Nat} :
      m = .transfer way → way.deviceNumber? name = some number →
      Gives m .device (.label name) (.immediate number)
  | address (value : Int) : Gives m .target (.immediate value) (.immediate value)
  | label (name : String) : Gives m .target (.label name) (.label name)

/-- The tokens of operands, one for each slot and a comma between any two. -/
inductive OperandTokens (m : Mnemonic) : List Slot → List Token → List (Located Operand) → Prop
  | none : OperandTokens m [] [] []
  | last {slot : Slot} {token : Token} {operand : Operand} :
      Gives m slot token.lexeme operand →
      OperandTokens m [slot] [token] [⟨operand, token.location⟩]
  | more {slot next : Slot} {slots : List Slot} {token comma : Token} {tokens : List Token}
      {operand : Operand} {operands : List (Located Operand)} :
      Gives m slot token.lexeme operand → comma.lexeme = .comma →
      OperandTokens m (next :: slots) tokens operands →
      OperandTokens m (slot :: next :: slots) (token :: comma :: tokens)
        (⟨operand, token.location⟩ :: operands)

/-- What a line says: the labels that it declares and the operation that it carries, each at its
place. -/
structure Statement where
  labels : List (Located String)
  operation? : Option (Located Operation)

/-- The token that declares a label. -/
def labelToken (label : Located String) : Token :=
  ⟨.labelDef label.value, label.location⟩

/-- The tokens of a statement.

* `labels`: label declarations alone.
* `instruction`: label declarations, the name of an instruction and its operands. -/
inductive Statement.Spelled : Statement → List Token → Prop
  | labels {labels : List (Located String)} {lineEnd : Location} :
      Spelled ⟨labels, none⟩ (labels.map labelToken ++ [⟨.lineEnd, lineEnd⟩])
  | instruction {labels : List (Located String)} {name : String} {operation : Operation}
      {tokens : List Token} {place lineEnd : Location} :
      Mnemonic.ofName? name = some operation.mnemonic →
      OperandTokens operation.mnemonic operation.mnemonic.slots tokens operation.operands →
      Spelled ⟨labels, some ⟨operation, place⟩⟩
        (labels.map labelToken ++ ⟨.mnemonic name, place⟩ :: tokens ++ [⟨.lineEnd, lineEnd⟩])

theorem Statement.Spelled.cons_label {st : Statement} {tokens : List Token}
    (h : st.Spelled tokens) (label : Located String) :
    Spelled ⟨label :: st.labels, st.operation?⟩ (labelToken label :: tokens) := by
  cases h with
  | labels => exact .labels
  | instruction hm hused => exact .instruction hm hused

theorem Statement.Spelled.uncons_label {label : Located String} {labels : List (Located String)}
    {operation? : Option (Located Operation)} {tokens : List Token}
    (h : Spelled ⟨label :: labels, operation?⟩ tokens) :
    ∃ rest, tokens = labelToken label :: rest ∧ Spelled ⟨labels, operation?⟩ rest := by
  cases h with
  | labels => exact ⟨_, rfl, .labels⟩
  | instruction hm hused => exact ⟨_, rfl, .instruction hm hused⟩

/-! ## Operands -/

/-- The lexemes that may stand between the name of an instruction and the end of the line. -/
def Lexeme.InOperands : Lexeme → Prop
  | .comma | .register _ | .immediate _ | .label _ => True
  | .lineEnd | .mnemonic _ | .labelDef _ => False

theorem Gives.inOperands {m : Mnemonic} {slot : Slot} {lexeme : Lexeme} {operand : Operand}
    (h : Gives m slot lexeme operand) : lexeme.InOperands := by
  cases h <;> trivial

theorem OperandTokens.inOperands {m : Mnemonic} {slots : List Slot} {tokens : List Token}
    {operands : List (Located Operand)} (h : OperandTokens m slots tokens operands) :
    ∀ token ∈ tokens, token.lexeme.InOperands := by
  induction h with
  | none => simp
  | last hgives => simpa using hgives.inOperands
  | more hgives hcomma _ ih =>
    simp only [List.mem_cons]
    rintro token (rfl | rfl | htoken)
    · exact hgives.inOperands
    · rw [hcomma]
      trivial
    · exact ih token htoken

theorem OperandTokens.one {m : Mnemonic} {slot : Slot} {tokens : List Token}
    {operand : Located Operand} (h : OperandTokens m [slot] tokens [operand]) :
    ∃ lexeme, tokens = [⟨lexeme, operand.location⟩] ∧ Gives m slot lexeme operand.value := by
  -- The operands are given and the tokens follow, while the constructors have it the other way.
  generalize hoperands : [operand] = operands at h
  cases h with
  | last hgives =>
    cases hoperands
    exact ⟨_, rfl, hgives⟩

theorem OperandTokens.two {m : Mnemonic} {slot next : Slot} {tokens : List Token}
    {operand operand' : Located Operand}
    (h : OperandTokens m [slot, next] tokens [operand, operand']) :
    ∃ lexeme comma lexeme',
      tokens = [⟨lexeme, operand.location⟩, ⟨.comma, comma⟩, ⟨lexeme', operand'.location⟩] ∧
      Gives m slot lexeme operand.value ∧ Gives m next lexeme' operand'.value := by
  generalize hoperands : [operand, operand'] = operands at h
  cases h with
  | @more _ _ _ token comma _ _ _ hgives hcomma hrest =>
    cases hoperands
    obtain ⟨lexeme', rfl, hgives'⟩ := hrest.one
    obtain ⟨_, place⟩ := comma
    cases hcomma
    exact ⟨token.lexeme, place, lexeme', rfl, hgives, hgives'⟩

namespace SourceLine

theorem readComma_ok {line : SourceLine} {m : Mnemonic} {position : Nat}
    {tokens rest : List Token} :
    line.readComma m position tokens = .ok rest ↔
      ∃ place, tokens = ⟨.comma, place⟩ :: rest := by
  cases tokens with
  | nil => simp [readComma, peek, endToken]
  | cons token tokens =>
    obtain ⟨lexeme, place⟩ := token
    cases lexeme <;> simp [readComma, peek]

theorem readRegister_ok {line : SourceLine} {m : Mnemonic} {position : Nat}
    {tokens rest : List Token} {r : Located Register} :
    line.readRegister m position tokens = .ok (r, rest) ↔
      tokens = ⟨.register r.value.val, r.location⟩ :: rest := by
  constructor
  · intro h
    unfold readRegister at h
    split at h
    · split at h
      · cases h
        rfl
      · cases h
    · cases h
  · rintro rfl
    simp only [readRegister, dif_pos r.value.isLt]

theorem readImmediate_ok {line : SourceLine} {m : Mnemonic} {position : Nat}
    {tokens rest : List Token} {value : Located Int} :
    line.readImmediate m position tokens = .ok (value, rest) ↔
      tokens = ⟨.immediate value.value, value.location⟩ :: rest := by
  constructor
  · intro h
    unfold readImmediate at h
    split at h
    · cases h
      rfl
    · cases h
  · rintro rfl
    rfl

theorem readDevice_ok {line : SourceLine} {way : Direction} {position : Nat}
    {tokens rest : List Token} {device : Located Int} :
    line.readDevice (.transfer way) way position tokens = .ok (device, rest) ↔
      ∃ lexeme, tokens = ⟨lexeme, device.location⟩ :: rest ∧
        Gives (.transfer way) .device lexeme (.immediate device.value) := by
  constructor
  · intro h
    unfold readDevice at h
    split at h
    · cases h
      exact ⟨_, rfl, .deviceNumber _⟩
    · split at h
      · next hname =>
        cases h
        exact ⟨_, rfl, .deviceName rfl hname⟩
      · cases h
    · cases h
  · rintro ⟨lexeme, rfl, hgives⟩
    obtain ⟨value, place⟩ := device
    cases hgives with
    | deviceNumber => rfl
    | deviceName hway hname =>
      cases hway
      simp only [readDevice, hname]
      rfl

theorem readTarget_ok {line : SourceLine} {m : Mnemonic} {position : Nat}
    {tokens rest : List Token} {target : Located Target} :
    line.readTarget m position tokens = .ok (target, rest) ↔
      ∃ lexeme, tokens = ⟨lexeme, target.location⟩ :: rest ∧
        Gives m .target lexeme target.value.operand := by
  constructor
  · intro h
    unfold readTarget at h
    split at h
    · cases h
      exact ⟨_, rfl, .address _⟩
    · cases h
      exact ⟨_, rfl, .label _⟩
    · cases h
  · rintro ⟨lexeme, rfl, hgives⟩
    obtain ⟨value | name, place⟩ := target
    · cases hgives
      rfl
    · cases hgives
      rfl

theorem operandTokens_of_readOperands {line : SourceLine} {m : Mnemonic} {tokens rest : List Token}
    {o : Operation} (h : line.readOperands m tokens = .ok (o, rest)) :
    ∃ used, tokens = used ++ rest ∧ o.mnemonic = m ∧ OperandTokens m m.slots used o.operands := by
  -- What each reader took off the front are the tokens of its operand.
  cases m with
  | nop =>
    cases h
    exact ⟨[], rfl, rfl, .none⟩
  | alu op =>
    simp only [readOperands, bind_ok, Prod.exists, readRegister_ok, readComma_ok] at h
    obtain ⟨a, _, rfl, _, ⟨place, rfl⟩, b, _, rfl, h⟩ := h
    cases h
    exact ⟨[_, _, _], rfl, rfl, .more (.register a.value) rfl (.last (.register b.value))⟩
  | inv =>
    simp only [readOperands, bind_ok, Prod.exists, readRegister_ok] at h
    obtain ⟨a, _, rfl, h⟩ := h
    cases h
    exact ⟨[_], rfl, rfl, .last (.register a.value)⟩
  | ldi =>
    simp only [readOperands, bind_ok, Prod.exists, readRegister_ok, readComma_ok,
      readImmediate_ok] at h
    obtain ⟨a, _, rfl, _, ⟨place, rfl⟩, value, _, rfl, h⟩ := h
    cases h
    exact ⟨[_, _, _], rfl, rfl, .more (.register a.value) rfl (.last (.immediate value.value))⟩
  | transfer way =>
    simp only [readOperands, bind_ok, Prod.exists, readRegister_ok, readComma_ok,
      readDevice_ok] at h
    obtain ⟨a, _, rfl, _, ⟨place, rfl⟩, device, _, ⟨lexeme, rfl, hdevice⟩, h⟩ := h
    cases h
    exact ⟨[_, _, _], rfl, rfl, .more (.register a.value) rfl (.last hdevice)⟩
  | branch condition =>
    simp only [readOperands, bind_ok, Prod.exists, readRegister_ok, readComma_ok,
      readTarget_ok] at h
    obtain ⟨a, _, rfl, _, ⟨place, rfl⟩, target, _, ⟨lexeme, rfl, htarget⟩, h⟩ := h
    cases h
    exact ⟨[_, _, _], rfl, rfl, .more (.register a.value) rfl (.last htarget)⟩
  | jump =>
    simp only [readOperands, bind_ok, Prod.exists, readTarget_ok] at h
    obtain ⟨target, _, ⟨lexeme, rfl, htarget⟩, h⟩ := h
    cases h
    exact ⟨[_], rfl, rfl, .last htarget⟩

theorem readOperands_of_operandTokens {line : SourceLine} {used rest : List Token} {o : Operation}
    (h : OperandTokens o.mnemonic o.mnemonic.slots used o.operands) :
    line.readOperands o.mnemonic (used ++ rest) = .ok (o, rest) := by
  cases o with
  | nop =>
    cases h
    rfl
  | alu op a b =>
    obtain ⟨_, place, _, rfl, ha, hb⟩ := h.two
    cases ha
    cases hb
    simp only [Operation.mnemonic, readOperands, bind_ok, Prod.exists, readRegister_ok,
      readComma_ok]
    exact ⟨a, _, rfl, _, ⟨place, rfl⟩, b, _, rfl, rfl⟩
  | inv a =>
    obtain ⟨_, rfl, ha⟩ := h.one
    cases ha
    simp only [Operation.mnemonic, readOperands, bind_ok, Prod.exists, readRegister_ok]
    exact ⟨a, _, rfl, rfl⟩
  | ldi a value =>
    obtain ⟨_, place, _, rfl, ha, hvalue⟩ := h.two
    cases ha
    cases hvalue
    simp only [Operation.mnemonic, readOperands, bind_ok, Prod.exists, readRegister_ok,
      readComma_ok, readImmediate_ok]
    exact ⟨a, _, rfl, _, ⟨place, rfl⟩, value, _, rfl, rfl⟩
  | transfer way a device =>
    obtain ⟨_, place, lexeme, rfl, ha, hdevice⟩ := h.two
    cases ha
    simp only [Operation.mnemonic, readOperands, bind_ok, Prod.exists, readRegister_ok,
      readComma_ok, readDevice_ok]
    exact ⟨a, _, rfl, _, ⟨place, rfl⟩, device, _, ⟨lexeme, rfl, hdevice⟩, rfl⟩
  | branch condition a target =>
    obtain ⟨_, place, lexeme, rfl, ha, htarget⟩ := h.two
    cases ha
    simp only [Operation.mnemonic, readOperands, bind_ok, Prod.exists, readRegister_ok,
      readComma_ok, readTarget_ok]
    exact ⟨a, _, rfl, _, ⟨place, rfl⟩, target, _, ⟨lexeme, rfl, htarget⟩, rfl⟩
  | jump target =>
    obtain ⟨lexeme, rfl, htarget⟩ := h.one
    simp only [Operation.mnemonic, readOperands, bind_ok, Prod.exists, readTarget_ok]
    exact ⟨target, _, ⟨lexeme, rfl, htarget⟩, rfl⟩

/-- The operands that are read are those that the grammar gives. -/
theorem readOperands_ok {line : SourceLine} {m : Mnemonic} {tokens rest : List Token}
    {o : Operation} :
    line.readOperands m tokens = .ok (o, rest) ↔
      ∃ used, tokens = used ++ rest ∧ o.mnemonic = m ∧
        OperandTokens m m.slots used o.operands := by
  constructor
  · exact operandTokens_of_readOperands
  · rintro ⟨used, rfl, rfl, h⟩
    exact readOperands_of_operandTokens h

end SourceLine

/-! ## The end of the line -/

/-- The end of the line is the last token, and no token before it. -/
inductive EndsLine : List Token → Prop
  | last {place : Location} : EndsLine [⟨.lineEnd, place⟩]
  | cons {token : Token} {tokens : List Token} :
      token.lexeme ≠ .lineEnd → EndsLine tokens → EndsLine (token :: tokens)

namespace EndsLine

theorem tail {token : Token} {tokens : List Token} (h : EndsLine (token :: tokens))
    (hne : token.lexeme ≠ .lineEnd) : EndsLine tokens := by
  cases h with
  | last => exact absurd rfl hne
  | cons _ h => exact h

/-- Operands do not reach over the end of the line. -/
theorem of_append {used rest : List Token} (h : EndsLine (used ++ rest))
    (hused : ∀ token ∈ used, token.lexeme.InOperands) : EndsLine rest := by
  induction used with
  | nil => exact h
  | cons token used ih =>
    have htoken : token.lexeme ≠ .lineEnd := fun he => by
      have hin := hused token List.mem_cons_self
      rw [he] at hin
      exact hin
    exact ih (h.tail htoken) fun t ht => hused t (List.mem_cons_of_mem token ht)

/-- Nothing follows the end of the line. -/
theorem eq_singleton {line : SourceLine} {tokens : List Token} (h : EndsLine tokens)
    (hpeek : (line.peek tokens).lexeme = .lineEnd) :
    ∃ place, tokens = [⟨.lineEnd, place⟩] := by
  cases h with
  | last => exact ⟨_, rfl⟩
  | cons hne _ => exact absurd hpeek hne

end EndsLine

theorem Word.classify_ne_lineEnd {leading : Bool} {word : List Char} :
    Word.classify leading word ≠ .ok .lineEnd := by
  intro h
  simp only [classify, classifyPlain] at h
  split at h
  · split at h <;> cases h
  · split at h
    · split at h <;> cases h
    · split at h
      · split at h <;> cases h
      · split at h
        · split at h <;> cases h
        · split at h <;> cases h

theorem Piece.classify_ne_lineEnd {leading : Bool} {piece : Piece} :
    piece.classify leading ≠ .ok .lineEnd := by
  unfold classify
  split
  · simp
  · exact Word.classify_ne_lineEnd

namespace SourceLine

theorem runPieces_endsLine {line : SourceLine} {leading : Bool} {pieces : List Piece}
    (h : (line.runPieces leading pieces).fault? = none) :
    EndsLine (line.runPieces leading pieces).tokens := by
  induction pieces generalizing leading with
  | nil => exact .last
  | cons piece pieces ih =>
    simp only [runPieces] at h ⊢
    split at h
    · cases h
    · next lexeme hlexeme =>
      refine .cons ?_ (ih h)
      rintro rfl
      exact Piece.classify_ne_lineEnd hlexeme

/-- Tokens without a bad word end with the end of the line, which stands nowhere else. -/
theorem run_endsLine {line : SourceLine} (h : line.run.fault? = none) :
    EndsLine line.run.tokens :=
  runPieces_endsLine h

theorem checkLineEnd_ok {line : SourceLine} {m : Mnemonic} {tokens : List Token} :
    line.checkLineEnd m tokens = .ok () ↔ (line.peek tokens).lexeme = .lineEnd := by
  cases h : (line.peek tokens).lexeme with
  | comma =>
    simp only [checkLineEnd, h]
    split <;> simp
  | _ => simp [checkLineEnd, h]

theorem tokens_ok {line : SourceLine} {tokens : List Token} :
    line.tokens = .ok tokens ↔ line.run.fault? = none ∧ line.run.tokens = tokens := by
  unfold SourceLine.tokens
  split
  · next hfault => simp [hfault]
  · next hfault => simp [hfault]

end SourceLine

end Risc16
