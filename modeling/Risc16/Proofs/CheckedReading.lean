import Risc16.Proofs.Reading

/-!
# Reading with a cursor

A second reader of lines, which takes tokens by their index in the line and reads the operands of
all instructions in one loop over their slots. Each of its lookups may find nothing, and then the
run breaks down. It never does: the cursor stays on the line because its end is the last token and
nothing steps over it, and the operands that were read have the types that the instruction needs.

Results:
1. `Checked.Follows.bind`: one run follows another if each step does.
2. `Cursor.At.current?_eq`, `Cursor.At.exists_advance`, `Cursor.At.following?_eq`: the lookups of a
   cursor on a line succeed.
3. `Checked.readOperands_follows`: the operands are there, each of the type that it needs.
4. `Checked.readLines_follows`: reading with a cursor never breaks down, and reads what the lines
   say.
-/

namespace Risc16

/-! ## Runs that can break down -/

/-- A computation that can break down: `none` stands for a lookup that found nothing. -/
abbrev Checked (ε : Type) := ExceptT ε Option

namespace Checked

variable {ε α β γ δ : Type}

/-- A lookup, which breaks the run down if it finds nothing. -/
def lookup (a? : Option α) : Checked ε α :=
  ExceptT.mk (a?.map .ok)

/-- A step that looks nothing up. -/
def step (x : Except ε α) : Checked ε α :=
  ExceptT.mk (some x)

/-- `Follows R x y`: the run `x` does not break down, fails as `y` does, and else has a result that
`R` relates to that of `y`. -/
def Follows (R : α → β → Prop) (x : Checked ε α) (y : Except ε β) : Prop :=
  match x.run, y with
  | some (.ok a), .ok b => R a b
  | some (.error e), .error e' => e = e'
  | _, _ => False

variable {R : α → β → Prop} {S : γ → δ → Prop} {x : Checked ε α} {y : Except ε β}

theorem Follows.bind {f : α → Checked ε γ} {g : β → Except ε δ} (hx : Follows R x y)
    (hf : ∀ a b, R a b → Follows S (f a) (g b)) : Follows S (x >>= f) (y >>= g) := by
  match x, y with
  | some (.ok a), .ok b => exact hf a b hx
  | some (.error e), .error e' => exact hx

theorem Follows.map {f : α → γ} {g : β → δ} (hx : Follows R x y)
    (hf : ∀ a b, R a b → S (f a) (g b)) :
    Follows S (x >>= fun a => pure (f a)) (y.map g) := by
  match x, y with
  | some (.ok a), .ok b => exact hf a b hx
  | some (.error e), .error e' => exact hx

/-- A lookup that finds something does not show in the run. -/
theorem follows_lookup {a? : Option γ} {c : γ} {f : γ → Checked ε α} (ha : a? = some c)
    (hf : Follows R (f c) y) : Follows R (lookup a? >>= f) y := by
  subst ha
  exact hf

theorem follows_step (y : Except ε α) : Follows Eq (step y) y := by
  cases y <;> rfl

theorem Follows.eq_step {y : Except ε α} (h : Follows Eq x y) : x = step y := by
  match x, y with
  | some (.ok a), .ok b =>
    have hresult : a = b := h
    rw [hresult]
    rfl
  | some (.error e), .error e' =>
    have hfailure : e = e' := h
    rw [hfailure]
    rfl

end Checked

/-! ## Cursors -/

/-- A place in the tokens of a line. -/
structure Cursor where
  tokens : List Token
  position : Nat

namespace Cursor

/-- The token at the cursor. -/
def current? (c : Cursor) : Option Token :=
  c.tokens[c.position]?

/-- The cursor after the token, which does not step over the end of the line. -/
def advance? (c : Cursor) : Option Cursor :=
  c.current?.map fun token =>
    if token.lexeme = .lineEnd then c else ⟨c.tokens, c.position + 1⟩

/-- The token after the one at the cursor, or the last one. -/
def following? (c : Cursor) : Option Token :=
  c.tokens[min (c.position + 1) (c.tokens.length - 1)]?

/-- How many tokens are still to come. -/
def remaining (c : Cursor) : Nat :=
  c.tokens.length - c.position

theorem remaining_lt {c c' : Cursor} {token : Token} (hcurrent : c.current? = some token)
    (hne : token.lexeme ≠ .lineEnd) (hadvance : c.advance? = some c') :
    c'.remaining < c.remaining := by
  have hlt : c.position < c.tokens.length := (List.getElem?_eq_some_iff.1 hcurrent).1
  rw [advance?, hcurrent, Option.map_some, if_neg hne] at hadvance
  cases hadvance
  show c.tokens.length - (c.position + 1) < c.tokens.length - c.position
  omega

/-- The tokens still to come, the end of the line among them. -/
def At (c : Cursor) (rest : List Token) : Prop :=
  EndsLine rest ∧ c.tokens.drop c.position = rest

theorem at_start {tokens : List Token} (h : EndsLine tokens) : At ⟨tokens, 0⟩ tokens :=
  ⟨h, rfl⟩

namespace At

variable {c : Cursor} {token : Token} {rest tokens : List Token}

theorem exists_cons (h : c.At tokens) : ∃ token rest, tokens = token :: rest := by
  cases h.1 with
  | last => exact ⟨_, _, rfl⟩
  | cons => exact ⟨_, _, rfl⟩

theorem current?_eq (h : c.At tokens) (line : SourceLine) :
    c.current? = some (line.peek tokens) := by
  obtain ⟨token, rest, rfl⟩ := h.exists_cons
  rw [current?, ← List.head?_drop, h.2]
  rfl

theorem exists_advance (h : c.At (token :: rest)) (hne : token.lexeme ≠ .lineEnd) :
    ∃ c', c.advance? = some c' ∧ c'.At rest ∧ c'.tokens = c.tokens ∧
      c'.position = c.position + 1 := by
  have hcurrent : c.current? = some token := by
    rw [current?, ← List.head?_drop, h.2]
    rfl
  refine ⟨⟨c.tokens, c.position + 1⟩, ?_, ⟨h.1.tail hne, ?_⟩, rfl, rfl⟩
  · rw [advance?, hcurrent, Option.map_some, if_neg hne]
  · rw [← List.tail_drop, h.2]
    rfl

theorem following?_eq (h : c.At (token :: rest)) (hne : token.lexeme ≠ .lineEnd)
    (line : SourceLine) : c.following? = some (line.peek rest) := by
  obtain ⟨c', _, hat, htokens, hposition⟩ := h.exists_advance hne
  have hcurrent := hat.current?_eq line
  have hlt : c'.position < c'.tokens.length := (List.getElem?_eq_some_iff.1 hcurrent).1
  rw [htokens, hposition] at hlt
  have hindex : min (c.position + 1) (c.tokens.length - 1) = c.position + 1 := by omega
  rw [following?, hindex, ← htokens, ← hposition]
  exact hcurrent

end At

end Cursor

/-! ## Readers -/

/-- The operation that an instruction and its operands make, if they have the types for it. -/
def Mnemonic.operation? : Mnemonic → List (Located Operand) → Option Operation
  | .nop, [] => some .nop
  | .alu op, [⟨.register a, la⟩, ⟨.register b, lb⟩] => some (.alu op ⟨a, la⟩ ⟨b, lb⟩)
  | .inv, [⟨.register a, la⟩] => some (.inv ⟨a, la⟩)
  | .ldi, [⟨.register a, la⟩, ⟨.immediate value, lv⟩] => some (.ldi ⟨a, la⟩ ⟨value, lv⟩)
  | .transfer way, [⟨.register a, la⟩, ⟨.immediate device, ld⟩] =>
    some (.transfer way ⟨a, la⟩ ⟨device, ld⟩)
  | .branch condition, [⟨.register a, la⟩, ⟨.immediate address, lt⟩] =>
    some (.branch condition ⟨a, la⟩ ⟨.address address, lt⟩)
  | .branch condition, [⟨.register a, la⟩, ⟨.label name, lt⟩] =>
    some (.branch condition ⟨a, la⟩ ⟨.label name, lt⟩)
  | .jump, [⟨.immediate address, lt⟩] => some (.jump ⟨.address address, lt⟩)
  | .jump, [⟨.label name, lt⟩] => some (.jump ⟨.label name, lt⟩)
  | _, _ => none

namespace Checked

/-- Read the comma before the operand at `position`. -/
def readComma (line : SourceLine) (m : Mnemonic) (position : Nat) (c : Cursor) :
    Checked Diagnostic Cursor := do
  let token ← lookup c.current?
  match token.lexeme with
  | .comma => lookup c.advance?
  | .lineEnd => throw (line.refuse token (.missingOperand m position))
  | found => throw (line.refuse token (.missingComma found))

/-- The operand that a token gives in a slot. Only transfers have a table of devices. -/
def operandOf (line : SourceLine) (m : Mnemonic) (slot : Slot) (position : Nat) (token : Token) :
    Checked Diagnostic Operand :=
  match slot, token.lexeme with
  | .register, .register number =>
    if h : number < registerCount then return .register ⟨number, h⟩
    else throw (line.refuse token (.noSuchRegister number))
  | .immediate, .immediate value => return .immediate value
  | .device, .immediate value => return .immediate value
  | .target, .immediate value => return .immediate value
  | .device, .label name =>
    match m with
    | .transfer way =>
      match way.deviceNumber? name with
      | some number => return .immediate number
      | none => throw (line.refuse token (.unknownDevice way name))
    | _ => lookup none
  | .target, .label name => return .label name
  | _, .labelDef name => throw (line.refuse token (.misplacedLabel name))
  | _, found => throw (line.refuse token (.wrongOperand m slot position found))

/-- Read the operand at `position`. -/
def readOperand (line : SourceLine) (m : Mnemonic) (slot : Slot) (position : Nat) (c : Cursor) :
    Checked Diagnostic (Located Operand × Cursor) := do
  let token ← lookup c.current?
  match token.lexeme with
  | .lineEnd => throw (line.refuse token (.missingOperand m position))
  | .comma => throw (line.refuse token .emptyOperand)
  | _ =>
    let c ← lookup c.advance?
    let operand ← operandOf line m slot position token
    return (⟨operand, token.location⟩, c)

/-- Read the operands from `position` on, one for each slot. -/
def readSlots (line : SourceLine) (m : Mnemonic) :
    Nat → List Slot → Cursor → Checked Diagnostic (List (Located Operand) × Cursor)
  | _, [], c => return ([], c)
  | position, slot :: slots, c => do
    let c ← if position = 0 then pure c else readComma line m position c
    let (operand, c) ← readOperand line m slot position c
    let (operands, c) ← readSlots line m (position + 1) slots c
    return (operand :: operands, c)

/-- Read the operands of an instruction. -/
def readOperands (line : SourceLine) (m : Mnemonic) (c : Cursor) :
    Checked Diagnostic (Operation × Cursor) := do
  let (operands, c) ← readSlots line m 0 m.slots c
  let operation ← lookup (m.operation? operands)
  return (operation, c)

/-- Check that nothing follows the operands. -/
def checkLineEnd (line : SourceLine) (m : Mnemonic) (c : Cursor) : Checked Diagnostic Unit := do
  let token ← lookup c.current?
  match token.lexeme with
  | .lineEnd => return ()
  | .comma =>
    if m.arity ≠ 0 then
      let next ← lookup c.following?
      if next.lexeme = .lineEnd then throw (line.refuse token .trailingComma)
      else throw (line.refuse token (.extraOperand m .comma))
    else throw (line.refuse token (.extraOperand m .comma))
  | found => throw (line.refuse token (.extraOperand m found))

/-- Read the instruction of a line, if it has one. -/
def readInstruction (line : SourceLine) (d : Draft) (c : Cursor) : Checked Diagnostic Draft := do
  let token ← lookup c.current?
  match token.lexeme with
  | .lineEnd => return d
  | .mnemonic name =>
    let c ← lookup c.advance?
    match Mnemonic.ofName? name with
    | none => throw (line.refuse token (.unknownMnemonic name (similarMnemonics name)))
    | some m =>
      let (operation, c) ← readOperands line m c
      checkLineEnd line m c
      return d.push line token.location operation
  | found => throw (line.refuse token (.notAnInstruction found))

/-! ## Readers follow the line -/

variable {α β : Type} {line : SourceLine} {m : Mnemonic} {position : Nat} {c : Cursor}
  {tokens rest : List Token} {lexeme : Lexeme} {place : Location}

theorem readComma_follows (h : c.At tokens) :
    Follows Cursor.At (readComma line m position c) (line.readComma m position tokens) := by
  refine follows_lookup (h.current?_eq line) ?_
  obtain ⟨⟨lexeme, place⟩, rest, rfl⟩ := h.exists_cons
  cases lexeme with
  | comma =>
    obtain ⟨c', hadvance, hat, _⟩ := h.exists_advance (by simp)
    show Follows Cursor.At (lookup c.advance?) (.ok rest)
    rw [hadvance]
    exact hat
  | _ => rfl

/-- An operand by cursor and the same operand as a reader of lists gives it. -/
def Reads (give : α → Operand) (x : Located Operand × Cursor) (y : Located α × List Token) :
    Prop :=
  x.1 = ⟨give y.1.value, y.1.location⟩ ∧ x.2.At y.2

theorem readOperand_follows {give : α → Operand} {slot : Slot} {y : Except Diagnostic α}
    (h : c.At (⟨lexeme, place⟩ :: rest)) (hend : lexeme ≠ .lineEnd) (hcomma : lexeme ≠ .comma)
    (hoperand : Follows (fun operand a => operand = give a)
      (operandOf line m slot position ⟨lexeme, place⟩) y) :
    Follows (Reads give) (readOperand line m slot position c)
      (y.map fun a => (⟨a, place⟩, rest)) := by
  obtain ⟨c', hadvance, hat, _⟩ := h.exists_advance hend
  refine follows_lookup (h.current?_eq line) ?_
  have hgives : Follows (Reads give)
      (lookup c.advance? >>= fun c => operandOf line m slot position ⟨lexeme, place⟩ >>=
        fun operand => pure (⟨operand, place⟩, c))
      (y.map fun a => (⟨a, place⟩, rest)) := by
    refine follows_lookup hadvance (hoperand.map ?_)
    intro operand a hgive
    subst hgive
    exact ⟨rfl, hat⟩
  cases lexeme with
  | lineEnd => exact absurd rfl hend
  | comma => exact absurd rfl hcomma
  | _ => exact hgives

/-- At the end of the line and at a comma there is no operand to read. -/
theorem readOperand_refuses {give : α → Operand} {slot : Slot} (h : c.At (⟨lexeme, place⟩ :: rest))
    (hlexeme : lexeme = .lineEnd ∨ lexeme = .comma) :
    Follows (Reads give) (readOperand line m slot position c)
      (.error (line.refuseOperand m slot position (⟨lexeme, place⟩ :: rest))) := by
  refine follows_lookup (h.current?_eq line) ?_
  rcases hlexeme with rfl | rfl
  · rfl
  · rfl

theorem readRegister_follows (h : c.At tokens) :
    Follows (Reads Operand.register) (readOperand line m .register position c)
      (line.readRegister m position tokens) := by
  obtain ⟨⟨lexeme, place⟩, rest, rfl⟩ := h.exists_cons
  cases lexeme with
  | lineEnd => exact readOperand_refuses h (.inl rfl)
  | comma => exact readOperand_refuses h (.inr rfl)
  | register number =>
    by_cases hnumber : number < registerCount
    · simp only [SourceLine.readRegister, dif_pos hnumber]
      refine readOperand_follows (y := .ok (⟨number, hnumber⟩ : Register)) h (by simp) (by simp) ?_
      simp only [operandOf, dif_pos hnumber]
      rfl
    · simp only [SourceLine.readRegister, dif_neg hnumber]
      refine readOperand_follows (y := .error _) h (by simp) (by simp) ?_
      simp only [operandOf, dif_neg hnumber]
      rfl
  | _ => exact readOperand_follows (y := .error _) h (by simp) (by simp) rfl

theorem readImmediate_follows (h : c.At tokens) :
    Follows (Reads Operand.immediate) (readOperand line m .immediate position c)
      (line.readImmediate m position tokens) := by
  obtain ⟨⟨lexeme, place⟩, rest, rfl⟩ := h.exists_cons
  cases lexeme with
  | lineEnd => exact readOperand_refuses h (.inl rfl)
  | comma => exact readOperand_refuses h (.inr rfl)
  | immediate value => exact readOperand_follows (y := .ok value) h (by simp) (by simp) rfl
  | _ => exact readOperand_follows (y := .error _) h (by simp) (by simp) rfl

theorem readDevice_follows {way : Direction} (h : c.At tokens) :
    Follows (Reads Operand.immediate) (readOperand line (.transfer way) .device position c)
      (line.readDevice (.transfer way) way position tokens) := by
  obtain ⟨⟨lexeme, place⟩, rest, rfl⟩ := h.exists_cons
  cases lexeme with
  | lineEnd => exact readOperand_refuses h (.inl rfl)
  | comma => exact readOperand_refuses h (.inr rfl)
  | immediate value => exact readOperand_follows (y := .ok value) h (by simp) (by simp) rfl
  | label name =>
    cases hnumber : way.deviceNumber? name with
    | some number =>
      simp only [SourceLine.readDevice, hnumber]
      refine readOperand_follows (y := .ok (number : Int)) h (by simp) (by simp) ?_
      simp only [operandOf, hnumber]
      rfl
    | none =>
      simp only [SourceLine.readDevice, hnumber]
      refine readOperand_follows (y := .error _) h (by simp) (by simp) ?_
      simp only [operandOf, hnumber]
      rfl
  | _ => exact readOperand_follows (y := .error _) h (by simp) (by simp) rfl

theorem readTarget_follows (h : c.At tokens) :
    Follows (Reads Target.operand) (readOperand line m .target position c)
      (line.readTarget m position tokens) := by
  obtain ⟨⟨lexeme, place⟩, rest, rfl⟩ := h.exists_cons
  cases lexeme with
  | lineEnd => exact readOperand_refuses h (.inl rfl)
  | comma => exact readOperand_refuses h (.inr rfl)
  | immediate value =>
    exact readOperand_follows (y := .ok (Target.address value)) h (by simp) (by simp) rfl
  | label name => exact readOperand_follows (y := .ok (Target.label name)) h (by simp) (by simp) rfl
  | _ => exact readOperand_follows (y := .error _) h (by simp) (by simp) rfl

/-- The operation by cursor is the one that a reader of lists gives. -/
def ReadsOperation (x : Operation × Cursor) (y : Operation × List Token) : Prop :=
  x.1 = y.1 ∧ x.2.At y.2

/-- An instruction with one operand. -/
theorem one_follows {give : α → Operand} {slot : Slot} {make : Located α → Operation}
    {y : Except Diagnostic (Located α × List Token)} (hslots : m.slots = [slot])
    (hread : Follows (Reads give) (readOperand line m slot 0 c) y)
    (hmake : ∀ a, m.operation? [⟨give a.value, a.location⟩] = some (make a)) :
    Follows ReadsOperation (readOperands line m c)
      (y >>= fun (a, rest) => .ok (make a, rest)) := by
  simp only [readOperands, hslots, readSlots, if_true, bind_assoc, pure_bind]
  refine hread.bind ?_
  intro ⟨operand, c'⟩ ⟨a, rest⟩ ⟨hoperand, hat⟩
  rw [hoperand]
  exact follows_lookup (hmake a) ⟨rfl, hat⟩

/-- An instruction with two operands. -/
theorem two_follows {give : α → Operand} {give' : β → Operand} {slot next : Slot}
    {make : Located α → Located β → Operation} {y : Except Diagnostic (Located α × List Token)}
    {z : List Token → Except Diagnostic (Located β × List Token)} (hslots : m.slots = [slot, next])
    (hread : Follows (Reads give) (readOperand line m slot 0 c) y)
    (hnext : ∀ c' rest, Cursor.At c' rest →
      Follows (Reads give') (readOperand line m next 1 c') (z rest))
    (hmake : ∀ a b, m.operation? [⟨give a.value, a.location⟩, ⟨give' b.value, b.location⟩] =
      some (make a b)) :
    Follows ReadsOperation (readOperands line m c) (do
      let (a, rest) ← y
      let rest ← line.readComma m 1 rest
      let (b, rest) ← z rest
      return (make a b, rest)) := by
  simp only [readOperands, hslots, readSlots, if_true, Nat.zero_add, Nat.one_ne_zero, if_false,
    bind_assoc, pure_bind]
  refine hread.bind ?_
  intro ⟨operand, c₁⟩ ⟨a, rest₁⟩ ⟨hoperand, hat₁⟩
  refine (readComma_follows hat₁).bind ?_
  intro c₂ rest₂ hat₂
  refine (hnext c₂ rest₂ hat₂).bind ?_
  intro ⟨operand', c₃⟩ ⟨b, rest₃⟩ ⟨hoperand', hat₃⟩
  rw [hoperand, hoperand']
  exact follows_lookup (hmake a b) ⟨rfl, hat₃⟩

/-- The operands of an instruction are there, and each has the type that the instruction needs. -/
theorem readOperands_follows (h : c.At tokens) :
    Follows ReadsOperation (readOperands line m c) (line.readOperands m tokens) := by
  cases m with
  | nop => exact ⟨rfl, h⟩
  | alu op =>
    exact two_follows rfl (readRegister_follows h) (fun _ _ => readRegister_follows) fun _ _ => rfl
  | inv => exact one_follows rfl (readRegister_follows h) fun _ => rfl
  | ldi =>
    exact two_follows rfl (readRegister_follows h) (fun _ _ => readImmediate_follows) fun _ _ => rfl
  | transfer way =>
    exact two_follows rfl (readRegister_follows h) (fun _ _ => readDevice_follows) fun _ _ => rfl
  | branch condition =>
    refine two_follows rfl (readRegister_follows h) (fun _ _ => readTarget_follows) ?_
    rintro a ⟨value | name, place⟩ <;> rfl
  | jump =>
    refine one_follows rfl (readTarget_follows h) ?_
    rintro ⟨value | name, place⟩ <;> rfl

theorem checkLineEnd_comma :
    line.checkLineEnd m (⟨.comma, place⟩ :: rest) =
      if m.arity ≠ 0 ∧ (line.peek rest).lexeme = .lineEnd then
        .error (line.refuse ⟨.comma, place⟩ .trailingComma)
      else .error (line.refuse ⟨.comma, place⟩ (.extraOperand m .comma)) :=
  rfl

theorem checkLineEnd_follows (h : c.At tokens) :
    Follows Eq (checkLineEnd line m c) (line.checkLineEnd m tokens) := by
  refine follows_lookup (h.current?_eq line) ?_
  obtain ⟨⟨lexeme, place⟩, rest, rfl⟩ := h.exists_cons
  cases lexeme with
  | comma =>
    rw [checkLineEnd_comma]
    show Follows Eq (if m.arity ≠ 0 then _ else _) _
    by_cases harity : m.arity ≠ 0
    · rw [if_pos harity]
      refine follows_lookup (h.following?_eq (by simp) line) ?_
      by_cases hend : (line.peek rest).lexeme = .lineEnd
      · rw [if_pos hend, if_pos ⟨harity, hend⟩]
        rfl
      · rw [if_neg hend, if_neg fun hboth => hend hboth.2]
        rfl
    · rw [if_neg harity, if_neg fun hboth => harity hboth.1]
      rfl
  | _ => rfl

theorem readInstruction_follows {d : Draft} (h : c.At tokens) :
    Follows Eq (readInstruction line d c) (d.readInstruction line tokens) := by
  refine follows_lookup (h.current?_eq line) ?_
  obtain ⟨⟨lexeme, place⟩, rest, rfl⟩ := h.exists_cons
  cases lexeme with
  | mnemonic name =>
    obtain ⟨c', hadvance, hat, _⟩ := h.exists_advance (by simp)
    refine follows_lookup hadvance ?_
    simp only [Draft.readInstruction, SourceLine.peek]
    cases Mnemonic.ofName? name with
    | none => rfl
    | some m =>
      refine (readOperands_follows hat).bind ?_
      rintro ⟨_, c''⟩ ⟨o, rest'⟩ ⟨rfl, hat'⟩
      refine (checkLineEnd_follows hat').bind ?_
      intro _ _ _
      rfl
  | _ => rfl

/-! ## Lines -/

/-- Read a line from a cursor on: the labels that it declares, then its instruction. -/
def readFrom (line : SourceLine) (d : Draft) (c : Cursor) : Checked Diagnostic Draft :=
  match hcurrent : c.current? with
  | none => lookup none
  | some token =>
    match hlexeme : token.lexeme with
    | .labelDef name =>
      match hadvance : c.advance? with
      | none => lookup none
      | some c' => do
        have : c'.remaining < c.remaining :=
          Cursor.remaining_lt hcurrent (by simp [hlexeme]) hadvance
        let d ← step (d.declare line ⟨name, token.location⟩)
        readFrom line d c'
    | _ => readInstruction line d c
termination_by c.remaining

/-- Read a line. -/
def readLine (d : Draft) (line : SourceLine) : Checked Diagnostic Draft := do
  let tokens ← step line.tokens
  readFrom line d ⟨tokens, 0⟩

/-- Read lines, up to the first fault. -/
def readLines (d : Draft) : List SourceLine → Checked Diagnostic Draft
  | [] => return d
  | line :: rest => do
    let d ← readLine d line
    readLines d rest

theorem readFrom_labelDef {d : Draft} {name : String} {c' : Cursor}
    (hcurrent : c.current? = some ⟨.labelDef name, place⟩) (hadvance : c.advance? = some c') :
    readFrom line d c =
      step (d.declare line ⟨name, place⟩) >>= fun d => readFrom line d c' := by
  rw [readFrom]
  split
  · next hnone => cases hnone.symm.trans hcurrent
  · next token htoken =>
    cases htoken.symm.trans hcurrent
    split
    · next name' hname =>
      cases hname
      split
      · next hnone => cases hnone.symm.trans hadvance
      · next c'' hsome =>
        cases hsome.symm.trans hadvance
        rfl
    · next hother => exact absurd rfl (hother name)

theorem readFrom_instruction {d : Draft} (hcurrent : c.current? = some ⟨lexeme, place⟩)
    (hlexeme : ∀ name, lexeme ≠ .labelDef name) :
    readFrom line d c = readInstruction line d c := by
  rw [readFrom]
  split
  · next hnone => cases hnone.symm.trans hcurrent
  · next token htoken =>
    cases htoken.symm.trans hcurrent
    split
    · next name hname => exact absurd hname (hlexeme name)
    · rfl

theorem readFrom_follows {d : Draft} (h : c.At tokens) :
    Follows Eq (readFrom line d c) (d.readTokens line tokens) := by
  -- The cursor moves along the tokens, and each label changes the draft.
  induction tokens generalizing c d with
  | nil => cases h.1
  | cons token rest ih =>
    obtain ⟨lexeme, place⟩ := token
    have hcurrent : c.current? = some ⟨lexeme, place⟩ := h.current?_eq line
    cases lexeme with
    | labelDef name =>
      obtain ⟨c', hadvance, hat, _⟩ := h.exists_advance (by simp)
      rw [readFrom_labelDef hcurrent hadvance]
      refine (follows_step _).bind ?_
      rintro d' _ rfl
      exact ih hat
    | _ =>
      rw [readFrom_instruction hcurrent (by simp)]
      exact readInstruction_follows h

theorem readLine_follows (d : Draft) (line : SourceLine) :
    Follows Eq (readLine d line) (d.readLine line) := by
  unfold readLine Draft.readLine
  cases htokens : line.tokens with
  | error e => rfl
  | ok tokens =>
    obtain ⟨hlexed, rfl⟩ := SourceLine.tokens_ok.1 htokens
    exact readFrom_follows (Cursor.at_start (SourceLine.run_endsLine hlexed))

theorem readLines_follows (d : Draft) (lines : List SourceLine) :
    Follows Eq (readLines d lines) (d.readLines lines) := by
  induction lines generalizing d with
  | nil => rfl
  | cons line lines ih =>
    refine (readLine_follows d line).bind ?_
    rintro d' _ rfl
    exact ih d'

end Checked

end Risc16
