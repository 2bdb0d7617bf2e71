import Mathlib.Data.Set.Function
import Risc16.Proofs.Acceptance
import Risc16.Proofs.CheckedReading
import Risc16.Proofs.FirstFault
import Risc16.Proofs.Printing

/-!
# New names for labels

A label stands in a line where it is declared, or where a jump goes to it. Any other name is that of
a device and no label. Two lines that differ in the names of their labels and in the places of their
tokens are read in step: each reader takes the same from both, or refuses both for the same reason.

Results:
1. `Renaming.readOperands_agree`: the operands of an instruction.
2. `Renaming.checkLineEnd_agree`: what is left after them.
-/

namespace Risc16

open Outcome

/-! ## Labels among the lexemes of a line -/

namespace Lexeme

/-- Whether a jump target comes after the given lexemes, of which the nearest is the first. It
stands right after the name of a jump, or after that of a conditional one, one more lexeme and a
comma. -/
def targetNext : List Lexeme → Bool
  | .mnemonic name :: _ => name == "j"
  | .comma :: _ :: .mnemonic name :: _ => name == "jz" || name == "jlt"
  | _ => false

/-- The lexeme with a new name for the label that it declares, or that it has as a jump target after
the lexemes `before`. -/
def rename (f : String → String) (before : List Lexeme) : Lexeme → Lexeme
  | .labelDef name => .labelDef (f name)
  | .label name => .label (if targetNext before then f name else name)
  | lexeme => lexeme

/-- The label that the lexeme declares, or has as a jump target after the lexemes `before`. -/
def labelName? (before : List Lexeme) : Lexeme → Option String
  | .labelDef name => some name
  | .label name => if targetNext before then some name else none
  | _ => none

/-- The lexemes of a line, after those in `before`, with new names for the labels. -/
def renameAll (f : String → String) : List Lexeme → List Lexeme → List Lexeme
  | _, [] => []
  | before, lexeme :: rest => lexeme.rename f before :: renameAll f (lexeme :: before) rest

/-- The labels in the lexemes of a line, after those in `before`. -/
def labelNames : List Lexeme → List Lexeme → List String
  | _, [] => []
  | before, lexeme :: rest =>
    (lexeme.labelName? before).toList ++ labelNames (lexeme :: before) rest

/-- The lexeme with a new name for the label that it declares. -/
def renameDeclared (f : String → String) : Lexeme → Lexeme
  | .labelDef name => .labelDef (f name)
  | lexeme => lexeme

variable {f : String → String} {before : List Lexeme}

theorem rename_of_other (h : targetNext before = false) (lexeme : Lexeme) :
    lexeme.rename f before = lexeme.renameDeclared f := by
  cases lexeme with
  | label name => simp only [rename, h, renameDeclared, Bool.false_eq_true, if_false]
  | _ => rfl

end Lexeme

/-- What the tokens of a line are, without their places. -/
def SourceLine.lexemes (line : SourceLine) : List Lexeme :=
  line.run.tokens.map Token.lexeme

/-- The labels that a line declares and the one that it jumps to. -/
def SourceLine.labelNames (line : SourceLine) : List String :=
  Lexeme.labelNames [] line.lexemes

/-- A line says what another one says, with new names for the labels. Neither has a bad word. -/
structure SourceLine.Renamed (f : String → String) (line line' : SourceLine) : Prop where
  lexed : line.run.fault? = none
  lexed' : line'.run.fault? = none
  lexemes : line'.lexemes = Lexeme.renameAll f [] line.lexemes

/-! ## Causes -/

/-- The kinds of cause. -/
inductive CauseKind
  | general | word | statement | duplicateLabel | undefinedLabel | range | programSize
deriving DecidableEq, Repr

namespace Cause

def kind : Cause → CauseKind
  | .general _ => .general
  | .word _ _ => .word
  | .statement _ => .statement
  | .duplicateLabel _ _ => .duplicateLabel
  | .undefinedLabel _ _ => .undefinedLabel
  | .range _ => .range
  | .programSize _ _ => .programSize

/-- Two causes are of one kind and described in the same words. Their hints may differ. -/
structure Alike (c c' : Cause) : Prop where
  kind : c'.kind = c.kind
  message : c'.message = c.message

/-- The names that come close are a hint, and no part of the message. -/
theorem alike_undefinedLabel (name : String) (similar similar' : List String) :
    (undefinedLabel name similar).Alike (.undefinedLabel name similar') :=
  ⟨rfl, rfl⟩

end Cause

/-- The fault with new names for the labels that were declared. -/
def StatementFault.rename (f : String → String) : StatementFault → StatementFault
  | .notAnInstruction found => .notAnInstruction (found.renameDeclared f)
  | .labelNamesRegister name => .labelNamesRegister (f name)
  | .missingComma found => .missingComma (found.renameDeclared f)
  | .misplacedLabel name => .misplacedLabel (f name)
  | .extraOperand mnemonic found => .extraOperand mnemonic (found.renameDeclared f)
  | fault => fault

/-- The cause with new names for labels. -/
def Cause.rename (f : String → String) : Cause → Cause
  | .statement fault => .statement (fault.rename f)
  | .duplicateLabel name first? => .duplicateLabel (f name) first?
  | .undefinedLabel name similar => .undefinedLabel (f name) similar
  | cause => cause

/-- Only what is said of the source itself has names of labels in it. -/
theorem Cause.rename_of_late {c : Cause} (h : ¬ c.FromSource) (f : String → String) :
    c.rename f = c := by
  cases c with
  | statement | duplicateLabel | undefinedLabel => exact absurd trivial h
  | _ => rfl

/-! ## Renamings -/

/-- New names for labels. Labels that differ stay different, and none comes to look like a register
or ceases to. -/
structure Renaming where
  names : Set String
  rename : String → String
  injOn : Set.InjOn rename names
  shape : ∀ name ∈ names, RegisterShaped (rename name) ↔ RegisterShaped name

namespace Renaming

variable {ρ : Renaming} {before : List Lexeme} {tokens tokens' : List Token}
  {line line' : SourceLine} {m : Mnemonic} {position : Nat}

/-- The second tokens are the first ones with new names, in lines where the lexemes `before` came
before. -/
structure Maps (ρ : Renaming) (before : List Lexeme) (tokens tokens' : List Token) : Prop where
  lexemes : tokens'.map Token.lexeme = Lexeme.renameAll ρ.rename before (tokens.map Token.lexeme)
  names : ∀ name ∈ Lexeme.labelNames before (tokens.map Token.lexeme), name ∈ ρ.names

/-- The second diagnostic is like the first one, with new names. -/
def Reports (ρ : Renaming) (e e' : Diagnostic) : Prop :=
  (e.cause.rename ρ.rename).Alike e'.cause

theorem Maps.nil (h : ρ.Maps before [] tokens') : tokens' = [] :=
  List.map_eq_nil_iff.1 h.lexemes

theorem Maps.cons {token : Token} (h : ρ.Maps before (token :: tokens) tokens') :
    ∃ place rest, tokens' = ⟨token.lexeme.rename ρ.rename before, place⟩ :: rest ∧
      (∀ name, token.lexeme.labelName? before = some name → name ∈ ρ.names) ∧
      ρ.Maps (token.lexeme :: before) tokens rest := by
  obtain ⟨hlexemes, hnames⟩ := h
  rw [List.map_cons, Lexeme.renameAll] at hlexemes
  obtain ⟨⟨lexeme', place⟩, rest, rfl, hlexeme, hrest⟩ := List.map_eq_cons_iff.1 hlexemes
  cases hlexeme
  rw [List.map_cons, Lexeme.labelNames] at hnames
  refine ⟨place, rest, rfl, ?_, ⟨hrest, ?_⟩⟩
  · intro name hname
    exact hnames name (List.mem_append_left _ (by simp [hname]))
  · intro name hname
    exact hnames name (List.mem_append_right _ hname)

/-- Where no jump target comes next, readers agree if they do at the end and on the first token. -/
theorem Maps.agree_of_other {α α' : Type} {R : α → α' → Prop}
    {read : List Token → Except Diagnostic α} {read' : List Token → Except Diagnostic α'}
    (h : ρ.Maps before tokens tokens') (hplace : Lexeme.targetNext before = false)
    (hnil : Agree ρ.Reports R (read []) (read' []))
    (hcons : ∀ lexeme place place' rest rest', ρ.Maps (lexeme :: before) rest rest' →
      Agree ρ.Reports R (read (⟨lexeme, place⟩ :: rest))
        (read' (⟨lexeme.renameDeclared ρ.rename, place'⟩ :: rest'))) :
    Agree ρ.Reports R (read tokens) (read' tokens') := by
  cases tokens with
  | nil =>
    rw [h.nil]
    exact hnil
  | cons token tokens =>
    obtain ⟨place', rest, rfl, _, hrest⟩ := h.cons
    rw [Lexeme.rename_of_other hplace]
    exact hcons token.lexeme token.location place' tokens rest hrest

/-! ## Readers -/

/-- Two operands that were read in step: their values are related by `R`, and what follows them is
still in step. No jump target follows an operand at once. -/
def Reads {α : Type} (ρ : Renaming) (before : List Lexeme) (R : α → α → Prop)
    (x x' : Located α × List Token) : Prop :=
  R x.1.value x'.1.value ∧
    ∃ lexeme : Lexeme, (∀ others, Lexeme.targetNext (lexeme :: others) = false) ∧
      ρ.Maps (lexeme :: before) x.2 x'.2

theorem refuseOperand_reports {slot : Slot} {lexeme : Lexeme} {place place' : Location}
    {rest rest' : List Token} :
    ρ.Reports (line.refuseOperand m slot position (⟨lexeme, place⟩ :: rest))
      (line'.refuseOperand m slot position
        (⟨lexeme.renameDeclared ρ.rename, place'⟩ :: rest')) := by
  cases lexeme <;> exact ⟨rfl, rfl⟩

theorem refuseOperand_nil_reports {slot : Slot} :
    ρ.Reports (line.refuseOperand m slot position []) (line'.refuseOperand m slot position []) :=
  ⟨rfl, rfl⟩

theorem readComma_agree (h : ρ.Maps before tokens tokens')
    (hplace : Lexeme.targetNext before = false) :
    Agree ρ.Reports (ρ.Maps (.comma :: before)) (line.readComma m position tokens)
      (line'.readComma m position tokens') := by
  refine h.agree_of_other hplace ?_ ?_
  · exact .error ⟨rfl, rfl⟩
  · intro lexeme place place' rest rest' hrest
    cases lexeme with
    | comma => exact .ok hrest
    | _ => exact .error ⟨rfl, rfl⟩

theorem readRegister_agree (h : ρ.Maps before tokens tokens')
    (hplace : Lexeme.targetNext before = false) :
    Agree ρ.Reports (ρ.Reads before Eq) (line.readRegister m position tokens)
      (line'.readRegister m position tokens') := by
  refine h.agree_of_other hplace ?_ ?_
  · exact .error refuseOperand_nil_reports
  · intro lexeme place place' rest rest' hrest
    cases lexeme with
    | register number =>
      simp only [Lexeme.renameDeclared, SourceLine.readRegister]
      split
      · exact .ok ⟨rfl, .register number, fun _ => rfl, hrest⟩
      · exact .error ⟨rfl, rfl⟩
    | _ => exact .error refuseOperand_reports

theorem readImmediate_agree (h : ρ.Maps before tokens tokens')
    (hplace : Lexeme.targetNext before = false) :
    Agree ρ.Reports (ρ.Reads before Eq) (line.readImmediate m position tokens)
      (line'.readImmediate m position tokens') := by
  refine h.agree_of_other hplace ?_ ?_
  · exact .error refuseOperand_nil_reports
  · intro lexeme place place' rest rest' hrest
    cases lexeme with
    | immediate value => exact .ok ⟨rfl, .immediate value, fun _ => rfl, hrest⟩
    | _ => exact .error refuseOperand_reports

/-- The name of a device is no label and stays. -/
theorem readDevice_agree {way : Direction} (h : ρ.Maps before tokens tokens')
    (hplace : Lexeme.targetNext before = false) :
    Agree ρ.Reports (ρ.Reads before Eq) (line.readDevice m way position tokens)
      (line'.readDevice m way position tokens') := by
  refine h.agree_of_other hplace ?_ ?_
  · exact .error refuseOperand_nil_reports
  · intro lexeme place place' rest rest' hrest
    cases lexeme with
    | immediate value => exact .ok ⟨rfl, .immediate value, fun _ => rfl, hrest⟩
    | label name =>
      simp only [Lexeme.renameDeclared, SourceLine.readDevice]
      split
      · exact .ok ⟨rfl, .label name, fun _ => rfl, hrest⟩
      · exact .error ⟨rfl, rfl⟩
    | _ => exact .error refuseOperand_reports

/-- The second target is the first one, with a new name if it is a label. -/
inductive MapsTarget (ρ : Renaming) : Target → Target → Prop
  | address (value : Int) : MapsTarget ρ (.address value) (.address value)
  | label {name : String} : name ∈ ρ.names → MapsTarget ρ (.label name) (.label (ρ.rename name))

theorem readTarget_agree (h : ρ.Maps before tokens tokens')
    (hplace : Lexeme.targetNext before = true) :
    Agree ρ.Reports (ρ.Reads before ρ.MapsTarget) (line.readTarget m position tokens)
      (line'.readTarget m position tokens') := by
  cases tokens with
  | nil =>
    rw [h.nil]
    exact .error refuseOperand_nil_reports
  | cons token tokens =>
    obtain ⟨lexeme, place⟩ := token
    obtain ⟨place', rest, rfl, hname, hrest⟩ := h.cons
    cases lexeme with
    | immediate value => exact .ok ⟨.address value, .immediate value, fun _ => rfl, hrest⟩
    | label name =>
      have hmem : name ∈ ρ.names := hname name (if_pos hplace)
      simp only [Lexeme.rename, hplace, if_true]
      exact .ok ⟨.label hmem, .label name, fun _ => rfl, hrest⟩
    | _ => exact .error refuseOperand_reports

/-! ## Operations -/

/-- The second operation is the first one at other places, with a new name for its label. -/
inductive MapsOperation (ρ : Renaming) : Operation → Operation → Prop
  | plain {o : Operation} (p q : Location) : o.target? = none → MapsOperation ρ o (o.placed p q)
  | branch {condition : Condition} {a a' : Located Register} {target target' : Located Target} :
      a.value = a'.value → ρ.MapsTarget target.value target'.value →
      MapsOperation ρ (.branch condition a target) (.branch condition a' target')
  | jump {target target' : Located Target} :
      ρ.MapsTarget target.value target'.value → MapsOperation ρ (.jump target) (.jump target')

/-- Two operations that were read in step, with what follows them. -/
def ReadsOperation (ρ : Renaming) (x x' : Operation × List Token) : Prop :=
  ρ.MapsOperation x.1 x'.1 ∧
    ∃ before, Lexeme.targetNext before = false ∧ ρ.Maps before x.2 x'.2

/-- An instruction with one operand. -/
theorem one_agree {α : Type} {R : α → α → Prop} {make : Located α → Operation}
    {y y' : Except Diagnostic (Located α × List Token)}
    (hread : Agree ρ.Reports (ρ.Reads before R) y y')
    (hmake : ∀ a a', R a.value a'.value → ρ.MapsOperation (make a) (make a')) :
    Agree ρ.Reports ρ.ReadsOperation (y >>= fun (a, rest) => .ok (make a, rest))
      (y' >>= fun (a, rest) => .ok (make a, rest)) := by
  refine hread.bind ?_
  rintro ⟨a, rest⟩ ⟨a', rest'⟩ ⟨hvalue, lexeme, hother, hrest⟩
  exact .ok ⟨hmake a a' hvalue, _, hother before, hrest⟩

/-- An instruction with two operands. What may come after the comma depends on the instruction
alone. -/
theorem two_agree {α β : Type} {R : α → α → Prop} {S : β → β → Prop}
    {make : Located α → Located β → Operation}
    {y y' : Except Diagnostic (Located α × List Token)}
    {z z' : List Token → Except Diagnostic (Located β × List Token)}
    (hread : Agree ρ.Reports (ρ.Reads before R) y y')
    (hnext : ∀ lexeme rest rest', ρ.Maps (.comma :: lexeme :: before) rest rest' →
      Agree ρ.Reports (ρ.Reads (.comma :: lexeme :: before) S) (z rest) (z' rest'))
    (hmake : ∀ a a' b b', R a.value a'.value → S b.value b'.value →
      ρ.MapsOperation (make a b) (make a' b')) :
    Agree ρ.Reports ρ.ReadsOperation
      (do
        let (a, rest) ← y
        let rest ← line.readComma m 1 rest
        let (b, rest) ← z rest
        return (make a b, rest))
      (do
        let (a, rest) ← y'
        let rest ← line'.readComma m 1 rest
        let (b, rest) ← z' rest
        return (make a b, rest)) := by
  refine hread.bind ?_
  rintro ⟨a, rest₁⟩ ⟨a', rest₁'⟩ ⟨hvalue, lexeme, hother, hrest₁⟩
  refine (readComma_agree hrest₁ (hother before)).bind ?_
  intro rest₂ rest₂' hrest₂
  refine (hnext lexeme rest₂ rest₂' hrest₂).bind ?_
  rintro ⟨b, rest₃⟩ ⟨b', rest₃'⟩ ⟨hvalue', lexeme', hother', hrest₃⟩
  exact .ok ⟨hmake a a' b b' hvalue hvalue', _, hother' _, hrest₃⟩

/-- The operands of an instruction are read in step. -/
theorem readOperands_agree (h : ρ.Maps (.mnemonic m.name :: before) tokens tokens') :
    Agree ρ.Reports ρ.ReadsOperation (line.readOperands m tokens)
      (line'.readOperands m tokens') := by
  -- The name of the instruction decides whether a jump target comes next.
  cases m with
  | nop => exact .ok ⟨.plain ⟨"", 0, 0⟩ ⟨"", 0, 0⟩ rfl, _, rfl, h⟩
  | alu op =>
    refine two_agree (readRegister_agree h ?_) (fun _ _ _ hrest => readRegister_agree hrest ?_) ?_
    · cases op <;> rfl
    · cases op <;> rfl
    · rintro ⟨a, place⟩ ⟨_, p⟩ ⟨b, place'⟩ ⟨_, q⟩ rfl rfl
      exact .plain p q rfl
  | inv =>
    refine one_agree (readRegister_agree h rfl) ?_
    rintro ⟨a, place⟩ ⟨_, p⟩ rfl
    exact .plain p p rfl
  | ldi =>
    refine two_agree (readRegister_agree h rfl)
      (fun _ _ _ hrest => readImmediate_agree hrest rfl) ?_
    rintro ⟨a, place⟩ ⟨_, p⟩ ⟨b, place'⟩ ⟨_, q⟩ rfl rfl
    exact .plain p q rfl
  | transfer way =>
    refine two_agree (readRegister_agree h ?_) (fun _ _ _ hrest => readDevice_agree hrest ?_) ?_
    · cases way <;> rfl
    · cases way <;> rfl
    · rintro ⟨a, place⟩ ⟨_, p⟩ ⟨b, place'⟩ ⟨_, q⟩ rfl rfl
      exact .plain p q rfl
  | branch condition =>
    refine two_agree (readRegister_agree h ?_) (fun _ _ _ hrest => readTarget_agree hrest ?_) ?_
    · cases condition <;> rfl
    · cases condition <;> rfl
    · intro a a' target target' hvalue htarget
      exact .branch hvalue htarget
  | jump => exact one_agree (readTarget_agree h rfl) fun target target' htarget => .jump htarget

theorem Maps.peek_lineEnd (h : ρ.Maps before tokens tokens') :
    (line'.peek tokens').lexeme = .lineEnd ↔ (line.peek tokens).lexeme = .lineEnd := by
  cases tokens with
  | nil =>
    rw [h.nil]
    exact Iff.rfl
  | cons token tokens =>
    obtain ⟨lexeme, place⟩ := token
    obtain ⟨place', rest, rfl, _⟩ := h.cons
    cases lexeme <;> simp [SourceLine.peek, Lexeme.rename]

theorem checkLineEnd_agree (h : ρ.Maps before tokens tokens')
    (hplace : Lexeme.targetNext before = false) :
    Agree ρ.Reports Eq (line.checkLineEnd m tokens) (line'.checkLineEnd m tokens') := by
  refine h.agree_of_other hplace ?_ ?_
  · exact .ok rfl
  · intro lexeme place place' rest rest' hrest
    cases lexeme with
    | lineEnd => exact .ok rfl
    | comma =>
      have hend : (line'.peek rest').lexeme = .lineEnd ↔ (line.peek rest).lexeme = .lineEnd :=
        hrest.peek_lineEnd
      simp only [Lexeme.renameDeclared, Checked.checkLineEnd_comma, hend]
      split
      · exact .error ⟨rfl, rfl⟩
      · exact .error ⟨rfl, rfl⟩
    | _ => exact .error ⟨rfl, rfl⟩

end Renaming

end Risc16
