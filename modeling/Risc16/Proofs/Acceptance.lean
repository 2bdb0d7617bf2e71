import Risc16.Proofs.Reading

/-!
# The sources that are accepted

Which lines make a program, said about their tokens alone. The reader takes the tokens one by one,
declares labels as it goes and looks up references at the end; none of that shows in the conditions.

Results:
1. `Statement.Spelled.declaredNames`, `Statement.Spelled.any_isMnemonic`,
   `Statement.Spelled.jumpsTo`: what the tokens of a statement tell about it.
2. `Draft.ofLines_accepts_grammatical`: lines are accepted if and only if they are grammatical, and
   then there is one instruction for each line with the name of one, in order.
-/

namespace Risc16

/-! ## What tokens tell -/

/-- The name that a token declares. -/
def Lexeme.declaredName? : Lexeme → Option String
  | .labelDef name => some name
  | _ => none

/-- Whether a token is the name of an instruction. -/
def Lexeme.isMnemonic : Lexeme → Bool
  | .mnemonic _ => true
  | _ => false

namespace SourceLine

/-- The names that a line declares, in order. -/
def declaredNames (line : SourceLine) : List String :=
  line.run.tokens.filterMap fun token => token.lexeme.declaredName?

/-- Whether a line has the name of an instruction. -/
def carriesInstruction (line : SourceLine) : Bool :=
  line.run.tokens.any fun token => token.lexeme.isMnemonic

/-- A line jumps to a label: it has the name of a jump and the label as an operand. -/
def JumpsTo (line : SourceLine) (name : String) : Prop :=
  ∃ m : Mnemonic, m.isJump = true ∧ (∃ place, ⟨.mnemonic m.name, place⟩ ∈ line.run.tokens) ∧
    ∃ place, ⟨.label name, place⟩ ∈ line.run.tokens

end SourceLine

/-- A name with the shape of a register: an `r` and digits. -/
def RegisterShaped (name : String) : Prop :=
  ∃ digits : List Char, name.toList = 'r' :: digits ∧ digits ≠ [] ∧ ∀ c ∈ digits, c.isDigit = true

/-- Lines that make a program.

* `lexed`: no line has a bad word.
* `spelled`: the tokens of each line are label declarations, then perhaps an instruction with the
  operands that it takes, then the end of the line.
* `plain`, `distinct`: no name looks like a register, and none is declared twice.
* `declared`: the labels of jumps are declared on some line. -/
structure Grammatical (lines : List SourceLine) : Prop where
  lexed : ∀ line ∈ lines, line.run.fault? = none
  spelled : ∀ line ∈ lines, ∃ st : Statement, st.Spelled line.run.tokens
  plain : ∀ line ∈ lines, ∀ name ∈ line.declaredNames, ¬ RegisterShaped name
  distinct : (lines.flatMap SourceLine.declaredNames).Nodup
  declared : ∀ line ∈ lines, ∀ name, line.JumpsTo name →
    name ∈ lines.flatMap SourceLine.declaredNames

theorem registerDigits?_eq_none {name : String} :
    Word.registerDigits? name.toList = none ↔ ¬ RegisterShaped name := by
  unfold Word.registerDigits? RegisterShaped
  split
  · next digits hname =>
    have hnumeral : Word.isNumeral digits = true ↔
        digits ≠ [] ∧ ∀ c ∈ digits, c.isDigit = true := by
      simp [Word.isNumeral]
    rw [hname]
    split
    · next h => simpa using hnumeral.1 h
    · next h =>
      simp only [true_iff]
      rintro ⟨digits', hdigits, hshape⟩
      cases hdigits
      exact h (hnumeral.2 hshape)
  · next hname =>
    simp only [true_iff]
    rintro ⟨digits, h, _⟩
    exact hname digits h

theorem Lexeme.InOperands.declaredName? {lexeme : Lexeme} (h : lexeme.InOperands) :
    lexeme.declaredName? = none := by
  cases lexeme with
  | labelDef name => cases h
  | _ => rfl

theorem Lexeme.InOperands.isMnemonic {lexeme : Lexeme} (h : lexeme.InOperands) :
    lexeme.isMnemonic = false := by
  cases lexeme with
  | mnemonic name => cases h
  | _ => rfl

theorem Mnemonic.name_eq_of_ofName? {name : String} {m : Mnemonic} (h : ofName? name = some m) :
    m.name = name := by
  simpa using List.find?_some h

theorem Operation.isJump_of_label {o : Operation} {name : String} {place : Location}
    (h : ⟨.label name, place⟩ ∈ o.operands) : o.mnemonic.isJump = true := by
  cases o with
  | branch condition a target | jump target => rfl
  | _ => simp [operands] at h

/-! ## The tokens of a statement -/

/-- In a jump, a label stands for itself: no device is named there. -/
theorem Gives.label_iff {m : Mnemonic} {slot : Slot} {lexeme : Lexeme} {operand : Operand}
    {name : String} (h : Gives m slot lexeme operand) (hjump : m.isJump = true) :
    lexeme = .label name ↔ operand = .label name := by
  cases h with
  | deviceName hway _ =>
    subst hway
    cases hjump
  | label name' => simp
  | _ => simp

theorem OperandTokens.label_mem_iff {m : Mnemonic} {slots : List Slot} {tokens : List Token}
    {operands : List (Located Operand)} {name : String} {place : Location}
    (h : OperandTokens m slots tokens operands) (hjump : m.isJump = true) :
    ⟨.label name, place⟩ ∈ tokens ↔ ⟨.label name, place⟩ ∈ operands := by
  induction h with
  | none => simp
  | @last _ token operand hgives =>
    obtain ⟨lexeme, location⟩ := token
    have hlabel : lexeme = .label name ↔ operand = .label name := hgives.label_iff hjump
    simp only [List.mem_singleton, Token.mk.injEq, Located.mk.injEq, eq_comm, hlabel]
  | @more _ _ _ token comma _ operand _ hgives hcomma _ ih =>
    obtain ⟨lexeme, location⟩ := token
    obtain ⟨_, commaPlace⟩ := comma
    cases hcomma
    have hlabel : lexeme = .label name ↔ operand = .label name := hgives.label_iff hjump
    simp only [List.mem_cons, Token.mk.injEq, Located.mk.injEq, eq_comm, hlabel, ih,
      reduceCtorEq, false_and, false_or]

namespace Statement.Spelled

theorem declaredNames {st : Statement} {tokens : List Token} (h : st.Spelled tokens) :
    tokens.filterMap (fun token => token.lexeme.declaredName?) =
      st.labels.map Located.value := by
  have hlabels : ∀ labels : List (Located String),
      (labels.map labelToken).filterMap (fun token => token.lexeme.declaredName?) =
        labels.map Located.value := by
    intro labels
    rw [List.filterMap_map]
    show labels.filterMap (some ∘ Located.value) = labels.map Located.value
    rw [List.filterMap_eq_map]
  cases h with
  | labels =>
    rw [List.filterMap_append, hlabels]
    exact List.append_nil _
  | instruction _ hused =>
    have hnone := List.filterMap_eq_nil_iff.2 fun t ht => (hused.inOperands t ht).declaredName?
    rw [List.filterMap_append, List.filterMap_append, List.filterMap_cons, hlabels, hnone]
    simp only [Lexeme.declaredName?, List.filterMap_cons, List.filterMap_nil, List.append_nil]

theorem any_isMnemonic {st : Statement} {tokens : List Token} (h : st.Spelled tokens) :
    tokens.any (fun token => token.lexeme.isMnemonic) = st.operation?.isSome := by
  cases h with
  | labels => simp [labelToken, Lexeme.isMnemonic]
  | instruction => simp [Lexeme.isMnemonic]

/-- The label that a line jumps to is an operand of its operation. -/
theorem jumpsTo {st : Statement} {line : SourceLine} {name : String}
    (h : st.Spelled line.run.tokens) :
    line.JumpsTo name ↔
      ∃ o place, st.operation? = some o ∧ ⟨.label name, place⟩ ∈ o.value.operands := by
  unfold SourceLine.JumpsTo
  generalize line.run.tokens = tokens at h
  cases h with
  | labels => simp [labelToken]
  | @instruction labels name' o used place lineEnd hm hused =>
    have hname := Mnemonic.name_eq_of_ofName? hm
    constructor
    · rintro ⟨m, hjump, ⟨place₁, hmnemonic⟩, place₂, hlabel⟩
      -- The line has the name of one instruction only, so the jump is that one.
      have hm' : m = o.mnemonic := by
        have hnot : ⟨.mnemonic m.name, place₁⟩ ∉ used := fun hmem => hused.inOperands _ hmem
        have hsame : m.name = name' := by
          simp [labelToken, hnot] at hmnemonic
          exact hmnemonic.1
        have hfound := Mnemonic.ofName?_name m
        rw [hsame, hm] at hfound
        exact (Option.some.inj hfound).symm
      subst hm'
      have hused' : ⟨.label name, place₂⟩ ∈ used := by simpa [labelToken] using hlabel
      exact ⟨_, place₂, rfl, (hused.label_mem_iff hjump).1 hused'⟩
    · rintro ⟨_, place', h, hlabel⟩
      cases h
      have hjump := Operation.isJump_of_label hlabel
      refine ⟨o.mnemonic, hjump, ⟨place, by simp [hname]⟩, place', ?_⟩
      have hmem := (hused.label_mem_iff hjump).2 hlabel
      simp [hmem]

end Statement.Spelled

/-! ## Whole sources -/

theorem SpelledLine.map_labels (x : SpelledLine) :
    x.statement.labels.map Located.value = x.line.declaredNames :=
  x.spelled.declaredNames.symm

theorem map_name_symbolsFrom (address : Nat) (script : List SpelledLine) :
    (symbolsFrom address script).map Symbol.name =
      (script.map SpelledLine.line).flatMap SourceLine.declaredNames := by
  induction script generalizing address with
  | nil => rfl
  | cons x script ih =>
    rw [symbolsFrom, List.map_append, ih, List.map_cons, List.flatMap_cons, ← x.map_labels,
      Statement.symbols, List.map_map]
    rfl

/-- The operation of an instruction with its place. -/
def Instruction.located (i : Instruction) : Located Operation :=
  ⟨i.operation, i.location⟩

theorem map_located_instructionsFrom (address : Nat) (script : List SpelledLine) :
    (instructionsFrom address script).map Instruction.located =
      script.filterMap fun x => x.statement.operation? := by
  induction script generalizing address with
  | nil => rfl
  | cons x script ih =>
    rw [instructionsFrom, List.map_append, ih, List.filterMap_cons, Statement.instructions]
    cases x.statement.operation? <;> rfl

/-- The labels that a program refers to are those that its lines jump to. -/
theorem exists_reference_iff {address : Nat} {script : List SpelledLine} {labels : List Symbol}
    {name : String} :
    (∃ r ∈ Program.references ⟨instructionsFrom address script, labels⟩, r.2.value = name) ↔
      ∃ x ∈ script, x.line.JumpsTo name := by
  have hlocated := map_located_instructionsFrom address script
  constructor
  · rintro ⟨⟨i, r⟩, hr, rfl⟩
    obtain ⟨hi, hlabel⟩ := Program.mem_references.1 hr
    have hmem := List.mem_map_of_mem (f := Instruction.located) hi
    rw [hlocated, List.mem_filterMap] at hmem
    obtain ⟨x, hx, hoperation⟩ := hmem
    exact ⟨x, hx, x.spelled.jumpsTo.2 ⟨i.located, r.location, hoperation, hlabel⟩⟩
  · rintro ⟨x, hx, hjump⟩
    obtain ⟨o, place, hoperation, hlabel⟩ := x.spelled.jumpsTo.1 hjump
    have hmem : o ∈ (instructionsFrom address script).map Instruction.located := by
      rw [hlocated, List.mem_filterMap]
      exact ⟨x, hx, hoperation⟩
    obtain ⟨i, hi, rfl⟩ := List.mem_map.1 hmem
    exact ⟨(i, ⟨name, place⟩), Program.mem_references.2 ⟨hi, hlabel⟩, rfl⟩

/-- An instruction stands on a line: the line spells its operation, at its place, and is its source
text. -/
def Instruction.StandsOn (i : Instruction) (line : SourceLine) : Prop :=
  (∃ labels, Statement.Spelled ⟨labels, some i.located⟩ line.run.tokens) ∧
    i.sourceLine = String.ofList line.text

theorem forall₂_standsOn (address : Nat) (script : List SpelledLine) :
    List.Forall₂ (fun line i => i.StandsOn line)
      ((script.map SpelledLine.line).filter SourceLine.carriesInstruction)
      (instructionsFrom address script) := by
  induction script generalizing address with
  | nil => exact .nil
  | cons x script ih =>
    obtain ⟨line, ⟨labels, operation?⟩, lexed, spelled, plain⟩ := x
    have hcarries : line.carriesInstruction = operation?.isSome := spelled.any_isMnemonic
    rw [List.map_cons, List.filter_cons, hcarries, instructionsFrom]
    cases operation? with
    | none => exact ih _
    | some o => exact .cons ⟨⟨labels, spelled⟩, rfl⟩ (ih _)

theorem Grammatical.spelledLine {lines : List SourceLine} (h : Grammatical lines)
    {line : SourceLine} (hline : line ∈ lines) : ∃ x : SpelledLine, x.line = line := by
  obtain ⟨st, hspelled⟩ := h.spelled line hline
  refine ⟨⟨line, st, h.lexed line hline, hspelled, ?_⟩, rfl⟩
  intro label hlabel
  refine registerDigits?_eq_none.2 (h.plain line hline label.value ?_)
  unfold SourceLine.declaredNames
  rw [hspelled.declaredNames]
  exact List.mem_map_of_mem hlabel

theorem exists_script {lines : List SourceLine}
    (h : ∀ line ∈ lines, ∃ x : SpelledLine, x.line = line) :
    ∃ script : List SpelledLine, script.map SpelledLine.line = lines := by
  induction lines with
  | nil => exact ⟨[], rfl⟩
  | cons line lines ih =>
    obtain ⟨x, rfl⟩ := h line List.mem_cons_self
    obtain ⟨script, rfl⟩ := ih fun l hl => h l (List.mem_cons_of_mem x.line hl)
    exact ⟨x :: script, rfl⟩

theorem grammatical_of_ofLines {lines : List SourceLine} {d : Draft}
    (h : Draft.ofLines lines = .ok d) : Grammatical lines := by
  obtain ⟨⟨script, rfl, hprogram⟩, hmatched, hreferences⟩ := Draft.ofLines_ok.1 h
  have hnames : d.symbols.names =
      (script.map SpelledLine.line).flatMap SourceLine.declaredNames := by
    rw [SymbolTable.names, hmatched, hprogram, map_name_symbolsFrom]
  constructor
  case lexed =>
    rintro _ hline
    obtain ⟨x, _, rfl⟩ := List.mem_map.1 hline
    exact x.lexed
  case spelled =>
    rintro _ hline
    obtain ⟨x, _, rfl⟩ := List.mem_map.1 hline
    exact ⟨x.statement, x.spelled⟩
  case plain =>
    rintro _ hline name hname
    obtain ⟨x, _, rfl⟩ := List.mem_map.1 hline
    rw [← x.map_labels] at hname
    obtain ⟨label, hlabel, rfl⟩ := List.mem_map.1 hname
    exact registerDigits?_eq_none.1 (x.plain label hlabel)
  case distinct =>
    rw [← hnames]
    exact d.symbols.nodup_names
  case declared =>
    rintro _ hline name hjump
    obtain ⟨x, hx, rfl⟩ := List.mem_map.1 hline
    rw [hprogram] at hreferences
    obtain ⟨r, hr, rfl⟩ := exists_reference_iff.2 ⟨x, hx, hjump⟩
    rw [← hnames]
    exact hreferences r hr

theorem Grammatical.exists_ofLines {lines : List SourceLine} (h : Grammatical lines) :
    ∃ d, Draft.ofLines lines = .ok d := by
  obtain ⟨script, rfl⟩ := exists_script fun line hline => h.spelledLine hline
  have hnames := map_name_symbolsFrom 0 script
  have hnodup : ((symbolsFrom 0 script).map Symbol.name).Nodup := hnames ▸ h.distinct
  refine ⟨⟨⟨instructionsFrom 0 script, symbolsFrom 0 script⟩, ⟨symbolsFrom 0 script, hnodup⟩⟩,
    Draft.ofLines_ok.2 ⟨⟨script, rfl, rfl⟩, rfl, ?_⟩⟩
  intro r hr
  obtain ⟨x, hx, hjump⟩ := exists_reference_iff.1 ⟨r, hr, rfl⟩
  rw [SymbolTable.names, hnames]
  exact h.declared x.line (List.mem_map_of_mem hx) r.2.value hjump

/-- Lines are accepted if and only if they are grammatical. Then there is one instruction for each
line with the name of one, in the order of the lines, with the operands that the tokens give. -/
theorem Draft.ofLines_accepts_grammatical (lines : List SourceLine) :
    ((∃ d, Draft.ofLines lines = .ok d) ↔ Grammatical lines) ∧
    ∀ d, Draft.ofLines lines = .ok d →
      List.Forall₂ (fun line i => i.StandsOn line)
        (lines.filter SourceLine.carriesInstruction) d.program.instructions := by
  refine ⟨⟨fun ⟨_, h⟩ => grammatical_of_ofLines h, Grammatical.exists_ofLines⟩, ?_⟩
  intro d h
  obtain ⟨⟨script, rfl, hprogram⟩, _, _⟩ := Draft.ofLines_ok.1 h
  rw [hprogram]
  exact forall₂_standsOn 0 script

/-- A line with a label and a device by name is accepted, with a jump back to it after a blank line.
A jump to a label that is never declared is not. -/
theorem Draft.ofLines_accepts_loop :
    Grammatical (SourceLine.ofSource "a" "top: out r1, SEG_LEFT\n\nj top".toList) ∧
      ¬ Grammatical (SourceLine.ofSource "a" "j away".toList) := by
  constructor
  · have hread : (Draft.ofLines
        (SourceLine.ofSource "a" "top: out r1, SEG_LEFT\n\nj top".toList)).map
        (fun d => d.program.size) = .ok 2 := by decide +kernel
    obtain ⟨d, hd, _⟩ := Outcome.map_ok.1 hread
    exact (Draft.ofLines_accepts_grammatical _).1.1 ⟨d, hd⟩
  · intro h
    obtain ⟨d, hd⟩ := (Draft.ofLines_accepts_grammatical _).1.2 h
    have hrefused : ((Draft.ofLines (SourceLine.ofSource "a" "j away".toList)).map
        (fun d => d.program.size)).toOption = none := by decide +kernel
    rw [hd] at hrefused
    cases hrefused

end Risc16
