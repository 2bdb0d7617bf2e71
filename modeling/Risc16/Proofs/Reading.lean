import Risc16.Proofs.Grammar
import Risc16.Proofs.Resolution

/-!
# Reading of lines

What reading adds to a program, line by line. A line that is read spells a statement, and all that
the lines before it decide is the address of what it adds and which names are taken.

Results:
1. `Draft.declare_ok`: what a label declaration adds.
2. `Draft.readLine_ok`: the step. A line is read if and only if it spells a statement whose labels
   can be declared.
3. `Draft.readLines_ok`: the run. Lines are read if and only if each spells a statement and no name
   is declared twice.
-/

namespace Risc16

open Outcome

/-! ## What a line adds -/

/-- A line with the statement that it spells. No label that it declares looks like a register. -/
structure SpelledLine where
  line : SourceLine
  statement : Statement
  lexed : line.run.fault? = none
  spelled : statement.Spelled line.run.tokens
  plain : ∀ label ∈ statement.labels, Word.registerDigits? label.value.toList = none

/-- The labels of a statement, all at one address. -/
def Statement.symbols (st : Statement) (address : Nat) : List Symbol :=
  st.labels.map fun label => ⟨label.value, address, some label.location⟩

/-- The instruction of a statement, if it has one. -/
def Statement.instructions (st : Statement) (line : SourceLine) (address : Nat) :
    List Instruction :=
  (st.operation?.map fun o => ⟨o.value, address, o.location, String.ofList line.text⟩).toList

/-- The program with a statement at its end. -/
def Program.add (p : Program) (line : SourceLine) (st : Statement) : Program :=
  ⟨p.instructions ++ st.instructions line p.size, p.labels ++ st.symbols p.size⟩

/-- How many instructions a statement has, none or one. -/
def Statement.size (st : Statement) : Nat :=
  st.operation?.toList.length

/-- The instructions of lines, the first at `address`. -/
def instructionsFrom (address : Nat) : List SpelledLine → List Instruction
  | [] => []
  | x :: script =>
    x.statement.instructions x.line address ++
      instructionsFrom (address + x.statement.size) script

/-- The labels of lines, the first at `address`. -/
def symbolsFrom (address : Nat) : List SpelledLine → List Symbol
  | [] => []
  | x :: script =>
    x.statement.symbols address ++ symbolsFrom (address + x.statement.size) script

/-- The program with the statements of lines at its end. -/
def Program.addAll (p : Program) (script : List SpelledLine) : Program :=
  ⟨p.instructions ++ instructionsFrom p.size script, p.labels ++ symbolsFrom p.size script⟩

@[simp]
theorem Statement.length_instructions (st : Statement) (line : SourceLine) (address : Nat) :
    (st.instructions line address).length = st.size := by
  simp only [instructions, size]
  cases st.operation? <;> rfl

theorem Program.addAll_nil (p : Program) : p.addAll [] = p := by
  simp only [addAll, instructionsFrom, symbolsFrom, List.append_nil]

theorem Program.addAll_cons (p : Program) (x : SpelledLine) (script : List SpelledLine) :
    p.addAll (x :: script) = (p.add x.line x.statement).addAll script := by
  simp only [addAll, add, instructionsFrom, symbolsFrom, size, List.length_append,
    Statement.length_instructions, List.append_assoc]

/-- The table of a draft holds the labels of its program, in the same order. -/
def Draft.Matched (d : Draft) : Prop :=
  d.symbols.symbols = d.program.labels

/-! ## Declarations -/

theorem SymbolTable.ext {t t' : SymbolTable} (h : t.symbols = t'.symbols) : t = t' := by
  cases t
  cases t'
  cases h
  rfl

theorem Draft.ext {d d' : Draft} (hprogram : d.program = d'.program)
    (hsymbols : d.symbols.symbols = d'.symbols.symbols) : d = d' := by
  obtain ⟨p, t⟩ := d
  obtain ⟨p', t'⟩ := d'
  cases hprogram
  cases SymbolTable.ext hsymbols
  rfl

/-- A label can be declared if there is a table with it at the end: no table has a name twice. -/
theorem SymbolTable.declare_ok {t t' : SymbolTable} {s : Symbol} {line? : Option String} :
    t.declare s line? = .ok t' ↔ t'.symbols = t.symbols ++ [s] := by
  unfold declare
  split
  · next first hfind =>
    simp only [reduceCtorEq, false_iff]
    intro h
    have hnodup := t'.nodup_names
    rw [h, List.map_append, List.nodup_append] at hnodup
    have hfresh : s.name ∉ t.names := fun hmem =>
      hnodup.2.2 s.name hmem s.name (by simp) rfl
    rw [(t.find?_eq_none_iff s.name).2 hfresh] at hfind
    cases hfind
  · rw [Except.ok.injEq]
    constructor
    · rintro rfl
      rfl
    · intro h
      exact SymbolTable.ext h.symm

namespace Draft

theorem declare_ok {line : SourceLine} {d d' : Draft} {label : Located String}
    (hmatched : d.Matched) :
    d.declare line label = .ok d' ↔
      Word.registerDigits? label.value.toList = none ∧
        d'.program = d.program.add line ⟨[label], none⟩ ∧ d'.Matched := by
  have hadd : d.program.add line ⟨[label], none⟩ =
      { d.program with labels := d.program.labels ++
        [⟨label.value, d.program.size, some label.location⟩] } := by
    simp [Program.add, Statement.instructions, Statement.symbols]
  unfold declare
  split
  · next hregister =>
    obtain ⟨digits, hdigits⟩ := Option.isSome_iff_exists.1 hregister
    simp [hdigits]
  · next hregister =>
    rw [Option.not_isSome_iff_eq_none] at hregister
    simp only [map_ok, SymbolTable.declare_ok, hregister, true_and, hadd]
    constructor
    · rintro ⟨t, ht, rfl⟩
      exact ⟨rfl, by rw [Matched, ht, hmatched]⟩
    · rintro ⟨hprogram, hmatched'⟩
      refine ⟨d'.symbols, ?_, Draft.ext hprogram.symm rfl⟩
      rw [hmatched', hprogram, hmatched]

/-! ## The step -/

theorem add_empty (p : Program) (line : SourceLine) : p.add line ⟨[], none⟩ = p := by
  simp [Program.add, Statement.instructions, Statement.symbols]

theorem push_program (line : SourceLine) (place : Location) (o : Operation) (d : Draft) :
    (d.push line place o).program = d.program.add line ⟨[], some ⟨o, place⟩⟩ := by
  simp [push, Program.add, Statement.instructions, Statement.symbols]

theorem spelled_of_readInstruction {line : SourceLine} {d d' : Draft} {tokens : List Token}
    (hends : EndsLine tokens) (hmatched : d.Matched)
    (h : d.readInstruction line tokens = .ok d') :
    ∃ operation?, Statement.Spelled ⟨[], operation?⟩ tokens ∧
      d'.program = d.program.add line ⟨[], operation?⟩ ∧ d'.Matched := by
  simp only [readInstruction] at h
  split at h
  · next hlexeme =>
    obtain ⟨place, rfl⟩ := hends.eq_singleton hlexeme
    cases h
    exact ⟨none, .labels, (add_empty d.program line).symm, hmatched⟩
  · next name hlexeme =>
    split at h
    · cases h
    · next m hm =>
      obtain ⟨⟨o, rest⟩, hoperands, h⟩ := bind_ok.1 h
      obtain ⟨_, hend, h⟩ := bind_ok.1 h
      cases h
      cases hends with
      | last => cases hlexeme
      | @cons token tail _ htail =>
        obtain ⟨used, rfl, rfl, hused⟩ := SourceLine.readOperands_ok.1 hoperands
        -- The end that the check saw is the only one, so nothing is left after it.
        have hrest := htail.of_append hused.inOperands
        obtain ⟨place, rfl⟩ := hrest.eq_singleton (SourceLine.checkLineEnd_ok.1 hend)
        obtain ⟨lexeme, location⟩ := token
        cases hlexeme
        refine ⟨some ⟨o, location⟩, .instruction hm hused, push_program line location o d, ?_⟩
        exact hmatched
  · cases h

theorem readInstruction_of_spelled {line : SourceLine} {d d' : Draft} {tokens : List Token}
    {operation? : Option (Located Operation)} (hmatched : d.Matched)
    (hspelled : Statement.Spelled ⟨[], operation?⟩ tokens)
    (hprogram : d'.program = d.program.add line ⟨[], operation?⟩) (hmatched' : d'.Matched) :
    d.readInstruction line tokens = .ok d' := by
  cases hspelled with
  | labels =>
    rw [add_empty] at hprogram
    have hd : d' = d := Draft.ext hprogram (by rw [hmatched', hmatched, hprogram])
    rw [hd]
    rfl
  | @instruction _ name o used place lineEnd hm hused =>
    have hd : d.push line place o = d' := by
      refine Draft.ext (hprogram ▸ push_program line place o d) ?_
      rw [hmatched', hprogram, ← push_program]
      exact hmatched
    have hread : line.readOperands o.mnemonic (used ++ [⟨.lineEnd, lineEnd⟩]) =
        .ok (o, [⟨.lineEnd, lineEnd⟩]) :=
      SourceLine.readOperands_ok.2 ⟨used, rfl, rfl, hused⟩
    simp only [readInstruction, List.map_nil, List.nil_append, List.cons_append,
      SourceLine.peek, hm, List.tail_cons]
    refine bind_ok.2 ⟨_, hread, bind_ok.2 ⟨(), SourceLine.checkLineEnd_ok.2 rfl, ?_⟩⟩
    rw [hd]
    rfl

/-- Each part of the labels of a draft makes a table, for none of its names comes twice. -/
theorem exists_matched {p : Program} {d : Draft} (hmatched : d.Matched)
    (hinitial : p.labels <+: d.program.labels) : ∃ d' : Draft, d'.program = p ∧ d'.Matched := by
  have hnodup := d.symbols.nodup_names
  rw [hmatched] at hnodup
  exact ⟨⟨p, ⟨p.labels, hnodup.sublist (hinitial.sublist.map _)⟩⟩, rfl, rfl⟩

theorem add_cons_label (p : Program) (line : SourceLine) (label : Located String)
    (st : Statement) :
    (p.add line ⟨[label], none⟩).add line st =
      p.add line ⟨label :: st.labels, st.operation?⟩ := by
  simp [Program.add, Program.size, Statement.instructions, Statement.symbols]

theorem spelled_of_readTokens {line : SourceLine} {d d' : Draft} {tokens : List Token}
    (hends : EndsLine tokens) (hmatched : d.Matched) (h : d.readTokens line tokens = .ok d') :
    ∃ st : Statement, st.Spelled tokens ∧
      (∀ label ∈ st.labels, Word.registerDigits? label.value.toList = none) ∧
      d'.program = d.program.add line st ∧ d'.Matched := by
  induction hends generalizing d with
  | last =>
    obtain ⟨o, hspelled, hprogram, hmatched'⟩ := spelled_of_readInstruction .last hmatched h
    exact ⟨⟨[], o⟩, hspelled, by simp, hprogram, hmatched'⟩
  | @cons token rest hne hrest ih =>
    unfold readTokens at h
    split at h
    · next name place _ htokens =>
      cases htokens
      obtain ⟨d₁, hdeclare, h⟩ := bind_ok.1 h
      obtain ⟨hplain, hprogram₁, hmatched₁⟩ := (declare_ok hmatched).1 hdeclare
      obtain ⟨st, hspelled, hlabels, hprogram, hmatched'⟩ := ih hmatched₁ h
      refine ⟨_, hspelled.cons_label ⟨name, place⟩, ?_, ?_, hmatched'⟩
      · intro label hlabel
        rcases List.mem_cons.1 hlabel with rfl | hlabel
        · exact hplain
        · exact hlabels label hlabel
      · rw [hprogram, hprogram₁, add_cons_label]
    · obtain ⟨o, hspelled, hprogram, hmatched'⟩ :=
        spelled_of_readInstruction (.cons hne hrest) hmatched h
      exact ⟨⟨[], o⟩, hspelled, by simp, hprogram, hmatched'⟩

theorem readTokens_of_spelled {line : SourceLine} {d d' : Draft} {tokens : List Token}
    {labels : List (Located String)} {o : Option (Located Operation)} (hmatched : d.Matched)
    (hspelled : Statement.Spelled ⟨labels, o⟩ tokens)
    (hplain : ∀ label ∈ labels, Word.registerDigits? label.value.toList = none)
    (hprogram : d'.program = d.program.add line ⟨labels, o⟩) (hmatched' : d'.Matched) :
    d.readTokens line tokens = .ok d' := by
  -- Every label changes the draft, so the draft stays free in the induction on the labels.
  induction labels generalizing d tokens with
  | nil =>
    have hread : d.readTokens line tokens = d.readInstruction line tokens := by
      cases hspelled <;> rfl
    rw [hread]
    exact readInstruction_of_spelled hmatched hspelled hprogram hmatched'
  | cons label labels ih =>
    obtain ⟨rest, rfl, hrest⟩ := hspelled.uncons_label
    have hstep := add_cons_label d.program line label ⟨labels, o⟩
    -- The draft in between exists because the one at the end has all the labels.
    obtain ⟨d₁, hprogram₁, hmatched₁⟩ := exists_matched (p := d.program.add line ⟨[label], none⟩)
      hmatched' (by
        rw [hprogram, ← hstep]
        exact List.prefix_append _ _)
    have hdeclare : d.declare line label = .ok d₁ :=
      (declare_ok hmatched).2 ⟨hplain label List.mem_cons_self, hprogram₁, hmatched₁⟩
    refine bind_ok.2 ⟨d₁, hdeclare, ih hmatched₁ hrest ?_ ?_⟩
    · exact fun l hl => hplain l (List.mem_cons_of_mem label hl)
    · rw [hprogram, hprogram₁, hstep]

theorem readLine_ok {line : SourceLine} {d d' : Draft} (hmatched : d.Matched) :
    d.readLine line = .ok d' ↔
      ∃ x : SpelledLine, x.line = line ∧ d'.program = d.program.add x.line x.statement ∧
        d'.Matched := by
  simp only [readLine, bind_ok, SourceLine.tokens_ok]
  constructor
  · rintro ⟨_, ⟨hlexed, rfl⟩, h⟩
    obtain ⟨st, hspelled, hplain, hprogram, hmatched'⟩ :=
      spelled_of_readTokens (SourceLine.run_endsLine hlexed) hmatched h
    exact ⟨⟨line, st, hlexed, hspelled, hplain⟩, rfl, hprogram, hmatched'⟩
  · rintro ⟨⟨line, st, hlexed, hspelled, hplain⟩, rfl, hprogram, hmatched'⟩
    exact ⟨_, ⟨hlexed, rfl⟩, readTokens_of_spelled hmatched hspelled hplain hprogram hmatched'⟩

/-! ## The run -/

/-- Lines are read if and only if each spells a statement and no name is declared twice. The draft
after them has the statements of the lines at its end. -/
theorem readLines_ok {lines : List SourceLine} {d d' : Draft} (hmatched : d.Matched) :
    d.readLines lines = .ok d' ↔
      ∃ script : List SpelledLine, script.map SpelledLine.line = lines ∧
        d'.program = d.program.addAll script ∧ d'.Matched := by
  induction lines generalizing d with
  | nil =>
    simp only [readLines, Except.ok.injEq, List.map_eq_nil_iff]
    constructor
    · rintro rfl
      exact ⟨[], rfl, (Program.addAll_nil d.program).symm, hmatched⟩
    · rintro ⟨_, rfl, hprogram, hmatched'⟩
      rw [Program.addAll_nil] at hprogram
      exact Draft.ext hprogram.symm (by rw [hmatched', hmatched, hprogram])
  | cons line lines ih =>
    simp only [readLines, bind_ok, readLine_ok hmatched]
    constructor
    · rintro ⟨d₁, ⟨x, rfl, hprogram₁, hmatched₁⟩, h⟩
      obtain ⟨script, rfl, hprogram, hmatched'⟩ := (ih hmatched₁).1 h
      exact ⟨x :: script, rfl, by rw [hprogram, hprogram₁, Program.addAll_cons], hmatched'⟩
    · rintro ⟨script, hscript, hprogram, hmatched'⟩
      obtain ⟨x, rest, rfl, rfl, rfl⟩ := List.map_eq_cons_iff.1 hscript
      rw [Program.addAll_cons] at hprogram
      obtain ⟨d₁, hprogram₁, hmatched₁⟩ := exists_matched
        (p := d.program.add x.line x.statement) hmatched' (hprogram ▸ List.prefix_append _ _)
      refine ⟨d₁, ⟨x, rfl, hprogram₁, hmatched₁⟩, (ih hmatched₁).2 ⟨rest, rfl, ?_, hmatched'⟩⟩
      rw [hprogram, hprogram₁]

theorem empty_matched : Draft.empty.Matched := rfl

/-- The lines of a program spell it, and it refers to none but its own labels. -/
theorem ofLines_ok {lines : List SourceLine} {d : Draft} :
    ofLines lines = .ok d ↔
      (∃ script : List SpelledLine, script.map SpelledLine.line = lines ∧
        d.program = ⟨instructionsFrom 0 script, symbolsFrom 0 script⟩) ∧
      d.Matched ∧ ∀ r ∈ d.program.references, r.2.value ∈ d.symbols.names := by
  simp only [ofLines, bind_ok, readLines_ok empty_matched, ← Program.checkLabels_ok]
  constructor
  · rintro ⟨d', ⟨script, hscript, hprogram, hmatched⟩, _, hcheck, h⟩
    cases h
    exact ⟨⟨script, hscript, hprogram⟩, hmatched, hcheck⟩
  · rintro ⟨⟨script, hscript, hprogram⟩, hmatched, hcheck⟩
    exact ⟨d, ⟨script, hscript, hprogram, hmatched⟩, (), hcheck, rfl⟩

theorem readLines_of_ofLines {lines : List SourceLine} {d : Draft} (h : ofLines lines = .ok d) :
    empty.readLines lines = .ok d := by
  obtain ⟨d', hread, hchecked⟩ := bind_ok.1 h
  obtain ⟨_, _, hpure⟩ := bind_ok.1 hchecked
  cases hpure
  exact hread

variable {file : String} {source : List Char} {draft : Draft}

theorem not_missesLabel_of_ofSource (hsource : ofSource file source = .ok draft) :
    ¬ draft.program.MissesLabel draft.symbols := by
  obtain ⟨_, _, hnames⟩ := ofLines_ok.1 hsource
  rintro ⟨i, hi, r, hlabel, hmissing⟩
  exact hmissing (hnames (i, r) (Program.mem_references.2 ⟨hi, hlabel⟩))

/-- The program of a source can be resolved with its own table. -/
theorem resolve_of_ofSource (hsource : ofSource file source = .ok draft) :
    draft.program.resolve draft.symbols = .ok (draft.program.link draft.symbols) :=
  Program.resolve_ok.2 ⟨not_missesLabel_of_ofSource hsource, rfl⟩

end Draft

end Risc16
