import Risc16.Proofs.FirstFault

/-!
# Places of faults

Where a report points. A place is made when a line is cut into pieces, and travels from there with
tokens, operands and symbols into reports that are made much later, next to a line of text that
travels on its own. Both always belong together: the place is one of the source, the text is that of
its line, and where the report names a word, the word stands there.

Results:
1. `SourceLine.holds_label`, `SourceLine.holds_labelDef`: the words behind tokens.
2. `Draft.Reports.shown`: the reports about a line.
3. `Instruction.StandsOn.misses_shown`, `Instruction.StandsOn.outOfRange_shown`: the reports about
   an instruction.
4. `Session.diagnostics_point_at_source`: all reports of an assembly.
-/

namespace Risc16

open Outcome

/-- `HoldsWord text column word`: in a line, a whole word stands at a column. -/
def HoldsWord (text : List Char) (column : Int) (word : List Char) : Prop :=
  ∃ before after, text = before ++ word ++ after ∧ column = before.length + 1 ∧
    FullWord word after

/-- A place points into a source: at a character of one of its lines or just after the last one.
The text is that of the line without its line end. -/
structure Location.PointsInto (l : Location) (file : String) (source text : List Char) : Prop where
  file_eq : l.file = file
  line_pos : 1 ≤ l.line
  line_le : l.line ≤ (Text.splitLines source).length
  text_eq : (Text.splitLines source)[(l.line - 1).toNat]?.map Text.dropLineEnd = some text
  column_pos : 1 ≤ l.column
  column_le : l.column ≤ text.length + 1

/-- One place stands before another. -/
def Location.Before (l l' : Location) : Prop :=
  l.line < l'.line ∨ l.line = l'.line ∧ l.column < l'.column

/-- The word of a source that a cause names: a bad word, a label that is missing, or a label with
the colon that declares it. -/
def Cause.word? : Cause → Option (List Char)
  | .word text _ => some text.toList
  | .undefinedLabel name _ => some name.toList
  | .duplicateLabel name _ => some (name.toList ++ [':'])
  | .general _ | .statement _ | .range _ | .programSize _ _ => none

/-- A source shows what a diagnostic is about: the place with the text of its line, and there the
word that the cause names. A label that is declared twice stands at an earlier place too. -/
structure Diagnostic.ShownBy (d : Diagnostic) (file : String) (source : List Char) (l : Location)
    (text : List Char) : Prop where
  location : d.location? = some l
  sourceLine : d.sourceLine? = some (String.ofList text)
  points : l.PointsInto file source text
  word : ∀ word, d.cause.word? = some word → HoldsWord text l.column word
  first : ∀ name first?, d.cause = .duplicateLabel name first? →
    ∃ place firstText, first? = some place ∧ place.Before l ∧
      place.PointsInto file source firstText ∧
      HoldsWord firstText place.column (name.toList ++ [':'])

/-- A diagnostic that names no word is shown by its place alone. -/
theorem Diagnostic.ShownBy.of_points {d : Diagnostic} {file : String} {source text : List Char}
    {l : Location} (hlocation : d.location? = some l)
    (hline : d.sourceLine? = some (String.ofList text)) (hpoints : l.PointsInto file source text)
    (hword : d.cause.word? = none) : d.ShownBy file source l text := by
  refine ⟨hlocation, hline, hpoints, ?_, ?_⟩
  · intro word h
    rw [hword] at h
    cases h
  · intro name first? hcause
    rw [hcause] at hword
    cases hword

/-! ## Lines of a source -/

namespace SourceLine

theorem numberFrom_getElem? {file : String} {number : Int} {raws : List (List Char)} {k : Nat}
    {line : SourceLine} (h : (numberFrom file number raws)[k]? = some line) :
    ∃ raw, raws[k]? = some raw ∧ line = ofText file (number + k) raw := by
  induction raws generalizing number k with
  | nil => cases h
  | cons raw raws ih =>
    cases k with
    | zero =>
      cases h
      exact ⟨raw, rfl, by simp⟩
    | succ k =>
      obtain ⟨raw', hraw, hline⟩ := ih h
      refine ⟨raw', hraw, ?_⟩
      rw [hline, Int.natCast_succ, Int.add_assoc, Int.add_comm 1]

variable {file : String} {source : List Char} {k : Nat} {line : SourceLine}

theorem number_of_getElem? (h : (ofSource file source)[k]? = some line) : line.number = k + 1 := by
  obtain ⟨raw, _, rfl⟩ := numberFrom_getElem? h
  exact Int.add_comm 1 k

theorem place_pointsInto (h : (ofSource file source)[k]? = some line) {column : Nat}
    (hpos : 1 ≤ column) (hle : column ≤ line.text.length + 1) :
    (line.place column).PointsInto file source line.text := by
  obtain ⟨raw, hraw, rfl⟩ := numberFrom_getElem? h
  have hk : k < (Text.splitLines source).length := (List.getElem?_eq_some_iff.1 hraw).1
  have hindex : (1 + (k : Int) - 1).toNat = k := by omega
  constructor
  case file_eq => rfl
  case line_pos =>
    show 1 ≤ 1 + (k : Int)
    omega
  case line_le =>
    show 1 + (k : Int) ≤ _
    omega
  case text_eq =>
    show (Text.splitLines source)[(1 + (k : Int) - 1).toNat]?.map Text.dropLineEnd = _
    rw [hindex, hraw]
    rfl
  case column_pos => exact Int.ofNat_le.2 hpos
  case column_le => exact Int.ofNat_le.2 hle

/-! ## Words of a line -/

theorem piece_column {piece : Piece} (h : piece ∈ Piece.cut 1 line.text) :
    1 ≤ piece.column ∧ piece.column ≤ line.text.length + 1 := by
  obtain ⟨before, after, htext, hcolumn, _⟩ := (Cuts.of_cut 1 line.text).slice piece h
  rw [htext, hcolumn, List.length_append, List.length_append]
  omega

theorem piece_holds {piece : Piece} (h : piece ∈ Piece.cut 1 line.text)
    (hne : piece.text ≠ [',']) : HoldsWord line.text piece.column piece.text := by
  obtain ⟨before, after, htext, hcolumn, hcomma | hword⟩ := (Cuts.of_cut 1 line.text).slice piece h
  · exact absurd hcomma hne
  · refine ⟨before, after, htext, ?_, hword⟩
    rw [hcolumn]
    omega

theorem token_column {token : Token} (h : token ∈ line.run.tokens) :
    ∃ column, token.location = line.place column ∧ 1 ≤ column ∧
      column ≤ line.text.length + 1 := by
  rcases piece_of_mem_runPieces h with rfl | ⟨piece, hpiece, _, _, hlocation⟩
  · refine ⟨_, rfl, Nat.le_add_left 1 _, Nat.succ_le_succ ?_⟩
    exact (List.takeWhile_sublist _).length_le
  · exact ⟨piece.column, hlocation, piece_column hpiece⟩

theorem token_pointsInto {token : Token} (h : (ofSource file source)[k]? = some line)
    (htoken : token ∈ line.run.tokens) : token.location.PointsInto file source line.text := by
  obtain ⟨column, hlocation, hpos, hle⟩ := token_column htoken
  rw [hlocation]
  exact place_pointsInto h hpos hle

/-- The word behind a token that is no comma. -/
theorem holds_token {lexeme : Lexeme} {place : Location} (h : ⟨lexeme, place⟩ ∈ line.run.tokens)
    (hend : lexeme ≠ .lineEnd) (hcomma : lexeme ≠ .comma) :
    ∃ leading word, Word.Spells leading word lexeme ∧ HoldsWord line.text place.column word := by
  rcases piece_of_mem_runPieces h with heq | ⟨piece, hpiece, leading, hclassify, hlocation⟩
  · cases heq
    exact absurd rfl hend
  · rcases Piece.spells_of_classify hclassify with ⟨_, hlexeme⟩ | hspells
    · exact absurd hlexeme hcomma
    · have hne : piece.text ≠ [','] :=
        Piece.ne_comma_of_classify hclassify fun hok => hcomma (Except.ok.inj hok)
      have hplace : place = line.place piece.column := hlocation
      rw [hplace]
      exact ⟨leading, piece.text, hspells, piece_holds hpiece hne⟩

theorem holds_label {name : String} {place : Location}
    (h : ⟨.label name, place⟩ ∈ line.run.tokens) :
    HoldsWord line.text place.column name.toList := by
  obtain ⟨leading, word, hspells, hword⟩ := holds_token h (by simp) (by simp)
  cases hspells with
  | label =>
    rw [String.toList_ofList]
    exact hword

theorem holds_labelDef {name : String} {place : Location}
    (h : ⟨.labelDef name, place⟩ ∈ line.run.tokens) :
    HoldsWord line.text place.column (name.toList ++ [':']) := by
  obtain ⟨leading, word, hspells, hword⟩ := holds_token h (by simp) (by simp)
  cases hspells with
  | labelDef =>
    rw [String.toList_ofList]
    exact hword

end SourceLine

/-! ## Reports about a line -/

/-- The first declaration of a label stands on an earlier line, or earlier on the same line. -/
theorem Draft.DeclaredTwice.first_shown {file : String} {source : List Char} {k : Nat}
    {line : SourceLine} {d : Draft} {label : Located String} {first : Symbol}
    (hline : (SourceLine.ofSource file source)[k]? = some line)
    (hread : Draft.empty.readLines ((SourceLine.ofSource file source).take k) = .ok d)
    (h : d.DeclaredTwice line.run.tokens label first) :
    ∃ place text, first.location? = some place ∧ place.Before label.location ∧
      place.PointsInto file source text ∧
      HoldsWord text place.column (label.value.toList ++ [':']) := by
  obtain ⟨hname, before, after, htokens, hfirst⟩ := h
  have hmem : ∀ token ∈ labelToken label :: before, token ∈ line.run.tokens := by
    intro token htoken
    rw [htokens]
    rcases List.mem_cons.1 htoken with rfl | htoken
    · exact List.mem_append_right _ List.mem_cons_self
    · exact List.mem_append_left _ htoken
  have hlabel : label.location.line = line.number :=
    SourceLine.runPieces_line _ (hmem _ List.mem_cons_self)
  rcases hfirst with hsymbol | ⟨place, hplace, hbefore⟩
  · -- The symbols of the draft come from the lines before.
    obtain ⟨script, hscript, hprogram, hmatched⟩ := (readLines_ok empty_matched).1 hread
    rw [hmatched, hprogram] at hsymbol
    obtain ⟨j, line', name, place, hj, htoken, rfl⟩ := mem_symbolsFrom.1 hsymbol
    rw [hscript, List.getElem?_take] at hj
    split at hj
    · next hlt =>
      have hline' : place.line = line'.number := SourceLine.runPieces_line _ htoken
      refine ⟨place, line'.text, rfl, .inl ?_, SourceLine.token_pointsInto hj htoken, ?_⟩
      · rw [hline', hlabel, SourceLine.number_of_getElem? hj, SourceLine.number_of_getElem? hline]
        omega
      · rw [← hname]
        exact SourceLine.holds_labelDef htoken
    · cases hj
  · have htoken := hmem _ (List.mem_cons_of_mem _ hbefore)
    have hline' : place.line = line.number := SourceLine.runPieces_line _ htoken
    have hascend := line.run_ascend
    rw [htokens, List.map_append, List.pairwise_append] at hascend
    have hlt : place.column < label.location.column :=
      hascend.2.2 _ (List.mem_map_of_mem hbefore) _ (List.mem_map_of_mem List.mem_cons_self)
    exact ⟨place, line.text, hplace, .inr ⟨hline'.trans hlabel.symm, hlt⟩,
      SourceLine.token_pointsInto hline htoken, SourceLine.holds_labelDef htoken⟩

theorem Draft.Reports.shown {file : String} {source : List Char} {k : Nat} {line : SourceLine}
    {d : Draft} {e : Diagnostic} (hline : (SourceLine.ofSource file source)[k]? = some line)
    (hread : Draft.empty.readLines ((SourceLine.ofSource file source).take k) = .ok d)
    (h : d.Reports line e) : ∃ l text, e.ShownBy file source l text := by
  cases h with
  | @word piece leading fault _ hpiece hclassify =>
    obtain ⟨hpos, hle⟩ := SourceLine.piece_column hpiece
    have hne : piece.text ≠ [','] := Piece.ne_comma_of_classify hclassify (by simp)
    refine ⟨line.place piece.column, line.text, rfl, rfl,
      SourceLine.place_pointsInto hline hpos hle, ?_, ?_⟩
    · intro word hword
      cases hword
      rw [String.toList_ofList]
      exact SourceLine.piece_holds hpiece hne
    · intro name first? hcause
      cases hcause
  | @statement token fault _ htoken =>
    exact ⟨token.location, line.text,
      .of_points rfl rfl (SourceLine.token_pointsInto hline htoken) rfl⟩
  | @duplicate label first _ htwice =>
    have htoken : labelToken label ∈ line.run.tokens := by
      obtain ⟨_, before, after, htokens, _⟩ := htwice
      rw [htokens]
      exact List.mem_append_right _ List.mem_cons_self
    refine ⟨label.location, line.text, rfl, rfl, SourceLine.token_pointsInto hline htoken,
      ?_, ?_⟩
    · intro word hword
      cases hword
      exact SourceLine.holds_labelDef htoken
    · intro name first? hcause
      cases hcause
      exact htwice.first_shown hline hread

/-! ## Reports about an instruction -/

theorem OutOfRange.exists_operand {s : Settings} {t : SymbolTable} {o : Operation}
    {fault : Located RangeFault} (h : OutOfRange s t o fault) :
    ∃ operand ∈ o.operands, operand.location = fault.location := by
  cases h with
  | immediate => exact ⟨_, List.mem_cons_of_mem _ List.mem_cons_self, rfl⟩
  | @target o target _ htarget _ _ =>
    refine ⟨⟨target.value.operand, target.location⟩, ?_, rfl⟩
    cases o with
    | branch condition a target' | jump target' =>
      cases htarget
      simp [Operation.operands]
    | _ => cases htarget
  | device => exact ⟨_, List.mem_cons_of_mem _ List.mem_cons_self, rfl⟩
  | unwired => exact ⟨_, List.mem_cons_of_mem _ List.mem_cons_self, rfl⟩

namespace Instruction.StandsOn

variable {i : Instruction} {line : SourceLine} {file : String} {source : List Char} {k : Nat}

theorem misses_shown (h : i.StandsOn line)
    (hline : (SourceLine.ofSource file source)[k]? = some line) {t : SymbolTable}
    {r : Located String} (hmisses : i.operation.Misses t r) :
    ∃ l text, (t.undefined r.value (some r.location) (some i.sourceLine)).ShownBy
      file source l text := by
  have htoken := h.label_token hmisses.1
  refine ⟨r.location, line.text, rfl, congrArg some h.2,
    SourceLine.token_pointsInto hline htoken, ?_, ?_⟩
  · intro word hword
    cases hword
    exact SourceLine.holds_label htoken
  · intro name first? hcause
    cases hcause

theorem outOfRange_shown (h : i.StandsOn line)
    (hline : (SourceLine.ofSource file source)[k]? = some line) {s : Settings} {t : SymbolTable}
    {fault : Located RangeFault} (hout : OutOfRange s t i.operation fault) :
    ∃ l text, Diagnostic.ShownBy ⟨.range fault.value, some fault.location, some i.sourceLine⟩
      file source l text := by
  obtain ⟨operand, hoperand, hlocation⟩ := hout.exists_operand
  obtain ⟨token, htoken, hplace, _⟩ := h.operand_token hoperand
  rw [← hlocation, ← hplace]
  exact ⟨token.location, line.text,
    .of_points rfl (congrArg some h.2) (SourceLine.token_pointsInto hline htoken) rfl⟩

end Instruction.StandsOn

/-! ## Reports of an assembly -/

theorem Draft.ofSource_shown {file : String} {source : List Char} {e : Diagnostic}
    (h : Draft.ofSource file source = .error e) : ∃ l text, e.ShownBy file source l text := by
  rcases ofLines_error_cases h with ⟨k, d, line, hread, hline, herror⟩ | ⟨d, hread, hcheck⟩
  · exact (reports_of_readLine herror).shown hline hread
  · obtain ⟨i, r, hfirst, hmisses, rfl⟩ :=
      (Program.checkLabels_error (readLines_indexed hread)).1 hcheck
    obtain ⟨k, line, hline, hstands⟩ := readLines_standsOn hread hfirst.1
    exact hstands.misses_shown hline hmisses

theorem Program.Fails.shown {file : String} {source : List Char} {draft : Draft} {s : Settings}
    {t : SymbolTable} {e : Diagnostic}
    (hread : Draft.empty.readLines (SourceLine.ofSource file source) = .ok draft)
    (h : draft.program.Fails s t e) :
    (∃ count capacity, e = ⟨.programSize count capacity, none, none⟩) ∨
      ∃ l text, e.ShownBy file source l text := by
  cases h with
  | size => exact .inl ⟨_, _, rfl⟩
  | label _ hfirst hmisses =>
    obtain ⟨k, line, hline, hstands⟩ := Draft.readLines_standsOn hread hfirst.1
    exact .inr (hstands.misses_shown hline hmisses)
  | range _ _ hfirst hout =>
    obtain ⟨k, line, hline, hstands⟩ := Draft.readLines_standsOn hread hfirst.1
    exact .inr (hstands.outOfRange_shown hline hout)

theorem Session.assemble_shown {session : Session} {file : String} {source : List Char}
    {d : Diagnostic} (h : (session.assemble file source).result = .error (.diagnostic d)) :
    (∃ count capacity, d = ⟨.programSize count capacity, none, none⟩) ∨
      ∃ l text, d.ShownBy file source l text := by
  rcases assemble_diagnostic.1 h with hsource | ⟨draft, hsource, hbuild, _⟩
  · exact .inr (Draft.ofSource_shown hsource)
  · have hread := Draft.readLines_of_ofLines hsource
    exact (Program.fails_of_build (Draft.readLines_indexed hread) hbuild).shown hread

theorem Session.assemble_programSize {session : Session} {file : String} {source : List Char}
    {d : Diagnostic} {count capacity : Int}
    (h : (session.assemble file source).result = .error (.diagnostic d))
    (hcause : d.cause = .programSize count capacity) : d.location? = none := by
  rcases assemble_diagnostic.1 h with hsource | ⟨draft, hsource, hbuild, _⟩
  · have hfrom := Draft.fromSource_of_ofLines hsource
    rw [hcause] at hfrom
    exact hfrom.elim
  · have hindex := (Draft.ofLines_placed hsource).indexed
    cases Program.fails_of_build hindex hbuild with
    | size => rfl
    | label => cases hcause
    | range => cases hcause

/-- Diagnostics point at the source. The only one without a place is about a program that is too
long; the place of any other is one of the source, with the text of its line, and the word that the
diagnostic names stands there. -/
theorem Session.diagnostics_point_at_source (session : Session) (file : String)
    (source : List Char) (d : Diagnostic)
    (h : (session.assemble file source).result = .error (.diagnostic d)) :
    (d.location? = none ↔ ∃ count capacity, d.cause = .programSize count capacity) ∧
    ∀ l, d.location? = some l → ∃ text, d.ShownBy file source l text := by
  refine ⟨⟨?_, fun ⟨_, _, hcause⟩ => Session.assemble_programSize h hcause⟩, ?_⟩
  · intro hnone
    rcases Session.assemble_shown h with ⟨count, capacity, rfl⟩ | ⟨l, text, hshown⟩
    · exact ⟨count, capacity, rfl⟩
    · cases hnone.symm.trans hshown.location
  · intro l hl
    rcases Session.assemble_shown h with ⟨count, capacity, rfl⟩ | ⟨l', text, hshown⟩
    · cases hl
    · cases hl.symm.trans hshown.location
      exact ⟨text, hshown⟩

/-- A label that is declared again at the end of a line with a comment: the report points at the
second declaration, and names the first one. -/
theorem Session.diagnostics_point_at_second_label :
    ∃ d first, (Session.assemble "a" "x: nop\n y: x: ; x:\r".toList ⟨{}, .empty⟩).result =
        .error (.diagnostic d) ∧
      d.cause = .duplicateLabel "x" (some first) ∧ d.location? = some ⟨"a", 2, 5⟩ ∧
      ∃ text, d.ShownBy "a" "x: nop\n y: x: ; x:\r".toList ⟨"a", 2, 5⟩ text := by
  let d : Diagnostic := ⟨.duplicateLabel "x" (some ⟨"a", 1, 1⟩), some ⟨"a", 2, 5⟩,
    some " y: x: ; x:"⟩
  have hread : (Draft.ofSource "a" "x: nop\n y: x: ; x:\r".toList).map Draft.program =
      .error d := by decide +kernel
  have hresult : (Session.assemble "a" "x: nop\n y: x: ; x:\r".toList ⟨{}, .empty⟩).result =
      .error (.diagnostic d) :=
    Session.assemble_diagnostic.2 (.inl (map_error.1 hread))
  exact ⟨d, ⟨"a", 1, 1⟩, hresult, rfl, rfl,
    (Session.diagnostics_point_at_source _ _ _ d hresult).2 _ rfl⟩

end Risc16
