import Risc16.Proofs.SideBySide

/-!
# Sources of the same program

What a source may change without a change to its program: the names of its labels, and all that is
there for the reader's eye, which is blanks, empty lines, comments and the name of the file.

Results:
1. `Session.label_names_are_free`: labels that are renamed apart give the same bytes.
2. `Draft.readLines_filter`: a line that says nothing is passed over.
3. `Session.layout_is_free`: sources that say the same line by line, lines that say nothing apart,
   give the same bytes or fail with the same message.
-/

namespace Risc16

open Outcome

/-! ## Names -/

/-- The labels that some lines declare or jump to. -/
def labelNamesOf (lines : List SourceLine) : List String :=
  lines.flatMap SourceLine.labelNames

/-- New names for the labels of some lines, none of which looks like a register. -/
def Renaming.ofLines (lines : List SourceLine) (f : String → String)
    (hinj : Set.InjOn f {name | name ∈ labelNamesOf lines})
    (hold : ∀ name ∈ labelNamesOf lines, ¬ RegisterShaped name)
    (hnew : ∀ name ∈ labelNamesOf lines, ¬ RegisterShaped (f name)) : Renaming where
  names := {name | name ∈ labelNamesOf lines}
  rename := f
  injOn := hinj
  shape name hname := iff_of_false (hnew name hname) (hold name hname)

/-- The names of labels are free. Labels can be renamed, also to the name of an instruction or of a
device, as long as labels that differ stay different and none looks like a register. Then the bytes
are the same and so are the addresses of the labels in their order; or both sources are refused, and
for the same reason. -/
theorem Session.label_names_are_free (session : Session) (hvalid : session.settings.isValid = true)
    (file file' : String) (source source' : List Char) (f : String → String)
    (hrenamed : List.Forall₂ (SourceLine.Renamed f) (SourceLine.ofSource file source)
      (SourceLine.ofSource file' source'))
    (hinj : Set.InjOn f {name | name ∈ labelNamesOf (SourceLine.ofSource file source)})
    (hold : ∀ name ∈ labelNamesOf (SourceLine.ofSource file source), ¬ RegisterShaped name)
    (hnew : ∀ name ∈ labelNamesOf (SourceLine.ofSource file source), ¬ RegisterShaped (f name)) :
    (∃ bytes, (session.assemble file source).result = .ok bytes ∧
      (session.assemble file' source').result = .ok bytes ∧
      (session.assemble file' source').session.output.symbols.addresses =
        (session.assemble file source).session.output.symbols.addresses.map (Prod.map f id)) ∨
    ∃ d d', (session.assemble file source).result = .error (.diagnostic d) ∧
      (session.assemble file' source').result = .error (.diagnostic d') ∧
      (d.cause.rename f).Alike d'.cause := by
  let ρ := Renaming.ofLines (SourceLine.ofSource file source) f hinj hold hnew
  have hlines : Agree ρ.Reports ρ.MapsDraft (Draft.ofSource file source)
      (Draft.ofSource file' source') :=
    Renaming.ofLines_agree hrenamed fun line hline name hname =>
      List.mem_flatMap.2 ⟨line, hline, hname⟩
  rcases Renaming.assemble_agree hvalid hlines with
    ⟨bytes, hfirst, hsecond, houtput⟩ | ⟨d, d', hfirst, hsecond, hreports⟩
  · exact .inl ⟨bytes, hfirst, hsecond, houtput.addresses⟩
  · exact .inr ⟨d, d', hfirst, hsecond, hreports⟩

/-- One label gets the name of an instruction, the other that of a device that the program reads. -/
theorem Session.label_names_are_free_taken_names :
    ∃ bytes,
      (Session.assemble "a" "back: in r1, BTNC\njz r1, back\nj done\ndone: nop".toList
        ⟨{}, .empty⟩).result = .ok bytes ∧
      (Session.assemble "b" "in: in r1, BTNC\njz r1, in\nj BTNC\nBTNC: nop".toList
        ⟨{}, .empty⟩).result = .ok bytes ∧
      (Session.assemble "b" "in: in r1, BTNC\njz r1, in\nj BTNC\nBTNC: nop".toList
        ⟨{}, .empty⟩).session.output.symbols.addresses = [("in", 0), ("BTNC", 3)] := by
  let f : String → String := fun name => if name = "back" then "in" else "BTNC"
  have hlines : SourceLine.ofSource "a" "back: in r1, BTNC\njz r1, back\nj done\ndone: nop".toList =
      [⟨"a", 1, "back: in r1, BTNC".toList⟩, ⟨"a", 2, "jz r1, back".toList⟩,
        ⟨"a", 3, "j done".toList⟩, ⟨"a", 4, "done: nop".toList⟩] := by decide +kernel
  have hlines' : SourceLine.ofSource "b" "in: in r1, BTNC\njz r1, in\nj BTNC\nBTNC: nop".toList =
      [⟨"b", 1, "in: in r1, BTNC".toList⟩, ⟨"b", 2, "jz r1, in".toList⟩,
        ⟨"b", 3, "j BTNC".toList⟩, ⟨"b", 4, "BTNC: nop".toList⟩] := by decide +kernel
  have hnames : labelNamesOf (SourceLine.ofSource "a"
      "back: in r1, BTNC\njz r1, back\nj done\ndone: nop".toList) =
        ["back", "back", "done", "done"] := by decide +kernel
  have hcases : ∀ name ∈ labelNamesOf (SourceLine.ofSource "a"
      "back: in r1, BTNC\njz r1, back\nj done\ndone: nop".toList),
      name = "back" ∨ name = "done" := by
    rw [hnames]
    simp
  have hrenamed : List.Forall₂ (SourceLine.Renamed f)
      (SourceLine.ofSource "a" "back: in r1, BTNC\njz r1, back\nj done\ndone: nop".toList)
      (SourceLine.ofSource "b" "in: in r1, BTNC\njz r1, in\nj BTNC\nBTNC: nop".toList) := by
    rw [hlines, hlines']
    refine .cons ⟨?_, ?_, ?_⟩ (.cons ⟨?_, ?_, ?_⟩ (.cons ⟨?_, ?_, ?_⟩ (.cons ⟨?_, ?_, ?_⟩ .nil)))
    all_goals decide +kernel
  have hbytes : (Session.assemble "a" "back: in r1, BTNC\njz r1, back\nj done\ndone: nop".toList
      ⟨{}, .empty⟩).result = .ok [177, 16, 209, 0, 240, 3, 0, 0] := by decide +kernel
  have hinj : Set.InjOn f {name | name ∈ labelNamesOf (SourceLine.ofSource "a"
      "back: in r1, BTNC\njz r1, back\nj done\ndone: nop".toList)} := by
    intro a ha b hb heq
    rcases hcases a ha with rfl | rfl <;> rcases hcases b hb with rfl | rfl
    · rfl
    · exact absurd heq (by decide)
    · exact absurd heq (by decide)
    · rfl
  have hplain : ∀ name, name = "back" ∨ name = "done" →
      ¬ RegisterShaped name ∧ ¬ RegisterShaped (f name) := by
    rintro name (rfl | rfl)
    · exact ⟨registerDigits?_eq_none.1 (by decide), registerDigits?_eq_none.1 (by decide)⟩
    · exact ⟨registerDigits?_eq_none.1 (by decide), registerDigits?_eq_none.1 (by decide)⟩
  rcases Session.label_names_are_free ⟨{}, .empty⟩ (by decide) "a" "b" _ _ f hrenamed hinj
      (fun name hname => (hplain name (hcases name hname)).1)
      (fun name hname => (hplain name (hcases name hname)).2) with
    ⟨bytes, hfirst, hsecond, haddresses⟩ | ⟨d, d', hfirst, _⟩
  · refine ⟨bytes, hfirst, hsecond, ?_⟩
    rw [haddresses]
    decide +kernel
  · rw [hbytes] at hfirst
    cases hfirst

/-! ## Layout -/

/-- A line of blanks or of a comment, or an empty one. -/
def SourceLine.saysNothing (line : SourceLine) : Bool :=
  line.lexemes == [.lineEnd]

/-- What some lines say, without the lines that say nothing. -/
def lexemesOf (lines : List SourceLine) : List (List Lexeme) :=
  (lines.map SourceLine.lexemes).filter (· != [.lineEnd])

theorem lexemesOf_eq (lines : List SourceLine) :
    lexemesOf lines = (lines.filter (!·.saysNothing)).map SourceLine.lexemes := by
  rw [lexemesOf, List.filter_map]
  rfl

namespace Draft

variable {line : SourceLine} {lines : List SourceLine} {d : Draft}

theorem readLine_of_saysNothing (hlexed : line.run.fault? = none)
    (hnothing : line.saysNothing = true) : d.readLine line = .ok d := by
  obtain ⟨⟨lexeme, place⟩, htokens, hlexeme⟩ := List.map_eq_singleton_iff.1 (beq_iff_eq.1 hnothing)
  cases hlexeme
  rw [readLine, SourceLine.tokens_ok.2 ⟨hlexed, htokens⟩]
  rfl

/-- A line that says nothing is passed over. -/
theorem readLines_filter (hlexed : ∀ line ∈ lines, line.run.fault? = none) :
    d.readLines (lines.filter (!·.saysNothing)) = d.readLines lines := by
  induction lines generalizing d with
  | nil => rfl
  | cons line lines ih =>
    have hrest : ∀ d : Draft, d.readLines (lines.filter (!·.saysNothing)) = d.readLines lines :=
      fun d => ih fun other hother => hlexed other (List.mem_cons_of_mem line hother)
    rw [List.filter_cons]
    split
    · rw [readLines, readLines]
      exact bind_congr hrest
    · next hnothing =>
      have hline : d.readLine line = .ok d :=
        readLine_of_saysNothing (hlexed line List.mem_cons_self) (by simpa using hnothing)
      rw [hrest, readLines, hline]
      rfl

theorem ofLines_filter (hlexed : ∀ line ∈ lines, line.run.fault? = none) :
    ofLines (lines.filter (!·.saysNothing)) = ofLines lines := by
  rw [ofLines, ofLines, readLines_filter hlexed]

end Draft

/-- All labels keep their names. -/
def Renaming.refl : Renaming where
  names := Set.univ
  rename := id
  injOn := Set.injOn_id _
  shape _ _ := Iff.rfl

theorem Lexeme.renameAll_id (before lexemes : List Lexeme) :
    renameAll id before lexemes = lexemes := by
  induction lexemes generalizing before with
  | nil => rfl
  | cons lexeme lexemes ih =>
    have hlexeme : lexeme.rename id before = lexeme := by
      cases lexeme with
      | label name => simp [rename]
      | _ => rfl
    rw [renameAll, hlexeme, ih]

theorem Cause.rename_id (c : Cause) : c.rename id = c := by
  have hlexeme : ∀ lexeme : Lexeme, lexeme.renameDeclared id = lexeme := by
    intro lexeme
    cases lexeme <;> rfl
  cases c with
  | statement fault => cases fault <;> simp [rename, StatementFault.rename, hlexeme]
  | _ => rfl

theorem renamed_of_lexemes_eq {lines lines' : List SourceLine}
    (hlexed : ∀ line ∈ lines, line.run.fault? = none)
    (hlexed' : ∀ line ∈ lines', line.run.fault? = none)
    (h : lines.map SourceLine.lexemes = lines'.map SourceLine.lexemes) :
    List.Forall₂ (SourceLine.Renamed id) lines lines' := by
  induction lines generalizing lines' with
  | nil =>
    cases List.map_eq_nil_iff.1 h.symm
    exact .nil
  | cons line lines ih =>
    obtain ⟨line', rest, rfl, hline, hrest⟩ := List.map_eq_cons_iff.1 h.symm
    refine .cons ⟨hlexed line List.mem_cons_self, hlexed' line' List.mem_cons_self, ?_⟩ ?_
    · rw [hline, Lexeme.renameAll_id]
    · exact ih (fun other hother => hlexed other (List.mem_cons_of_mem line hother))
        (fun other hother => hlexed' other (List.mem_cons_of_mem line' hother)) hrest.symm

/-- Layout is free. Two sources whose lines say the same, apart from lines that say nothing, have
the same words, bytes and addresses of labels; or both are refused, with causes of one kind and the
same message. Blanks, empty lines, comments and the name of the file do not count. -/
theorem Session.layout_is_free (session : Session) (hvalid : session.settings.isValid = true)
    (file file' : String) (source source' : List Char)
    (hlexed : ∀ line ∈ SourceLine.ofSource file source, line.run.fault? = none)
    (hlexed' : ∀ line ∈ SourceLine.ofSource file' source', line.run.fault? = none)
    (hsame : lexemesOf (SourceLine.ofSource file source) =
      lexemesOf (SourceLine.ofSource file' source')) :
    (∃ bytes, (session.assemble file source).result = .ok bytes ∧
      (session.assemble file' source').result = .ok bytes ∧
      (session.assemble file' source').session.output.words =
        (session.assemble file source).session.output.words ∧
      (session.assemble file' source').session.output.symbols.addresses =
        (session.assemble file source).session.output.symbols.addresses) ∨
    ∃ d d', (session.assemble file source).result = .error (.diagnostic d) ∧
      (session.assemble file' source').result = .error (.diagnostic d') ∧
      d.cause.Alike d'.cause := by
  have hlines : Agree Renaming.refl.Reports Renaming.refl.MapsDraft (Draft.ofSource file source)
      (Draft.ofSource file' source') := by
    rw [Draft.ofSource, Draft.ofSource, ← Draft.ofLines_filter hlexed,
      ← Draft.ofLines_filter hlexed']
    rw [lexemesOf_eq, lexemesOf_eq] at hsame
    refine Renaming.ofLines_agree (renamed_of_lexemes_eq ?_ ?_ hsame) fun _ _ _ _ => trivial
    · exact fun line hline => hlexed line (List.mem_of_mem_filter hline)
    · exact fun line hline => hlexed' line (List.mem_of_mem_filter hline)
  rcases Renaming.assemble_agree hvalid hlines with
    ⟨bytes, hfirst, hsecond, houtput⟩ | ⟨d, d', hfirst, hsecond, hreports⟩
  · refine .inl ⟨bytes, hfirst, hsecond, houtput.words, ?_⟩
    rw [houtput.addresses]
    exact List.map_id _
  · refine .inr ⟨d, d', hfirst, hsecond, ?_⟩
    have halike : (d.cause.rename id).Alike d'.cause := hreports
    rwa [Cause.rename_id] at halike

/-- The second source has blanks, a comment, an empty line and another file name. Both programs jump
out of a memory of two words. -/
theorem Session.layout_is_free_far_jump :
    ∃ d d',
      (Session.assemble "a" "top: nop\nj 7".toList ⟨⟨2, true⟩, .empty⟩).result =
        .error (.diagnostic d) ∧
      (Session.assemble "b" "\n top:\tnop ; wait\n ;\n\n  j   +07".toList
        ⟨⟨2, true⟩, .empty⟩).result = .error (.diagnostic d') ∧
      d.location? = some ⟨"a", 2, 3⟩ ∧ d'.location? = some ⟨"b", 5, 7⟩ ∧
      d.cause.Alike d'.cause := by
  have hresult : (Session.assemble "a" "top: nop\nj 7".toList ⟨⟨2, true⟩, .empty⟩).result =
      .error (.diagnostic ⟨.range (.target 7 2), some ⟨"a", 2, 3⟩, some "j 7"⟩) := by
    decide +kernel
  have hresult' : (Session.assemble "b" "\n top:\tnop ; wait\n ;\n\n  j   +07".toList
      ⟨⟨2, true⟩, .empty⟩).result =
      .error (.diagnostic ⟨.range (.target 7 2), some ⟨"b", 5, 7⟩, some "  j   +07"⟩) := by
    decide +kernel
  rcases Session.layout_is_free ⟨⟨2, true⟩, .empty⟩ (by decide) "a" "b" "top: nop\nj 7".toList
      "\n top:\tnop ; wait\n ;\n\n  j   +07".toList (by decide +kernel) (by decide +kernel)
      (by decide +kernel) with ⟨bytes, hfirst, _⟩ | ⟨d, d', hfirst, hsecond, halike⟩
  · rw [hresult] at hfirst
    cases hfirst
  · refine ⟨d, d', hfirst, hsecond, ?_, ?_, halike⟩
    · rw [hresult] at hfirst
      cases hfirst
      rfl
    · rw [hresult'] at hsecond
      cases hsecond
      rfl

end Risc16
