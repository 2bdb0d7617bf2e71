import Risc16.Session
import Risc16.Proofs.BuildOutcome
import Risc16.Proofs.Refusal
import Risc16.Proofs.ReportFaults

/-!
# The first fault

Which of several faults is reported. Lines are read in order and reading stops at the first that is
refused, so nothing after that line matters. Labels are looked up after the last line, and values
are encoded after that.

Results:
1. `Draft.readLines_error`: reading fails with the report of the line at which it stops.
2. `Draft.StopsAt.of_take`: where it stops depends on the lines up to that one alone.
3. `Program.checkLabels_error`: the check of labels reports the first that is missing.
4. `Draft.first_fault_wins`: all of that about a whole source.
-/

namespace Risc16

open Outcome

/-! ## Lines -/

namespace Draft

/-- `d.StopsAt lines k e`: after the draft, the lines before line `k` are read, and line `k` is
refused with `e`. -/
def StopsAt (d : Draft) (lines : List SourceLine) (k : Nat) (e : Diagnostic) : Prop :=
  ∃ d' line, d.readLines (lines.take k) = .ok d' ∧ lines[k]? = some line ∧
    d'.readLine line = .error e

variable {d : Draft} {lines others : List SourceLine} {line : SourceLine} {k : Nat}
  {e : Diagnostic}

theorem StopsAt.of_take (h : d.StopsAt lines k e)
    (hsame : others.take (k + 1) = lines.take (k + 1)) : d.StopsAt others k e := by
  obtain ⟨d', line, hbefore, hline, hrefused⟩ := h
  have hk : k < k + 1 := Nat.lt_succ_self k
  have htake : ∀ l : List SourceLine, (l.take (k + 1)).take k = l.take k := by
    intro l
    rw [List.take_take, Nat.min_eq_left (Nat.le_of_lt hk)]
  refine ⟨d', line, ?_, ?_, hrefused⟩
  · rw [← htake, hsame, htake]
    exact hbefore
  · rw [← List.getElem?_take_of_lt hk, hsame, List.getElem?_take_of_lt hk]
    exact hline

theorem StopsAt.head (h : d.readLine line = .error e) : d.StopsAt (line :: lines) 0 e :=
  ⟨d, line, rfl, rfl, h⟩

theorem StopsAt.cons {d' : Draft} (hline : d.readLine line = .ok d')
    (h : d'.StopsAt lines k e) : d.StopsAt (line :: lines) (k + 1) e := by
  obtain ⟨d'', refused, hbefore, hrefused, herror⟩ := h
  exact ⟨d'', refused, bind_ok.2 ⟨d', hline, hbefore⟩, hrefused, herror⟩

theorem readLines_of_stopsAt (h : d.StopsAt lines k e) : d.readLines lines = .error e := by
  obtain ⟨d', refused, hbefore, hrefused, herror⟩ := h
  -- The draft changes with every line, so it stays free in the induction on the lines.
  induction lines generalizing d k with
  | nil => cases hrefused
  | cons line lines ih =>
    cases k with
    | zero =>
      cases hbefore
      cases hrefused
      exact bind_error.2 (.inl herror)
    | succ k =>
      obtain ⟨d₁, hline, hrest⟩ := bind_ok.1 hbefore
      exact bind_error.2 (.inr ⟨d₁, hline, ih hrest hrefused⟩)

/-- Reading fails with the report of the line at which it stops. -/
theorem readLines_error : d.readLines lines = .error e ↔ ∃ k, d.StopsAt lines k e := by
  refine ⟨?_, fun ⟨k, hstops⟩ => readLines_of_stopsAt hstops⟩
  intro h
  induction lines generalizing d with
  | nil => cases h
  | cons line lines ih =>
    rcases bind_error.1 h with hline | ⟨d', hline, hrest⟩
    · exact ⟨0, .head hline⟩
    · obtain ⟨k, hstops⟩ := ih hrest
      exact ⟨k + 1, hstops.cons hline⟩

theorem stopsAt_or_readLines (d : Draft) (lines : List SourceLine) :
    (∃ k e, d.StopsAt lines k e) ∨ ∃ d', d.readLines lines = .ok d' := by
  cases h : d.readLines lines with
  | error e =>
    obtain ⟨k, hstops⟩ := readLines_error.1 h
    exact .inl ⟨k, e, hstops⟩
  | ok d' => exact .inr ⟨d', rfl⟩

theorem ofLines_of_stopsAt (h : empty.StopsAt lines k e) : ofLines lines = .error e :=
  bind_error.2 (.inl (readLines_of_stopsAt h))

/-- A line with a bad word is reported for that word, whatever else is wrong with it. -/
theorem Reports.cause (h : d.Reports line e) :
    (line.run.fault? = some e ∧ ∃ text fault, e.cause = .word text fault) ∨
      (line.run.fault? = none ∧ ((∃ fault, e.cause = .statement fault) ∨
        ∃ name first?, e.cause = .duplicateLabel name first?)) := by
  cases h with
  | word hfault _ _ => exact .inl ⟨hfault, _, _, rfl⟩
  | statement hlexed _ => exact .inr ⟨hlexed, .inl ⟨_, rfl⟩⟩
  | duplicate hlexed _ => exact .inr ⟨hlexed, .inr ⟨_, _, rfl⟩⟩

theorem StopsAt.reports (h : d.StopsAt lines k e) (hline : lines[k]? = some line) :
    ∃ d', d.readLines (lines.take k) = .ok d' ∧ Reports d' line e := by
  obtain ⟨d', refused, hbefore, hrefused, herror⟩ := h
  rw [hline] at hrefused
  cases hrefused
  exact ⟨d', hbefore, reports_of_readLine herror⟩

theorem StopsAt.ne_undefinedLabel (h : d.StopsAt lines k e) (name : String)
    (similar : List String) : e.cause ≠ .undefinedLabel name similar := by
  obtain ⟨d', refused, _, _, herror⟩ := h
  intro hcause
  rcases (reports_of_readLine herror).cause with ⟨_, _, _, h⟩ | ⟨_, ⟨_, h⟩ | ⟨_, _, h⟩⟩
  · cases h.symm.trans hcause
  · cases h.symm.trans hcause
  · cases h.symm.trans hcause

end Draft

/-! ## Labels -/

theorem Program.first_of_checkLabels {p : Program} {t : SymbolTable} {e : Diagnostic}
    (hindex : p.Indexed) (h : p.checkLabels t = .error e) :
    ∃ i r, p.First (fun i => ∃ r, i.operation.Misses t r) i ∧ i.operation.Misses t r ∧
      e = t.undefined r.value (some r.location) (some i.sourceLine) := by
  have hfails : p.resolve t = .error e := by
    rw [resolve_eq]
    exact map_error.2 h
  obtain ⟨before, i, after, r, hsplit, hbefore, hmisses, he⟩ := resolve_error.1 hfails
  refine ⟨i, r, hindex.first_of_append hsplit ?_ ⟨r, hmisses⟩, hmisses, he⟩
  rintro j hj ⟨r', hr'⟩
  exact hbefore j hj r' hr'

/-- The check of labels reports the first one that is missing. -/
theorem Program.checkLabels_error {p : Program} {t : SymbolTable} {e : Diagnostic}
    (hindex : p.Indexed) :
    p.checkLabels t = .error e ↔
      ∃ i r, p.First (fun i => ∃ r, i.operation.Misses t r) i ∧ i.operation.Misses t r ∧
        e = t.undefined r.value (some r.location) (some i.sourceLine) := by
  refine ⟨first_of_checkLabels hindex, ?_⟩
  rintro ⟨i, r, hfirst, hmisses, rfl⟩
  cases hcheck : p.checkLabels t with
  | ok _ =>
    have hlabel := mem_references.2 ⟨hfirst.1, hmisses.1⟩
    exact absurd (checkLabels_ok.1 hcheck _ hlabel) hmisses.2
  | error e' =>
    -- The first instruction that misses a label is unique, and so is the label.
    obtain ⟨i', r', hfirst', hmisses', rfl⟩ := first_of_checkLabels hindex hcheck
    cases hfirst.unique hindex hfirst'
    cases hmisses.unique hmisses'
    rfl

theorem Draft.readLines_indexed {lines : List SourceLine} {d : Draft}
    (h : Draft.empty.readLines lines = .ok d) : d.program.Indexed := by
  obtain ⟨script, rfl, hprogram, _⟩ := (readLines_ok empty_matched).1 h
  rw [hprogram]
  exact (placedBy_script script).indexed

theorem Draft.ofLines_error_cases {lines : List SourceLine} {e : Diagnostic}
    (h : Draft.ofLines lines = .error e) :
    (∃ k, Draft.empty.StopsAt lines k e) ∨
      ∃ d, Draft.empty.readLines lines = .ok d ∧ d.program.checkLabels d.symbols = .error e := by
  rcases bind_error.1 h with hlines | ⟨d, hlines, h⟩
  · exact .inl (readLines_error.1 hlines)
  · rcases bind_error.1 h with hcheck | ⟨_, _, hpure⟩
    · exact .inr ⟨d, hlines, hcheck⟩
    · cases hpure

/-- A missing label is reported only once all lines are read, and then it is the first. -/
theorem Draft.ofLines_undefinedLabel {lines : List SourceLine} {e : Diagnostic} :
    (Draft.ofLines lines = .error e ∧ ∃ name similar, e.cause = .undefinedLabel name similar) ↔
      ∃ d, Draft.empty.readLines lines = .ok d ∧ ∃ i r,
        d.program.First (fun i => ∃ r, i.operation.Misses d.symbols r) i ∧
          i.operation.Misses d.symbols r ∧
          e = d.symbols.undefined r.value (some r.location) (some i.sourceLine) := by
  constructor
  · rintro ⟨h, name, similar, hcause⟩
    rcases ofLines_error_cases h with ⟨k, hstops⟩ | ⟨d, hlines, hcheck⟩
    · exact absurd hcause (hstops.ne_undefinedLabel name similar)
    · exact ⟨d, hlines, (Program.checkLabels_error (readLines_indexed hlines)).1 hcheck⟩
  · rintro ⟨d, hlines, i, r, hfirst, hmisses, he⟩
    have hcheck := (Program.checkLabels_error (readLines_indexed hlines)).2
      ⟨i, r, hfirst, hmisses, he⟩
    refine ⟨bind_error.2 (.inr ⟨d, hlines, bind_error.2 (.inl hcheck)⟩), ?_⟩
    rw [he]
    exact ⟨_, _, rfl⟩

/-- The causes that reading a source can report. -/
def Cause.FromSource : Cause → Prop
  | .word _ _ | .statement _ | .duplicateLabel _ _ | .undefinedLabel _ _ => True
  | .general _ | .range _ | .programSize _ _ => False

/-- What reading a source reports has no numbers but those of the source. -/
theorem Cause.FromSource.writable {c : Cause} (h : c.FromSource) : c.Writable := by
  have hnumbers : c.numbers = [] := by
    cases c with
    | range | programSize => exact h.elim
    | _ => rfl
  rw [Cause.Writable, hnumbers]
  exact List.forall_mem_nil _

theorem Draft.fromSource_of_ofLines {lines : List SourceLine} {e : Diagnostic}
    (h : Draft.ofLines lines = .error e) : e.cause.FromSource := by
  rcases ofLines_error_cases h with ⟨k, d, line, _, _, herror⟩ | ⟨d, hlines, hcheck⟩
  · cases reports_of_readLine herror with
    | word => trivial
    | statement => trivial
    | duplicate => trivial
  · obtain ⟨i, r, _, _, rfl⟩ := (Program.checkLabels_error (readLines_indexed hlines)).1 hcheck
    trivial

/-- What the build of an accepted source reports has another cause. -/
theorem Draft.not_fromSource_of_build {file : String} {source : List Char} {draft : Draft}
    {s : Settings} {e : Diagnostic} (hsource : Draft.ofSource file source = .ok draft)
    (hbuild : draft.program.build s draft.symbols = .error e) : ¬ e.cause.FromSource := by
  cases Program.fails_of_build (Draft.ofLines_placed hsource).indexed hbuild with
  | size => exact id
  | label _ hfirst _ => exact absurd hfirst.exists_mem (not_missesLabel_of_ofSource hsource)
  | range => exact id

/-! ## Assemblies -/

theorem Assembly.ofSource_result (s : Settings) (file : String) (source : List Char) :
    (Assembly.ofSource s file source).result =
      Draft.ofSource file source >>= fun draft => draft.program.build s draft.symbols := by
  unfold Assembly.ofSource
  cases Draft.ofSource file source with
  | error e => rfl
  | ok draft =>
    dsimp only
    show _ = draft.program.build s draft.symbols
    cases draft.program.build s draft.symbols <;> rfl

theorem Session.assemble_result (session : Session) (file : String) (source : List Char) :
    (session.assemble file source).result =
      (Assembly.ofSource session.settings file source).result.mapError .ofReport >>=
        Output.code := by
  unfold assemble
  cases hassembly : (Assembly.ofSource session.settings file source).result with
  | error e =>
    simp only [hassembly, Except.mapError]
    rfl
  | ok output =>
    simp only [hassembly, Except.mapError]
    show _ = output.code
    cases output.code <;> rfl

/-- The output of an assembly is kept, and a failed one leaves none. -/
theorem Session.assemble_output (session : Session) (file : String) (source : List Char) :
    (session.assemble file source).session.output =
      match (Assembly.ofSource session.settings file source).result with
      | .ok output => output
      | .error _ => .empty := by
  unfold assemble
  cases hassembly : (Assembly.ofSource session.settings file source).result with
  | error e => simp only [hassembly]
  | ok output =>
    simp only [hassembly]
    cases output.code <;> rfl

/-- An assembly reports a fault of its source, or else of the build of its program if that can be
written. -/
theorem Session.assemble_diagnostic {session : Session} {file : String} {source : List Char}
    {e : Diagnostic} :
    (session.assemble file source).result = .error (.diagnostic e) ↔
      Draft.ofSource file source = .error e ∨
        ∃ draft, Draft.ofSource file source = .ok draft ∧
          draft.program.build session.settings draft.symbols = .error e ∧ e.cause.Writable := by
  have hraised : (session.assemble file source).result = .error (.diagnostic e) ↔
      (Assembly.ofSource session.settings file source).result = .error e ∧ e.cause.Writable := by
    rw [assemble_result, bind_error]
    constructor
    · rintro (h | ⟨output, _, h⟩)
      · obtain ⟨e', he', heq⟩ := mapError_error.1 h
        obtain ⟨rfl, hwritable⟩ := Failure.ofReport_diagnostic.1 heq
        exact ⟨he', hwritable⟩
      · obtain ⟨word, _, heq⟩ := mapError_error.1 h
        cases heq
    · rintro ⟨h, hwritable⟩
      exact .inl (mapError_error.2 ⟨e, h, Failure.ofReport_of_writable hwritable⟩)
  rw [hraised, Assembly.ofSource_result, bind_error]
  constructor
  · rintro ⟨hsource | ⟨draft, hsource, hbuild⟩, hwritable⟩
    · exact .inl hsource
    · exact .inr ⟨draft, hsource, hbuild, hwritable⟩
  · rintro (hsource | ⟨draft, hsource, hbuild, hwritable⟩)
    · exact ⟨.inl hsource, (Draft.fromSource_of_ofLines hsource).writable⟩
    · exact ⟨.inr ⟨draft, hsource, hbuild⟩, hwritable⟩

/-- A source that cannot be read is never reported for the size of its program or for a value. -/
theorem Session.ofSource_of_late_fault {session : Session} {file : String} {source : List Char}
    {e : Diagnostic} (h : (session.assemble file source).result = .error (.diagnostic e))
    (hcause : (∃ count capacity, e.cause = .programSize count capacity) ∨
      ∃ fault, e.cause = .range fault) :
    ∃ draft, Draft.ofSource file source = .ok draft := by
  rcases assemble_diagnostic.1 h with hsource | ⟨draft, hsource, _⟩
  · -- What reading a source reports has another cause.
    have hfrom := Draft.fromSource_of_ofLines hsource
    rcases hcause with ⟨count, capacity, hcause⟩ | ⟨fault, hcause⟩
    · rw [hcause] at hfrom
      exact hfrom.elim
    · rw [hcause] at hfrom
      exact hfrom.elim
  · exact ⟨draft, hsource⟩

/-- The first fault wins. Reading stops at the first line that is refused, with the report of that
line, whatever lines follow. On that line a bad word comes before all other faults. A missing label
is reported if all lines are read, and it is the first one; a program that is too long or a value
out of range is reported only of a source that is accepted. -/
theorem Draft.first_fault_wins (lines : List SourceLine) :
    (∀ k e, Draft.empty.StopsAt lines k e →
      Draft.ofLines lines = .error e ∧
      (∀ after, Draft.ofLines (lines.take (k + 1) ++ after) = .error e) ∧
      ∀ line, lines[k]? = some line →
        (line.run.fault? = some e ∧ ∃ text fault, e.cause = .word text fault) ∨
        (line.run.fault? = none ∧ ((∃ fault, e.cause = .statement fault) ∨
          ∃ name first?, e.cause = .duplicateLabel name first?))) ∧
    ((∃ k e, Draft.empty.StopsAt lines k e) ∨ ∃ d, Draft.empty.readLines lines = .ok d) ∧
    (∀ e, (Draft.ofLines lines = .error e ∧
        ∃ name similar, e.cause = .undefinedLabel name similar) ↔
      ∃ d, Draft.empty.readLines lines = .ok d ∧ ∃ i r,
        d.program.First (fun i => ∃ r, i.operation.Misses d.symbols r) i ∧
          i.operation.Misses d.symbols r ∧
          e = d.symbols.undefined r.value (some r.location) (some i.sourceLine)) ∧
    ∀ (session : Session) (file : String) (source : List Char) (e : Diagnostic),
      (session.assemble file source).result = .error (.diagnostic e) →
      ((∃ count capacity, e.cause = .programSize count capacity) ∨
        ∃ fault, e.cause = .range fault) →
      ∃ draft, Draft.ofSource file source = .ok draft := by
  refine ⟨?_, Draft.stopsAt_or_readLines .empty lines, fun e => Draft.ofLines_undefinedLabel, ?_⟩
  · intro k e hstops
    refine ⟨Draft.ofLines_of_stopsAt hstops, ?_, ?_⟩
    · intro after
      have hlength : (lines.take (k + 1)).length = k + 1 := by
        obtain ⟨_, _, _, hline, _⟩ := hstops
        exact List.length_take_of_le (List.getElem?_eq_some_iff.1 hline).1
      refine Draft.ofLines_of_stopsAt (Draft.StopsAt.of_take hstops ?_)
      rw [List.take_append_of_le_length (Nat.le_of_eq hlength.symm), List.take_take, Nat.min_self]
    · intro line hline
      obtain ⟨d, _, hreports⟩ := hstops.reports hline
      exact hreports.cause
  · intro session file source e
    exact Session.ofSource_of_late_fault

/-- The second line has an unknown instruction and a bad word, and the third declares a label twice.
The bad word is reported, and would be with any other lines after it. -/
theorem Draft.first_fault_wins_bad_word :
    ∃ e, e.cause = .word "@" .notAToken ∧
      Draft.empty.StopsAt (SourceLine.ofSource "a" "nop\nfoo r1, @\nx: x:".toList) 1 e ∧
      ∀ after, Draft.ofLines
        ((SourceLine.ofSource "a" "nop\nfoo r1, @\nx: x:".toList).take 2 ++ after) = .error e := by
  let line : SourceLine := ⟨"a", 2, "foo r1, @".toList⟩
  let e : Diagnostic := ⟨.word "@" .notAToken, some ⟨"a", 2, 9⟩, some "foo r1, @"⟩
  have hnop : (Draft.empty.readLines [⟨"a", 1, "nop".toList⟩]).map (fun d => d.program.size) =
      .ok 1 := by decide +kernel
  obtain ⟨d, hd, _⟩ := map_ok.1 hnop
  have hrefused : line.tokens = .error e := by decide +kernel
  have hstops : Draft.empty.StopsAt
      (SourceLine.ofSource "a" "nop\nfoo r1, @\nx: x:".toList) 1 e :=
    ⟨d, line, hd, by decide +kernel, bind_error.2 (.inl hrefused)⟩
  exact ⟨e, rfl, hstops, ((Draft.first_fault_wins _).1 1 e hstops).2.1⟩

end Risc16
