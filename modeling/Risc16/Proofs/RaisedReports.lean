import Risc16.Proofs.FailedAssembly
import Risc16.Proofs.KeptOutput
import Risc16.Proofs.SourceNumbers

/-!
# Outcomes of a builder

A builder raises the report of its build. The report is written at once, and it names an address or
the capacity if these are to blame. Both may have any number of digits, as tables and settings are
not checked. A number with too many digits cannot be written, and then that is what is raised.

Results:
1. `Builder.build_diagnostic`, `Builder.build_longNumber`: what is raised for a fault of a program.
2. `Builder.build_programSize`, `Builder.build_undefinedLabel`, `Builder.build_range`: when a report
   of each phase is raised.
3. `Draft.build_outcome`: all of that for the program of a source.
-/

namespace Risc16

open Outcome

namespace Builder

variable {b : Builder} {p : Program} {t : SymbolTable} {d : Diagnostic} {failure : Failure}

/-! ## What is raised -/

theorem build_diagnostic :
    (b.build p t).1 = .error (.diagnostic d) ↔
      p.build b.settings t = .error d ∧ d.cause.Writable := by
  rw [build_answer, mapError_error]
  constructor
  · rintro ⟨d', hbuild, hreport⟩
    obtain ⟨rfl, hwritable⟩ := Failure.ofReport_diagnostic.1 hreport
    exact ⟨hbuild, hwritable⟩
  · rintro ⟨hbuild, hwritable⟩
    exact ⟨d, hbuild, Failure.ofReport_of_writable hwritable⟩

theorem build_longNumber :
    (b.build p t).1 = .error (.unwritable .longNumber) ↔
      ∃ d, p.build b.settings t = .error d ∧ ¬ d.cause.Writable := by
  simp only [build_answer, mapError_error, Failure.ofReport_unwritable, true_and]

theorem raised_of_build (h : (b.build p t).1 = .error failure) :
    (∃ d, failure = .diagnostic d) ∨ failure = .unwritable .longNumber := by
  rw [build_answer] at h
  obtain ⟨d, _, rfl⟩ := mapError_error.1 h
  by_cases hwritable : d.cause.Writable
  · exact .inl ⟨d, Failure.ofReport_of_writable hwritable⟩
  · exact .inr (Failure.ofReport_of_not_writable hwritable)

/-! ## Phases -/

theorem build_programSize (hindex : p.Indexed) :
    (∃ count capacity l k,
        (b.build p t).1 = .error (.diagnostic ⟨.programSize count capacity, l, k⟩)) ↔
      b.settings.capacity < p.size ∧ Text.Writable b.settings.capacity.natAbs := by
  simp only [build_diagnostic, Program.build_error_iff hindex]
  constructor
  · rintro ⟨count, capacity, l, k, hfails, hwritable⟩
    cases hfails with
    | size hsize => exact ⟨hsize, hwritable _ List.mem_cons_self⟩
  · rintro ⟨hsize, hwritable⟩
    exact ⟨_, _, _, _, .size hsize, by simpa [Cause.Writable, Cause.numbers] using hwritable⟩

/-- There is no number in the report of a missing label. -/
theorem build_undefinedLabel (hindex : p.Indexed) :
    (∃ name similar l k,
        (b.build p t).1 = .error (.diagnostic ⟨.undefinedLabel name similar, l, k⟩)) ↔
      p.size ≤ b.settings.capacity ∧ p.MissesLabel t := by
  have hwritable : ∀ name similar, (Cause.undefinedLabel name similar).Writable :=
    fun _ _ => Cause.FromSource.writable trivial
  simp only [build_diagnostic, hwritable, and_true]
  exact Program.build_undefinedLabel_iff hindex

theorem build_range (hindex : p.Indexed) :
    (∃ fault l k, (b.build p t).1 = .error (.diagnostic ⟨.range fault, l, k⟩)) ↔
      p.size ≤ b.settings.capacity ∧ ¬ p.MissesLabel t ∧ ∃ i fault,
        p.First (fun i => ∃ fault, OutOfRange b.settings t i.operation fault) i ∧
          OutOfRange b.settings t i.operation fault ∧ Cause.Writable (.range fault.value) := by
  simp only [build_diagnostic, Program.build_error_iff hindex]
  constructor
  · rintro ⟨fault, l, k, hfails, hwritable⟩
    cases hfails with
    | range hfits hdefined hfirst hout => exact ⟨hfits, hdefined, _, _, hfirst, hout, hwritable⟩
  · rintro ⟨hfits, hdefined, i, fault, hfirst, hout, hwritable⟩
    exact ⟨_, _, _, .range hfits hdefined hfirst hout, hwritable⟩

/-- A value out of range that has too many digits, or is too large for a memory whose capacity has,
is not reported. -/
theorem build_longNumber_of_range {i : Instruction} {fault : Located RangeFault}
    (hindex : p.Indexed) (hfits : p.size ≤ b.settings.capacity) (hdefined : ¬ p.MissesLabel t)
    (hfirst : p.First (fun i => ∃ fault, OutOfRange b.settings t i.operation fault) i)
    (hout : OutOfRange b.settings t i.operation fault)
    (hlong : ¬ Cause.Writable (.range fault.value)) :
    (b.build p t).1 = .error (.unwritable .longNumber) :=
  build_longNumber.2
    ⟨_, (Program.build_error_iff hindex).2 (.range hfits hdefined hfirst hout), hlong⟩

end Builder

/-! ## Programs of a source -/

/-- With numbers that can be written, a value out of range is always reported as one. -/
theorem Draft.build_range_of_writableWith {file : String} {source : List Char} {draft : Draft}
    {b : Builder} {t : SymbolTable} (hsource : Draft.ofSource file source = .ok draft)
    (h : b.settings.WritableWith t) :
    (∃ fault l k, (b.build draft.program t).1 = .error (.diagnostic ⟨.range fault, l, k⟩)) ↔
      draft.program.size ≤ b.settings.capacity ∧ ¬ draft.program.MissesLabel t ∧
        draft.program.ExceedsRange b.settings t := by
  have hindex := (Draft.ofLines_placed hsource).indexed
  rw [← Program.build_range_iff hindex]
  simp only [Builder.build_diagnostic]
  constructor
  · rintro ⟨fault, l, k, hbuild, _⟩
    exact ⟨fault, l, k, hbuild⟩
  · rintro ⟨fault, l, k, hbuild⟩
    exact ⟨fault, l, k, hbuild, writable_of_fails hsource h (Program.fails_of_build hindex hbuild)⟩

/-- The outcome of a build, for the program of a source, any builder and any table. It succeeds with
a word for each instruction if the program fits the memory, no label is missing and no value is out
of range; up to a capacity of 65536 these are words of 16 bits. Else the first fault is reported:
too long a program comes before a missing label, and that before a value out of range. A report that
names a number with too many digits cannot be written, and that is raised in its place. If the
numbers of the settings and the table can be written, so can every report. -/
theorem Draft.build_outcome {file : String} {source : List Char} {draft : Draft}
    (hsource : Draft.ofSource file source = .ok draft) (b : Builder) (t : SymbolTable) :
    let p := draft.program
    let s := b.settings
    let outcome := (b.build p t).1
    ((∃ count capacity l k, outcome = .error (.diagnostic ⟨.programSize count capacity, l, k⟩)) ↔
      s.capacity < p.size ∧ Text.Writable s.capacity.natAbs) ∧
    ((∃ name similar l k, outcome = .error (.diagnostic ⟨.undefinedLabel name similar, l, k⟩)) ↔
      p.size ≤ s.capacity ∧ p.MissesLabel t) ∧
    ((∃ fault l k, outcome = .error (.diagnostic ⟨.range fault, l, k⟩)) ↔
      p.size ≤ s.capacity ∧ ¬ p.MissesLabel t ∧ ∃ i fault,
        p.First (fun i => ∃ fault, OutOfRange s t i.operation fault) i ∧
          OutOfRange s t i.operation fault ∧ Cause.Writable (.range fault.value)) ∧
    ((∃ o, outcome = .ok o ∧ o.words.length = p.size) ↔
      p.size ≤ s.capacity ∧ ¬ p.MissesLabel t ∧ ¬ p.ExceedsRange s t) ∧
    (∀ o, outcome = .ok o → s.capacity ≤ 65536 → ∀ word ∈ o.words, word ≤ wordMax) ∧
    (∀ d, outcome = .error (.diagnostic d) ↔ p.Fails s t d ∧ d.cause.Writable) ∧
    (outcome = .error (.unwritable .longNumber) ↔ ∃ d, p.Fails s t d ∧ ¬ d.cause.Writable) ∧
    (∀ failure, outcome = .error failure →
      (∃ d, failure = .diagnostic d) ∨ failure = .unwritable .longNumber) ∧
    (s.WritableWith t →
      ((∃ fault l k, outcome = .error (.diagnostic ⟨.range fault, l, k⟩)) ↔
        p.size ≤ s.capacity ∧ ¬ p.MissesLabel t ∧ p.ExceedsRange s t) ∧
      ∀ d, p.Fails s t d → outcome = .error (.diagnostic d)) := by
  intro p s outcome
  have hindex : p.Indexed := (Draft.ofLines_placed hsource).indexed
  have hfails : ∀ d, p.build s t = .error d ↔ p.Fails s t d :=
    fun d => Program.build_error_iff hindex
  have hdiagnostic : ∀ d, outcome = .error (.diagnostic d) ↔ p.Fails s t d ∧ d.cause.Writable := by
    intro d
    rw [← hfails]
    exact Builder.build_diagnostic
  refine ⟨Builder.build_programSize hindex, Builder.build_undefinedLabel hindex,
    Builder.build_range hindex, ?_, ?_, hdiagnostic, ?_, fun failure => Builder.raised_of_build, ?_⟩
  · rw [← Program.exists_build_iff hindex]
    simp only [outcome, Builder.build_ok, s]
  · intro o ho hcapacity
    exact Program.words_le_of_build hcapacity (Builder.build_ok.1 ho)
  · simp only [← hfails]
    exact Builder.build_longNumber
  · intro hwritable
    refine ⟨Draft.build_range_of_writableWith hsource hwritable, ?_⟩
    intro d hd
    exact (hdiagnostic d).2 ⟨hd, Draft.writable_of_fails hsource hwritable hd⟩

/-- A label that is missing in the second instruction is reported, and not the value out of range
in the first. -/
theorem Draft.build_outcome_label_first :
    ∃ draft, Draft.ofSource "a" "ldi r0, 200\nj away\naway:".toList = .ok draft ∧
      draft.program.ExceedsRange {} .empty ∧
      ∃ name similar l k, ((Builder.new {}).build draft.program .empty).1 =
        .error (.diagnostic ⟨.undefinedLabel name similar, l, k⟩) := by
  let load : Instruction :=
    ⟨.ldi ⟨⟨0, by decide⟩, "a", 1, 5⟩ ⟨200, "a", 1, 9⟩, 0, ⟨"a", 1, 1⟩, "ldi r0, 200"⟩
  let jump : Instruction := ⟨.jump ⟨.label "away", "a", 2, 3⟩, 1, ⟨"a", 2, 1⟩, "j away"⟩
  have hread : (Draft.ofSource "a" "ldi r0, 200\nj away\naway:".toList).map Draft.program =
      .ok ⟨[load, jump], [⟨"away", 2, some ⟨"a", 3, 1⟩⟩]⟩ := by decide +kernel
  obtain ⟨draft, hsource, hprogram⟩ := map_ok.1 hread
  have hfits : draft.program.size ≤ ({} : Settings).capacity := by
    rw [hprogram]
    decide
  have hexceeds : draft.program.ExceedsRange {} .empty :=
    ⟨load, by simp [hprogram], _, .immediate (by decide)⟩
  have hmisses : draft.program.MissesLabel .empty :=
    ⟨jump, by simp [hprogram], ⟨"away", "a", 2, 3⟩, by decide, by decide⟩
  exact ⟨draft, hsource, hexceeds,
    (Draft.build_outcome hsource (Builder.new {}) .empty).2.1.2 ⟨hfits, hmisses⟩⟩

/-- The first number with too many digits. -/
theorem Text.not_writable_pow : ¬ Text.Writable (Nat.pow 10 Text.digitLimit) := by
  have hlength : ∀ n, 0 < n → ¬ (Nat.toDigits 10 (Nat.pow 10 n)).length ≤ n := by
    intro n hn
    rw [Nat.length_toDigits_le_iff (by decide) hn]
    exact Nat.lt_irrefl _
  exact hlength Text.digitLimit (by decide)

/-- A jump is out of range in a table whose only address has too many digits, and that is not
reported. A jump beyond 16 bits, in a memory that is large enough for it, has its word, and that is
no word of 16 bits. -/
theorem Draft.build_outcome_unreported :
    (∃ draft t, Draft.ofSource "a" "home: j home".toList = .ok draft ∧
      draft.program.size ≤ ({} : Settings).capacity ∧ ¬ draft.program.MissesLabel t ∧
      draft.program.ExceedsRange {} t ∧
      ((Builder.new {}).build draft.program t).1 = .error (.unwritable .longNumber)) ∧
    ∃ draft o, Draft.ofSource "<input>" "j 70000".toList = .ok draft ∧
      ((Builder.new ⟨100000, false⟩).build draft.program draft.symbols).1 = .ok o ∧
      o.words = [127344] ∧ wordMax < 127344 := by
  constructor
  · -- Of the address it matters only that it is far and cannot be written.
    obtain ⟨address, hfar, hlong⟩ : ∃ n : Nat, (32 : Int) - 1 < n ∧ ¬ Text.Writable n :=
      ⟨Nat.pow 10 Text.digitLimit, by decide +kernel, Text.not_writable_pow⟩
    let t : SymbolTable := ⟨[⟨"home", address, none⟩], List.nodup_singleton "home"⟩
    let jump : Instruction :=
      ⟨.jump ⟨.label "home", "a", 1, 9⟩, 0, ⟨"a", 1, 7⟩, "home: j home"⟩
    have hread : (Draft.ofSource "a" "home: j home".toList).map Draft.program =
        .ok ⟨[jump], [⟨"home", 0, some ⟨"a", 1, 1⟩⟩]⟩ := by decide +kernel
    obtain ⟨draft, hsource, hprogram⟩ := map_ok.1 hread
    have hfits : draft.program.size ≤ ({} : Settings).capacity := by
      rw [hprogram]
      decide
    have hdefined : ¬ draft.program.MissesLabel t := by
      have hresolve : draft.program.resolve t = .ok (draft.program.link t) := by
        rw [hprogram]
        rfl
      exact (Program.resolve_ok.1 hresolve).1
    have htarget : jump.operation.target? = some ⟨.label "home", "a", 1, 9⟩ := rfl
    have hlink : (Target.label "home").link t = .address address := rfl
    have hout : OutOfRange {} t jump.operation ⟨.target address 32, ⟨"a", 1, 9⟩⟩ :=
      .target htarget hlink (.inr hfar)
    have hindex : draft.program.Indexed := (Draft.ofLines_placed hsource).indexed
    have hfirst : draft.program.First
        (fun i => ∃ fault, OutOfRange {} t i.operation fault) jump := by
      rw [hprogram]
      exact ⟨List.mem_singleton_self jump, ⟨_, hout⟩, fun j _ _ => Nat.zero_le j.address⟩
    have hunwritable : ¬ Cause.Writable (.range (.target address 32)) :=
      fun h => hlong (h address List.mem_cons_self)
    exact ⟨draft, t, hsource, hfits, hdefined, hfirst.exists_mem,
      Builder.build_longNumber_of_range hindex hfits hdefined hfirst hout hunwritable⟩
  · have hread : (Draft.ofSource "<input>" "j 70000".toList).map (fun draft =>
        ((Builder.new ⟨100000, false⟩).build draft.program draft.symbols).1.map Output.words) =
        .ok (.ok [127344]) := by decide +kernel
    obtain ⟨draft, hsource, hbuild⟩ := map_ok.1 hread
    obtain ⟨o, ho, hwords⟩ := map_ok.1 hbuild
    exact ⟨draft, o, hsource, ho, hwords, by decide⟩

end Risc16
