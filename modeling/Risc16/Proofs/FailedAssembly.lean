import Risc16.Proofs.BuildOutcome
import Risc16.Proofs.History
import Risc16.Proofs.Reading
import Risc16.Proofs.ReportFaults

/-!
# What a failed assembly leaves

A fault in the source, or in the build of its program, leaves no output. There is one more way to
fail: the words are there, but one of them does not fit 16 bits, and then the words and the labels
stay. This takes a capacity of more than 65536 words. No machine has one, but settings are checked
only when a session begins.

Results:
1. `Operation.encode_le`: up to that capacity, all words fit.
2. `Session.assemble_error_cases`: the two ways to fail, and what each of them leaves.
3. `Session.failed_assembly_output`: a failure leaves an output if and only if a word is too wide,
   and the capacity decides whether this can happen.
-/

namespace Risc16

open Outcome

/-- Nothing is left of an output: no words, no bytes and no labels. -/
structure Output.IsBlank (o : Output) : Prop where
  words : o.words = []
  code : o.code = .ok []
  addresses : o.symbols.addresses = []

theorem Output.isBlank_empty : Output.empty.IsBlank :=
  ⟨rfl, rfl, rfl⟩

/-! ## Words that fit -/

theorem or_le_wordMax {m n : Nat} (hm : m ≤ 65535) (hn : n ≤ 65535) : m ||| n ≤ wordMax := by
  have hm' : m < 2 ^ 16 := Nat.lt_succ_of_le hm
  have hn' : n < 2 ^ 16 := Nat.lt_succ_of_le hn
  exact Nat.le_of_lt_succ (Nat.or_lt_two_pow hm' hn')

theorem Mnemonic.word_le (m : Mnemonic) : m.word ≤ wordMax := by
  have h : ∀ m ∈ all, m.word ≤ wordMax := by decide
  exact h m m.mem_all

theorem Mnemonic.wordWith_le (m : Mnemonic) (a : Located Register) : m.wordWith a ≤ wordMax := by
  have ha : a.value.val < 16 := a.value.isLt
  refine or_le_wordMax m.word_le ?_
  rw [registerAShift, Nat.shiftLeft_eq]
  omega

theorem encodeTarget_le {s : Settings} {target : Located Target} {n : Nat}
    (hcapacity : s.capacity ≤ 65536) (h : encodeTarget s target = .ok n) : n ≤ 65535 := by
  obtain ⟨_, hmax⟩ := encodeTarget_ok.1 h
  omega

/-- Only a target can be too wide, and none is with a capacity up to 65536. -/
theorem Operation.encode_le {s : Settings} {o : Operation} {word : Nat}
    (hcapacity : s.capacity ≤ 65536) (h : o.encode s = .ok word) : word ≤ wordMax := by
  cases o with
  | nop =>
    cases h
    exact Mnemonic.word_le _
  | alu op a b =>
    cases h
    have hb : b.value.val < 16 := b.value.isLt
    refine or_le_wordMax (Mnemonic.wordWith_le _ a) ?_
    rw [registerBShift, Nat.shiftLeft_eq]
    omega
  | inv a =>
    cases h
    exact Mnemonic.wordWith_le _ a
  | ldi a value =>
    obtain ⟨n, hn, rfl⟩ := map_ok.1 h
    obtain ⟨_, rfl⟩ := encodeImmediate_ok.1 hn
    exact or_le_wordMax (Mnemonic.wordWith_le _ a) (by omega)
  | transfer way a device =>
    obtain ⟨n, hn, rfl⟩ := map_ok.1 h
    obtain ⟨_, hmax⟩ := encodeDevice_ok hn
    refine or_le_wordMax (Mnemonic.wordWith_le _ a) ?_
    rw [deviceShift, Nat.shiftLeft_eq]
    omega
  | branch condition a target =>
    obtain ⟨n, hn, rfl⟩ := map_ok.1 h
    exact or_le_wordMax (Mnemonic.wordWith_le _ a) (encodeTarget_le hcapacity hn)
  | jump target =>
    obtain ⟨n, hn, rfl⟩ := map_ok.1 h
    exact or_le_wordMax (Mnemonic.word_le _) (encodeTarget_le hcapacity hn)

theorem Program.words_le_of_build {s : Settings} {t : SymbolTable} {p : Program} {o : Output}
    (hcapacity : s.capacity ≤ 65536) (hbuild : p.build s t = .ok o) :
    ∀ word ∈ o.words, word ≤ wordMax := by
  intro word hword
  obtain ⟨i, _, hencode⟩ := exists_encode_of_build hbuild hword
  exact Operation.encode_le hcapacity hencode

/-! ## Two ways to fail -/

theorem imageOf_error {words : List Nat} {word : Nat} (h : imageOf words = .error word) :
    word ∈ words ∧ wordMax < word := by
  unfold imageOf at h
  split at h
  · next hfind =>
    cases h
    exact ⟨List.mem_of_find?_eq_some hfind, by simpa using List.find?_some hfind⟩
  · cases h

theorem Output.code_error {o : Output} {failure : Failure} (h : o.code = .error failure) :
    ∃ word, failure = .wideWord word ∧ word ∈ o.words ∧ wordMax < word := by
  obtain ⟨word, hword, rfl⟩ := mapError_error.1 h
  exact ⟨word, rfl, imageOf_error hword⟩

namespace Session

variable {session : Session} {file : String} {source : List Char} {failure : Failure}

/-- An assembly fails with a report and leaves nothing, or it fails at the bytes and leaves all that
the build has given. -/
theorem assemble_error_cases (h : (session.assemble file source).result = .error failure) :
    (∃ d, failure = .ofReport d ∧ (session.assemble file source).session.output = .empty) ∨
      ∃ draft, Draft.ofSource file source = .ok draft ∧
        draft.program.build session.settings draft.symbols =
          .ok (session.assemble file source).session.output ∧
        (session.assemble file source).session.output.code = .error failure := by
  obtain ⟨hresult, hsession⟩ := session.assemble_eq_run file source
  rw [hresult] at h
  rw [hsession]
  rcases (Builder.new session.settings).run_cases file source with
    ⟨d, hrun⟩ | ⟨draft, o, hsource, hbuild, hrun⟩
  · rw [hrun] at h ⊢
    cases h
    exact .inl ⟨d, rfl, rfl⟩
  · rw [hrun] at h ⊢
    exact .inr ⟨draft, hsource, hbuild, h⟩

/-- A failure leaves nothing if and only if it is not about a word that is too wide. -/
theorem isBlank_iff_of_error (h : (session.assemble file source).result = .error failure) :
    (session.assemble file source).session.output.IsBlank ↔ ∀ word, failure ≠ .wideWord word := by
  rcases assemble_error_cases h with ⟨d, rfl, houtput⟩ | ⟨draft, _, _, hcode⟩
  · rw [houtput]
    exact iff_of_true Output.isBlank_empty (Failure.ofReport_ne_wideWord d)
  · obtain ⟨word, hfailure, _, _⟩ := Output.code_error hcode
    refine iff_of_false ?_ fun hne => hne word hfailure
    intro hblank
    rw [hblank.code] at hcode
    cases hcode

/-- What a word that is too wide leaves: the output of the build, which has this word. -/
theorem left_of_wideWord {word : Nat}
    (h : (session.assemble file source).result = .error (.wideWord word)) :
    wordMax < word ∧ word ∈ (session.assemble file source).session.output.words ∧
      (session.assemble file source).session.output.code = .error (.wideWord word) ∧
      ∃ draft, Draft.ofSource file source = .ok draft ∧
        draft.program.build session.settings draft.symbols =
          .ok (session.assemble file source).session.output := by
  rcases assemble_error_cases h with ⟨d, hreport, _⟩ | ⟨draft, hsource, hbuild, hcode⟩
  · exact absurd hreport.symm (Failure.ofReport_ne_wideWord d word)
  · obtain ⟨word', hword, hmem, hwide⟩ := Output.code_error hcode
    cases hword
    exact ⟨hwide, hmem, hcode, draft, hsource, hbuild⟩

/-- A jump to the first address beyond 16 bits has a word that is too wide, in a memory that is
large enough for it. -/
theorem assemble_wide_jump (hcapacity : 65536 < session.settings.capacity) :
    (session.assemble "" "j 65536".toList).result = .error (.wideWord 126976) := by
  have hread : (Draft.ofSource "" "j 65536".toList).map
      (fun draft => draft.program.instructions.map Instruction.operation) =
        .ok [.jump ⟨.address 65536, ⟨"", 1, 3⟩⟩] := by decide +kernel
  obtain ⟨draft, hsource, hoperations⟩ := map_ok.1 hread
  obtain ⟨i, hi, hoperation⟩ := List.map_eq_singleton_iff.1 hoperations
  have htarget : encodeTarget session.settings ⟨.address 65536, ⟨"", 1, 3⟩⟩ = .ok 65536 :=
    encodeTarget_ok.2 ⟨rfl, hcapacity⟩
  have hword : (i.operation.link draft.symbols).encode session.settings = .ok 126976 := by
    have hor : Mnemonic.jump.word ||| 65536 = 126976 := by decide
    rw [hoperation]
    show (encodeTarget session.settings ⟨.address 65536, ⟨"", 1, 3⟩⟩).map
      (Mnemonic.jump.word ||| ·) = _
    rw [htarget, Except.map, hor]
  have hbuild : draft.program.build session.settings draft.symbols =
      .ok ⟨draft.program.link draft.symbols, draft.symbols, [126976]⟩ := by
    refine Program.build_ok.2 ⟨?_, Draft.not_missesLabel_of_ofSource hsource, rfl, rfl, ?_⟩
    · rw [Program.size, hi, List.length_singleton]
      omega
    · rw [hi]
      exact .cons hword .nil
  rw [(session.assemble_eq_run _ _).1, Builder.run_of_build hsource hbuild]
  rfl

/-- What a failed assembly leaves. If a word does not fit 16 bits, all words and labels of the build
are left, and only the bytes are missing. After any other failure there is no output. The capacity
decides: up to 65536 words no failure leaves an output, and beyond that some failure does. -/
theorem failed_assembly_output (session : Session) :
    (∀ file source failure, (session.assemble file source).result = .error failure →
      let left := (session.assemble file source).session.output
      (left.IsBlank ↔ ∀ word, failure ≠ .wideWord word) ∧
      ∀ word, failure = .wideWord word →
        wordMax < word ∧ word ∈ left.words ∧ left.code = .error failure ∧
          ∃ draft, Draft.ofSource file source = .ok draft ∧
            draft.program.build session.settings draft.symbols = .ok left) ∧
    ((∀ file source failure, (session.assemble file source).result = .error failure →
        (session.assemble file source).session.output.IsBlank) ↔
      session.settings.capacity ≤ 65536) := by
  refine ⟨?_, ?_, ?_⟩
  · intro file source failure h
    refine ⟨isBlank_iff_of_error h, ?_⟩
    intro word hfailure
    subst hfailure
    exact left_of_wideWord h
  · -- Beyond the bound, one jump is enough to leave an output.
    intro hall
    refine Int.not_lt.1 fun hcapacity => ?_
    have hfails := assemble_wide_jump hcapacity
    exact (isBlank_iff_of_error hfails).1 (hall _ _ _ hfails) 126976 rfl
  · intro hcapacity file source failure h
    rw [isBlank_iff_of_error h]
    intro word hfailure
    subst hfailure
    obtain ⟨hwide, hmem, _, draft, _, hbuild⟩ := left_of_wideWord h
    exact absurd (Program.words_le_of_build hcapacity hbuild word hmem) (Nat.not_le.2 hwide)

/-- A new session, a capacity that no machine has, and a jump beyond 16 bits: the assembly fails,
and its word and its label are left. -/
theorem failed_assembly_output_wide_jump :
    ∃ session, Session.new {} = .ok session ∧
      let large := (session.performAll [.configure (some 100000) none]).2
      let left := (large.assemble "<input>" "top: j 70000".toList).session.output
      (large.assemble "<input>" "top: j 70000".toList).result = .error (.wideWord 127344) ∧
        ¬ left.IsBlank ∧ left.words = [127344] ∧ left.symbols.addresses = [("top", 0)] := by
  refine ⟨⟨{}, .empty⟩, rfl, ?_⟩
  have hfails : (Session.assemble "<input>" "top: j 70000".toList
      ⟨⟨100000, false⟩, .empty⟩).result = .error (.wideWord 127344) := by decide +kernel
  obtain ⟨hleft, _⟩ := (failed_assembly_output ⟨⟨100000, false⟩, .empty⟩).1 _ _ _ hfails
  refine ⟨hfails, ?_, by decide +kernel, by decide +kernel⟩
  intro hblank
  exact hleft.1 hblank 127344 rfl

end Session

end Risc16
