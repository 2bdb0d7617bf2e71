import Mathlib.Data.List.Basic
import Risc16.Proofs.Calls
import Risc16.Session

/-!
# Assemblies do not depend on what went before

A session goes through assemblies that succeed and fail, files that cannot be read, changes of the
settings and looks at the output, in any order. The output of an assembly goes away with the next
one, and nothing else of it stays: each assembly is a run of a new builder with the settings that
are in force.

Results:
1. `Session.assemble_eq_run`: an assembly is a run of a new builder.
2. `Session.perform_of_source`, `Session.perform_output_of_quiet`, `Session.perform_settings`: what
   one call does to the output and to the settings.
3. `Session.performAll_append`, `Session.performAll_output_of_quiet`,
   `Session.performAll_settings`: what many calls do.
4. `Session.assemblies_stand_alone`: with that, what the answers and the output of a session are.
-/

namespace Risc16

/-! ## A run on its own -/

/-- Read a text and build its program: the bytes, and the builder after it. -/
def Builder.run (b : Builder) (file : String) (source : List Char) :
    Except Failure (List UInt8) × Builder :=
  match Draft.ofSource file source with
  | .error d => (.error (.ofReport d), b)
  | .ok draft =>
    match b.build draft.program draft.symbols with
    | (.error failure, after) => (.error failure, after)
    | (.ok _, after) => (after.output.code, after)

namespace Builder

variable {b : Builder} {file : String} {source : List Char}

/-- A build that succeeds replaces the output. -/
theorem build_of_ok {p : Program} {t : SymbolTable} {o : Output}
    (h : p.build b.settings t = .ok o) : b.build p t = (.ok o, { b with output := o }) := by
  rw [build, h]

/-- A build that fails leaves the builder as it was. -/
theorem build_of_error {p : Program} {t : SymbolTable} {d : Diagnostic}
    (h : p.build b.settings t = .error d) : b.build p t = (.error (.ofReport d), b) := by
  rw [build, h]

theorem run_of_build {draft : Draft} {o : Output} (hsource : Draft.ofSource file source = .ok draft)
    (hbuild : draft.program.build b.settings draft.symbols = .ok o) :
    b.run file source = (o.code, { b with output := o }) := by
  rw [run, hsource]
  dsimp only
  rw [build_of_ok hbuild]

/-- A run reports a fault and leaves the builder as it was, or it has an output and leaves that,
whether or not its words fit the bytes. -/
theorem run_cases (b : Builder) (file : String) (source : List Char) :
    (∃ d, b.run file source = (.error (.ofReport d), b)) ∨
      ∃ draft o, Draft.ofSource file source = .ok draft ∧
        draft.program.build b.settings draft.symbols = .ok o ∧
        b.run file source = (o.code, { b with output := o }) := by
  cases hsource : Draft.ofSource file source with
  | error d => exact .inl ⟨d, by rw [run, hsource]⟩
  | ok draft =>
    cases hbuild : draft.program.build b.settings draft.symbols with
    | error d =>
      refine .inl ⟨d, ?_⟩
      rw [run, hsource]
      dsimp only
      rw [build_of_error hbuild]
    | ok o => exact .inr ⟨draft, o, rfl, hbuild, run_of_build hsource hbuild⟩

/-- The bytes that a run gives are those of the output that it leaves. -/
theorem code_of_run {bytes : List UInt8} (h : (b.run file source).1 = .ok bytes) :
    (b.run file source).2.output.code = .ok bytes := by
  rcases b.run_cases file source with ⟨d, hrun⟩ | ⟨draft, o, _, _, hrun⟩
  · rw [hrun] at h
    cases h
  · rw [hrun] at h ⊢
    exact h

end Builder

namespace Session

/-- An assembly gives what a new builder gives, and keeps its output and nothing else. -/
theorem assemble_eq_run (session : Session) (file : String) (source : List Char) :
    (session.assemble file source).result = ((Builder.new session.settings).run file source).1 ∧
      (session.assemble file source).session =
        ⟨session.settings, ((Builder.new session.settings).run file source).2.output⟩ := by
  unfold assemble Assembly.ofSource Builder.run Builder.build Builder.new
  cases Draft.ofSource file source with
  | error d => exact ⟨rfl, rfl⟩
  | ok draft =>
    dsimp only
    cases draft.program.build session.settings draft.symbols with
    | error d => exact ⟨rfl, rfl⟩
    | ok output =>
      dsimp only
      cases output.code with
      | error failure => exact ⟨rfl, rfl⟩
      | ok bytes => exact ⟨rfl, rfl⟩

/-! ## What a call assembles -/

/-- The text of a file, or why it has none: its path cannot be asked for, it cannot be read, or its
bytes are not text. -/
def sourceOfFile (path : Path) (contents : Except FileFault (List UInt8)) :
    Except Failure (List Char) :=
  if Text.hasZero path.render then .error .zeroCharacter
  else
    match contents with
    | .error fault => .error (.file path fault)
    | .ok bytes =>
      match Text.Utf8.decode bytes with
      | .error fault => .error (.notText fault)
      | .ok text => .ok (Text.unifyLineEnds text)

/-- The file name and the text that a call assembles, if it does. -/
def Call.source? : Call → Option (String × List Char)
  | .assemble file source => some (file, source)
  | .assembleFile path contents => (sourceOfFile path contents).toOption.map (path.render, ·)
  | .configure _ _ => none
  | .look _ => none

/-- The settings after a call. -/
def Call.settings (s : Settings) : Call → Settings
  | .configure capacity? strictDevices? => s.assign capacity? strictDevices?
  | _ => s

/-- The settings that are in force after calls. -/
def settingsAfter (s : Settings) (calls : List Call) : Settings :=
  calls.foldl Call.settings s

theorem assembleFile_eq (session : Session) (path : Path)
    (contents : Except FileFault (List UInt8)) :
    session.assembleFile path contents =
      match sourceOfFile path contents with
      | .error failure => ⟨[], .error failure, session⟩
      | .ok source => session.assemble path.render source := by
  have htexts : Failure.ofTexts? [path.render] =
      if Text.hasZero path.render then some .zeroCharacter else none := by
    rw [Failure.ofTexts?, List.any_cons, List.any_nil, Bool.or_false]
  unfold assembleFile sourceOfFile
  rw [htexts]
  by_cases hzero : Text.hasZero path.render = true
  · rw [if_pos hzero, if_pos hzero]
  · rw [if_neg hzero, if_neg hzero]
    cases contents with
    | error fault => rfl
    | ok bytes =>
      dsimp only
      cases Text.Utf8.decode bytes with
      | error fault => rfl
      | ok text => rfl

section

variable {path : Path} {contents : Except FileFault (List UInt8)}

theorem Call.source?_of_ok {text : List Char} (h : sourceOfFile path contents = .ok text) :
    (Call.assembleFile path contents).source? = some (path.render, text) := by
  rw [source?, h]
  rfl

theorem Call.source?_of_error {failure : Failure}
    (h : sourceOfFile path contents = .error failure) :
    (Call.assembleFile path contents).source? = none := by
  rw [source?, h]
  rfl

end

/-! ## One call -/

variable {session : Session} {call : Call}

/-- A call that assembles a text answers with a run of a new builder and leaves its output. -/
theorem perform_of_source {file : String} {source : List Char}
    (h : call.source? = some (file, source)) :
    session.perform call =
      (.bytes ((Builder.new session.settings).run file source).1,
        ⟨session.settings, ((Builder.new session.settings).run file source).2.output⟩) := by
  cases call with
  | assemble file' source' =>
    cases h
    obtain ⟨hresult, hsession⟩ := session.assemble_eq_run file source
    rw [perform, hresult, hsession]
  | assembleFile path contents =>
    cases htext : sourceOfFile path contents with
    | error failure =>
      rw [Call.source?_of_error htext] at h
      cases h
    | ok text =>
      rw [Call.source?_of_ok htext] at h
      cases h
      obtain ⟨hresult, hsession⟩ := session.assemble_eq_run path.render source
      rw [perform, assembleFile_eq, htext]
      dsimp only
      rw [hresult, hsession]
  | configure capacity? strictDevices? => cases h
  | look view => cases h

theorem perform_of_unreadable {path : Path} {contents : Except FileFault (List UInt8)}
    {failure : Failure} (h : sourceOfFile path contents = .error failure) :
    session.perform (.assembleFile path contents) = (.bytes (.error failure), session) := by
  rw [perform, assembleFile_eq, h]

/-- A call that assembles nothing leaves the output as it was. -/
theorem perform_output_of_quiet (h : call.source? = none) :
    (session.perform call).2.output = session.output := by
  cases call with
  | assemble file source => cases h
  | assembleFile path contents =>
    cases htext : sourceOfFile path contents with
    | error failure => rw [perform_of_unreadable htext]
    | ok text =>
      rw [Call.source?_of_ok htext] at h
      cases h
  | configure capacity? strictDevices? => rfl
  | look view => rfl

/-- Only a change of the settings changes them. -/
theorem perform_settings (session : Session) (call : Call) :
    (session.perform call).2.settings = call.settings session.settings := by
  cases call with
  | assemble file source =>
    rw [perform_of_source rfl]
    rfl
  | assembleFile path contents =>
    cases htext : sourceOfFile path contents with
    | error failure =>
      rw [perform_of_unreadable htext]
      rfl
    | ok text =>
      rw [perform_of_source (Call.source?_of_ok htext)]
      rfl
  | configure capacity? strictDevices? => rfl
  | look view => rfl

/-! ## Many calls -/

/-- The calls after some others find the session as those left it. -/
theorem performAll_append (session : Session) (earlier later : List Call) :
    session.performAll (earlier ++ later) =
      ((session.performAll earlier).1 ++ ((session.performAll earlier).2.performAll later).1,
        ((session.performAll earlier).2.performAll later).2) :=
  answerAll_append session earlier later

/-- Each call has its answer at its place. -/
theorem getElem?_performAll (session : Session) (earlier later : List Call) (call : Call) :
    (session.performAll (earlier ++ call :: later)).1[earlier.length]? =
      some ((session.performAll earlier).2.perform call).1 :=
  getElem?_answerAll session earlier later call

theorem performAll_settings (session : Session) (calls : List Call) :
    (session.performAll calls).2.settings = settingsAfter session.settings calls := by
  refine answerAll_invariant (fun calls (reached : Session) =>
    reached.settings = settingsAfter session.settings calls) rfl ?_ calls
  intro calls reached call h
  rw [perform_settings, h, settingsAfter, settingsAfter, List.foldl_concat]

theorem performAll_output_of_quiet {session : Session} {calls : List Call}
    (h : ∀ call ∈ calls, call.source? = none) :
    (session.performAll calls).2.output = session.output := by
  refine answerAll_invariant (fun calls (reached : Session) =>
    (∀ call ∈ calls, call.source? = none) → reached.output = session.output)
    (fun _ => rfl) ?_ calls h
  intro calls reached call hreached hquiet
  rw [perform_output_of_quiet (hquiet call (by simp))]
  exact hreached fun c hc => hquiet c (List.mem_append_left _ hc)

/-- What a call leaves stays until the next assembly. -/
theorem performAll_output {quiet : List Call} (session : Session) (earlier : List Call)
    (call : Call) (hquiet : ∀ c ∈ quiet, c.source? = none) :
    (session.performAll (earlier ++ call :: quiet)).2.output =
      ((session.performAll earlier).2.perform call).2.output := by
  rw [performAll_append]
  exact performAll_output_of_quiet hquiet

/-- A session has no memory. A call that assembles a text, be it from a file, gets what a new
builder with the settings in force makes of the text, and until the next assembly the output is the
one that this builder has. All other calls leave the output as it was: changes of the settings,
looks, and files without a text, which are answered with the reason. -/
theorem assemblies_stand_alone (session : Session) (earlier quiet later : List Call) (call : Call)
    (hquiet : ∀ c ∈ quiet, c.source? = none) :
    let before := (session.performAll earlier).2.output
    let after := (session.performAll (earlier ++ call :: quiet)).2.output
    let answer? := (session.performAll (earlier ++ call :: (quiet ++ later))).1[earlier.length]?
    (∀ file source, call.source? = some (file, source) →
      let alone := (Builder.new (settingsAfter session.settings earlier)).run file source
      answer? = some (.bytes alone.1) ∧ after = alone.2.output ∧
        ∀ bytes, alone.1 = .ok bytes → after.code = .ok bytes) ∧
    (call.source? = none → after = before) ∧
    (∀ path contents failure, call = .assembleFile path contents →
      sourceOfFile path contents = .error failure → answer? = some (.bytes (.error failure))) ∧
    ∀ view, call = .look view → answer? = some (before.look view) := by
  -- What is left of the earlier calls is the session that they reach, and a run of a new builder
  -- takes nothing but the settings from it.
  dsimp only
  rw [performAll_output session earlier call hquiet, getElem?_performAll]
  refine ⟨?_, ?_, ?_, ?_⟩
  · intro file source hsource
    rw [perform_of_source hsource, performAll_settings]
    exact ⟨rfl, rfl, fun bytes => Builder.code_of_run⟩
  · exact perform_output_of_quiet
  · intro path contents failure hcall hfailure
    rw [hcall, perform_of_unreadable hfailure]
  · intro view hcall
    rw [hcall, perform]

/-- After another source, in a memory that was made larger since, a jump beyond the first memory.
A smaller memory and a file that is gone come too late to matter. -/
theorem assemblies_stand_alone_larger_memory :
    let session : Session := ⟨{}, .empty⟩
    let gone : Call := .assembleFile (Path.ofText "gone") (.error .noEntry)
    let earlier : List Call := [.assemble "a" "x: nop".toList, .configure (some 300) none]
    let quiet : List Call := [.configure (some 1) none, gone, .look .listing]
    let call : Call := .assemble "b" "y: j 299".toList
    (∀ c ∈ quiet, c.source? = none) ∧
      (session.performAll (earlier ++ call :: (quiet ++ [.look .words]))).1[2]? =
        some (.bytes (.ok [241, 43])) ∧
      (session.performAll (earlier ++ call :: quiet)).2.output.words = [61739] ∧
      (session.performAll (earlier ++ call :: quiet)).2.output.symbols.addresses = [("y", 0)] := by
  intro session gone earlier quiet call
  have hquiet : ∀ c ∈ quiet, c.source? = none := by decide +kernel
  obtain ⟨halone, _⟩ :=
    assemblies_stand_alone session earlier quiet [.look .words] call hquiet
  obtain ⟨hanswer, hafter, _⟩ := halone "b" "y: j 299".toList rfl
  have hbytes : ((Builder.new ⟨300, false⟩).run "b" "y: j 299".toList).1 = .ok [241, 43] := by
    decide +kernel
  refine ⟨hquiet, hanswer.trans (congrArg (some ∘ Answer.bytes) hbytes), ?_, ?_⟩
  · rw [hafter]
    decide +kernel
  · rw [hafter]
    decide +kernel

end Session

end Risc16
