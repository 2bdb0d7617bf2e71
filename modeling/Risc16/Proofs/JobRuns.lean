import Risc16.Proofs.FileWriting

/-!
# Runs of a job

A job is refused, or its source is not assembled, or its files are written, or one of them cannot be
and the ones before it are removed. What a command does to files and the exit code it ends with
follow from which of the four it was, in any files that can be asked and changed.

Results:
1. `Command.Job.run_of_overwrites`, `Command.Job.run_of_failure`, `Command.Job.run_of_written`,
   `Command.Job.run_of_fault`: the four runs of a job.
2. `Command.Job.runsTo_of_run`: there are no others.
3. `Command.run_of_request`, `Command.run_of_no_job`: the run of a command is that of its job, and
   does nothing to files if it has none.
-/

namespace Risc16

open Outcome

namespace Command

theorem Trouble.exitCode_ne_zero (trouble : Trouble) : trouble.exitCode ≠ 0 := by
  cases trouble <;> simp [exitCode]

variable {σ : Type} [Files σ] {t t' t₁ : σ}

/-! ## Jobs -/

namespace Job

variable {job : Job} {e : Environment} {failure : Failure} {files before after : List OutputFile}
  {file : OutputFile} {fault : FileFault}

/-- An output path of the job leads to its source, as far as the parts of the paths tell. -/
def Overwrites (job : Job) (current : Place) : Prop :=
  ∃ path ∈ job.outputPaths, path.resolve current = job.input.resolve current

instance (current : Place) : Decidable (job.Overwrites current) :=
  inferInstanceAs (Decidable (∃ path ∈ job.outputPaths, _))

/-- The files that a job asks for when this is read from its input, or why there are none. -/
def filesFrom (job : Job) (s : Settings) (contents : Except FileFault (List UInt8)) :
    Except Failure (List OutputFile) := do
  let session ← Session.new s
  let step := session.assembleFile job.input contents
  let bytes ← step.result
  return job.files bytes step.session.output

theorem overwritten?_eq_none {current : Place} :
    job.overwritten? current = none ↔ ¬ job.Overwrites current := by
  simp [overwritten?, Overwrites]

theorem map_files_assemble (job : Job) (s : Settings)
    (contents : Except FileFault (List UInt8)) :
    (job.assemble s contents).2.map Writing.files =
      (job.filesFrom s contents).mapError Trouble.ofFailure := by
  unfold assemble filesFrom
  cases Session.new s with
  | error failure => rfl
  | ok session =>
    cases hresult : (session.assembleFile job.input contents).result with
    | error failure => simp [hresult, bind, Except.bind, Except.map, Except.mapError]
    | ok bytes => simp [hresult, bind, Except.bind, Except.map, Except.mapError, pure, Except.pure]

theorem filesFrom_ok {s : Settings} {contents : Except FileFault (List UInt8)} :
    job.filesFrom s contents = .ok files ↔
      ∃ session bytes, Session.new s = .ok session ∧
        (session.assembleFile job.input contents).result = .ok bytes ∧
        job.files bytes (session.assembleFile job.input contents).session.output = files := by
  simp only [filesFrom, bind_ok, pure_ok, exists_and_left]

theorem map_path_files (job : Job) (bytes : List UInt8) (o : Output) :
    (job.files bytes o).map OutputFile.path = job.outputPaths := by
  cases hlisting : job.listing? <;> cases hsymbols : job.symbols? <;> simp [files, outputPaths, *]

theorem map_path_filesFrom {s : Settings} {contents : Except FileFault (List UInt8)}
    (h : job.filesFrom s contents = .ok files) :
    files.map OutputFile.path = job.outputPaths := by
  obtain ⟨session, bytes, _, _, rfl⟩ := filesFrom_ok.1 h
  exact map_path_files job bytes _

theorem run_eq (job : Job) (e : Environment) (t : σ) :
    (job.run e : StateM σ Report).run t =
      match job.overwritten? (Files.current t) with
      | some path =>
        (job.report (warnings e) (.error (.refused
          s!"output file {path.render} would overwrite the input file")), t)
      | none =>
        match job.assemble (job.settings e) (Files.read t job.input) with
        | (log, .error trouble) => (job.report (warnings e ++ log) (.error trouble), t)
        | (log, .ok writing) =>
          let r := (writeFiles [] (warnings e ++ log) writing.files : StateM σ _).run t
          (job.report r.1.1 (r.1.2.map fun _ => writing.summary), r.2) := by
  have hcurrent : (FileStore.current : StateM σ Place).run t = (Files.current t, t) := rfl
  have hread : (FileStore.read job.input : StateM σ _).run t = (Files.read t job.input, t) := rfl
  rw [run, run_bind_of_run hcurrent]
  cases job.overwritten? (Files.current t) with
  | some path => rfl
  | none =>
    dsimp only
    rw [run_bind_of_run hread]
    cases job.assemble (job.settings e) (Files.read t job.input) with
    | mk log result =>
      cases result with
      | error trouble => rfl
      | ok writing => rfl

theorem assemble_error {s : Settings} {contents : Except FileFault (List UInt8)}
    (h : job.filesFrom s contents = .error failure) :
    ∃ log, job.assemble s contents = (log, .error (.ofFailure failure)) := by
  have hassemble := map_files_assemble job s contents
  rw [h] at hassemble
  exact ⟨_, Prod.ext rfl (map_error.1 hassemble)⟩

theorem assemble_ok {s : Settings} {contents : Except FileFault (List UInt8)}
    (h : job.filesFrom s contents = .ok files) :
    ∃ log writing, job.assemble s contents = (log, .ok writing) ∧ writing.files = files := by
  have hassemble := map_files_assemble job s contents
  rw [h] at hassemble
  obtain ⟨writing, hwriting, hfiles⟩ := map_ok.1 hassemble
  exact ⟨_, writing, Prod.ext rfl hwriting, hfiles⟩

theorem run_of_overwrites (h : job.Overwrites (Files.current t)) :
    ∃ report, (job.run e : StateM σ Report).run t = (report, t) ∧ report.exitCode = 2 := by
  rw [run_eq]
  cases hpath : job.overwritten? (Files.current t) with
  | none => exact absurd h (overwritten?_eq_none.1 hpath)
  | some path => exact ⟨_, rfl, rfl⟩

theorem run_of_failure (hpaths : ¬ job.Overwrites (Files.current t))
    (hfiles : job.filesFrom (job.settings e) (Files.read t job.input) = .error failure) :
    ∃ report, (job.run e : StateM σ Report).run t = (report, t) ∧
      report.exitCode = (Trouble.ofFailure failure).exitCode := by
  obtain ⟨log, hassemble⟩ := assemble_error hfiles
  rw [run_eq, overwritten?_eq_none.2 hpaths, hassemble]
  exact ⟨_, rfl, rfl⟩

theorem run_of_files (hpaths : ¬ job.Overwrites (Files.current t))
    (hfiles : job.filesFrom (job.settings e) (Files.read t job.input) = .ok files) :
    ∃ log summary, (job.run e : StateM σ Report).run t =
      let r := (writeFiles [] log files : StateM σ _).run t
      (job.report r.1.1 (r.1.2.map fun _ => summary), r.2) := by
  obtain ⟨log, writing, hassemble, rfl⟩ := assemble_ok hfiles
  rw [run_eq, overwritten?_eq_none.2 hpaths, hassemble]
  exact ⟨_, _, rfl⟩

theorem run_of_written (hpaths : ¬ job.Overwrites (Files.current t))
    (hfiles : job.filesFrom (job.settings e) (Files.read t job.input) = .ok files)
    (hwritten : writeAll t files = .ok t') :
    ∃ report, (job.run e : StateM σ Report).run t = (report, t') ∧ report.exitCode = 0 := by
  obtain ⟨log, summary, hrun⟩ := run_of_files hpaths hfiles
  obtain ⟨log', hwrite⟩ := writeFiles_of_writeAll log hwritten
  rw [hrun, hwrite]
  exact ⟨_, rfl, rfl⟩

theorem run_of_fault (hpaths : ¬ job.Overwrites (Files.current t))
    (hfiles : job.filesFrom (job.settings e) (Files.read t job.input) =
      .ok (before ++ file :: after))
    (hbefore : writeAll t before = .ok t₁)
    (hfault : Files.write t₁ file.path file.bytes = .error fault) :
    let undone := removeAll t₁ (before.map OutputFile.path)
    ∃ report, (job.run e : StateM σ Report).run t = (report, undone.2) ∧
      report.exitCode =
        (Trouble.ofFailure (undoing (.file file.path fault) undone.1)).exitCode := by
  obtain ⟨log, summary, hrun⟩ := run_of_files hpaths hfiles
  obtain ⟨log', hwrite⟩ := writeFiles_of_fault log after hbefore hfault
  rw [hrun, hwrite]
  exact ⟨_, rfl, rfl⟩

/-- The exit codes of a job and the files that it leaves.

* `refused`: an output path leads to the source.
* `failed`: the source is not assembled.
* `written`: all files are written.
* `undone`: a file cannot be written, and the ones before it are removed. -/
inductive RunsTo (job : Job) (e : Environment) (t : σ) : Nat → σ → Prop
  | refused : job.Overwrites (Files.current t) → RunsTo job e t 2 t
  | failed {failure : Failure} : ¬ job.Overwrites (Files.current t) →
      job.filesFrom (job.settings e) (Files.read t job.input) = .error failure →
      RunsTo job e t (Trouble.ofFailure failure).exitCode t
  | written {files : List OutputFile} {t' : σ} : ¬ job.Overwrites (Files.current t) →
      job.filesFrom (job.settings e) (Files.read t job.input) = .ok files →
      writeAll t files = .ok t' → RunsTo job e t 0 t'
  | undone {before after : List OutputFile} {file : OutputFile} {t₁ : σ} {fault : FileFault} :
      ¬ job.Overwrites (Files.current t) →
      job.filesFrom (job.settings e) (Files.read t job.input) = .ok (before ++ file :: after) →
      writeAll t before = .ok t₁ → Files.write t₁ file.path file.bytes = .error fault →
      RunsTo job e t
        (Trouble.ofFailure (undoing (.file file.path fault)
          (removeAll t₁ (before.map OutputFile.path)).1)).exitCode
        (removeAll t₁ (before.map OutputFile.path)).2

theorem runsTo_of_run {report : Report}
    (hrun : (job.run e : StateM σ Report).run t = (report, t')) :
    job.RunsTo e t report.exitCode t' := by
  by_cases hpaths : job.Overwrites (Files.current t)
  · obtain ⟨_, heq, hexit⟩ := run_of_overwrites (e := e) hpaths
    cases hrun.symm.trans heq
    exact hexit ▸ .refused hpaths
  cases hfiles : job.filesFrom (job.settings e) (Files.read t job.input) with
  | error failure =>
    obtain ⟨_, heq, hexit⟩ := run_of_failure hpaths hfiles
    cases hrun.symm.trans heq
    exact hexit ▸ .failed hpaths hfiles
  | ok files =>
    cases hwritten : writeAll t files with
    | ok t₁ =>
      obtain ⟨_, heq, hexit⟩ := run_of_written hpaths hfiles hwritten
      cases hrun.symm.trans heq
      exact hexit ▸ .written hpaths hfiles hwritten
    | error fault =>
      obtain ⟨before, file, after, t₁, rfl, hbefore, hfault⟩ := writeAll_error.1 hwritten
      obtain ⟨_, heq, hexit⟩ := run_of_fault hpaths hfiles hbefore hfault
      cases hrun.symm.trans heq
      exact hexit ▸ .undone hpaths hfiles hbefore hfault

end Job

/-! ## Commands -/

theorem run_of_request {words : List String} {w : Words} {job : Job}
    (hwords : readWords words = .ok w)
    (hrequest : Request.ofWords (Files.kind? t) w = .ok (.assemble job)) (e : Environment) :
    (run words e : StateM σ _).run t =
      (.ok ((job.run e : StateM σ _).run t).1, ((job.run e : StateM σ _).run t).2) := by
  have hkinds : (FileStore.kinds w.paths : StateM σ _).run t = (Files.kind? t, t) := rfl
  rw [run, hwords]
  dsimp only
  rw [run_bind_of_run hkinds, hrequest]
  rfl

/-- A command that asks for no assembly does nothing to files. -/
theorem run_of_no_job {words : List String} (e : Environment)
    (h : ∀ w job, readWords words = .ok w →
      Request.ofWords (Files.kind? t) w ≠ .ok (.assemble job)) :
    ((run words e : StateM σ _).run t).2 = t := by
  rw [run]
  cases hwords : readWords words with
  | error fault => rfl
  | ok w =>
    have hkinds : (FileStore.kinds w.paths : StateM σ _).run t = (Files.kind? t, t) := rfl
    dsimp only
    rw [run_bind_of_run hkinds]
    cases hrequest : Request.ofWords (Files.kind? t) w with
    | error refusal => cases refusal <;> rfl
    | ok request =>
      cases request with
      | help => rfl
      | version => rfl
      | assemble job => exact absurd hrequest (h w job hwords)

end Command

end Risc16
