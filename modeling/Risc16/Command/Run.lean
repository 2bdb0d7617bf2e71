import Risc16.Command.Report
import Risc16.Session

/-!
# Running the command

The command reads one file and writes up to three. It is written over any file store; a file tree
is one, so all that the command does to files can be computed. If one of the files cannot be
written, the ones written before it are removed, up to one that cannot be removed.
-/

namespace Risc16

/-- A store of files that the command can use. -/
class FileStore (m : Type → Type) where
  /-- The kinds of entry that the given paths lead to. -/
  kinds : List String → m (String → Option EntryKind)
  /-- The current directory. -/
  current : m Place
  read : Path → m (Except FileFault (List UInt8))
  write : Path → List UInt8 → m (Except FileFault Unit)
  /-- Remove a file. It is no fault if there is none. -/
  remove : Path → m (Except FileFault Unit)

/-- Files as a value: what can be asked of them, and what they are after a change. -/
class Files (σ : Type) where
  kind? : σ → String → Option EntryKind
  current : σ → Place
  read : σ → Path → Except FileFault (List UInt8)
  write : σ → Path → List UInt8 → Except FileFault σ
  remove : σ → Path → Except FileFault σ

instance : Files GuardedTree where
  kind? := GuardedTree.kind?
  current g := g.tree.current
  read := GuardedTree.read
  write := GuardedTree.write
  remove := GuardedTree.remove

instance : Files FileTree where
  kind? := FileTree.kind?
  current := FileTree.current
  read := FileTree.read
  write := FileTree.write
  remove := FileTree.remove

/-- Change the files, unless that is not possible. -/
def Files.change {σ : Type} (f : σ → Except FileFault σ) : StateM σ (Except FileFault Unit) :=
  fun t =>
    match f t with
    | .ok t => (.ok (), t)
    | .error fault => (.error fault, t)

/-- Files that change are a store of files. -/
instance {σ : Type} [Files σ] : FileStore (StateM σ) where
  kinds _ := fun t => (Files.kind? t, t)
  current := fun t => (Files.current t, t)
  read path := fun t => (Files.read t path, t)
  write path bytes := Files.change fun t => Files.write t path bytes
  remove path := Files.change fun t => Files.remove t path

namespace Command

/-- How much a line of the log matters. -/
inductive Level
  | debug | warning
deriving DecidableEq, Repr

/-- A line of the log. -/
structure LogLine where
  level : Level
  message : String
deriving DecidableEq, Repr

def LogLine.render (l : LogLine) : String :=
  match l.level with
  | .debug => s!"DEBUG: {l.message}"
  | .warning => s!"WARNING: {l.message}"

/-- The lines of the log that are shown: all of them, or the warnings. -/
def shownLines (verbose : Bool) (log : List LogLine) : List String :=
  (log.filter fun l => verbose || l.level == .warning).map LogLine.render

/-- A file to be written: its path, its bytes and what the log says of it. -/
structure OutputFile where
  path : Path
  bytes : List UInt8
  note : String
deriving DecidableEq, Repr

/-- What is left to do once the source is assembled. -/
structure Writing where
  files : List OutputFile
  /-- What is said when all files are written. -/
  summary : List String
deriving DecidableEq, Repr

namespace Job

/-- The settings of the job: those of the environment, with the switches on top. -/
def settings (job : Job) (e : Environment) : Settings :=
  { capacity := job.capacity?.getD e.settings.1.capacity
    strictDevices := job.strict || e.settings.1.strictDevices }

/-- The path of the byte image: the one asked for, or the one next to the source. The path of a file
has a last part, so there is one. -/
def outputPath (job : Job) : Path :=
  job.output?.getD (job.input.image?.getD job.input)

/-- The paths to be written, in order. -/
def outputPaths (job : Job) : List Path :=
  job.outputPath :: (job.listing?.toList ++ job.symbols?.toList)

/-- The first of the paths to be written that leads to the source. -/
def overwritten? (job : Job) (current : Place) : Option Path :=
  job.outputPaths.find? fun path => path.resolve current = job.input.resolve current

/-- The warnings about the environment. -/
def warnings (e : Environment) : List LogLine :=
  e.settings.2.map fun w => ⟨.warning, w.message⟩

/-- The line of the log that shows the settings. -/
def settingsLine (s : Settings) : LogLine :=
  let strict := if s.strictDevices then "True" else "False"
  ⟨.debug, s!"max_instructions={s.capacity} strict_io={strict}"⟩

/-- The files that an assembly asks for. -/
def files (job : Job) (bytes : List UInt8) (output : Output) : List OutputFile :=
  let image := job.outputPath
  let listing := job.listing?.toList.map fun path =>
    OutputFile.mk path (Text.Utf8.encode output.listing.toList)
      s!"wrote listing to {path.render}"
  let symbols := job.symbols?.toList.map fun path =>
    OutputFile.mk path (Text.Utf8.encode output.symbolFile.toList)
      s!"wrote symbols to {path.render}"
  ⟨image, bytes, s!"wrote {bytes.length} bytes to {image.render}"⟩ :: (listing ++ symbols)

/-- Assemble what was read from the input file. -/
def assemble (job : Job) (s : Settings) (contents : Except FileFault (List UInt8)) :
    List LogLine × Except Trouble Writing :=
  match Session.new s with
  | .error failure => ([], .error (.ofFailure failure))
  | .ok session =>
    let step := session.assembleFile job.input contents
    let log := settingsLine s :: step.events.map fun event => ⟨.debug, event.message⟩
    match step.result with
    | .error failure => (log, .error (.ofFailure failure))
    | .ok bytes =>
      let summary := [
        Text.plain s!"Wrote {bytes.length} bytes to {job.outputPath.render}",
        s!"Defined {step.session.output.symbols.size} labels"]
      (log, .ok ⟨job.files bytes step.session.output, if job.verbose then summary else []⟩)

/-- The report of a job with its log and its end. -/
def report (job : Job) (log : List LogLine) : Except Trouble (List String) → Report
  | .ok summary => ⟨0, Text.ofLines summary, Text.ofLines (shownLines job.verbose log)⟩
  | .error trouble =>
    ⟨trouble.exitCode, "", Text.ofLines (shownLines job.verbose log ++ trouble.lines job.verbose)⟩

end Job

section Effects

variable {m : Type → Type} [Monad m] [FileStore m]

/-- Remove files in order, up to the first that cannot be removed. -/
def removeFiles : List Path → m (Except Failure Unit)
  | [] => return .ok ()
  | path :: rest => do
    match ← FileStore.remove path with
    | .ok () => removeFiles rest
    | .error fault => return .error (.file path fault)

/-- Write files in order and note each in the log. At the first that cannot be written, remove the
ones that were. If one of these cannot be removed either, that is what is reported. -/
def writeFiles (written : List Path) (log : List LogLine) :
    List OutputFile → m (List LogLine × Except Trouble Unit)
  | [] => return (log, .ok ())
  | file :: rest => do
    match ← FileStore.write file.path file.bytes with
    | .ok () => writeFiles (written ++ [file.path]) (log ++ [⟨.debug, file.note⟩]) rest
    | .error fault =>
      match ← removeFiles written with
      | .ok () => return (log, .error (.ofFailure (.file file.path fault)))
      | .error failure => return (log, .error (.ofFailure failure))

/-- Do a job. -/
def Job.run (job : Job) (e : Environment) : m Report := do
  let current ← FileStore.current
  match job.overwritten? current with
  | some path =>
    let message := s!"output file {path.render} would overwrite the input file"
    return job.report (warnings e) (.error (.refused message))
  | none =>
    let contents ← FileStore.read job.input
    let (log, result) := job.assemble (job.settings e) contents
    match result with
    | .error trouble => return job.report (warnings e ++ log) (.error trouble)
    | .ok writing =>
      let (log, result) ← writeFiles [] (warnings e ++ log) writing.files
      return job.report log (result.map fun _ => writing.summary)

/-- Run the command with these words in this environment. There is no report only if the command
breaks off before it has a request. -/
def run (words : List String) (e : Environment) : m (Except Failure Report) := do
  match readWords words with
  | .error fault => return .ok (UsageFault.switches fault).report
  | .ok w =>
    let kind? ← FileStore.kinds w.paths
    match Request.ofWords kind? w with
    | .error (.usage fault) => return .ok fault.report
    | .error (.failure failure) => return .error failure
    | .ok .help => return .ok ⟨0, helpText, ""⟩
    | .ok .version => return .ok ⟨0, versionText, ""⟩
    | .ok (.assemble job) => return .ok (← job.run e)

end Effects

end Command

end Risc16
