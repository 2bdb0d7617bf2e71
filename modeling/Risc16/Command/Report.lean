import Risc16.Command.Job
import Risc16.Text.Lines

/-!
# Reports

What the command says when it ends: an exit code and the texts on the two channels. What it says in
its own voice is plain text, without control sequences; the lines of the log and of a trace show
names and messages as they are.
-/

namespace Risc16.Command

/-- The end of a command. -/
structure Report where
  exitCode : Nat
  stdout : String
  stderr : String
deriving DecidableEq, Repr

/-- What can go wrong once the command has started. -/
inductive Trouble
  | rejected (d : Diagnostic)
  /-- Any other fault of the assembler. -/
  | failed (message : String)
  | refused (message : String)
  | missingFile (message : String)
  | denied (message : String)
  | notText (message : String)
  /-- A fault that nobody has foreseen, with the name of its class. -/
  | unexpected (kind : String) (message : String)
deriving DecidableEq, Repr

namespace Trouble

/-- The exit code: 1 for a fault in the source, 2 for a fault in what was asked for, 3 for all
else. -/
def exitCode : Trouble → Nat
  | .rejected _ | .failed _ => 1
  | .refused _ | .missingFile _ | .denied _ | .notText _ => 2
  | .unexpected _ _ => 3

/-- The last line of a trace: the class and the message, if there is one. -/
def traceLine (kind message : String) : String :=
  if message.isEmpty then kind else s!"{kind}: {message}"

/-- The lines that tell of the trouble. -/
def lines (verbose : Bool) : Trouble → List String
  | .rejected d => [Text.plain d.render]
  | .failed message | .refused message | .missingFile message | .denied message
  | .notText message => [Text.plain s!"Error: {message}"]
  | .unexpected kind message =>
    Text.plain s!"Internal error: {message}" ::
      if verbose then ["Traceback (most recent call last):", traceLine kind message] else []

/-- The trouble that a failure makes. -/
def ofFailure (f : Failure) : Trouble :=
  match f with
  | .diagnostic d => .rejected d
  | .unwritable fault => .unexpected fault.className f.message
  | .file _ .noEntry => .missingFile f.message
  | .file _ .denied => .denied f.message
  | .file _ .notDirectory => .unexpected "NotADirectoryError" f.message
  | .file _ .isDirectory => .unexpected "IsADirectoryError" f.message
  | .file _ _ => .unexpected "OSError" f.message
  | .notText _ => .notText f.message
  | .wideWord _ => .unexpected "struct.error" f.message
  | .zeroCharacter | .capacity _ => .unexpected "ValueError" f.message

end Trouble

/-- The report of a trouble. -/
def Trouble.report (verbose : Bool) (t : Trouble) : Report :=
  ⟨t.exitCode, "", Text.ofLines (t.lines verbose)⟩

/-- How to call the command. -/
def usage : String := "Usage: assemble [OPTIONS] INPUT_FILE"

/-- The report of a command that does not start. -/
def UsageFault.report (f : UsageFault) : Report :=
  let reminder := if f.showsUsage then [usage, "Try 'assemble --help' for help.", ""] else []
  ⟨2, "", Text.ofLines (reminder ++ [Text.plain s!"Error: {f.message}"])⟩

def versionText : String := "assemble, version 1.0.0\n"

def helpText : String := Text.ofLines [
  usage,
  "",
  "  Assemble BRISC source code into an instruction memory image.",
  "",
  "  INPUT_FILE is the assembly source file (.basm) to assemble.",
  "",
  "  The output is a flat binary of big-endian 16-bit words, one per instruction.",
  "  Nothing is written if assembly fails.",
  "",
  "  Examples:",
  "      assemble blink.basm              # Outputs blink.bin",
  "      assemble blink.basm -o out.bin   # Specify output file",
  "      assemble -l blink.lst blink.basm # Also write a listing",
  "",
  "Options:",
  "  -o, --output-path FILE          Output binary file (default: input with .bin",
  "                                  suffix)",
  "  -l, --listing FILE              Generate listing file",
  "  -s, --symbols FILE              Generate symbol file",
  "  --strict-io                     Reject in/out ids that are not wired on the",
  "                                  board",
  "  --max-instructions INTEGER RANGE",
  "                                  Instruction memory size in words (default: 32)",
  "                                  [1<=x<=256]",
  "  -v, --verbose                   Verbose output",
  "  --version                       Show the version and exit.",
  "  --help                          Show this message and exit."]

end Risc16.Command
