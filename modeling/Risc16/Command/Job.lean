import Risc16.Command.Switch
import Risc16.Failure

/-!
# Jobs

What the words of a command ask for, once their values are checked. Values are checked in the
order in which their switches are first mentioned, then the input file, then whether there are
words too many. Of a repeated switch only the last value counts. Requests for help or for the
version come before all checks.
-/

namespace Risc16.Command

/-- An assembly that the command is asked for. -/
structure Job where
  input : Path
  output? : Option Path
  listing? : Option Path
  symbols? : Option Path
  strict : Bool
  capacity? : Option Int
  verbose : Bool
deriving DecidableEq, Repr

/-- What the command is asked for. -/
inductive Request
  | help
  | version
  | assemble (job : Job)
deriving DecidableEq, Repr

/-- Why the value of a switch or of the argument is refused. -/
inductive ValueFault
  | missingFile (text : String)
  | isDirectory (text : String)
  | notReadable (text : String)
  | notAnInteger (text : String)
  | outOfRange (value : Int)
deriving DecidableEq, Repr

/-- Why the command does not start. -/
inductive UsageFault
  | switches (fault : SwitchFault)
  | value (parameter : String) (fault : ValueFault)
  | missingInput
  | extraArguments (arguments : List String)
deriving DecidableEq, Repr

/-- Why there is no request. A fault in the usage is reported; a failure to look at a file is not,
and breaks the command off. -/
inductive Refusal
  | usage (fault : UsageFault)
  | failure (f : Failure)
deriving DecidableEq, Repr

namespace ValueFault

def message : ValueFault → String
  | .missingFile text => s!"File {Text.quoted text} does not exist."
  | .isDirectory text => s!"File {Text.quoted text} is a directory."
  | .notReadable text => s!"File {Text.quoted text} is not readable."
  | .notAnInteger text => s!"{Text.quoted text} is not a valid integer range."
  | .outOfRange value => s!"{value} is not in the range 1<=x<={Settings.maxCapacity}."

end ValueFault

def SwitchFault.message : SwitchFault → String
  | .noSuchOption name similar =>
    match similar with
    | [] => s!"No such option: {name}"
    | [one] => s!"No such option: {name} Did you mean {one}?"
    | several =>
      let sorted := several.mergeSort fun a b => Text.codePointLe a.toList b.toList
      let list := ", ".intercalate sorted
      s!"No such option: {name} (Possible options: {list})"
  | .missingValue name => s!"Option '{name}' requires an argument."
  | .unwantedValue name => s!"Option '{name}' does not take a value."

namespace UsageFault

def message : UsageFault → String
  | .switches fault => fault.message
  | .value parameter fault => s!"Invalid value for {parameter}: {fault.message}"
  | .missingInput => "Missing argument 'INPUT_FILE'."
  | .extraArguments arguments =>
    let noun := if arguments.length = 1 then "argument" else "arguments"
    let list := " ".intercalate arguments
    s!"Got unexpected extra {noun} ({list})"

/-- Whether the message comes with a reminder of the usage. -/
def showsUsage : UsageFault → Bool
  | .switches (.missingValue _) | .switches (.unwantedValue _) => false
  | _ => true

end UsageFault

/-- The capacity that a value gives. -/
def readCapacity (text : String) : Except ValueFault Int :=
  match Text.readInteger? text.toList with
  | none => .error (.notAnInteger text)
  | some n => if 1 ≤ n ∧ n ≤ Settings.maxCapacity then .ok n else .error (.outOfRange n)

/-- The path of an output file that a value gives. It may not be a directory, and a file that is
there has to be one that can be read. -/
def readOutput (kind? : String → Option EntryKind) (text : String) : Except ValueFault Path :=
  match kind? text with
  | some .directory => .error (.isDirectory text)
  | some .closedFile => .error (.notReadable text)
  | some .file | none => .ok (Path.ofText text)

/-- The path of the input file that an argument gives. It has to be a file that can be read. -/
def readInput (kind? : String → Option EntryKind) (text : String) : Except ValueFault Path :=
  match kind? text with
  | none => .error (.missingFile text)
  | some .directory => .error (.isDirectory text)
  | some .closedFile => .error (.notReadable text)
  | some .file => .ok (Path.ofText text)

/-- What a value gives that is read with `read`; `parameter` is what messages call it. -/
def readValue {α : Type} (parameter : String) (read : String → Except ValueFault α)
    (text : String) : Except Refusal α :=
  (read text).mapError fun fault => .usage (.value parameter fault)

/-- The path that a value gives. The system can look for it only if it holds no zero character. -/
def readPath (parameter : String) (read : String → Except ValueFault Path) (text : String) :
    Except Refusal Path :=
  match Failure.ofTexts? [text] with
  | some failure => .error (.failure failure)
  | none => readValue parameter read text

/-- Check the value of a switch. -/
def checkSwitch (kind? : String → Option EntryKind) (w : Words) (s : Switch) :
    Except Refusal Unit :=
  match s, w.value? s with
  | .capacity, some text => (readValue s.describe readCapacity text).map fun _ => ()
  | .output, some text | .listing, some text | .symbols, some text =>
    (readPath s.describe (readOutput kind?) text).map fun _ => ()
  | _, _ => .ok ()

/-- Check the values of switches in order. -/
def checkSwitches (kind? : String → Option EntryKind) (w : Words) :
    List Switch → Except Refusal Unit
  | [] => .ok ()
  | s :: rest => do
    checkSwitch kind? w s
    checkSwitches kind? w rest

/-- The assembly that words ask for. -/
def Job.ofWords (kind? : String → Option EntryKind) (w : Words) : Except Refusal Job := do
  checkSwitches kind? w w.mentioned
  match w.arguments with
  | [] => .error (.usage .missingInput)
  | input :: extra =>
    let input ← readPath "'INPUT_FILE'" (readInput kind?) input
    if extra.isEmpty then
      return {
        input
        output? := (w.value? .output).map Path.ofText
        listing? := (w.value? .listing).map Path.ofText
        symbols? := (w.value? .symbols).map Path.ofText
        strict := w.has .strict
        capacity? := (w.value? .capacity).bind fun text => Text.readInteger? text.toList
        verbose := w.has .verbose }
    else .error (.usage (.extraArguments extra))

/-- What words ask for. Of help and version the one mentioned first counts. -/
def Request.ofWords (kind? : String → Option EntryKind) (w : Words) : Except Refusal Request :=
  match w.mentioned.find? fun s => s = .help ∨ s = .version with
  | some .help => .ok .help
  | some _ => .ok .version
  | none => (Job.ofWords kind? w).map .assemble

/-- The paths whose kind decides whether the values are right. -/
def Words.paths (w : Words) : List String :=
  [Switch.output, .listing, .symbols].filterMap w.value? ++ w.arguments.take 1

end Risc16.Command
