import Risc16.Text.Numeral
import Risc16.Text.Quoted

/-!
# Settings

The size of the instruction memory and the attitude to devices that are not wired. Settings come
from defaults, then from two environment variables. A variable that cannot be understood is passed
over with a warning.
-/

namespace Risc16

/-- The settings of an assembly. `capacity` is the number of words in the instruction memory. With
`strictDevices` only wired devices can be used. -/
structure Settings where
  capacity : Int := 32
  strictDevices : Bool := false
deriving DecidableEq, Repr

namespace Settings

/-- The largest instruction memory: jump targets have eight bits. -/
def maxCapacity : Int := 256

/-- Whether a machine with these settings can be built. -/
def isValid (s : Settings) : Bool :=
  1 ≤ s.capacity && s.capacity ≤ maxCapacity

/-- What is said about a capacity that no machine has. -/
def capacityMessage (capacity : Int) : String :=
  s!"max_instructions must be in 1..{maxCapacity}, got {capacity}"

end Settings

/-- The environment variables for the settings, where they are set. -/
structure Environment where
  capacity? : Option String := none
  strictDevices? : Option String := none
deriving DecidableEq, Repr

/-- A variable that was passed over, with its value. -/
structure Warning where
  variableName : String
  value : String
deriving DecidableEq, Repr

/-- The warning in words. -/
def Warning.message (w : Warning) : String :=
  s!"ignoring {w.variableName}={Text.quoted w.value}"

namespace Environment

def capacityName : String := "BRISC_MAX_INSTRUCTIONS"

def strictDevicesName : String := "BRISC_STRICT_IO"

/-- The capacity that a value gives, if it gives one that a machine can have. -/
def readCapacity? (value : String) : Option Int :=
  match Text.readInteger? value.toList with
  | some n => if 1 ≤ n ∧ n ≤ Settings.maxCapacity then some n else none
  | none => none

/-- The answer that a value gives, in capitals or not and with white space around it. -/
def readAnswer? (value : String) : Option Bool :=
  let word := String.ofList ((Text.trim value.toList).map Char.toLower)
  if word ∈ ["1", "true", "yes", "on"] then some true
  else if word ∈ ["0", "false", "no", "off"] then some false
  else none

/-- The value that a variable gives to a setting, or the setting's default with a warning. A
variable that is empty counts as not set. -/
def readVariable {α : Type} (name : String) (read? : String → Option α) (default : α) :
    Option String → α × List Warning
  | none => (default, [])
  | some value =>
    if value.isEmpty then (default, [])
    else
      match read? value with
      | some a => (a, [])
      | none => (default, [⟨name, value⟩])

/-- The settings that an environment gives, with the warnings in order. -/
def settings (e : Environment) : Settings × List Warning :=
  let defaults : Settings := {}
  let capacity := readVariable capacityName readCapacity? defaults.capacity e.capacity?
  let strict := readVariable strictDevicesName readAnswer? defaults.strictDevices e.strictDevices?
  (⟨capacity.1, strict.1⟩, capacity.2 ++ strict.2)

end Environment

end Risc16
