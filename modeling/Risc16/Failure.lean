import Risc16.Diagnostic
import Risc16.FileTree
import Risc16.Settings
import Risc16.Text.Control
import Risc16.Text.Utf8

/-!
# Failures

All that can keep an assembly from giving bytes.
-/

namespace Risc16

/-- Why there are no bytes. -/
inductive Failure
  | diagnostic (d : Diagnostic)
  /-- There is something to report, but the report cannot be written. -/
  | unwritable (fault : ReportFault)
  /-- A word does not fit 16 bits. -/
  | wideWord (word : Nat)
  | file (path : Path) (fault : FileFault)
  | notText (fault : Text.Utf8.Fault)
  /-- A text for the system holds a zero character. -/
  | zeroCharacter
  /-- No machine has this capacity. -/
  | capacity (words : Int)
deriving DecidableEq, Repr

/-- What is wrong with a sequence of bytes, in words. -/
def Text.Utf8.Reason.message : Text.Utf8.Reason → String
  | .start => "invalid start byte"
  | .continuation => "invalid continuation byte"
  | .truncated => "unexpected end of data"

/-- The message about bytes that are not text. -/
def Text.Utf8.Fault.message (f : Text.Utf8.Fault) : String :=
  if f.length = 1 then
    let byte := String.ofList (Text.padStart 2 '0' (Nat.toDigits 16 f.byte.toNat))
    s!"'utf-8' codec can't decode byte 0x{byte} in position {f.position}: {f.reason.message}"
  else
    let last := f.position + f.length - 1
    s!"'utf-8' codec can't decode bytes in position {f.position}-{last}: {f.reason.message}"

/-- The largest number that is compared with the bounds of a word. -/
def comparableMax : Nat := 0xFFFFFFFFFFFFFFFF

/-- The message about a word that does not fit 16 bits. The bounds are named only to a number that
could be compared with them. -/
def wideWordMessage (word : Nat) : String :=
  if word ≤ comparableMax then s!"'H' format requires 0 <= number <= {wordMax}"
  else "argument out of range"

/-- The failure in words. -/
def Failure.message : Failure → String
  | .diagnostic d => d.render
  | .unwritable fault => fault.message
  | .wideWord word => wideWordMessage word
  | .file path fault => fault.message path
  | .notText fault => fault.message
  | .zeroCharacter => "embedded null byte"
  | .capacity words => Settings.capacityMessage words

/-- The failure that a report about a source makes. -/
def Failure.ofReport (d : Diagnostic) : Failure :=
  match d.cause.fault? with
  | some fault => .unwritable fault
  | none => .diagnostic d

/-- The failure that a report makes whose places a caller has made up. -/
def Failure.ofCallerReport (d : Diagnostic) : Failure :=
  match d.fault? with
  | some fault => .unwritable fault
  | none => .diagnostic d

/-- The failure to hand texts to the system, if one of them holds a zero character. -/
def Failure.ofTexts? (texts : List String) : Option Failure :=
  if texts.any Text.hasZero then some .zeroCharacter else none

end Risc16
