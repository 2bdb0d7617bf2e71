import Risc16.Machine.Mnemonic

/-!
# Devices

The devices that are wired on the board. Source text may give a device by its name.
-/

namespace Risc16.Direction

/-- The devices that can be read, or written, with their numbers. Two names may share a number. -/
def devices : Direction → List (String × Nat)
  | .input => [
    ("SW", 0), ("SWITCHES", 0), ("BTNC", 1), ("BTNU", 2), ("BTNL", 3), ("BTNR", 4), ("BTND", 5),
    ("COUNTER", 6)]
  | .output => [("SEG_RIGHT", 0), ("SEG_LEFT", 1)]

/-- The numbers of the wired devices, each once and in increasing order. -/
def deviceNumbers (way : Direction) : List Nat :=
  (way.devices.map Prod.snd).eraseDups

/-- The number of the device with this name. -/
def deviceNumber? (way : Direction) (name : String) : Option Nat :=
  way.devices.lookup name

/-- What messages call such a device. -/
def noun : Direction → String
  | .input => "source"
  | .output => "sink"

/-- The way in which the instruction with this spelling moves data. All that does not read from a
device is taken to write to one. -/
def ofName (name : String) : Direction :=
  if name == "in" then .input else .output

end Risc16.Direction
