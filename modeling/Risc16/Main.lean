import Risc16.Command.Run

/-!
# The command line

The command on the files of the machine that it runs on.
-/

namespace Risc16

/-- The fault that the system reports. -/
def FileFault.ofError : IO.Error → FileFault
  | .noFileOrDirectory .. => .noEntry
  | .permissionDenied .. => .denied
  | .inappropriateType _ 20 _ => .notDirectory
  | .inappropriateType _ 21 _ => .isDirectory
  | .invalidArgument _ 36 _ => .nameTooLong
  | .inappropriateType _ number reason | .invalidArgument _ number reason
  | .resourceExhausted _ number reason | .alreadyExists _ number reason
  | .noSuchThing _ number reason => .other number.toNat reason
  | .resourceBusy number reason | .hardwareFault number reason
  | .unsupportedOperation number reason | .otherError number reason => .other number.toNat reason
  | error => .other 5 (toString error)

/-- Whether a file may be read. -/
def mayRead (path : String) : IO Bool := do
  try
    discard (IO.FS.Handle.mk path .read)
    return true
  catch _ => return false

/-- What a path leads to. -/
def systemKind? (path : String) : IO (Option EntryKind) := do
  try
    let place ← IO.FS.realPath path
    if ← place.isDir then return some .directory
    else return some (if ← mayRead path then .file else .closedFile)
  catch _ => return none

/-- The files of the system. -/
instance : FileStore IO where
  kinds paths := do
    let kinds ← paths.mapM fun path => return (path, ← systemKind? path)
    return fun path => (kinds.lookup path).join
  current := return (Path.ofText (← IO.currentDir).toString).parts
  read path := do
    try return .ok (← IO.FS.readBinFile path.render).toList
    catch error => return .error (.ofError error)
  write path bytes := do
    try
      IO.FS.writeBinFile path.render ⟨bytes.toArray⟩
      return .ok ()
    catch error => return .error (.ofError error)
  remove path := do
    try
      IO.FS.removeFile path.render
      return .ok ()
    catch error =>
      match FileFault.ofError error with
      | .noEntry => return .ok ()
      | fault => return .error fault

end Risc16

def main (words : List String) : IO UInt32 := do
  let capacity? ← IO.getEnv Risc16.Environment.capacityName
  let strictDevices? ← IO.getEnv Risc16.Environment.strictDevicesName
  match ← Risc16.Command.run words ⟨capacity?, strictDevices?⟩ with
  | .ok report =>
    IO.eprint report.stderr
    IO.print report.stdout
    return UInt32.ofNat report.exitCode
  | .error failure =>
    IO.eprintln failure.message
    return 1
