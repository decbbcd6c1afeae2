import LedSwitch.CommandLine.Run

/-!
The program on a real machine. Records are shown as soon as they are written, without the time.
-/

namespace LedSwitch

/-- The real machine, and the text by which its user sees an event. -/
abbrev RealMachine := ReaderT (Event → Option String) IO

namespace RealMachine

/-- The number that an error carries, if the system refused the operation. -/
def errorCode : IO.Error → UInt32
  | .alreadyExists _ code _ | .noFileOrDirectory _ code _ | .invalidArgument _ code _
  | .permissionDenied _ code _ | .resourceExhausted _ code _ | .inappropriateType _ code _
  | .interrupted _ code _ | .noSuchThing _ code _ => code
  | .otherError code _ | .resourceBusy code _ | .resourceVanished code _ | .unsupportedOperation code _
  | .hardwareFault code _ | .unsatisfiedConstraints code _ | .illegalOperation code _ | .protocolError code _
  | .timeExpired code _ => code
  | .unexpectedEof | .userError _ => 0

/-- The number by which the system tells why it refused an operation. Some errors carry it negated. -/
def errorNumber (error : IO.Error) : Nat := (errorCode error).toInt32.toInt.natAbs

/-- The cause of a refusal. -/
def causeOf (error : IO.Error) : Cause :=
  match errorNumber error with
  | 2 => .noEntry
  | 17 => .alreadyExists
  | 20 => .notDirectory
  | 21 => .isDirectory
  | 22 => .invalidArgument
  | 28 => .noSpace
  | 36 => .nameTooLong
  | 40 => .tooManyLinks
  | _ => .other (toString error)

/-- Performs an operation on a path. No path that contains NUL reaches the system. -/
def attempt {α : Type} (path : String) (operation : IO α) : RealMachine (Except Cause α) := fun _ => do
  if '\x00' ∈ path.toList then return .error .nulInPath
  try return .ok (← operation)
  catch error => return .error (causeOf error)

/-- Whether the path leads to anything for which `test` holds. -/
def probe (path : String) (test : IO Bool) : RealMachine Bool := do
  match ← attempt path test with
  | .ok answer => return answer
  | .error _ => return false

/-- Makes the bytes the whole contents of a file, and hands them to the system before it is closed. -/
def replace (path : String) (bytes : List UInt8) : IO Unit :=
  IO.FS.withFile path .write fun handle => do
    handle.write (ByteArray.mk bytes.toArray)
    handle.flush

instance : Machine RealMachine where
  isPresent path := probe path do return ← (← IO.FS.realPath path).pathExists
  isDirectory path := probe path do return ← (← IO.FS.realPath path).isDir
  read path := attempt path do return (← IO.FS.readBinFile path).toList
  overwrite path bytes _ := attempt path (replace path bytes)
  makeDirectory path := attempt path (IO.FS.createDir path)
  tell event := fun seen => (seen event).forM fun line => IO.println line

end RealMachine

end LedSwitch

open LedSwitch CommandLine in
/-- Does what the arguments say. The records that are shown are selected by the variable `RUST_LOG`; those for the log
    of the system are dropped. -/
def main (arguments : List String) : IO UInt32 := do
  let setting ← IO.getEnv "RUST_LOG"
  match Invocation.ofArguments (fun _ => .declared) arguments with
  | .error verdict =>
    let outcome := verdict.outcome
    outcome.output.forM fun line => IO.println line
    outcome.complaint.forM fun line => IO.eprintln line
    return UInt32.ofNat outcome.status
  | .ok invocation =>
    (warnings invocation setting).forM fun line => IO.eprintln line
    let result ← (run (.ok ()) invocation : RealMachine _) (visible? invocation (Filter.ofSetting setting))
    (failureMessages result).forM fun line => IO.eprintln line
    return UInt32.ofNat (exitStatus result)
