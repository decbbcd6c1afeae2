import LedSwitch.FileSystem.Cause

/-!
What can go wrong, with the path as its caller spelled it and with the wording of the messages.
-/

namespace LedSwitch

/-- Why an operation of the program failed. -/
inductive Failure where
  /-- A file or directory could not be used. -/
  | io (path : String) (cause : Cause)
  /-- A preferences file is no document. -/
  | invalid (path : String)
  /-- A preferences file that could not be read is not to be replaced. -/
  | damaged (path : String)
  /-- The preferences cannot be written as a document: a value would have to follow a table. -/
  | unserializable
  deriving DecidableEq, Repr

/-- The wording of a failure. What makes a document invalid is not told. -/
def Failure.message : Failure → String
  | .io path cause => "i/o on " ++ path ++ ": " ++ cause.message
  | .invalid path => "invalid preferences file " ++ path ++ ": <toml>"
  | .damaged path => "refusing to overwrite unreadable preferences file " ++ path
  | .unserializable => "could not serialize preferences: values must be emitted before tables"

end LedSwitch
