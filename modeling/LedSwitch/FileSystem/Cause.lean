/-!
Why an operation on a file was refused, with the wording that messages use.
-/

namespace LedSwitch

/-- Why an operation on a file was refused. -/
inductive Cause where
  /-- The entry, or a directory on the way to it, is missing. -/
  | noEntry
  /-- Something of that name is there already. -/
  | alreadyExists
  /-- A directory is needed where there is something else. -/
  | notDirectory
  /-- A file is needed where there is a directory. -/
  | isDirectory
  /-- The device does not know the operation. -/
  | invalidArgument
  /-- The device takes no bytes. -/
  | noSpace
  /-- One name, or the whole path, is too long. -/
  | nameTooLong
  /-- The way leads through too many links. -/
  | tooManyLinks
  /-- The bytes read are not well-formed text. -/
  | notText
  /-- The path contains the NUL character. -/
  | nulInPath
  /-- Any other refusal, in the words of the system. -/
  | other (description : String)
  deriving DecidableEq, Repr

/-- The wording of a cause. -/
def Cause.message : Cause → String
  | .noEntry => "No such file or directory (os error 2)"
  | .alreadyExists => "File exists (os error 17)"
  | .notDirectory => "Not a directory (os error 20)"
  | .isDirectory => "Is a directory (os error 21)"
  | .invalidArgument => "Invalid argument (os error 22)"
  | .noSpace => "No space left on device (os error 28)"
  | .nameTooLong => "File name too long (os error 36)"
  | .tooManyLinks => "Too many levels of symbolic links (os error 40)"
  | .notText => "stream did not contain valid UTF-8"
  | .nulInPath => "file name contained an unexpected NUL byte"
  | .other description => description

end LedSwitch
