/-!
The journal: what a run says, in order. A record has a level, the part of the program that it comes from, and a
text; besides the records there are the lines that the program prints for its user.
-/

namespace LedSwitch

/-- How serious a record is, the most serious level first. -/
inductive Level where
  | error
  | warn
  | info
  | debug
  deriving DecidableEq, Repr

/-- The place of a level in the order of seriousness. -/
def Level.rank : Level → Nat
  | .error => 1
  | .warn => 2
  | .info => 3
  | .debug => 4

/-- The name of a level. -/
def Level.name : Level → String
  | .error => "ERROR"
  | .warn => "WARN"
  | .info => "INFO"
  | .debug => "DEBUG"

/-- The part of the program that a record comes from. -/
inductive Source where
  /-- The command line. -/
  | program
  /-- The control node. -/
  | node
  /-- The stored preferences. -/
  | preferences
  /-- The checkbox. -/
  | control
  deriving DecidableEq, Repr

/-- The name under which a part of the program appears in the log, and by which records are selected. -/
def Source.label : Source → String
  | .program => "chargingled"
  | .node => "chargingled::sysfs"
  | .preferences => "chargingled::prefs"
  | .control => "chargingled::settings"

/-- One record. -/
structure Record where
  level : Level
  source : Source
  text : String
  deriving DecidableEq, Repr

/-- What a run says. -/
inductive Event where
  | logged (record : Record)
  /-- A line for the user. -/
  | printed (line : String)
  deriving DecidableEq, Repr

/-- The record as it appears in the log: the level padded to five characters, and the lines of its text after
    the first one indented by four. -/
def Record.render (record : Record) : String :=
  let padding := String.ofList (List.replicate (5 - record.level.name.length) ' ')
  let text := record.text.toList.flatMap fun c => if c = '\n' then ['\n', ' ', ' ', ' ', ' '] else [c]
  "[" ++ record.level.name ++ padding ++ " " ++ record.source.label ++ "] " ++ String.ofList text

end LedSwitch
