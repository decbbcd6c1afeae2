import LedSwitch.CommandLine.Help
import LedSwitch.Journal.Filter

/-!
A run of the program: `run` does what an invocation says on any machine, `execute` gives what a user sees of a call
with certain arguments, and `call` does so with the patience of a reader who waits for the end of every file.
-/

namespace LedSwitch.CommandLine

section

variable {m : Type → Type} [Monad m] [Machine m]

/-- The word for a truth value. -/
def boolText (value : Bool) : String := if value then "true" else "false"

/-- Prints a line for the user. -/
def print (line : String) : m Unit := Machine.tell (.printed line)

/-- Tells the node the stored value again, and logs if that was not possible. -/
def runRestore (store : Store) (node : String) : m Unit := do
  match ← Control.restore store node with
  | .ok true => return ()
  | .ok false => log .info .program (node ++ " not present, nothing to restore")
  | .error failure => log .debug .program ("restore failed: " ++ failure.message)

/-- Clicks the checkbox, if its node is there. -/
def runSet (store : Store) (node : String) (checked : Bool) : m Unit := do
  let control ← Control.new store node
  if control.isEnabled then
    let _ ← control.toggle checked
  else log .warn .program (node ++ " not present, charging led control is disabled")

/-- Prints the state of the checkbox and the first line of the node. -/
def runShow (store : Store) (node : String) : m Unit := do
  let control ← Control.new store node
  print ("enabled: " ++ boolText control.isEnabled)
  print ("checked: " ++ boolText control.isChecked)
  let line ← Node.readLine? control.node
  print ("node: " ++ line.getD "-")

/-- Does what an invocation says, once the log is there. -/
def work (invocation : Invocation) : m Unit := do
  log .info .program ("node: " ++ invocation.node ++ ", prefs: " ++ invocation.preferences)
  let store := Store.file (← FileStore.load invocation.preferences)
  match invocation.command with
  | .restore => runRestore store invocation.node
  | .set checked => runSet store invocation.node checked
  | .show => runShow store invocation.node

/-- Whether there is a log, or why not. The standard output is always there. -/
def openLog (systemLog : Except String Unit) (invocation : Invocation) : Except String Unit :=
  if invocation.logToOutput then .ok () else systemLog

/-- Opens the log and does what an invocation says. Without a log nothing is done; what is done may fail in any part and
    still ends well. -/
def run (systemLog : Except String Unit) (invocation : Invocation) : m (Except String Unit) :=
  match openLog systemLog invocation with
  | .error reason => return .error reason
  | .ok () => do
    work invocation
    return .ok ()

end

/-- The text by which a user sees an event. Records are seen if the log goes to the standard output and the filter
    admits them. -/
def visible? (invocation : Invocation) (filter : Filter) : Event → Option String
  | .printed line => some line
  | .logged record => if invocation.logToOutput then filter.show? (.logged record) else none

/-- What a user sees of a call. -/
structure Outcome where
  /-- The exit status. -/
  status : Nat
  /-- The lines on the standard output. -/
  output : List String
  /-- The first line on the standard error output, if there is one. -/
  complaint : Option String
  deriving DecidableEq, Repr

/-- A line without the carriage return at its end. -/
def dropReturn (line : List Char) : List Char :=
  ((Parts.after? '\r' line.reverse).map List.reverse).getD line

/-- The lines of a text that a line feed follows. A carriage return before a line feed belongs to the line's end. -/
def lines (text : String) : List String :=
  (Parts.split '\n' text.toList).map fun line => String.ofList (dropReturn line)

/-- What a user sees of a call that ends at once. -/
def Verdict.outcome : Verdict → Outcome
  | .help topic => ⟨0, topic.lines, none⟩
  | .version => ⟨0, [title], none⟩
  | .rejected complaint => ⟨1, [], (lines complaint.message).head?⟩

/-- The messages about the setting for the selection of records, which matters only for a log that goes to the
    standard output. -/
def warnings (invocation : Invocation) (setting : Option String) : List String :=
  if invocation.logToOutput then (Filter.warnings setting).map (·.message) else []

/-- The exit status of a run. -/
def exitStatus : Except String Unit → Nat
  | .ok () => 0
  | .error _ => 1

/-- What a run says about its failure. -/
def failureMessages : Except String Unit → List String
  | .ok () => []
  | .error reason => ["Error: " ++ reason]

/-- What a user sees of a run with this result and these events. -/
def outcome (invocation : Invocation) (setting : Option String) (result : Except String Unit) (events : List Event) :
    Outcome where
  status := exitStatus result
  output := (events.filterMap (visible? invocation (Filter.ofSetting setting))).flatMap lines
  complaint := ((warnings invocation setting ++ failureMessages result).flatMap lines).head?

/-- What a call meets with besides its arguments, the files and the setting for its log. -/
structure Surroundings where
  /-- The order of the checks at every place, which no argument decides. -/
  order : Place → CheckOrder := fun _ => .declared
  /-- Whether the log of the system is there, or why not. -/
  systemLog : Except String Unit := .ok ()

/-- A call with these arguments, on these files, with a setting for the selection of records. Whether it comes to an end
    is up to the machine. -/
def callOn (m : Type → Type) [Monad m] [Machine (StateT World m)] (arguments : List String) (setting : Option String)
    (disk : FileSystem) (surroundings : Surroundings) : m (Outcome × FileSystem) :=
  match Invocation.ofArguments surroundings.order arguments with
  | .error verdict => return (verdict.outcome, disk)
  | .ok invocation => do
    let (result, world) ← (run surroundings.systemLog invocation : StateT World m _) ⟨disk, []⟩
    return (outcome invocation setting result world.events, world.disk)

/-- A call on a machine that gives up reading what does not end. -/
def execute (arguments : List String) (setting : Option String) (disk : FileSystem)
    (surroundings : Surroundings := {}) : Outcome × FileSystem :=
  (callOn Id arguments setting disk surroundings).run

/-- A call on a machine that reads everything to its end. There is no outcome if the call never comes to one. -/
def call (arguments : List String) (setting : Option String) (disk : FileSystem) (surroundings : Surroundings) :
    Option (Outcome × FileSystem) :=
  callOn Option arguments setting disk surroundings

end LedSwitch.CommandLine
