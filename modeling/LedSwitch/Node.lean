import LedSwitch.Failure
import LedSwitch.Machine
import LedSwitch.Text.Line
import LedSwitch.Text.Quoted

/-!
Control nodes: files that take a single short write of `0` or `1`. Every write is logged, with the value on
success and with the failure otherwise, and the failure is handed back to the caller.
-/

namespace LedSwitch

/-- What a control node is told. -/
inductive Signal where
  | zero
  | one
  deriving DecidableEq, Repr

namespace Signal

/-- The text that is written for a signal. -/
def text : Signal → String
  | .zero => "0"
  | .one => "1"

/-- The signal for a checkbox: a checked box writes zero. -/
def ofChecked (checked : Bool) : Signal := if checked then .zero else .one

/-- The signal for a truth value: true writes one. -/
def ofBool (value : Bool) : Signal := if value then .one else .zero

end Signal

namespace Node

variable {m : Type → Type} [Monad m] [Machine m]

/-- Whether the node is there. -/
def isPresent (path : String) : m Bool := Machine.isPresent path

/-- Replaces the contents of a node and logs the outcome. -/
def write (path value : String) (durable : Bool) : m (Except Failure Unit) := do
  match ← Machine.overwrite path (Utf8.encode value) durable with
  | .ok () =>
    log .debug .node ("wrote " ++ Quoted.quote value ++ " to " ++ path)
    return .ok ()
  | .error cause =>
    let failure := Failure.io path cause
    log .error .node failure.message
    return .error failure

/-- Replaces the contents of a node by a text. -/
def writeText (path value : String) : m (Except Failure Unit) := write path value false

/-- Tells the node a signal. -/
def writeSignal (path : String) (signal : Signal) : m (Except Failure Unit) := writeText path signal.text

/-- Writes one for true and zero for false, and syncs the node. -/
def writeBool (path : String) (value : Bool) : m (Except Failure Unit) :=
  write path (Signal.ofBool value).text true

/-- The first line of a node without its end, or none if the node is empty. -/
def readLine (path : String) : m (Except Failure (Option String)) := do
  match ← Machine.read path with
  | .error cause => return .error (.io path cause)
  | .ok bytes =>
    match Line.first bytes with
    | .nothing => return .ok none
    | .malformed => return .error (.io path .notText)
    | .text line => return .ok (some line)

/-- The first line of a node; a failure is logged and counts as no line. -/
def readLine? (path : String) : m (Option String) := do
  match ← readLine path with
  | .ok line => return line
  | .error failure =>
    log .error .node ("reading sysfs node failed: " ++ failure.message)
    return none

end Node

end LedSwitch
