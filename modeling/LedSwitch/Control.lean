import LedSwitch.Node
import LedSwitch.Preferences.Store

/-!
The checkbox of the charging LED. It shows the stored preference, and a click on it stores the new value and tells
the node. Whether it reacts is decided once: a checkbox whose node was missing at the beginning stays inert.
-/

namespace LedSwitch

/-- The checkbox with its stored preferences and its node. -/
structure Control where
  store : Store
  node : String
  /-- The node was there when the checkbox was made. -/
  isEnabled : Bool
  isChecked : Bool

namespace Control

/-- The key of the preference, which is also that of the checkbox. -/
def key : String := "charging_led"

/-- The usual node of the charging LED. -/
def defaultNode : String := "/sys/class/gpio/gpio168/value"

/-- The value that a store holds for the checkbox. -/
def stored (store : Store) : Bool := store.getBool key false

variable {m : Type → Type} [Monad m] [Machine m]

/-- Makes the checkbox, showing the stored value. -/
def new (store : Store) (node : String) : m Control := do
  let enabled ← Node.isPresent node
  if !enabled then log .info .control (node ++ " not present, charging led control disabled")
  return ⟨store, node, enabled, stored store⟩

/-- Stores the new value and tells the node. Failures are logged and change nothing else. -/
def apply (control : Control) (checked : Bool) : m Control := do
  let (saved, store) ← control.store.setBool key checked
  if let .error failure := saved then
    log .warn .control ("could not persist " ++ key ++ ": " ++ failure.message)
  let _ ← Node.writeSignal control.node (Signal.ofChecked checked)
  return { control with store := store, isChecked := checked }

/-- A click on the checkbox named `name`, which now shows `checked`. Only the charging LED's own checkbox reacts,
    and only if it is enabled; the click counts as handled in any case. -/
def click (control : Control) (name : String) (checked : Bool) : m (Bool × Control) := do
  log .warn .control ("key: " ++ name)
  if name ≠ key ∨ !control.isEnabled then return (true, control)
  return (true, ← control.apply checked)

/-- A click on the checkbox of the charging LED. -/
def toggle (control : Control) (checked : Bool) : m (Bool × Control) := control.click key checked

/-- Tells the node the stored value again, as after a restart. The answer is false if the node is missing and
    nothing was written. -/
def restore (store : Store) (node : String) : m (Except Failure Bool) := do
  if !(← Node.isPresent node) then return .ok false
  match ← Node.writeSignal node (Signal.ofChecked (stored store)) with
  | .error failure => return .error failure
  | .ok () =>
    log .info .control ("restored charging led = " ++ (if stored store then "true" else "false"))
    return .ok true

end Control

end LedSwitch
