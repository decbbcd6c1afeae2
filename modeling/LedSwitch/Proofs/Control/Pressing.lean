import LedSwitch.Control
import LedSwitch.Proofs.FileSystem.Contents
import LedSwitch.Proofs.Preferences.Answering

/-!
What a press on a checkbox comes to on a machine that is a value, and restoring a node (`Control.run_restore_eq`).
`Control.Pressed` has one case for the presses that do nothing and one for those that store the new value and tell the
node; all that can be said of a press follows from these.
-/

namespace LedSwitch

/-- A checked box is told as zero, and an unchecked one as one. -/
theorem Signal.encode_text_ofChecked (checked : Bool) :
    Utf8.encode (Signal.ofChecked checked).text = [if checked then 0x30 else 0x31] := by
  cases checked <;> rfl

/-- A press on a checkbox: a click that names one, or a toggle, which is meant for the charging LED. -/
inductive Press where
  | click (name : String) (checked : Bool)
  | toggle (checked : Bool)
  deriving DecidableEq

namespace Press

/-- The name of the checkbox that is meant. -/
def name : Press → String
  | .click name _ => name
  | .toggle _ => Control.key

/-- What the checkbox shows after the press. -/
def checked : Press → Bool
  | .click _ checked | .toggle checked => checked

/-- The bytes that the node is told. -/
def signal (press : Press) : List UInt8 := Utf8.encode (Signal.ofChecked press.checked).text

end Press

namespace Node

/-- A write to a node ends as the attempt to write does, with one record of that. -/
theorem run_write_eq (path value : String) (durable : Bool) (world : World) :
    world.run (write path value durable) = match world.disk.overwrite path (Utf8.encode value) durable with
      | .ok disk => (.ok (), ⟨disk, world.events ++
          [.logged ⟨.debug, .node, "wrote " ++ Quoted.quote value ++ " to " ++ path⟩]⟩)
      | .error cause => (.error (.io path cause), ⟨world.disk, world.events ++
          [.logged ⟨.error, .node, (Failure.io path cause).message⟩]⟩) := by
  rw [write, World.run_bind, World.run_overwrite]
  cases world.disk.overwrite path (Utf8.encode value) durable <;> rfl

/-- A write to a node changes the files as the attempt to write does. -/
theorem disk_run_write (path value : String) (world : World) :
    (world.run (write path value false)).2.disk = world.disk.overwritten path (Utf8.encode value) := by
  rw [run_write_eq, FileSystem.overwritten]
  cases world.disk.overwrite path (Utf8.encode value) false <;> rfl

/-- A write to a node that fails leaves all files alone. -/
theorem disk_of_write_error {path value : String} {durable : Bool} {world world' : World} {failure : Failure}
    (h : world.run (write path value durable) = (.error failure, world')) : world'.disk = world.disk := by
  rw [run_write_eq] at h
  cases hwritten : world.disk.overwrite path (Utf8.encode value) durable with
  | ok disk => simp [hwritten] at h
  | error cause =>
    rw [hwritten] at h
    obtain ⟨-, rfl⟩ := Prod.mk.inj h
    rfl

end Node

namespace Control

section

variable {m : Type → Type} [Monad m] [Machine m]

/-- What a press does with a checkbox. -/
def press (control : Control) : Press → m (Bool × Control)
  | .click name checked => control.click name checked
  | .toggle checked => control.toggle checked

/-- A press is a click on the checkbox that it means. -/
theorem press_eq_click (control : Control) (press : Press) :
    (control.press press : m (Bool × Control)) = control.click press.name press.checked := by
  cases press <;> rfl

/-- Presses one after the other. -/
def pressEach : Control → List Press → m Control
  | control, [] => return control
  | control, press :: rest => do
    let (_, control) ← control.press press
    pressEach control rest

/-- What a press on the checkbox does first: it is noted in the journal, and the new value is stored. -/
def save (control : Control) (press : Press) : m (Except Failure Unit × Store) := do
  log .warn .control ("key: " ++ press.name)
  control.store.setBool key press.checked

end

/-- A new checkbox shows what its store holds, and reacts if its node is there. Making it leaves all files alone. -/
theorem run_new (store : Store) (node : String) (world : World) :
    (world.run (new store node)).1 = ⟨store, node, world.disk.isPresent node, stored store⟩ ∧
      (world.run (new store node)).2.disk = world.disk := by
  rw [new, World.run_bind, Node.isPresent, World.run_isPresent]
  cases world.disk.isPresent node <;> exact ⟨rfl, rfl⟩

/-- Restoring a node that is there ends as telling it the stored value does, with one more record of success. -/
theorem run_restore_eq (store : Store) (node : String) (world : World) :
    world.run (restore store node) = if world.disk.isPresent node then
        match world.run (Node.writeSignal node (Signal.ofChecked (stored store))) with
        | (.ok (), written) => (.ok true, ⟨written.disk, written.events ++
            [.logged ⟨.info, .control, "restored charging led = " ++ (if stored store then "true" else "false")⟩]⟩)
        | (.error failure, written) => (.error failure, written)
      else (.ok false, world) := by
  rw [restore, World.run_bind, Node.isPresent, World.run_isPresent]
  cases world.disk.isPresent node with
  | false => rfl
  | true =>
    simp only [Bool.not_true, Bool.false_eq_true, if_false, if_true]
    rw [World.run_bind]
    rcases world.run (Node.writeSignal node (Signal.ofChecked (stored store))) with ⟨failure | ⟨⟩, written⟩ <;> rfl

/-- The store of a press that is noted and stored answers with the new value. -/
theorem getBool_of_save {control : Control} {press : Press} {world saved : World} {outcome : Except Failure Unit}
    {store : Store} (hsaved : world.run (control.save press) = ((outcome, store), saved)) (name : String)
    (default : Bool) :
    store.getBool name default = if key = name then press.checked else control.store.getBool name default := by
  have hset := Store.getBool_setBool control.store key press.checked
    (world.run (log .warn .control ("key: " ++ press.name))).2 name default
  change (world.run (control.save press)).1.2.getBool name default = _ at hset
  rwa [hsaved] at hset

/-- The ways in which a press can end. -/
inductive Pressed (control : Control) (press : Press) (world : World) : Control → World → Prop where
  /-- The press was meant for another checkbox, or this one does not react. -/
  | inert {world' : World} (hinert : press.name ≠ key ∨ control.isEnabled = false)
      (hdisk : world'.disk = world.disk) : Pressed control press world control world'
  | applied {outcome : Except Failure Unit} {store : Store} {saved world' : World} (hname : press.name = key)
      (henabled : control.isEnabled = true) (hsaved : world.run (control.save press) = ((outcome, store), saved))
      (hdisk : world'.disk = saved.disk.overwritten control.node press.signal) :
      Pressed control press world { control with store := store, isChecked := press.checked } world'

/-- Whatever comes of storing the value, the checkbox shows it and the node is told. -/
theorem run_apply (control : Control) (checked : Bool) {world saved : World} {outcome : Except Failure Unit}
    {store : Store} (hsaved : world.run (control.store.setBool key checked) = ((outcome, store), saved)) :
    (world.run (control.apply checked)).1 = { control with store := store, isChecked := checked } ∧
      (world.run (control.apply checked)).2.disk =
        saved.disk.overwritten control.node (Utf8.encode (Signal.ofChecked checked).text) := by
  have hwrite := Node.disk_run_write control.node (Signal.ofChecked checked).text
  rw [apply, World.run_bind, hsaved]
  cases outcome with
  | ok => exact ⟨rfl, hwrite saved⟩
  | error failure =>
    have hlogged : (saved.run (log .warn .control ("could not persist " ++ key ++ ": " ++ failure.message))).2.disk =
        saved.disk := rfl
    exact ⟨rfl, hlogged ▸ hwrite _⟩

theorem pressed_press (control : Control) (press : Press) (world : World) :
    Pressed control press world (world.run (control.press press)).1.2 (world.run (control.press press)).2 := by
  rw [press_eq_click, click, World.run_bind]
  split_ifs with hinert
  · exact .inert (hinert.imp_right (by simp)) rfl
  · simp only [not_or, not_not, Bool.not_eq_true, Bool.not_eq_false'] at hinert
    have hsaved : world.run (control.save press) = _ := rfl
    obtain ⟨hcontrol, hdisk⟩ := run_apply control press.checked hsaved
    have happlied := Pressed.applied hinert.1 hinert.2 hsaved hdisk
    rwa [← hcontrol] at happlied

/-- A press always counts as handled. -/
theorem run_press (control : Control) (press : Press) (world : World) :
    ∃ after world', world.run (control.press press) = ((true, after), world') ∧
      Pressed control press world after world' := by
  have hhandled : (world.run (control.press press)).1.1 = true := by
    rw [press_eq_click, click, World.run_bind]
    split_ifs <;> rfl
  exact ⟨_, _, Prod.ext (Prod.ext hhandled rfl) rfl, control.pressed_press press world⟩

end Control

end LedSwitch
