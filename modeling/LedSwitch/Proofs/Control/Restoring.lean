import LedSwitch.Proofs.Control.Probing

/-!
Restoring a node once more. A write that succeeded can be done again, and then it changes nothing
(`FileSystem.overwrite_again`); one that failed has left everything, and fails again. So a second restoring finds what
the first one left, and restoring after a press finds what the press left (`Control.restore_idempotent`).
-/

namespace LedSwitch

open FileSystem

/-- A write that succeeded leaves its path leading somewhere, and done again it changes nothing. -/
theorem FileSystem.overwrite_again {fs fs' : FileSystem} {path : String} {bytes : List UInt8} {durable : Bool}
    (h : fs.overwrite path bytes durable = .ok fs') :
    fs'.isPresent path = true ∧ fs'.overwrite path bytes durable = .ok fs' := by
  obtain ⟨place, hplace, ⟨hfound, rfl⟩ | ⟨⟨device, hfound⟩, rfl⟩⟩ := overwrite_eq_ok h
  · have hlook := resolve_look_of_put hplace hfound bytes
    exact ⟨isPresent_of_resolve hlook, by rw [overwrite_of_file hlook, put_put]⟩
  · exact ⟨isPresent_of_resolve (resolve_look_of_create hplace (by simp [hfound])), h⟩

namespace Control

section

variable {m : Type → Type} [Monad m] [Machine m]

/-- Takes note of a value that could not be stored. -/
def noteSaved : Except Failure Unit → m Unit
  | .ok () => return
  | .error failure => log .warn .control ("could not persist " ++ key ++ ": " ++ failure.message)

/-- What a press does that is meant for a checkbox that reacts: the value is stored, and then the node is told. The
    answer is how telling the node ended. -/
def tell (control : Control) (press : Press) : m (Except Failure Unit) := do
  let (saved, _) ← control.save press
  noteSaved saved
  Node.writeSignal control.node (Signal.ofChecked press.checked)

end

/-- To take note of it touches no file. -/
theorem disk_run_noteSaved (saved : Except Failure Unit) (world : World) :
    (world.run (noteSaved saved)).2.disk = world.disk := by
  cases saved <;> rfl

variable {control : Control} {press : Press} {world world' pressed : World}
  {saved : Except Failure Unit × Store} {written : Except Failure Unit}

/-- A press that is meant for a checkbox that reacts stores the value and tells the node, and does nothing else. -/
theorem run_press_eq_tell (hname : press.name = key) (henabled : control.isEnabled = true) (world : World) :
    world.run (control.press press) =
      ((true, { control with store := (world.run (control.save press)).1.2, isChecked := press.checked }),
        (world.run (control.tell press)).2) := by
  -- The press is noted first; what follows depends on how storing the value ends.
  have hsaved : world.run (control.save press) = (world.run (log .warn .control ("key: " ++ press.name))).2.run
      (control.store.setBool key press.checked) := rfl
  rw [press_eq_click, click, World.run_bind, if_neg (by simp [hname, henabled]), World.run_bind, apply, World.run_bind,
    tell, World.run_bind, hsaved]
  rcases (world.run (log .warn .control ("key: " ++ press.name))).2.run (control.store.setBool key press.checked) with
    ⟨⟨failure | ⟨⟩, store⟩, saved⟩ <;> rfl

/-- Telling the node ends as the write to it does that follows the storing of the value. -/
theorem of_tell (hsaved : world.run (control.save press) = (saved, world'))
    (htell : world.run (control.tell press) = (written, pressed)) :
    (written = .ok () ∧ world'.disk.overwrite control.node press.signal false = .ok pressed.disk) ∨
      ∃ cause, written = .error (.io control.node cause) ∧ pressed.disk = world'.disk ∧
        world'.disk.overwrite control.node press.signal false = .error cause := by
  rw [tell, World.run_bind, hsaved, World.run_bind, Node.writeSignal, Node.writeText, Node.run_write_eq,
    disk_run_noteSaved] at htell
  rw [Press.signal]
  cases hwritten : world'.disk.overwrite control.node (Utf8.encode (Signal.ofChecked press.checked).text) false with
  | ok disk =>
    rw [hwritten] at htell
    obtain ⟨rfl, rfl⟩ := Prod.mk.inj htell
    exact Or.inl ⟨rfl, rfl⟩
  | error cause =>
    rw [hwritten] at htell
    obtain ⟨rfl, rfl⟩ := Prod.mk.inj htell
    exact Or.inr ⟨cause, rfl, rfl, rfl⟩

/-- The ways in which restoring a node can end, with the files it leaves. -/
inductive Restored (store : Store) (node : String) (fs : FileSystem) : Except Failure Bool → FileSystem → Prop where
  | missing (hmissing : fs.isPresent node = false) : Restored store node fs (.ok false) fs
  | refused {cause : Cause} (hpresent : fs.isPresent node = true)
      (hrefused : fs.overwrite node (Utf8.encode (Signal.ofChecked (stored store)).text) false = .error cause) :
      Restored store node fs (.error (.io node cause)) fs
  | told {fs' : FileSystem} (hpresent : fs.isPresent node = true)
      (htold : fs.overwrite node (Utf8.encode (Signal.ofChecked (stored store)).text) false = .ok fs') :
      Restored store node fs (.ok true) fs'

theorem restored_restore (store : Store) (node : String) (world : World) :
    Restored store node world.disk (world.run (restore store node)).1 (world.run (restore store node)).2.disk := by
  rw [run_restore_eq]
  cases hpresent : world.disk.isPresent node with
  | false => exact .missing hpresent
  | true =>
    rw [if_pos rfl, Node.writeSignal, Node.writeText, Node.run_write_eq]
    cases htold : world.disk.overwrite node (Utf8.encode (Signal.ofChecked (stored store)).text) false with
    | ok disk => exact .told hpresent htold
    | error cause => exact .refused hpresent htold

namespace Restored

variable {store : Store} {node : String} {fs fs' fs'' : FileSystem} {outcome outcome' : Except Failure Bool}

/-- How restoring ends is decided by the files. -/
theorem unique (h : Restored store node fs outcome fs') (h' : Restored store node fs outcome' fs'') :
    outcome' = outcome ∧ fs'' = fs' := by
  cases h <;> cases h' <;> simp_all

/-- What restoring leaves is left by restoring once more, which ends in the same way. -/
theorem again (h : Restored store node fs outcome fs') : Restored store node fs' outcome fs' := by
  cases h with
  | missing hmissing => exact .missing hmissing
  | refused hpresent hrefused => exact .refused hpresent hrefused
  | told _ htold =>
    obtain ⟨hpresent, hagain⟩ := overwrite_again htold
    exact .told hpresent hagain

end Restored

/-- Restoring leaves what a press left that is meant for the checkbox, and succeeds if the press told the node. -/
theorem restored_of_tell {store : Store} (hstored : stored store = press.checked)
    (hsaved : world.run (control.save press) = (saved, world'))
    (htell : world.run (control.tell press) = (written, pressed)) :
    ∃ outcome, Restored store control.node pressed.disk outcome pressed.disk ∧
      (outcome = .ok true ↔ written = .ok ()) := by
  have hbytes : press.signal = Utf8.encode (Signal.ofChecked (stored store)).text := by rw [hstored, Press.signal]
  obtain ⟨rfl, htold⟩ | ⟨cause, rfl, hdisk, hrefused⟩ := of_tell hsaved htell
  · obtain ⟨hpresent, hagain⟩ := overwrite_again htold
    exact ⟨.ok true, .told hpresent (hbytes ▸ hagain), by simp⟩
  · -- What was refused once is refused again, unless the node is not even looked for.
    rw [← hdisk, hbytes] at hrefused
    cases hpresent : pressed.disk.isPresent control.node with
    | false => exact ⟨.ok false, .missing hpresent, by simp⟩
    | true => exact ⟨.error (.io control.node cause), .refused hpresent hrefused, by simp⟩

/-- Restoring a node twice ends twice in the same way, and the second time changes nothing. After a press that is meant
    for a checkbox that reacts, restoring its node from its store leaves all files as the press left them, whatever came
    of storing the value; it succeeds if and only if telling the node did, with which the press ended. -/
theorem restore_idempotent (world : World) :
    (∀ store node outcome once, world.run (restore store node) = (outcome, once) →
      ∃ twice, once.run (restore store node) = (outcome, twice) ∧ twice.disk = once.disk) ∧
    ∀ (control : Control) (press : Press), press.name = key → control.isEnabled = true →
      ∃ shown pressed written outcome restored, world.run (control.press press) = ((true, shown), pressed) ∧
        world.run (control.tell press) = (written, pressed) ∧
        pressed.run (restore shown.store shown.node) = (outcome, restored) ∧ restored.disk = pressed.disk ∧
        (outcome = .ok true ↔ written = .ok ()) := by
  constructor
  · intro store node outcome once hrun
    have honce := restored_restore store node world
    rw [hrun] at honce
    obtain ⟨houtcome, hdisk⟩ := honce.again.unique (restored_restore store node once)
    exact ⟨(once.run (restore store node)).2, Prod.ext houtcome rfl, hdisk⟩
  · intro control press hname henabled
    have hpress := run_press_eq_tell hname henabled world
    cases hsaved : world.run (control.save press) with
    | mk saved world' =>
      have hstored : stored saved.2 = press.checked := (getBool_of_save hsaved key false).trans (if_pos rfl)
      obtain ⟨outcome, hrestored, hok⟩ := restored_of_tell hstored hsaved rfl
      obtain ⟨rfl, hdisk⟩ := hrestored.unique (restored_restore saved.2 control.node _)
      rw [hsaved] at hpress
      exact ⟨_, _, _, _, _, hpress, rfl, rfl, hdisk, hok⟩

/-- The node vanished after the checkbox was made, and its path is that of the preferences. -/
theorem restore_idempotent_vanished :
    let world := World.mk ⟨[], []⟩ []
    let control : Control := ⟨.file ⟨"n", [], false⟩, "n", true, false⟩
    (∃ twice, world.run (restore (.memory []) "n") = (.ok false, twice) ∧ twice.disk = world.disk) ∧
      ∃ shown pressed restored, world.run (control.press (.toggle true)) = ((true, shown), pressed) ∧
        pressed.disk.read "n" = .ok [0x30] ∧
        pressed.run (restore shown.store shown.node) = (.ok true, restored) ∧ restored.disk = pressed.disk := by
  intro world control
  obtain ⟨hrestoring, hpressing⟩ := restore_idempotent world
  obtain ⟨shown, pressed, written, outcome, restored, hpress, htell, hrestored, hdisk, hok⟩ :=
    hpressing control (.toggle true) rfl rfl
  have hwritten : (world.run (control.tell (.toggle true))).1 = .ok () := by decide +kernel
  have hread : (world.run (control.press (.toggle true))).2.disk.read "n" = .ok [0x30] := by decide +kernel
  rw [htell] at hwritten
  rw [hpress] at hread
  exact ⟨hrestoring (.memory []) "n" _ _ rfl, shown, pressed, restored, hpress, hread,
    hok.2 hwritten ▸ hrestored, hdisk⟩

end Control

end LedSwitch
