import LedSwitch.Proofs.Control.Pressing

/-!
What an operation leaves behind that fails. Every step that can be refused comes before a file is touched, so no file
was changed or made (`Operation.failed_perform`); all that a failed save can leave are directories above its file.
-/

namespace LedSwitch

open FileSystem

/-- What may be asked of a node or a store, and may be refused. -/
inductive Operation where
  | writeText (path value : String)
  | writeSignal (path : String) (signal : Signal)
  | writeBool (path : String) (value : Bool)
  | set (store : Store) (key : String) (value : Bool)
  | restore (store : Store) (node : String)

namespace Operation

/-- Does what an operation says, and tells whether that failed. -/
def perform {m : Type → Type} [Monad m] [Machine m] : Operation → m (Except Failure Unit)
  | writeText path value => Node.writeText path value
  | writeSignal path signal => Node.writeSignal path signal
  | writeBool path value => Node.writeBool path value
  | set store key value => return (← store.setBool key value).1
  | restore store node => return (← Control.restore store node).map fun _ => ()

end Operation

variable {world world' : World} {failure : Failure}

/-- A store in memory takes every value. One with a file fails as saving it fails. -/
theorem Store.disk_of_setBool_error {store changed : Store} {key : String} {value : Bool}
    (h : world.run (store.setBool key value) = ((.error failure, changed), world')) :
    world'.disk = world.disk ∨ ∃ saved, store = .file saved ∧ (∃ path cause, failure = .io path cause) ∧
      GrowsAbove saved.path world.disk world'.disk := by
  cases store with
  | memory values => cases h
  | file store =>
    obtain ⟨hsaves, -⟩ := saves_of_setBool h
    rcases hsaves.of_error with hdisk | ⟨hfailure, hgrows⟩
    · exact Or.inl hdisk
    · exact Or.inr ⟨store, rfl, hfailure, hgrows⟩

/-- Restoring a node fails as the write to it does. -/
theorem Control.disk_of_restore_error {store : Store} {node : String}
    (h : world.run (restore store node) = (.error failure, world')) : world'.disk = world.disk := by
  rw [run_restore_eq] at h
  by_cases hpresent : world.disk.isPresent node = true
  · rw [if_pos hpresent] at h
    cases hwritten : world.run (Node.writeSignal node (Signal.ofChecked (stored store))) with
    | mk outcome written =>
      rw [hwritten] at h
      cases outcome with
      | ok => cases h
      | error =>
        obtain ⟨-, rfl⟩ := Prod.mk.inj h
        exact Node.disk_of_write_error hwritten
  · rw [if_neg hpresent] at h
    cases h

/-- An operation that fails has changed no file, removed nothing, and made no file and no link. It has left the tree
    as it was, unless the system refused to save a store; then there may be new directories, each of them named by a
    beginning of the path of the directory in which the store's file is. -/
theorem Operation.failed_perform {operation : Operation}
    (h : world.run operation.perform = (.error failure, world')) :
    Grows world.disk world'.disk ∧ (world'.disk = world.disk ∨
      ∃ store key value path cause, operation = .set (.file store) key value ∧ failure = .io path cause ∧
        GrowsAbove store.path world.disk world'.disk) := by
  have hleft : world'.disk = world.disk ∨ ∃ store key value path cause, operation = .set (.file store) key value ∧
      failure = .io path cause ∧ GrowsAbove store.path world.disk world'.disk := by
    cases operation with
    | writeText path value => exact Or.inl (Node.disk_of_write_error h)
    | writeSignal path signal => exact Or.inl (Node.disk_of_write_error h)
    | writeBool path value => exact Or.inl (Node.disk_of_write_error h)
    | set store key value =>
      rw [perform, World.run_bind, World.run_pure] at h
      obtain ⟨houtcome, rfl⟩ := Prod.mk.inj h
      have hset : world.run (store.setBool key value) = ((.error failure, _), _) :=
        Prod.ext (Prod.ext houtcome rfl) rfl
      rcases Store.disk_of_setBool_error hset with hdisk | ⟨saved, rfl, ⟨path, cause, rfl⟩, hgrows⟩
      · exact Or.inl hdisk
      · exact Or.inr ⟨saved, key, value, path, cause, rfl, rfl, hgrows⟩
    | restore store node =>
      rw [perform, World.run_bind, World.run_pure] at h
      obtain ⟨houtcome, rfl⟩ := Prod.mk.inj h
      cases hrestored : world.run (Control.restore store node) with
      | mk outcome restored =>
        rw [hrestored] at houtcome
        cases outcome with
        | ok => cases houtcome
        | error => exact Or.inl (Control.disk_of_restore_error hrestored)
  refine ⟨?_, hleft⟩
  rcases hleft with hdisk | ⟨_, _, _, _, _, _, _, hgrows⟩
  · exact hdisk ▸ Grows.refl world.disk
  · exact hgrows.toGrows

/-- The directory was made before it turned out that the path of the file ends in a slash. -/
theorem Operation.failed_perform_slash :
    let world := World.mk ⟨[], []⟩ []
    let operation := Operation.set (.file ⟨"x/y/", [], false⟩) "k" true
    ∃ world', world.run operation.perform = (.error (.io "x/y/" .isDirectory), world') ∧
      world'.disk.get? ["x"] = some .directory ∧ Grows world.disk world'.disk := by
  intro world operation
  have hfailed : world.run operation.perform = (.error (.io "x/y/" .isDirectory), _) := rfl
  exact ⟨_, hfailed, rfl, (failed_perform hfailed).1⟩

end LedSwitch
