import LedSwitch.Proofs.Control.Restoring
import LedSwitch.Proofs.Journal.Appending
import LedSwitch.Proofs.Text.Quoted

/-!
What is said of the outcomes. For each operation a report lists the records that go with an outcome, and the operation
says just those (`World.Says`): one for each write to a node and for each successful save, and for a press one for each
thing that it does. The record of a successful write tells what was written and where (`Node.report_unambiguous`).
-/

namespace LedSwitch

open FileSystem

/-- From one state of the machine to another these records were said, in this order. -/
def World.Says (world world' : World) (records : List Record) : Prop :=
  world'.events = world.events ++ records.map .logged

namespace World.Says

variable {world world' world'' : World} {records more : List Record}

theorem silent (h : world'.events = world.events) : world.Says world' [] := by
  rw [Says, h, List.map_nil, List.append_nil]

theorem trans (h : world.Says world' records) (h' : world'.Says world'' more) :
    world.Says world'' (records ++ more) := by
  rw [Says, h', h, List.map_append, List.append_assoc]

end World.Says

section

variable {α : Type} {program : StateM World α}

/-- A program during which nothing is said. -/
def Silent (program : StateM World α) : Prop := ∀ world : World, (world.run program).2.events = world.events

theorem compositional_silent : Compositional fun α (program _ : StateM World α) => Silent program where
  pure _ _ := rfl
  bind hprogram hnext world := by rw [World.run_bind, hnext, hprogram]

theorem silent_commit (outcome : FileSystem → Except Cause FileSystem) : Silent (World.commit outcome) := by
  intro world
  cases houtcome : outcome world.disk <;> simp [World.run, World.commit, houtcome]

/-- What a program answers, and the files that it leaves, do not depend on what was said before. -/
theorem Appends.run_eq (h : Appends program) (world : World) :
    (world.run program).1 = (world.disk.perform program).1 ∧
      (world.run program).2.disk = (world.disk.perform program).2.disk := by
  have hrun := h world.disk world.events
  exact ⟨congrArg (·.1) hrun, congrArg (·.2.disk) hrun⟩

end

namespace Node

/-- What is said of a write to a node. -/
def report (path value : String) : Except Failure Unit → Record
  | .ok () => ⟨.debug, .node, "wrote " ++ Quoted.quote value ++ " to " ++ path⟩
  | .error failure => ⟨.error, .node, failure.message⟩

/-- A write says how it ended, and nothing else. -/
theorem says_write (path value : String) (durable : Bool) (world : World) :
    world.Says (world.run (write path value durable)).2
      [report path value (world.run (write path value durable)).1] := by
  rw [run_write_eq]
  cases world.disk.overwrite path (Utf8.encode value) durable <;> rfl

/-- A successful write leaves a record from which both the value and the path can be told, whatever characters they
    have. The value stands between quotes, where there is no control character, and no other quote unless it is behind a
    backslash; read up to the closing quote it is the value again, whatever follows. -/
theorem report_unambiguous (path value : String) :
    (∀ (world : World) durable, (world.run (write path value durable)).1 = .ok () →
      world.Says (world.run (write path value durable)).2 [report path value (.ok ())]) ∧
    (∀ path' value', (report path value (.ok ())).text = (report path' value' (.ok ())).text →
      value' = value ∧ path' = path) ∧
    ∃ inner, (report path value (.ok ())).text.toList =
        "wrote ".toList ++ '"' :: (inner ++ '"' :: (" to ".toList ++ path.toList)) ∧
      Quoted.Inside inner ∧ (∀ c ∈ inner, 0x20 ≤ c.toNat) ∧
      ∀ rest, Quoted.read? ('"' :: (inner ++ '"' :: rest)) = some (value.toList, rest) := by
  have htext (path value : String) : (report path value (.ok ())).text.toList =
      "wrote ".toList ++ ((Quoted.quote value).toList ++ (" to ".toList ++ path.toList)) := by
    simp only [report, String.toList_append, List.append_assoc]
  refine ⟨fun world durable hok => ?_, fun path' value' heq => ?_, ?_⟩
  · have hsaid := says_write path value durable world
    rwa [hok] at hsaid
  · have hlist := congrArg String.toList heq
    rw [htext, htext] at hlist
    have hread := congrArg Quoted.read? (List.append_cancel_left hlist)
    rw [Quoted.read?_quote, Quoted.read?_quote, Option.some.injEq, Prod.mk.injEq] at hread
    exact ⟨(String.toList_inj.1 hread.1).symm, (String.toList_inj.1 (List.append_cancel_left hread.2)).symm⟩
  · have hinside := Quoted.inside_flatMap value.toList
    refine ⟨value.toList.flatMap Quoted.escape, ?_, hinside, hinside.noControl, fun rest => ?_⟩
    · rw [htext, Quoted.toList_quote, List.cons_append, List.append_assoc, List.singleton_append]
    · exact Quoted.readFrom?_flatMap value.toList rest

/-- The path looks like the end of another record, and the value like the beginning of one. -/
theorem report_unambiguous_nested :
    (report "n\" to m" "1" (.ok ())).text ≠ (report "m" "1\" to n" (.ok ())).text := fun heq => by
  have hvalue := ((report_unambiguous "n\" to m" "1").2.1 "m" "1\" to n" heq).1
  revert hvalue
  decide

end Node

namespace FileStore

/-- Directories are made without a word. -/
theorem silent_prepareDirectory (path : String) : Silent (prepareDirectory path) :=
  compositional_silent.holds_prepareDirectory (fun _ _ => rfl) (fun _ => silent_commit _) path

/-- What is said of saving a store. A failure is left to the caller. -/
def report (path : String) : Except Failure Unit → List Record
  | .ok () => [⟨.info, .preferences, "saved preferences to " ++ path⟩]
  | .error _ => []

theorem says_save (store : FileStore) (world : World) :
    world.Says (world.run store.save).2 (report store.path (world.run store.save).1) := by
  rw [save]
  split_ifs
  · exact .silent rfl
  cases store.contents.toText? with
  | none => exact .silent rfl
  | some text =>
    have hprepared := silent_prepareDirectory store.path world
    simp only [World.run_bind]
    cases (world.run (prepareDirectory store.path)).1 with
    | error failure => exact .silent hprepared
    | ok =>
      simp only [World.run_bind, World.run_overwrite]
      rw [World.Says, ← hprepared]
      cases (world.run (prepareDirectory store.path)).2.disk.overwrite store.path (Utf8.encode text) false with
      | error cause => exact World.Says.silent rfl
      | ok disk => rfl

/-- What is said of opening the store of a file. -/
def loadReport (disk : FileSystem) (path : String) : List Record :=
  match disk.preferences path with
  | .ok _ => []
  | .error failure => [⟨.warn, .preferences, failure.message ++ ", using defaults"⟩]

theorem says_load (path : String) (world : World) :
    world.Says (world.run (load path)).2 (loadReport world.disk path) := by
  rw [load, World.run_bind, run_read, loadReport]
  cases world.disk.preferences path with
  | error failure => rfl
  | ok contents => exact .silent rfl

end FileStore

namespace Store

/-- What is said of setting a value in a store. One in memory has nothing to save. -/
def report : Store → Except Failure Unit → List Record
  | .memory _, _ => []
  | .file store, saved => FileStore.report store.path saved

theorem report_error (store : Store) (failure : Failure) : store.report (.error failure) = [] := by
  cases store <;> rfl

theorem says_setBool (store : Store) (key : String) (value : Bool) (world : World) :
    world.Says (world.run (store.setBool key value)).2 (store.report (world.run (store.setBool key value)).1.1) := by
  cases store with
  | memory values => exact .silent rfl
  | file store => exact (store.withBool key value).says_save world

end Store

namespace Control

/-- What is said of making a checkbox. -/
def newReport (disk : FileSystem) (node : String) : List Record :=
  if disk.isPresent node then [] else [⟨.info, .control, node ++ " not present, charging led control disabled"⟩]

theorem says_new (store : Store) (node : String) (world : World) :
    world.Says (world.run (new store node)).2 (newReport world.disk node) := by
  rw [new, World.run_bind, Node.isPresent, World.run_isPresent, newReport]
  cases world.disk.isPresent node with
  | true => exact .silent rfl
  | false => rfl

/-- What is said of restoring a node. -/
def restoreReport (store : Store) (node : String) : Except Failure Bool → List Record
  | .ok false => []
  | .ok true => [Node.report node (Signal.ofChecked (stored store)).text (.ok ()),
      ⟨.info, .control, "restored charging led = " ++ (if stored store then "true" else "false")⟩]
  | .error failure => [⟨.error, .node, failure.message⟩]

theorem says_restore (store : Store) (node : String) (world : World) :
    world.Says (world.run (restore store node)).2 (restoreReport store node (world.run (restore store node)).1) := by
  rw [run_restore_eq]
  by_cases hpresent : world.disk.isPresent node = true
  · have hwritten := Node.says_write node (Signal.ofChecked (stored store)).text false world
    rw [if_pos hpresent, Node.writeSignal, Node.writeText]
    cases hrun : world.run (Node.write node (Signal.ofChecked (stored store)).text false) with
    | mk outcome written =>
      rw [hrun] at hwritten
      cases outcome with
      | error failure => exact hwritten
      | ok => exact hwritten.trans (show written.Says _ [_] from rfl)
  · rw [if_neg hpresent]
    exact .silent rfl

section

variable {store : Store} {node : String} {outcome : Except Failure Bool}

theorem restoreReport_eq_nil_iff : restoreReport store node outcome = [] ↔ outcome = .ok false := by
  rcases outcome with failure | (_ | _) <;> simp [restoreReport]

theorem restoreReport_eq_told_iff : restoreReport store node outcome = restoreReport store node (.ok true) ↔
    outcome = .ok true := by
  rcases outcome with failure | (_ | _) <;> simp [restoreReport]

theorem restoreReport_eq_failure_iff {text : String} : restoreReport store node outcome = [⟨.error, .node, text⟩] ↔
    ∃ failure, outcome = .error failure ∧ text = failure.message := by
  rcases outcome with failure | (_ | _)
  · simpa [restoreReport] using eq_comm
  · simp [restoreReport]
  · simp [restoreReport]

end

/-- What is said of storing the new value in a press. -/
def persistReport (store : Store) : Except Failure Unit → List Record
  | .ok () => store.report (.ok ())
  | .error failure => [⟨.warn, .control, "could not persist charging_led: " ++ failure.message⟩]

theorem says_noteSaved (store : Store) (saved : Except Failure Unit) {world stored : World}
    (h : world.Says stored (store.report saved)) :
    world.Says (stored.run (noteSaved saved)).2 (persistReport store saved) := by
  cases saved with
  | ok => exact h
  | error failure =>
    rw [store.report_error] at h
    exact h.trans rfl

/-- How a press ends that is meant for a checkbox that reacts: the outcome of storing the value, and that of telling
    the node on the files as they are then. -/
def outcomes (control : Control) (press : Press) (disk : FileSystem) : Except Failure Unit × Except Failure Unit :=
  let ((saved, _), stored) := disk.perform (control.store.setBool key press.checked)
  (saved, (stored.disk.perform (Node.writeSignal control.node (Signal.ofChecked press.checked))).1)

/-- What is said of a press. -/
def pressReport (control : Control) (press : Press) (disk : FileSystem) : List Record :=
  ⟨.warn, .control, "key: " ++ press.name⟩ :: if press.name = key ∧ control.isEnabled = true then
    persistReport control.store (control.outcomes press disk).1 ++
      [Node.report control.node (Signal.ofChecked press.checked).text (control.outcomes press disk).2]
  else []

theorem says_tell (control : Control) (press : Press) (world : World) :
    world.Says (world.run (control.tell press)).2 (⟨.warn, .control, "key: " ++ press.name⟩ ::
      persistReport control.store (control.outcomes press world.disk).1 ++
      [Node.report control.node (Signal.ofChecked press.checked).text (control.outcomes press world.disk).2]) := by
  let noted := (world.run (log .warn .control ("key: " ++ press.name))).2
  let stored := noted.run (control.store.setBool key press.checked)
  let kept := (stored.2.run (noteSaved stored.1.1)).2
  let told := kept.run (Node.writeSignal control.node (Signal.ofChecked press.checked))
  have hnoted : world.Says noted [⟨.warn, .control, "key: " ++ press.name⟩] := rfl
  have hstored := says_noteSaved control.store _ (control.store.says_setBool key press.checked noted)
  have htold := Node.says_write control.node (Signal.ofChecked press.checked).text false kept
  -- Neither outcome depends on what was said before.
  have houtcomes : control.outcomes press world.disk = (stored.1.1, told.1) := by
    obtain ⟨hsaved, hdisk⟩ := (control.store.appends_setBool key press.checked).run_eq noted
    have hkept : kept.disk = stored.2.disk := disk_run_noteSaved stored.1.1 stored.2
    have hanswer := ((Node.appends_write control.node (Signal.ofChecked press.checked).text false).run_eq kept).1
    rw [hkept, hdisk] at hanswer
    exact Prod.ext (congrArg (·.1) hsaved).symm hanswer.symm
  rw [houtcomes]
  exact (hnoted.trans hstored).trans htold

theorem says_press (control : Control) (press : Press) (world : World) :
    world.Says (world.run (control.press press)).2 (control.pressReport press world.disk) := by
  rw [pressReport]
  split_ifs with h
  · rw [run_press_eq_tell h.1 h.2]
    exact control.says_tell press world
  · rw [press_eq_click, click, World.run_bind, if_pos (by rw [not_and_or] at h; simpa using h)]
    rfl

end Control

end LedSwitch
