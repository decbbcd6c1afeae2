import LedSwitch.Proofs.Control.Reading
import LedSwitch.Proofs.Journal.Reporting
import LedSwitch.Proofs.Session.Basic

/-!
What is said in a session. Each turn says what its outcomes are, and so the complaints in the journal are the mishaps of
the session, one for each of them and in their order (`Session.reported`).
-/

namespace LedSwitch

open FileSystem

/-- What went wrong where no caller may notice: a write to a node, storing the value in a press, opening a store, or
    reading a node of which only the line is wanted. -/
inductive Mishap where
  | write (failure : Failure)
  | save (failure : Failure)
  | load (failure : Failure)
  | read (failure : Failure)

namespace Mishap

/-- The record of a mishap. -/
def record : Mishap → Record
  | .write failure => ⟨.error, .node, failure.message⟩
  | .save failure => ⟨.warn, .control, "could not persist charging_led: " ++ failure.message⟩
  | .load failure => ⟨.warn, .preferences, failure.message ++ ", using defaults"⟩
  | .read failure => ⟨.error, .node, "reading sysfs node failed: " ++ failure.message⟩

end Mishap

/-- The failure of an outcome, if it is one. -/
def failed {α : Type} : Except Failure α → List Failure
  | .ok _ => []
  | .error failure => [failure]

/-- A record that is an error, or a warning other than that of a press. -/
def Record.isComplaint (record : Record) : Bool :=
  record.level = .error ||
    record.level = .warn && !(record.source = .control && "key: ".toList.isPrefixOf record.text.toList)

theorem Mishap.isComplaint_record (mishap : Mishap) : mishap.record.isComplaint = true := by
  cases mishap with
  | write | load | read => rfl
  | save failure => simp [record, Record.isComplaint, List.isPrefixOf]

/-- The complaints among some records are those of these mishaps. -/
def Complains (records : List Record) (mishaps : List Mishap) : Prop :=
  records.filter Record.isComplaint = mishaps.map Mishap.record

namespace Complains

theorem append {records more : List Record} {mishaps others : List Mishap} (h : Complains records mishaps)
    (hmore : Complains more others) : Complains (records ++ more) (mishaps ++ others) := by
  rw [Complains, List.filter_append, List.map_append, h, hmore]

theorem single (mishap : Mishap) : Complains [mishap.record] [mishap] := by
  rw [Complains, List.filter_cons_of_pos mishap.isComplaint_record]
  rfl

theorem nodeReport (path value : String) (outcome : Except Failure Unit) :
    Complains [Node.report path value outcome] ((failed outcome).map .write) := by
  cases outcome with
  | ok => rfl
  | error failure => exact single (.write failure)

theorem storeReport (store : Store) (outcome : Except Failure Unit) : Complains (store.report outcome) [] := by
  cases store with
  | memory values => rfl
  | file store => cases outcome <;> rfl

theorem loadReport (disk : FileSystem) (path : String) :
    Complains (FileStore.loadReport disk path) ((failed (disk.preferences path)).map .load) := by
  rw [FileStore.loadReport]
  cases disk.preferences path with
  | ok contents => rfl
  | error failure => exact single (.load failure)

theorem newReport (disk : FileSystem) (node : String) : Complains (Control.newReport disk node) [] := by
  rw [Control.newReport]
  split_ifs <;> rfl

theorem restoreReport (store : Store) (node : String) (outcome : Except Failure Bool) :
    Complains (Control.restoreReport store node outcome) ((failed outcome).map .write) := by
  rcases outcome with failure | (_ | _)
  · exact single (.write failure)
  · rfl
  · rfl

theorem persistReport (store : Store) (saved : Except Failure Unit) :
    Complains (Control.persistReport store saved) ((failed saved).map .save) := by
  cases saved with
  | ok => exact storeReport store (.ok ())
  | error failure => exact single (.save failure)

end Complains

/-- What goes wrong in a press. -/
def Control.mishaps (control : Control) (press : Press) (disk : FileSystem) : List Mishap :=
  if press.name = key ∧ control.isEnabled = true then
    (failed (control.outcomes press disk).1).map .save ++ (failed (control.outcomes press disk).2).map .write
  else []

theorem Complains.pressReport (control : Control) (press : Press) (disk : FileSystem) :
    Complains (control.pressReport press disk) (control.mishaps press disk) := by
  have hnotice : Complains [⟨.warn, .control, "key: " ++ press.name⟩] [] := by
    simp [Complains, Record.isComplaint]
  rw [Control.pressReport, Control.mishaps]
  split_ifs
  · exact hnotice.append ((persistReport _ _).append (nodeReport _ _ _))
  · exact hnotice

namespace Holder

/-- What is said of an act. -/
def report (disk : FileSystem) : Holder → Act → List Record
  | .free _, .load path => FileStore.loadReport disk path
  | .free store, .set key value => store.report (disk.perform (store.setBool key value)).1.1
  | .free _, .mount node => Control.newReport disk node
  | .bound control, .press press => control.pressReport press disk
  | holder, .restore node =>
    Control.restoreReport holder.store node (disk.perform (Control.restore holder.store node)).1
  | _, _ => []

/-- What goes wrong in an act. Setting a value by itself leaves a failure to the caller. -/
def mishaps (disk : FileSystem) : Holder → Act → List Mishap
  | .free _, .load path => (failed (disk.preferences path)).map .load
  | .bound control, .press press => control.mishaps press disk
  | holder, .restore node => (failed (disk.perform (Control.restore holder.store node)).1).map .write
  | _, _ => []

theorem complains_report (holder : Holder) (act : Act) (disk : FileSystem) :
    Complains (holder.report disk act) (holder.mishaps disk act) := by
  cases holder with
  | free store =>
    cases act with
    | load path => exact .loadReport disk path
    | set key value => exact .storeReport store _
    | mount node => exact .newReport disk node
    | restore node => exact .restoreReport store node _
    | press | release => rfl
  | bound control =>
    cases act with
    | press press => exact .pressReport control press disk
    | restore node => exact .restoreReport control.store node _
    | load | set | mount | release => rfl

theorem says_act (holder : Holder) (act : Act) (world : World) :
    world.Says (world.run (holder.act act)).2 (holder.report world.disk act) := by
  have hrestore (store : Store) (node : String) : world.Says (world.run (Control.restore store node)).2
      (Control.restoreReport store node (world.disk.perform (Control.restore store node)).1) := by
    rw [← ((Control.appends_restore store node).run_eq world).1]
    exact Control.says_restore store node world
  cases holder with
  | free store =>
    cases act with
    | load path => exact FileStore.says_load path world
    | set key value =>
      rw [report, ← ((store.appends_setBool key value).run_eq world).1]
      exact store.says_setBool key value world
    | mount node => exact Control.says_new store node world
    | restore node => exact hrestore store node
    | press | release => exact .silent rfl
  | bound control =>
    cases act with
    | press press => exact control.says_press press world
    | restore node => exact hrestore control.store node
    | load | set | mount | release => exact .silent rfl

end Holder

/-- What happens in a session in which nodes are also written to and read directly. -/
inductive Turn (ι : Type) where
  | move (move : Move ι)
  | write (path value : String) (durable : Bool)
  /-- The first line of a node is wanted, and a failure counts as none. -/
  | read (path : String)

namespace Session

variable {ι : Type}

/-- What is said in a turn. -/
def report (session : Session ι) : Turn ι → List Record
  | .move (.on slot act) => (session.holders slot).report session.world.disk act
  | .move (.others _) => []
  | .write path value durable => [Node.report path value (session.world.run (Node.write path value durable)).1]
  | .read path => ((failed (session.world.run (Node.readLine path)).1).map Mishap.read).map Mishap.record

/-- What goes wrong in a turn. -/
def mishap (session : Session ι) : Turn ι → List Mishap
  | .move (.on slot act) => (session.holders slot).mishaps session.world.disk act
  | .move (.others _) => []
  | .write path value durable => (failed (session.world.run (Node.write path value durable)).1).map .write
  | .read path => (failed (session.world.run (Node.readLine path)).1).map .read

theorem complains_report (session : Session ι) (turn : Turn ι) :
    Complains (session.report turn) (session.mishap turn) := by
  cases turn with
  | move move =>
    cases move with
    | on slot act => exact (session.holders slot).complains_report act session.world.disk
    | others disk => rfl
  | write path value durable => exact .nodeReport path value _
  | read path =>
    rw [report, mishap]
    cases (session.world.run (Node.readLine path)).1 with
    | ok line => rfl
    | error failure => exact .single (.read failure)

variable [DecidableEq ι]

/-- What a session comes to by a turn. -/
def take (session : Session ι) : Turn ι → Session ι
  | .move move => session.step move
  | .write path value durable => ⟨session.holders, (session.world.run (Node.write path value durable)).2⟩
  | .read path => ⟨session.holders, (session.world.run (Node.readLine? path)).2⟩

theorem says_take (session : Session ι) (turn : Turn ι) :
    session.world.Says (session.take turn).world (session.report turn) := by
  cases turn with
  | move move =>
    cases move with
    | on slot act => exact (session.holders slot).says_act act session.world
    | others disk => exact .silent rfl
  | write path value durable => exact Node.says_write path value durable session.world
  | read path =>
    rw [take, report, Node.run_readLine?_eq]
    cases (session.world.run (Node.readLine path)).1 with
    | ok line => exact .silent rfl
    | error failure => rfl

/-- What a session comes to by some turns. -/
def takeAll (session : Session ι) (turns : List (Turn ι)) : Session ι := turns.foldl take session

/-- What is said in some turns. -/
def reports : Session ι → List (Turn ι) → List Record
  | _, [] => []
  | session, turn :: rest => session.report turn ++ reports (session.take turn) rest

/-- What goes wrong in some turns. -/
def mishaps : Session ι → List (Turn ι) → List Mishap
  | _, [] => []
  | session, turn :: rest => session.mishap turn ++ mishaps (session.take turn) rest

theorem says_takeAll (session : Session ι) (turns : List (Turn ι)) :
    session.world.Says (session.takeAll turns).world (session.reports turns) := by
  induction turns generalizing session with
  | nil => exact .silent rfl
  | cons turn rest ih => exact (session.says_take turn).trans (ih (session.take turn))

theorem complains_reports (session : Session ι) (turns : List (Turn ι)) :
    Complains (session.reports turns) (session.mishaps turns) := by
  induction turns generalizing session with
  | nil => rfl
  | cons turn rest ih => exact (session.complains_report turn).append (ih (session.take turn))

/-- Every outcome is told once, where it happens. A write to a node leaves one record, of what was written or of the
    failure that it answers with; setting a value in the store of a file one of having saved it, and none if it was not.
    Restoring a node says nothing if the node is missing, the write and then the value if that is told, and only the
    failure otherwise. A press says for which checkbox it is, and if that reacts, how storing the value ended, unless it
    is stored in memory, and then how telling the node ended. In a session nothing else is said but what is said of
    stores that are opened, checkboxes that are made and lines that cannot be read; and the complaints are what went
    wrong, each told once and in its order. -/
theorem reported :
    (∀ (world : World) (path value : String) (signal : Signal) (high : Bool),
      world.Says (world.run (Node.writeText path value)).2
        [Node.report path value (world.run (Node.writeText path value)).1] ∧
      world.Says (world.run (Node.writeSignal path signal)).2
        [Node.report path signal.text (world.run (Node.writeSignal path signal)).1] ∧
      world.Says (world.run (Node.writeBool path high)).2
        [Node.report path (Signal.ofBool high).text (world.run (Node.writeBool path high)).1]) ∧
    (∀ (world : World) (store : FileStore) (name : String) (value : Bool),
      world.Says (world.run ((Store.file store).setBool name value)).2
        (FileStore.report store.path (world.run ((Store.file store).setBool name value)).1.1)) ∧
    (∀ (world : World) (store : Store) (node : String), ∃ outcome restored said,
      world.run (Control.restore store node) = (outcome, restored) ∧ world.Says restored said ∧
      (said = [] ↔ outcome = .ok false) ∧
      (said = [⟨.debug, .node, "wrote " ++ Quoted.quote (Signal.ofChecked (Control.stored store)).text ++
            " to " ++ node⟩,
          ⟨.info, .control, "restored charging led = " ++ (if Control.stored store then "true" else "false")⟩] ↔
        outcome = .ok true) ∧
      ∀ text, said = [⟨.error, .node, text⟩] ↔ ∃ failure, outcome = .error failure ∧ text = failure.message) ∧
    (∀ (world : World) (control : Control) (press : Press), ∃ said,
      world.Says (world.run (control.press press)).2 (⟨.warn, .control, "key: " ++ press.name⟩ :: said) ∧
      (said ≠ [] ↔ press.name = Control.key ∧ control.isEnabled = true) ∧
      (said ≠ [] → said = Control.persistReport control.store (control.outcomes press world.disk).1 ++
        [Node.report control.node (Signal.ofChecked press.checked).text (control.outcomes press world.disk).2])) ∧
    ∀ (session : Session ι) (turns : List (Turn ι)),
      session.world.Says (session.takeAll turns).world (session.reports turns) ∧
      (session.reports turns).filter Record.isComplaint = (session.mishaps turns).map Mishap.record := by
  refine ⟨fun world path value signal high => ⟨Node.says_write path value false world,
    Node.says_write path signal.text false world, Node.says_write path (Signal.ofBool high).text true world⟩,
    fun world store name value => (Store.file store).says_setBool name value world, fun world store node => ?_,
    fun world control press => ?_,
    fun session turns => ⟨session.says_takeAll turns, session.complains_reports turns⟩⟩
  · exact ⟨_, _, _, rfl, Control.says_restore store node world, Control.restoreReport_eq_nil_iff,
      Control.restoreReport_eq_told_iff, fun text => Control.restoreReport_eq_failure_iff⟩
  · have hsaid := control.says_press press world
    rw [Control.pressReport] at hsaid
    split_ifs at hsaid with hreacts
    · exact ⟨_, hsaid, by simp [hreacts], fun _ => rfl⟩
    · exact ⟨_, hsaid, by simp [hreacts], fun hsome => absurd rfl hsome⟩

/-- A directory in the place of the node, and a damaged store. -/
theorem reported_refused :
    let session : Session Unit := ⟨fun _ => .free (.file ⟨"p", [], true⟩), ⟨⟨[(["n"], .directory)], []⟩, []⟩⟩
    let turns : List (Turn Unit) := [.move (.on () (.mount "n")), .move (.on () (.press (.toggle true))), .read "m"]
    ∃ records, session.world.Says (session.takeAll turns).world records ∧ records.filter Record.isComplaint =
      [⟨.warn, .control, "could not persist charging_led: refusing to overwrite unreadable preferences file p"⟩,
        ⟨.error, .node, "i/o on n: Is a directory (os error 21)"⟩,
        ⟨.error, .node, "reading sysfs node failed: i/o on m: No such file or directory (os error 2)"⟩] := by
  intro session turns
  obtain ⟨-, -, -, -, hsession⟩ := @reported Unit _
  obtain ⟨hrecords, hcomplaints⟩ := hsession session turns
  exact ⟨_, hrecords, hcomplaints.trans (by decide +kernel)⟩

end Session

end LedSwitch
