import LedSwitch.CommandLine.Run
import LedSwitch.Proofs.CommandLine.Naming
import LedSwitch.Proofs.Control.Reading
import LedSwitch.Proofs.Journal.Appending

/-!
What a call of the program is made of. `composition` puts together what the calls of the library say and leave, each
of them performed on its own on the files that the one before left. An accepted call that logs to the standard output
leaves and shows just that (`execute_of_accepted`).
-/

namespace LedSwitch

open FileSystem

/-- Without a setting no record is left out. -/
theorem Filter.admits_everything (record : Record) : everything.admits record = true := by
  obtain ⟨level, source, text⟩ := record
  cases level <;> cases source <;> rfl

theorem Control.perform_new (store : Store) (node : String) (disk : FileSystem) :
    disk.perform (new store node) = (⟨store, node, disk.isPresent node, stored store⟩,
      ⟨disk, (disk.perform (new store node)).2.events⟩) := by
  obtain ⟨hcontrol, hdisk⟩ := run_new store node ⟨disk, []⟩
  exact Prod.ext hcontrol (congrArg (World.mk · _) hdisk)

theorem FileStore.perform_load (path : String) (disk : FileSystem) :
    disk.perform (load path) = ((disk.perform (load path)).1, ⟨disk, (disk.perform (load path)).2.events⟩) :=
  Prod.ext rfl (congrArg (World.mk · _) (run_load path ⟨disk, []⟩).2)

theorem Node.perform_readLine? (node : String) (disk : FileSystem) : disk.perform (readLine? node) =
    ((disk.perform (readLine? node)).1, ⟨disk, (disk.perform (readLine? node)).2.events⟩) := by
  have hdisk : (disk.perform (readLine? node)).2.disk = disk := by
    rw [perform, run_readLine?_eq]
    cases (World.run ⟨disk, []⟩ (readLine node)).1 <;> rfl
  exact Prod.ext rfl (congrArg (World.mk · _) hdisk)

namespace CommandLine

theorem run_print (line : String) (world : World) :
    world.run (print line) = ((), ⟨world.disk, world.events ++ [.printed line]⟩) := rfl

/-- What is noted about the attempt to restore a node. -/
def remarks (node : String) : Except Failure Bool → List Event
  | .ok true => []
  | .ok false => [.logged ⟨.info, .program, node ++ " not present, nothing to restore"⟩]
  | .error failure => [.logged ⟨.debug, .program, "restore failed: " ++ failure.message⟩]

/-- What a command leaves and says, when the preferences are in a store. -/
def composed (node : String) (store : Store) (disk : FileSystem) : Command → World
  | .restore =>
    let (outcome, restored) := disk.perform (Control.restore store node)
    ⟨restored.disk, restored.events ++ remarks node outcome⟩
  | .set checked =>
    let (control, made) := disk.perform (Control.new store node)
    if disk.isPresent node then
      let (_, toggled) := disk.perform (control.toggle checked)
      ⟨toggled.disk, made.events ++ toggled.events⟩
    else
      ⟨disk, made.events ++
        [.logged ⟨.warn, .program, node ++ " not present, charging led control is disabled"⟩]⟩
  | .show =>
    let (control, made) := disk.perform (Control.new store node)
    let (line, looked) := disk.perform (Node.readLine? node)
    ⟨disk, made.events ++ .printed ("enabled: " ++ boolText control.isEnabled) ::
      .printed ("checked: " ++ boolText control.isChecked) ::
      (looked.events ++ [.printed ("node: " ++ line.getD "-")])⟩

/-- What an invocation leaves and says: it names what it works on, opens the store, and does what the command is. -/
def composition (invocation : Invocation) (disk : FileSystem) : World :=
  let (store, loaded) := disk.perform (FileStore.load invocation.preferences)
  let done := composed invocation.node (.file store) disk invocation.command
  ⟨done.disk,
    .logged ⟨.info, .program, "node: " ++ invocation.node ++ ", prefs: " ++ invocation.preferences⟩ ::
      loaded.events ++ done.events⟩

/-- The lines by which a user sees an event if no record is left out. -/
def shown : Event → List String
  | .logged record => lines record.render
  | .printed line => lines line

variable (store : Store) (node : String) (disk : FileSystem) (said : List Event)

theorem run_runRestore :
    World.run ⟨disk, said⟩ (runRestore store node) = ((), (composed node store disk .restore).after said) := by
  rw [runRestore, World.run_bind, Control.appends_restore store node disk said, composed]
  rcases disk.perform (Control.restore store node) with ⟨failure | (_ | _), restored⟩ <;>
    simp [run_log, World.run_pure, World.after, remarks]

theorem run_runSet (checked : Bool) :
    World.run ⟨disk, said⟩ (runSet store node checked) = ((), (composed node store disk (.set checked)).after said) := by
  rw [runSet, World.run_bind, Control.appends_new store node disk said, composed, Control.perform_new]
  cases disk.isPresent node with
  | false => simp [run_log, World.after]
  | true =>
    simp only [World.after, if_true]
    rw [World.run_bind, Control.toggle, Control.appends_click]
    simp [World.run_pure, World.after]

theorem run_runShow :
    World.run ⟨disk, said⟩ (runShow store node) = ((), (composed node store disk .show).after said) := by
  rw [runShow, World.run_bind, Control.appends_new store node disk said, composed, Control.perform_new]
  simp only [World.run_bind, run_print, World.after]
  rw [Node.appends_readLine?, Node.perform_readLine?]
  simp [World.after]

theorem run_work (invocation : Invocation) :
    World.run ⟨disk, []⟩ (work invocation) = ((), composition invocation disk) := by
  rw [work, World.run_bind, run_log, World.run_bind, FileStore.appends_load, composition, FileStore.perform_load]
  simp only [World.after]
  cases invocation.command with
  | restore =>
    rw [run_runRestore]
    rfl
  | set checked =>
    rw [run_runSet]
    rfl
  | «show» =>
    rw [run_runShow]
    rfl

/-- With the log on the standard output a run does its work and ends well, whatever the work comes to. -/
theorem run_run {invocation : Invocation} (hlog : invocation.logToOutput = true) (systemLog : Except String Unit) :
    World.run ⟨disk, []⟩ (run systemLog invocation) = (.ok (), composition invocation disk) := by
  rw [run, openLog, if_pos hlog]
  simp only [World.run_bind, run_work]
  rfl

/-- Every event is seen if the log goes to the standard output and there is no setting. -/
theorem flatMap_lines_visible {invocation : Invocation} (hlog : invocation.logToOutput = true) (events : List Event) :
    (events.filterMap (visible? invocation (Filter.ofSetting none))).flatMap lines = events.flatMap shown := by
  induction events with
  | nil => rfl
  | cons event rest ih =>
    have hvisible : (visible? invocation (Filter.ofSetting none) event).toList.flatMap lines = shown event := by
      cases event with
      | printed line => simp [visible?, shown]
      | logged record =>
        simp [visible?, hlog, Filter.ofSetting, Filter.show?, Filter.admits_everything, shown]
    rw [List.filterMap_cons, List.flatMap_cons, ← hvisible, ← ih]
    cases visible? invocation (Filter.ofSetting none) event <;> simp

/-- What an accepted call comes to is what its run comes to. -/
theorem execute_of_ok {arguments : List String} {invocation : Invocation} {surroundings : Surroundings}
    (h : Invocation.ofArguments surroundings.order arguments = .ok invocation) (setting : Option String)
    (disk : FileSystem) : execute arguments setting disk surroundings =
      let (result, world) := World.run ⟨disk, []⟩ (run surroundings.systemLog invocation)
      (outcome invocation setting result world.events, world.disk) := by
  rw [execute, callOn, h]
  rfl

/-- An accepted call whose log goes to the standard output, without a setting for the selection of records, does what
    its arguments name. It ends well, leaves the files and shows the records and lines, in order, that its calls of the
    library are composed of, and nothing else. -/
theorem execute_of_accepted {arguments : List String} {invocation : Invocation} {surroundings : Surroundings}
    (disk : FileSystem) (haccepted : Invocation.ofArguments surroundings.order arguments = .ok invocation)
    (hlog : invocation.logToOutput = true) :
    Names arguments invocation.command ∧
      World.run ⟨disk, []⟩ (run surroundings.systemLog invocation) = (.ok (), composition invocation disk) ∧
      execute arguments none disk surroundings =
        (⟨0, (composition invocation disk).events.flatMap shown, none⟩, (composition invocation disk).disk) := by
  have hrun := run_run disk hlog surroundings.systemLog
  refine ⟨names_of_accepted haccepted, hrun, ?_⟩
  have hquiet : warnings invocation none = [] := by
    rw [warnings, if_pos hlog]
    rfl
  rw [execute_of_ok haccepted, hrun]
  simp only [outcome, flatMap_lines_visible hlog, hquiet]
  rfl

/-- The file of the preferences has the name of a command, and is made. -/
theorem execute_of_accepted_set :
    let arguments := ["-l", "--node=n", "-p", "restore", "set", "on"]
    let disk : FileSystem := ⟨[(["n"], .file [0x31])], []⟩
    let outcome := execute arguments none disk
    Names arguments (.set true) ∧ outcome.1.output = ["[INFO  chargingled] node: n, prefs: restore",
      "[WARN  chargingled::settings] key: charging_led", "[INFO  chargingled::prefs] saved preferences to restore",
      "[DEBUG chargingled::sysfs] wrote \"0\" to n"] ∧ outcome.2.read "n" = .ok [0x30] := by
  intro arguments disk outcome
  have haccepted : Invocation.ofArguments (Surroundings.order {}) arguments =
      .ok ⟨"n", "restore", true, .set true⟩ := by decide +kernel
  obtain ⟨hnames, -, hshown⟩ := execute_of_accepted disk haccepted rfl
  have houtcome : outcome = _ := hshown
  rw [houtcome]
  refine ⟨hnames, ?_⟩
  decide +kernel

end CommandLine

end LedSwitch
