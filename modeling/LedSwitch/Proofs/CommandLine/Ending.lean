import LedSwitch.Proofs.CommandLine.Composition

/-!
Whether a call comes to an end. Only reading may keep a program from ending, so one that reads nothing ends on every
machine (`operational_ends`). A call with its log on the standard output does not end just if its preferences have no
end, or the node that it has to show (`call_of_ok`); every other read and write, whatever it comes to, is got over.
-/

namespace LedSwitch

open FileSystem

variable {α β : Type}

/-- A program ends unless `endless` holds of the files, and then it does just what it does where reading gives up. -/
def EndsUnless (endless : FileSystem → Bool) (program : StateT World Option α) (program' : StateM World α) : Prop :=
  ∀ world : World, program world = if endless world.disk then none else some (world.run program')

/-- A program ends, whatever the files are. -/
def Ends (program : StateT World Option α) (program' : StateM World α) : Prop :=
  EndsUnless (fun _ => false) program program'

section

variable {endless endless' : FileSystem → Bool} {program : StateT World Option α} {program' : StateM World α}
  {next : α → StateT World Option β} {next' : α → StateM World β}

theorem patient_bind (world : World) :
    (program >>= next) world = (program world).bind fun (answer, after) => next answer after := rfl

theorem EndsUnless.bind (h : EndsUnless endless program program')
    (hnext : ∀ answer, Ends (next answer) (next' answer)) :
    EndsUnless endless (program >>= next) (program' >>= next') := by
  intro world
  rw [patient_bind, h world]
  split_ifs
  · rfl
  · exact hnext _ _

/-- Two programs one after the other, of which the first leaves the files as they are, end if both of them do. -/
theorem EndsUnless.or (h : EndsUnless endless program program')
    (hdisk : ∀ world : World, (world.run program').2.disk = world.disk)
    (hnext : ∀ world : World, EndsUnless endless' (next (world.run program').1) (next' (world.run program').1)) :
    EndsUnless (fun disk => endless disk || endless' disk) (program >>= next) (program' >>= next') := by
  intro world
  have hrest := hnext world (world.run program').2
  rw [hdisk] at hrest
  rw [patient_bind, h world]
  cases hfirst : endless world.disk with
  | true => simp [hfirst]
  | false => simpa [hfirst, World.run_bind] using hrest

/-- What comes before a read and leaves the files as they are does not matter for its end. -/
theorem Ends.andThen (h : Ends program program') (hdisk : ∀ world : World, (world.run program').2.disk = world.disk)
    (hnext : ∀ world : World, EndsUnless endless (next (world.run program').1) (next' (world.run program').1)) :
    EndsUnless endless (program >>= next) (program' >>= next') :=
  EndsUnless.or h hdisk hnext

end

/-- Nothing but reading may keep a program from its end. -/
theorem operational_ends : Operational @Ends where
  pure _ := fun _ => rfl
  bind := EndsUnless.bind
  isPresent _ := fun _ => rfl
  isDirectory _ := fun _ => rfl
  overwrite _ _ _ := fun _ => rfl
  makeDirectory _ := fun _ => rfl
  tell _ := fun _ => rfl

theorem FileSystem.isPresent_of_isEndless {disk : FileSystem} {path : String} (h : disk.isEndless path = true) :
    disk.isPresent path = true := by
  rw [isEndless] at h
  rw [isPresent]
  cases hplace : disk.resolve .look path with
  | ok place => rfl
  | error cause => simp [hplace] at h

/-- A program that reads from a path once ends unless what it reads does not. -/
theorem readsOnce_ends (path : String) : ReadsOnce path @Ends fun α => @EndsUnless α (·.isEndless path) where
  read := by
    intro world
    change (if world.disk.isEndless path then none else some (world.disk.read path)).bind _ =
      if world.disk.isEndless path then none else some (world.disk.read path, world)
    split_ifs <;> rfl
  bind := EndsUnless.bind
  isPresent {α next next'} hpresent hmissing := by
    intro world
    rw [World.run_bind, World.run_isPresent]
    change next (world.disk.isPresent path) world = _
    cases hlook : world.disk.isPresent path with
    | true => exact hpresent world
    | false =>
      have hends : ¬ world.disk.isEndless path = true := fun h => by simp [isPresent_of_isEndless h] at hlook
      rw [if_neg hends]
      exact hmissing world

/-- What a command reads besides the preferences has no end. Only a node that is to be shown is read. -/
def Command.isEndless (command : Command) (node : String) (disk : FileSystem) : Bool :=
  match command with
  | .restore | .set _ => false
  | .show => disk.isEndless node

/-- Something that is read for an invocation has no end. -/
def Invocation.isEndless (invocation : Invocation) (disk : FileSystem) : Bool :=
  disk.isEndless invocation.preferences || invocation.command.isEndless invocation.node disk

namespace CommandLine

theorem ends_runRestore (store : Store) (node : String) : Ends (runRestore store node) (runRestore store node) := by
  apply operational_ends.bind (operational_ends.holds_restore store node)
  rintro (failure | _ | _)
  · exact operational_ends.holds_log _ _ _
  · exact operational_ends.holds_log _ _ _
  · exact operational_ends.pure _

theorem ends_runSet (store : Store) (node : String) (checked : Bool) :
    Ends (runSet store node checked) (runSet store node checked) := by
  apply operational_ends.bind (operational_ends.holds_new store node)
  intro control
  split_ifs
  · exact operational_ends.bind (operational_ends.holds_click control _ checked) fun _ => operational_ends.pure _
  · exact operational_ends.holds_log _ _ _

theorem endsUnless_runShow (store : Store) (node : String) :
    EndsUnless (·.isEndless node) (runShow store node) (runShow store node) := by
  apply (operational_ends.holds_new store node).andThen fun world => (Control.run_new store node world).2
  intro world
  rw [(Control.run_new store node world).1]
  apply (operational_ends.tell _).andThen fun _ => rfl
  intro
  apply (operational_ends.tell _).andThen fun _ => rfl
  intro
  exact (operational_ends.holds_readLine? (readsOnce_ends node)).bind fun _ => operational_ends.tell _

theorem endsUnless_work (invocation : Invocation) :
    EndsUnless invocation.isEndless (work invocation) (work invocation) := by
  apply (operational_ends.holds_log _ _ _).andThen fun _ => rfl
  intro
  apply (operational_ends.holds_load (readsOnce_ends invocation.preferences)).or fun world =>
    (FileStore.run_load invocation.preferences world).2
  intro world
  cases invocation.command with
  | restore => exact ends_runRestore _ _
  | set checked => exact ends_runSet _ _ checked
  | «show» => exact endsUnless_runShow _ _

theorem endsUnless_run {invocation : Invocation} (hlog : invocation.logToOutput = true)
    (systemLog : Except String Unit) :
    EndsUnless invocation.isEndless (run systemLog invocation) (run systemLog invocation) := by
  rw [run, run, openLog, if_pos hlog]
  exact (endsUnless_work invocation).bind fun _ => operational_ends.pure _

/-- A call ends as it does where reading gives up, unless something has no end that it has to read. -/
theorem call_of_ok {arguments : List String} {invocation : Invocation} {surroundings : Surroundings}
    (h : Invocation.ofArguments surroundings.order arguments = .ok invocation) (hlog : invocation.logToOutput = true)
    (setting : Option String) (disk : FileSystem) : call arguments setting disk surroundings =
      if invocation.isEndless disk then none else some (execute arguments setting disk surroundings) := by
  have hrun := endsUnless_run hlog surroundings.systemLog ⟨disk, []⟩
  rw [execute_of_ok h, call, callOn, h]
  simp only [bind, Option.bind]
  rw [hrun]
  split_ifs
  · rfl
  · rfl

end CommandLine

end LedSwitch
