import LedSwitch.Control
import LedSwitch.Proofs.Preferences.Saving

/-!
The journal only grows at its end. What was said before a program runs changes neither its answer nor the files that it
leaves (`Appends`). So in a sequence of programs each of them says and does what it would on its own.
-/

namespace LedSwitch

open FileSystem

variable {α β : Type}

/-- What a program answers on files when nothing was said yet, and what it leaves and says. -/
def FileSystem.perform (disk : FileSystem) (program : StateM World α) : α × World := World.run ⟨disk, []⟩ program

/-- The machine as it is when something was said before all else. -/
def World.after (world : World) (said : List Event) : World := ⟨world.disk, said ++ world.events⟩

theorem World.after_after (world : World) (said before : List Event) :
    (world.after said).after before = world.after (before ++ said) := by
  rw [after, after, after, List.append_assoc]

/-- A program adds to a journal what it would say on its own. Nothing else depends on the journal. -/
def Appends (program : StateM World α) : Prop :=
  ∀ disk said, World.run ⟨disk, said⟩ program = ((disk.perform program).1, (disk.perform program).2.after said)

section

variable {program : StateM World α} {next : α → StateM World β}

/-- A program that only looks says nothing. -/
theorem appends_of_silent (h : ∀ world, (World.run world program).2 = world)
    (hanswer : ∀ disk said, (World.run ⟨disk, said⟩ program).1 = (disk.perform program).1) : Appends program := by
  intro disk said
  refine Prod.ext (hanswer disk said) ?_
  simp only [perform, h, World.after, List.append_nil]

theorem appends_pure (answer : α) : Appends (pure answer) := appends_of_silent (fun _ => rfl) fun _ _ => rfl

theorem Appends.bind (h : Appends program) (hnext : ∀ answer, Appends (next answer)) : Appends (program >>= next) := by
  intro disk said
  have hboth : disk.perform (program >>= next) = _ :=
    hnext (disk.perform program).1 (disk.perform program).2.disk (disk.perform program).2.events
  rw [World.run_bind, h disk said, World.after, hnext, hboth, World.after_after]

/-- What becomes of the files when a file or a directory is made is not said by itself. -/
theorem appends_commit (outcome : FileSystem → Except Cause FileSystem) : Appends (World.commit outcome) := by
  intro disk said
  cases houtcome : outcome disk <;> simp [perform, World.run, World.commit, World.after, houtcome]

end

theorem appends_read (path : String) : Appends (Machine.read path) :=
  appends_of_silent (fun _ => rfl) fun _ _ => rfl

theorem run_log (level : Level) (source : Source) (text : String) (world : World) :
    world.run (log level source text) = ((), ⟨world.disk, world.events ++ [.logged ⟨level, source, text⟩]⟩) := rfl

theorem operational_appends : Operational fun α (program _ : StateM World α) => Appends program where
  pure := appends_pure
  bind := Appends.bind
  isPresent _ := appends_of_silent (fun _ => rfl) fun _ _ => rfl
  isDirectory _ := appends_of_silent (fun _ => rfl) fun _ _ => rfl
  overwrite _ _ _ := appends_commit _
  makeDirectory _ := appends_commit _
  tell _ := fun _ _ => rfl

theorem FileStore.appends_load (path : String) : Appends (load path) :=
  operational_appends.holds_load (operational_appends.readsOnce (appends_read path))

theorem Store.appends_setBool (store : Store) (key : String) (value : Bool) : Appends (store.setBool key value) :=
  operational_appends.holds_setBool store key value

namespace Node

theorem appends_write (path value : String) (durable : Bool) : Appends (write path value durable) :=
  operational_appends.holds_write path value durable

theorem appends_readLine? (path : String) : Appends (readLine? path) :=
  operational_appends.holds_readLine? (operational_appends.readsOnce (appends_read path))

end Node

namespace Control

theorem appends_new (store : Store) (node : String) : Appends (new store node) :=
  operational_appends.holds_new store node

theorem appends_click (control : Control) (name : String) (checked : Bool) : Appends (control.click name checked) :=
  operational_appends.holds_click control name checked

theorem appends_restore (store : Store) (node : String) : Appends (restore store node) :=
  operational_appends.holds_restore store node

end Control

end LedSwitch
