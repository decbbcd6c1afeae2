import LedSwitch.FileSystem.Access
import LedSwitch.Journal.Record

/-!
What the program needs of the machine that it runs on: files, directories and a journal. The program is written
for any such machine. `World` is one that is a value: a tree of files together with the events so far. It is run in
two ways, which differ in what becomes of a read that does not end: it is refused, or the program does not go on.
-/

namespace LedSwitch

/-- Access to files by path, and a journal. A refusal is an answer and does not stop the program. -/
class Machine (m : Type → Type) where
  /-- Whether the path leads to anything. -/
  isPresent (path : String) : m Bool
  /-- Whether the path leads to a directory. -/
  isDirectory (path : String) : m Bool
  /-- All bytes of a file. -/
  read (path : String) : m (Except Cause (List UInt8))
  /-- Makes the bytes the whole contents of a file, synced to its storage if `durable`. -/
  overwrite (path : String) (bytes : List UInt8) (durable : Bool) : m (Except Cause Unit)
  /-- Makes one directory. -/
  makeDirectory (path : String) : m (Except Cause Unit)
  /-- Adds to the journal. -/
  tell (event : Event) : m Unit

/-- A machine as a value: its files, and what was said so far. -/
structure World where
  disk : FileSystem
  events : List Event
  deriving DecidableEq, Repr

namespace World

/-- Changes the files as the outcome says, if it is not a refusal. -/
def commit (outcome : FileSystem → Except Cause FileSystem) : StateM World (Except Cause Unit) := fun world =>
  match outcome world.disk with
  | .ok disk => (.ok (), { world with disk := disk })
  | .error cause => (.error cause, world)

/-- The machine that is a value, with a way of reading. -/
@[reducible] def machine {m : Type → Type} [Monad m] (read : FileSystem → String → m (Except Cause (List UInt8))) :
    Machine (StateT World m) where
  isPresent path := fun world => return (world.disk.isPresent path, world)
  isDirectory path := fun world => return (world.disk.isDirectory path, world)
  read path := fun world => return (← read world.disk path, world)
  overwrite path bytes durable := fun world => return commit (fun disk => disk.overwrite path bytes durable) world
  makeDirectory path := fun world => return commit (fun disk => disk.makeDirectory path) world
  tell event := fun world => return ((), { world with events := world.events ++ [event] })

end World

/-- The machine that gives up reading what has no end. -/
instance : Machine (StateM World) := World.machine fun disk path => disk.read path

/-- The machine that reads everything to its end, and so never comes back from reading what has none. -/
instance : Machine (StateT World Option) :=
  World.machine fun disk path => if disk.isEndless path then none else some (disk.read path)

section

variable {m : Type → Type} [Monad m] [Machine m]

/-- Logs a record. -/
def log (level : Level) (source : Source) (text : String) : m Unit :=
  Machine.tell (.logged ⟨level, source, text⟩)

/-- Makes the first of the directories after making those that follow it, as far as they are missing. The empty
    path stands for the working directory and is there. -/
def makeDirectories : (paths : List String) → m (Except Cause Unit)
  | [] => pure (.error .noEntry)
  | path :: above => do
    if path = "" then return .ok ()
    match ← Machine.makeDirectory path with
    | .ok () => return .ok ()
    | .error .noEntry =>
      match ← makeDirectories above with
      | .error cause => return .error cause
      | .ok () => orDirectory path (← Machine.makeDirectory path)
    | refused => orDirectory path refused
where
  /-- A refusal does not matter if the directory is there. -/
  orDirectory (path : String) : Except Cause Unit → m (Except Cause Unit)
    | .ok () => return .ok ()
    | .error cause => do return if ← Machine.isDirectory path then .ok () else .error cause

/-- Makes a directory, and those above it that are missing. -/
def makeDirectoryPath (path : String) : m (Except Cause Unit) := makeDirectories (Path.ancestors path)

end

end LedSwitch
