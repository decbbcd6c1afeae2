import LedSwitch.Failure
import LedSwitch.Machine
import LedSwitch.Text.Utf8
import LedSwitch.Toml.Assembly
import LedSwitch.Toml.Layout

/-!
Stored preferences: truth values by key. A store lives in memory alone, or it holds the contents of a file, a
TOML document, and writes the whole document with every change. Entries of the document that are not truth values
are kept. What was set counts in memory whether or not it could be saved, and a file that could not be read is
never written.
-/

namespace LedSwitch

/-- Preferences with a file. -/
structure FileStore where
  /-- The path of the file as it was given. -/
  path : String
  contents : Toml.Table
  /-- The file is there but could not be read. -/
  damaged : Bool

namespace FileStore

variable {m : Type → Type} [Monad m] [Machine m]

/-- Reads a preferences file. A missing one has no entries. -/
def read (path : String) : m (Except Failure Toml.Table) := do
  if !(← Machine.isPresent path) then return .ok []
  match ← Machine.read path with
  | .error cause => return .error (.io path cause)
  | .ok bytes =>
    match Utf8.decode bytes with
    | none => return .error (.io path .notText)
    | some text =>
      match Toml.Table.ofText? text with
      | none => return .error (.invalid path)
      | some table => return .ok table

/-- Opens the store of a file. If the file cannot be read, that is logged, and the store has no entries and is
    damaged. -/
def load (path : String) : m FileStore := do
  match ← read path with
  | .ok contents => return ⟨path, contents, false⟩
  | .error failure =>
    log .warn .preferences (failure.message ++ ", using defaults")
    return ⟨path, [], true⟩

/-- Makes the directory of a file, with those above it. A path without a directory part needs none. -/
def prepareDirectory (path : String) : m (Except Failure Unit) := do
  match Path.parent? path with
  | none => return .ok ()
  | some directory =>
    match ← makeDirectoryPath directory with
    | .error cause => return .error (.io directory cause)
    | .ok () => return .ok ()

/-- Writes the file, with the directories above it. A damaged store is refused before anything is touched. -/
def save (store : FileStore) : m (Except Failure Unit) := do
  if store.damaged then return .error (.damaged store.path)
  match store.contents.toText? with
  | none => return .error .unserializable
  | some text =>
    match ← prepareDirectory store.path with
    | .error failure => return .error failure
    | .ok () =>
      match ← Machine.overwrite store.path (Utf8.encode text) false with
      | .error cause => return .error (.io store.path cause)
      | .ok () =>
        log .info .preferences ("saved preferences to " ++ store.path)
        return .ok ()

/-- The truth value at a key, or `default` if there is none. -/
def getBool (store : FileStore) (key : String) (default : Bool) : Bool :=
  ((store.contents.get? key).bind Toml.Value.bool?).getD default

/-- The store with a truth value at a key, not yet saved. -/
def withBool (store : FileStore) (key : String) (value : Bool) : FileStore :=
  { store with contents := store.contents.insert key (.boolean value) }

end FileStore

/-- Stored preferences. -/
inductive Store where
  | memory (values : Keyed Bool)
  | file (store : FileStore)

namespace Store

variable {m : Type → Type} [Monad m] [Machine m]

/-- The truth value at a key, or `default` if there is none. -/
def getBool (store : Store) (key : String) (default : Bool) : Bool :=
  match store with
  | .memory values => (values.get? key).getD default
  | .file store => store.getBool key default

/-- Sets the truth value at a key and saves the store. The new store comes with every outcome. -/
def setBool (store : Store) (key : String) (value : Bool) : m (Except Failure Unit × Store) :=
  match store with
  | .memory values => return (.ok (), .memory (values.insert key value))
  | .file store => do
    let store := store.withBool key value
    return (← store.save, .file store)

end Store

end LedSwitch
