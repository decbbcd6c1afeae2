import LedSwitch.FileSystem.Resolve

/-!
The operations on files and directories, each named by a path as text: looking, reading, writing a whole file,
making directories and links, and removing.
-/

namespace LedSwitch.FileSystem

/-- Whether a path leads to anything. -/
def isPresent (fs : FileSystem) (path : String) : Bool := (fs.resolve .look path).toBool

/-- Whether a path leads to a directory. -/
def isDirectory (fs : FileSystem) (path : String) : Bool :=
  match fs.resolve .look path with
  | .ok place => place.found = some .directory
  | .error _ => false

/-- Whether a path leads to bytes without an end, which are those of the full device. -/
def isEndless (fs : FileSystem) (path : String) : Bool :=
  match fs.resolve .look path with
  | .ok place => place.found = some (.device .full)
  | .error _ => false

/-- All bytes of the file that a path leads to. What does not end counts as a file that cannot be read. -/
def read (fs : FileSystem) (path : String) : Except Cause (List UInt8) := do
  match (← fs.resolve .look path).found with
  | some (.file bytes) => .ok bytes
  | some .directory => .error .isDirectory
  | some (.device .null) => .ok []
  | some (.device .full) => .error .invalidArgument
  | some (.link _) => .error .tooManyLinks
  | none => .error .noEntry

/-- Makes the bytes the whole contents of the file that a path leads to, and creates it if it is missing. A
    durable write also syncs the file, which a device refuses. -/
def overwrite (fs : FileSystem) (path : String) (bytes : List UInt8) (durable : Bool) :
    Except Cause FileSystem := do
  let place ← fs.resolve .create path
  match place.found with
  | none | some (.file _) => .ok (fs.put place.location (.file bytes))
  | some .directory => .error .isDirectory
  | some (.device .full) =>
    if !bytes.isEmpty then .error .noSpace else if durable then .error .invalidArgument else .ok fs
  | some (.device .null) => if durable then .error .invalidArgument else .ok fs
  | some (.link _) => .error .tooManyLinks

/-- Makes an entry where nothing stands yet. -/
def make (fs : FileSystem) (path : String) (entry : Entry) : Except Cause FileSystem := do
  let place ← fs.resolve .entry path
  if place.found.isSome then .error .alreadyExists else .ok (fs.put place.location entry)

/-- Makes one directory. -/
def makeDirectory (fs : FileSystem) (path : String) : Except Cause FileSystem := fs.make path .directory

/-- Makes a symbolic link to the target, whether or not that leads anywhere. -/
def makeLink (fs : FileSystem) (path target : String) : Except Cause FileSystem := fs.make path (.link target)

/-- Removes a file, a link and not its target, or a directory with all that is in it. -/
def remove (fs : FileSystem) (path : String) : Except Cause FileSystem := do
  let place ← fs.resolve .entry path
  if place.found.isSome then .ok (fs.drop place.location) else .error .noEntry

/-- The locations on the way from the root to this one, itself included and the root left out. -/
def leadingTo : Location → List Location
  | [] => []
  | name :: above => leadingTo above ++ [name :: above]

/-- A tree with the usual directories and devices, and an empty working directory at `home`. -/
def fresh (home : Location) : FileSystem where
  entries :=
    [(["dev"], .directory), (["null", "dev"], .device .null), (["full", "dev"], .device .full),
      (["etc"], .directory), (["proc"], .directory), (["run"], .directory), (["tmp"], .directory),
      (["sys"], .directory), (["class", "sys"], .directory), (["var"], .directory), (["lib", "var"], .directory)]
      ++ (leadingTo home).map fun location => (location, .directory)
  home := home

end LedSwitch.FileSystem
