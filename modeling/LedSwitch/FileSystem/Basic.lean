import LedSwitch.FileSystem.Path

/-!
A tree of directories, files, links and devices as a table: every entry stands at its location, the names on
the way from the root to it. `get?` looks an entry up and `put` sets one; `get?_put` is the law between
them, so that an update is felt at one location only.
-/

namespace LedSwitch

/-- Where an entry stands: its name, then the name of the directory it is in, and so on up to the root. -/
abbrev Location := List String

/-- The devices that a path may lead to. -/
inductive Device where
  /-- Reads as empty and swallows what is written, but cannot be synced. -/
  | null
  /-- Refuses every byte. -/
  | full
  deriving DecidableEq, Repr

/-- What stands at a location. -/
inductive Entry where
  | directory
  | file (bytes : List UInt8)
  /-- A symbolic link with the path that it stands for. -/
  | link (target : String)
  | device (device : Device)
  deriving DecidableEq, Repr

/-- The entries of a tree and the location of the working directory. -/
structure FileSystem where
  entries : List (Location × Entry)
  home : Location
  deriving DecidableEq, Repr

namespace FileSystem

/-- The entry that a table has at a location. -/
def find? (location : Location) : List (Location × Entry) → Option Entry
  | [] => none
  | (l, entry) :: rest => if l = location then some entry else find? location rest

/-- A table with an entry replaced, or added at the end. -/
def replace (location : Location) (entry : Entry) : List (Location × Entry) → List (Location × Entry)
  | [] => [(location, entry)]
  | (l, old) :: rest =>
    if l = location then (location, entry) :: rest else (l, old) :: replace location entry rest

/-- What stands at a location. The root is always a directory. -/
def get? (fs : FileSystem) (location : Location) : Option Entry :=
  if location = [] then some .directory else find? location fs.entries

/-- The tree with this entry at the location. -/
def put (fs : FileSystem) (location : Location) (entry : Entry) : FileSystem :=
  { fs with entries := replace location entry fs.entries }

/-- The tree without the entry at the location and without all that is below it. -/
def drop (fs : FileSystem) (location : Location) : FileSystem :=
  { fs with entries := fs.entries.filter fun e => !location.isSuffixOf e.1 }

theorem find?_replace (location other : Location) (entry : Entry) (entries : List (Location × Entry)) :
    find? other (replace location entry entries) = if location = other then some entry else find? other entries := by
  induction entries with
  | nil => simp [replace, find?]
  | cons first rest ih =>
    obtain ⟨l, old⟩ := first
    by_cases hl : l = location
    · subst hl
      by_cases ho : l = other <;> simp [replace, find?, ho]
    · by_cases ho : l = other
      · subst ho
        simp [replace, find?, hl, Ne.symm hl]
      · simp [replace, find?, hl, ho, ih]

/-- Below the root, a look-up finds the entry just put at its location, and elsewhere what was there. -/
theorem get?_put (fs : FileSystem) {location : Location} (other : Location) (entry : Entry)
    (h : location ≠ []) :
    (fs.put location entry).get? other = if location = other then some entry else fs.get? other := by
  by_cases ho : other = []
  · subst ho
    simp [get?, h]
  · simp [get?, ho, put, find?_replace]

@[simp] theorem put_home (fs : FileSystem) (location : Location) (entry : Entry) :
    (fs.put location entry).home = fs.home := rfl

theorem replace_replace (location : Location) (entry entry' : Entry) (entries : List (Location × Entry)) :
    replace location entry' (replace location entry entries) = replace location entry' entries := by
  induction entries with
  | nil => simp [replace]
  | cons first rest ih =>
    obtain ⟨l, old⟩ := first
    by_cases hl : l = location
    · simp [replace, hl]
    · simp [replace, hl, ih]

/-- Of two entries put at one location the later one counts. -/
theorem put_put (fs : FileSystem) (location : Location) (entry entry' : Entry) :
    (fs.put location entry).put location entry' = fs.put location entry' := by
  simp [put, replace_replace]

end FileSystem

end LedSwitch
