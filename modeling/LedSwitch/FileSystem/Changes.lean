import LedSwitch.FileSystem.Basic

/-!
What is different in the working directory between two moments.
-/

namespace LedSwitch.FileSystem

/-- The path of a location relative to the working directory, for the locations below it. -/
def relative? (home : Location) (location : Location) : Option String :=
  if home.isSuffixOf location ∧ location ≠ home then
    some (String.intercalate "/" (location.take (location.length - home.length)).reverse)
  else none

/-- All entries below the working directory, by relative path. -/
def listing (fs : FileSystem) : List (String × Entry) :=
  fs.entries.filterMap fun (location, entry) => (relative? fs.home location).map (·, entry)

/-- The paths whose entry differs, with the new entry: none for those that are gone. -/
def changes (before after : FileSystem) : List (String × Option Entry) :=
  let old := before.listing
  let new := after.listing
  (new.filter fun (path, entry) => old.lookup path ≠ some entry).map (fun (path, entry) => (path, some entry))
    ++ (old.filter fun (path, _) => (new.lookup path).isNone).map fun (path, _) => (path, none)

end LedSwitch.FileSystem
