import LedSwitch.Text.Parts

/-!
Paths as text. `Route.ofText` says which way a path leads: from the root or from the working directory, by which
steps, and whether its end has to be a directory. `parent?` cuts off the last component of a path and keeps the
spelling of the rest; `ancestors` repeats that.
-/

namespace LedSwitch

/-- One step on the way through a tree of directories. -/
inductive Step where
  /-- To the directory itself: the component `.`. -/
  | stay
  /-- To the directory above: the component `..`. -/
  | up
  /-- To the entry of that name. -/
  | into (name : String)
  deriving DecidableEq, Repr

/-- The way that a path describes. -/
structure Route where
  /-- It begins at the root and not at the directory at hand. -/
  rooted : Bool
  steps : List Step
  /-- It ends in a slash, so that a name at its end stands for a directory. -/
  slash : Bool
  deriving DecidableEq, Repr

namespace Path

/-- The step that a part describes. An empty part, between two slashes, describes none. -/
def step? (segment : List Char) : Option Step :=
  if segment = [] then none
  else if segment = ['.'] then some .stay
  else if segment = ['.', '.'] then some .up
  else some (.into (String.ofList segment))

end Path

/-- Reads a path. -/
def Route.ofText (path : String) : Route where
  rooted := path.toList.head? = some '/'
  steps := (Parts.split '/' path.toList).filterMap Path.step?
  slash := path.toList.getLast? = some '/'

namespace Path

/-- A path read from its end, without trailing slashes and trailing `.` components. One slash alone stays. -/
def trimReversed : List Char → List Char
  | [] => []
  | c :: rest =>
    if c = '/' then if rest = [] then ['/'] else trimReversed rest
    else if c = '.' ∧ rest.head? = some '/' then trimReversed rest
    else c :: rest

/-- A path without its last component; the empty path and the root have none. -/
def parent? (path : String) : Option String :=
  let trimmed := trimReversed path.toList.reverse
  if trimmed = [] ∨ trimmed = ['/'] then none
  else some (String.ofList (trimReversed (trimmed.dropWhile (· ≠ '/'))).reverse)

/-- At most `count` paths: the path itself, its parent, the parent of that, and so on. -/
def ancestorsUpTo : (count : Nat) → (path : String) → List String
  | 0, _ => []
  | count + 1, path =>
    match parent? path with
    | none => [path]
    | some above => path :: ancestorsUpTo count above

/-- The path and all that cutting off components leaves of it, each one shorter than the one before. -/
def ancestors (path : String) : List String := ancestorsUpTo (path.length + 1) path

end Path

end LedSwitch
