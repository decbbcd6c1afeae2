import LedSwitch.FileSystem.Basic
import LedSwitch.FileSystem.Cause

/-!
Which location a path leads to. Links on the way are always followed, forty of them at most; what happens at
the last name depends on the purpose. A component `..` leads out of the directory really reached, so the
components before it have to exist.
-/

namespace LedSwitch

/-- What a path is resolved for. -/
inductive Purpose where
  /-- To find something: it has to be there, and a link at the end is followed. -/
  | look
  /-- To write a file that need not be there: a link at the end is followed, and a slash at the end is an error. -/
  | create
  /-- To handle the entry itself: a link at the end is not followed. -/
  | entry
  deriving DecidableEq, Repr

/-- Where a path leads, and what stands there. -/
structure Place where
  location : Location
  found : Option Entry
  deriving DecidableEq, Repr

namespace FileSystem

/-- The greatest length of a name in bytes. -/
def nameLimit : Nat := 255

/-- The greatest length of a path in bytes. -/
def pathLimit : Nat := 4095

/-- How many links one path may lead through. -/
def linkLimit : Nat := 40

/-- Goes the steps from the directory `here`. At a link that is to be followed, `onLink` goes on with its target,
    the steps that are left, the directory of the link, and whether the end has to be a directory. -/
def walk (fs : FileSystem) (purpose : Purpose)
    (onLink : String → List Step → Location → Bool → Except Cause Place) :
    List Step → (here : Location) → (slash : Bool) → Except Cause Place
  | [], here, _ => .ok ⟨here, some .directory⟩
  | .stay :: rest, here, slash => walk fs purpose onLink rest here slash
  | .up :: rest, here, slash => walk fs purpose onLink rest here.tail slash
  | [.into name], here, slash =>
    if purpose = .create ∧ slash then .error .isDirectory
    else if name.utf8ByteSize > nameLimit then .error .nameTooLong
    else match fs.get? (name :: here) with
      | none => if purpose = .look then .error .noEntry else .ok ⟨name :: here, none⟩
      | some (.link target) =>
        if purpose = .entry then .ok ⟨name :: here, some (.link target)⟩ else onLink target [] here slash
      | some entry =>
        if purpose = .look ∧ slash ∧ entry ≠ .directory then .error .notDirectory
        else .ok ⟨name :: here, some entry⟩
  | .into name :: rest, here, slash =>
    if name.utf8ByteSize > nameLimit then .error .nameTooLong
    else match fs.get? (name :: here) with
      | none => .error .noEntry
      | some .directory => walk fs purpose onLink rest (name :: here) slash
      | some (.link target) => onLink target rest here slash
      | some _ => .error .notDirectory

/-- Goes the steps from the directory `here` and follows at most `links` links. -/
def follow (fs : FileSystem) (purpose : Purpose) :
    (links : Nat) → List Step → (here : Location) → (slash : Bool) → Except Cause Place
  | 0 => walk fs purpose fun _ _ _ _ => .error .tooManyLinks
  | links + 1 => walk fs purpose fun target rest here slash =>
    let route := Route.ofText target
    follow fs purpose links (route.steps ++ rest) (if route.rooted then [] else here)
      (slash || rest.isEmpty && route.slash)

/-- The place that a path leads to. -/
def resolve (fs : FileSystem) (purpose : Purpose) (path : String) : Except Cause Place :=
  if '\x00' ∈ path.toList then .error .nulInPath
  else if path = "" then .error .noEntry
  else if path.utf8ByteSize > pathLimit then .error .nameTooLong
  else
    let route := Route.ofText path
    follow fs purpose linkLimit route.steps (if route.rooted then [] else fs.home) route.slash

end FileSystem

end LedSwitch
