import Mathlib.Logic.Relation
import LedSwitch.Proofs.FileSystem.Growth
import LedSwitch.Proofs.Machine.Relating

/-!
Making a directory with those above it, on a machine that is a value. Whatever comes of it, some of these directories
were made one after the other and nothing else (`makes_makeDirectories`).
-/

namespace LedSwitch

open FileSystem

namespace World

/-- What a program answers on a machine, and what the machine is like afterwards. -/
def run {α : Type} (world : World) (program : StateM World α) : α × World := program world

variable {α β : Type} (world : World)

theorem run_bind (program : StateM World α) (next : α → StateM World β) :
    world.run (program >>= next) = (world.run program).2.run (next (world.run program).1) := rfl

theorem run_pure (value : α) : world.run (pure value) = (value, world) := rfl

theorem run_isPresent (path : String) : world.run (Machine.isPresent path) = (world.disk.isPresent path, world) := rfl

theorem run_isDirectory (path : String) : world.run (Machine.isDirectory path) = (world.disk.isDirectory path, world) :=
  rfl

theorem run_read (path : String) : world.run (Machine.read path) = (world.disk.read path, world) := rfl

theorem run_makeDirectory (path : String) :
    world.run (Machine.makeDirectory path) = match world.disk.makeDirectory path with
      | .ok disk => (.ok (), { world with disk := disk })
      | .error cause => (.error cause, world) := rfl

theorem run_overwrite (path : String) (bytes : List UInt8) (durable : Bool) :
    world.run (Machine.overwrite path bytes durable) = match world.disk.overwrite path bytes durable with
      | .ok disk => (.ok (), { world with disk := disk })
      | .error cause => (.error cause, world) := rfl

end World

namespace FileSystem

/-- What becomes of a tree when some of these directories are made, one after the other. -/
def Makes (paths : List String) : FileSystem → FileSystem → Prop :=
  Relation.ReflTransGen fun fs fs' => ∃ path ∈ paths, fs.makeDirectory path = .ok fs'

end FileSystem

/-- Programs that make some of these directories and nothing else do no more one after the other. -/
theorem compositional_makes (paths : List String) :
    Compositional fun α (program _ : StateM World α) =>
      ∀ world : World, Makes paths world.disk (world.run program).2.disk where
  pure _ _ := Relation.ReflTransGen.refl
  bind hprogram hnext world := by
    rw [World.run_bind]
    exact (hprogram world).trans (hnext _ _)

/-- Making one directory makes it, or nothing if it is refused. -/
theorem makes_makeDirectory {path : String} {paths : List String} (hpath : path ∈ paths) (world : World) :
    Makes paths world.disk (world.run (Machine.makeDirectory path)).2.disk := by
  rw [World.run_makeDirectory]
  cases hmade : world.disk.makeDirectory path with
  | ok disk => exact Relation.ReflTransGen.single ⟨path, hpath, hmade⟩
  | error cause => exact Relation.ReflTransGen.refl

/-- However far the making of directories comes, nothing but some of them was made. -/
theorem makes_makeDirectories (paths : List String) (world : World) :
    Makes paths world.disk (world.run (makeDirectories paths)).2.disk := by
  have hlook (path : String) (world : World) :
      Makes paths world.disk (world.run (Machine.isDirectory path)).2.disk := Relation.ReflTransGen.refl
  exact (compositional_makes paths).holds_makeDirectories hlook (fun _ hpath => makes_makeDirectory hpath) world

end LedSwitch
