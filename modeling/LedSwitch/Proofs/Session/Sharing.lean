import LedSwitch.Proofs.Control.Rebooting
import LedSwitch.Proofs.Session.Basic

/-!
Several stores of one file, used in any order. Each of them knows only what the file held when it was opened and what
was set in it since. A save writes the whole of what its store holds or nothing, so at any time the file is that of the
store that was saved last (`Session.saved_run`).
-/

namespace LedSwitch

open FileSystem

variable {world world' : World} {first disk disk' : FileSystem} {path : String} {last : Option Toml.Table}

/-- The file at a path holds the text of the contents that were saved last. If nothing was saved, all files are as they
    were at first. -/
def FileSystem.Shows (first : FileSystem) (path : String) (disk : FileSystem) : Option Toml.Table → Prop
  | none => ∀ location bytes, disk.get? location = some (.file bytes) ↔ first.get? location = some (.file bytes)
  | some contents => ∃ text location, contents.toText? = some text ∧
      disk.resolve .look path = .ok ⟨location, some (.file (Utf8.encode text))⟩

theorem FileSystem.Shows.of_grows (h : Shows first path disk last) (hgrows : Grows disk disk') :
    Shows first path disk' last := by
  cases last with
  | none =>
    intro location bytes
    rw [← h location bytes]
    rcases hgrows.entries location with hsame | ⟨hnone, hdirectory⟩
    · rw [hsame]
    · simp [hnone, hdirectory]
  | some contents =>
    obtain ⟨text, location, htext, hlook⟩ := h
    exact ⟨text, location, htext, resolve_of_keeps hgrows.keeps hgrows.home hlook⟩

namespace FileStore

/-- The contents that a save leaves in the file, if it does not fail. -/
def replaces? (store : FileStore) : Except Failure Unit → Option Toml.Table
  | .ok () => some store.contents
  | .error _ => none

/-- A save that fails leaves the contents that were saved before it. -/
theorem Saves.shows {store : FileStore} {outcome : Except Failure Unit} (h : Saves store world outcome world')
    (hpath : store.path = path) (hdevice : world'.disk.isDevice path = false)
    (hlast : Shows first path world.disk last) : Shows first path world'.disk ((store.replaces? outcome).or last) := by
  subst hpath
  cases outcome with
  | ok => exact h.resolve hdevice
  | error failure =>
    rcases h.of_error with hsame | ⟨-, hgrows⟩
    · rw [hsame]
      exact hlast
    · exact hlast.of_grows hgrows.toGrows

end FileStore

namespace Holder

/-- The contents with which an act replaces those of a file: all that a store holds that is set and saved. -/
def saves? (world : World) : Holder → Act → Option Toml.Table
  | .free store, .set key value =>
    match (world.run (store.setBool key value)).1 with
    | (outcome, .file changed) => changed.replaces? outcome
    | (_, .memory _) => none
  | _, _ => none

/-- A store by itself, which has no file or the one at the path. -/
def Opened (path : String) : Holder → Prop
  | .free store => ∀ saved, store = .file saved → saved.path = path
  | .bound _ => False

end Holder

/-- Stores of the file at the path are opened and set. -/
def Act.Opens (path : String) : Act → Prop
  | .load other => other = path
  | .set _ _ => True
  | _ => False

/-- After an act the file is that of the store that was saved last. -/
theorem Holder.shows_act {holder : Holder} {act : Act} (hholder : holder.Opened path) (hact : act.Opens path)
    (hdevice : (world.run (holder.act act)).2.disk.isDevice path = false) (hlast : Shows first path world.disk last) :
    (world.run (holder.act act)).1.Opened path ∧
      Shows first path (world.run (holder.act act)).2.disk ((holder.saves? world act).or last) := by
  cases holder with
  | bound control => cases hholder
  | free store =>
    cases act with
    | mount | press | release | restore => cases hact
    | load other =>
      obtain rfl : other = path := hact
      refine ⟨fun saved hsaved => ?_, ?_⟩
      · obtain rfl := Store.file.inj hsaved
        exact FileStore.path_of_load other world
      · change Shows first other (world.run (FileStore.load other)).2.disk last
        rw [(FileStore.run_load other world).2]
        exact hlast
    | set key value =>
      cases store with
      | memory values => exact ⟨fun saved hsaved => (by cases hsaved), hlast⟩
      | file store =>
        rw [run_set] at hdevice ⊢
        rw [saves?]
        cases hset : world.run ((Store.file store).setBool key value) with
        | mk result world' =>
          obtain ⟨outcome, changed⟩ := result
          obtain ⟨hsaves, rfl⟩ := Store.saves_of_setBool hset
          rw [hset] at hdevice
          have hpath : (store.withBool key value).path = path := hholder store rfl
          refine ⟨fun saved hsaved => ?_, hsaves.shows hpath hdevice hlast⟩
          obtain rfl := Store.file.inj hsaved
          exact hpath

namespace Session

variable {ι : Type} [DecidableEq ι]

/-- The contents with which a move replaces those of a file. -/
def saves? (session : Session ι) : Move ι → Option Toml.Table
  | .on slot act => (session.holders slot).saves? session.world act
  | .others _ => none

/-- All contents that were saved, each at the time of its save, in their order. -/
def saved (session : Session ι) (moves : List (Move ι)) : List Toml.Table := trail saves? session moves

/-- Stores of one file may be opened and set in any order. After each step the file holds the text of all that the
    store held that was saved last, at the time of that save. As long as none was saved, no file is changed or made. -/
theorem saved_run {session : Session ι} {path : String} {moves done : List (Move ι)}
    (hopened : ∀ slot, (session.holders slot).Opened path)
    (hmoves : ∀ move ∈ moves, ∃ slot act, move = .on slot act ∧ act.Opens path)
    (hdevice : ∀ before, before <+: moves → (session.run before).world.disk.isDevice path = false)
    (hdone : done <+: moves) :
    Shows session.world.disk path (session.run done).world.disk (session.saved done).getLast? := by
  let Shared (last : Option Toml.Table) (now : Session ι) : Prop := (∀ slot, (now.holders slot).Opened path) ∧
    Shows session.world.disk path now.world.disk last
  have hshared : Shared (session.saved done).getLast? (session.run done) := by
    apply run_last (p := Shared) ⟨hopened, fun _ _ => Iff.rfl⟩
    rintro last before move hstart ⟨hholders, hlast⟩
    have hbefore := hstart.trans hdone
    obtain ⟨slot, act, rfl, hact⟩ := hmoves move (hbefore.subset (by simp))
    have hthere := hdevice _ hbefore
    rw [run_append] at hthere
    obtain ⟨hholder, hshows⟩ := Holder.shows_act (hholders slot) hact hthere hlast
    exact ⟨forall_holders_step hholders hholder, hshows⟩
  exact hshared.2

/-- A store that is opened late has what was saved before it. One that is damaged and cannot be saved leaves the file
    alone, and one that was opened early replaces all that was saved since. -/
theorem saved_run_stale :
    let session : Session (Fin 3) := ⟨fun slot => .free (.file ⟨"p", [], slot == 2⟩), ⟨⟨[], []⟩, []⟩⟩
    let early := [.on 0 (.set "a" true), .on 2 (.set "b" true), .on 1 (.load "p"), .on 1 (.set "c" false)]
    let late := early ++ [.on 0 (.set "d" true)]
    (Shows ⟨[], []⟩ "p" (session.run early).world.disk (session.saved early).getLast? ∧
        (session.run early).world.disk.read "p" = .ok (Utf8.encode "a = true\nc = false\n")) ∧
      Shows ⟨[], []⟩ "p" (session.run late).world.disk (session.saved late).getLast? ∧
        (session.run late).world.disk.read "p" = .ok (Utf8.encode "a = true\nd = true\n") ∧
        (session.saved late).length = 3 := by
  intro session early late
  have hopened : ∀ slot, (session.holders slot).Opened "p" := by
    intro slot saved hsaved
    obtain rfl := Store.file.inj hsaved
    rfl
  have hmoves : ∀ move ∈ late, ∃ slot act, move = .on slot act ∧ act.Opens "p" := by
    simp [late, early, Act.Opens]
  have hdevice : ∀ before, before <+: late → (session.run before).world.disk.isDevice "p" = false := by
    intro before hbefore
    simp only [late, early, List.cons_append, List.nil_append, List.prefix_cons_iff, List.prefix_nil] at hbefore
    obtain rfl | ⟨_, rfl, rfl | ⟨_, rfl, rfl | ⟨_, rfl, rfl | ⟨_, rfl, rfl | ⟨_, rfl, rfl⟩⟩⟩⟩⟩ := hbefore <;>
      decide +kernel
  refine ⟨⟨saved_run hopened hmoves hdevice (List.prefix_append _ _), ?_⟩,
    saved_run hopened hmoves hdevice (List.prefix_refl _), ?_, ?_⟩ <;> decide +kernel

end Session

end LedSwitch
