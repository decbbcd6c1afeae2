import LedSwitch.Proofs.Session.Answers

/-!
Stores of files that could not be read. Such a store never changes a file again, whatever becomes of the file: each
change is refused before anything is touched, and counts in memory (`Session.damaged_run`).
-/

namespace LedSwitch

/-- A file that is there but holds no document that can be read. -/
def FileSystem.Unread (fs : FileSystem) (path : String) : Prop :=
  fs.isPresent path = true ∧ ¬∃ bytes text table,
    fs.read path = .ok bytes ∧ Utf8.decode bytes = some text ∧ Toml.Table.ofText? text = some table

namespace FileStore

theorem load_of_unread {path : String} {world : World} (h : world.disk.Unread path) :
    (world.run (load path)).1 = ⟨path, [], true⟩ := by
  rw [(run_load path world).1]
  have hpreferences : ∃ failure, world.disk.preferences path = .error failure := by
    cases hread : world.disk.read path with
    | error cause => exact ⟨.io path cause, by rw [FileSystem.preferences, if_pos h.1, hread]⟩
    | ok bytes =>
      obtain ⟨table, htable, -⟩ | ⟨-, hfailure⟩ := FileSystem.preferences_of_read h.1 hread
      · obtain ⟨text, hdecode, htable⟩ := Option.bind_eq_some_iff.1 htable
        exact absurd ⟨bytes, text, table, hread, hdecode, htable⟩ h.2
      · exact hfailure
  obtain ⟨failure, hfailure⟩ := hpreferences
  rw [hfailure]

theorem run_save_of_damaged {store : FileStore} (hdamaged : store.damaged = true) (world : World) :
    world.run store.save = (.error (.damaged store.path), world) := by
  rw [save, if_pos hdamaged]
  rfl

end FileStore

/-- A change of a damaged store is refused before anything is touched, but counts in memory. -/
theorem Store.setBool_damaged {store : FileStore} (hdamaged : store.damaged = true) (key : String) (value : Bool)
    (world : World) : world.run ((file store).setBool key value) =
      ((.error (.damaged store.path), file (store.withBool key value)), world) := by
  have hkept : (store.withBool key value).damaged = true := hdamaged
  rw [setBool_file, FileStore.run_save_of_damaged hkept]
  rfl

/-- A press on a checkbox with a damaged store leaves it damaged, and changes at most the node. -/
theorem Control.Pressed.damaged {control after : Control} {path : String} {contents : Toml.Table} {press : Press}
    {world world' : World} (hstore : control.store = .file ⟨path, contents, true⟩)
    (h : Pressed control press world after world') : (∃ contents, after.store = .file ⟨path, contents, true⟩) ∧
      (world'.disk = world.disk ∨ world'.disk = world.disk.overwritten control.node press.signal) := by
  cases h with
  | inert _ hdisk => exact ⟨⟨contents, hstore⟩, Or.inl hdisk⟩
  | applied _ _ hsaved hdisk =>
    rw [save, World.run_bind, hstore, Store.setBool_damaged rfl] at hsaved
    obtain ⟨hanswer, rfl⟩ := Prod.mk.inj hsaved
    obtain ⟨-, rfl⟩ := Prod.mk.inj hanswer
    exact ⟨⟨_, rfl⟩, Or.inr hdisk⟩

namespace Holder

/-- The store that is held is that of the file at a path, and damaged. -/
def Damaged (path : String) (holder : Holder) : Prop := ∃ contents, holder.store = .file ⟨path, contents, true⟩

/-- A damaged store stays so in every act, unless another one is opened in its place. -/
theorem Damaged.act {path : String} {holder : Holder} (h : holder.Damaged path) {act : Act}
    (hload : ∀ other, act ≠ .load other) (world : World) : (world.run (holder.act act)).1.Damaged path := by
  obtain ⟨contents, hstore⟩ := h
  cases holder with
  | free store =>
    obtain rfl : store = _ := hstore
    cases act with
    | load other => exact absurd rfl (hload other)
    | set key value =>
      rw [run_set, Store.setBool_damaged rfl]
      exact ⟨_, rfl⟩
    | mount node =>
      rw [run_mount]
      exact ⟨contents, rfl⟩
    | _ => exact ⟨contents, rfl⟩
  | bound control =>
    cases act with
    | press press =>
      obtain ⟨after, world', hrun, hpressed⟩ := run_press control press world
      rw [hrun]
      exact (hpressed.damaged hstore).1
    | _ => exact ⟨contents, hstore⟩

theorem Course.damaged {path : String} {first last : Holder} {acts : List Act} {sets : List (String × Bool)}
    (h : Course first acts sets last) (hload : ∀ other, .load other ∉ acts) (hfirst : first.Damaged path) :
    last.Damaged path :=
  h.preserves (fun world hother hdamaged => hdamaged.act hother world) (fun _ hact _ heq => hload _ (heq ▸ hact)) hfirst

end Holder

namespace Session

variable {ι : Type} [DecidableEq ι]

/-- A store that was opened when its file could not be read refuses every later change, and leaves all files and the
    journal as they are, even if the file was repaired, replaced or removed meanwhile. A press on its checkbox changes
    at most the file to which the path of the node leads. The store still answers the value that was set last. -/
theorem damaged_run {session : Session ι} {slot : ι} {held : Store} {path : String} {moves : List (Move ι)}
    (hfree : session.holders slot = .free held) (hunread : session.world.disk.Unread path)
    (hload : ∀ other, .load other ∉ actsOn slot moves) :
    let loaded := session.step (.on slot (.load path))
    let final := loaded.run moves
    (∀ key value, ∃ changed, final.world.run ((final.holders slot).store.setBool key value) =
        ((.error (.damaged path), changed), final.world)) ∧
      (∀ control press, final.holders slot = .bound control →
        let pressed := final.step (.on slot (.press press))
        pressed.world.disk = final.world.disk ∨ ∃ place, final.world.disk.resolve .create control.node = .ok place ∧
          (place.found = none ∨ ∃ old, place.found = some (.file old)) ∧
          pressed.world.disk = final.world.disk.put place.location (.file press.signal)) ∧
      ∀ key default, (final.holders slot).store.getBool key default =
        ((Keyed.ofPairs (loaded.setsOn slot moves)).get? key).getD default := by
  have hloaded : (session.step (.on slot (.load path))).holders slot = .free (.file ⟨path, [], true⟩) := by
    rw [holders_step_on, hfree, ← FileStore.load_of_unread hunread]
    rfl
  have hcourse := (session.step (.on slot (.load path))).course_run slot moves
  rw [hloaded] at hcourse
  obtain ⟨contents, hstore⟩ := hcourse.damaged hload ⟨[], rfl⟩
  refine ⟨fun key value => ?_, fun control press hcontrol => ?_, fun key default => ?_⟩
  · rw [hstore, Store.setBool_damaged rfl]
    exact ⟨_, rfl⟩
  · rw [hcontrol] at hstore
    obtain ⟨after, world', hrun, hpressed⟩ :=
      Holder.run_press control press ((session.step (.on slot (.load path))).run moves).world
    rw [step, hcontrol, hrun]
    rcases (hpressed.damaged hstore).2 with hdisk | hdisk
    · exact Or.inl hdisk
    · obtain hsame | ⟨place, hplace, hfound, hput⟩ := FileSystem.overwritten_eq _ control.node press.signal
      · exact Or.inl (hdisk.trans hsame)
      · exact Or.inr ⟨place, hplace, hfound, hdisk.trans hput⟩
  · exact hcourse.getBool_eq hload key default

/-- A directory stands where the file should be, and is replaced by a document later on. -/
theorem damaged_run_repaired :
    let session : Session Unit :=
      ⟨fun _ => .free (.memory []), ⟨⟨[(["p"], .directory), (["n"], .file [0x31])], []⟩, []⟩⟩
    let moves : List (Move Unit) := [.on () (.set "a" true), .others ⟨[(["p"], .file []), (["n"], .file [])], []⟩,
      .on () (.mount "n"), .on () (.press (.toggle true))]
    let final := (session.step (.on () (.load "p"))).run moves
    (∃ changed, final.world.run ((final.holders ()).store.setBool "b" true) =
        ((.error (.damaged "p"), changed), final.world)) ∧
      (final.holders ()).store.getBool "a" false = true ∧ Control.stored (final.holders ()).store = true := by
  intro session moves final
  have hunread : session.world.disk.Unread "p" := by
    refine ⟨rfl, ?_⟩
    rintro ⟨bytes, text, table, hread, -⟩
    cases hread
  have hload : ∀ other, .load other ∉ actsOn () moves := by
    simp [moves, actsOn, Move.actOn?]
  have hfree : session.holders () = .free (.memory []) := rfl
  obtain ⟨hset, -, hanswers⟩ := damaged_run hfree hunread hload
  exact ⟨hset "b" true, hanswers "a" false, hanswers Control.key false⟩

end Session

end LedSwitch
