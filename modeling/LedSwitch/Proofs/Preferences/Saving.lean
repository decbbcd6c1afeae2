import LedSwitch.Preferences.Store
import LedSwitch.Proofs.FileSystem.Above

/-!
What loading and saving a store come to on a machine that is a value. `FileStore.Saves` has one case for each way in
which a save can end; all that can be said of it follows from these.
-/

namespace LedSwitch

open FileSystem

namespace FileSystem

/-- The table that a preferences file holds. A missing one holds no entries. -/
def preferences (fs : FileSystem) (path : String) : Except Failure Toml.Table :=
  if fs.isPresent path then
    match fs.read path with
    | .error cause => .error (.io path cause)
    | .ok bytes =>
      match (Utf8.decode bytes).map Toml.Table.ofText? with
      | none => .error (.io path .notText)
      | some none => .error (.invalid path)
      | some (some table) => .ok table
  else .ok []

/-- A file that can be read holds the table that its text spells, or none. -/
theorem preferences_of_read {fs : FileSystem} {path : String} {bytes : List UInt8}
    (hpresent : fs.isPresent path = true) (hread : fs.read path = .ok bytes) :
    (∃ table, (Utf8.decode bytes).bind Toml.Table.ofText? = some table ∧ fs.preferences path = .ok table) ∨
      ((Utf8.decode bytes).bind Toml.Table.ofText? = none ∧ ∃ failure, fs.preferences path = .error failure) := by
  rw [preferences, if_pos hpresent, hread]
  cases hdecode : Utf8.decode bytes with
  | none => exact Or.inr ⟨rfl, .io path .notText, by simp only [hdecode, Option.map_none]⟩
  | some text =>
    rw [Option.bind_some]
    cases htable : Toml.Table.ofText? text with
    | none => exact Or.inr ⟨rfl, .invalid path, by simp only [hdecode, Option.map_some, htable]⟩
    | some table => exact Or.inl ⟨table, rfl, by simp only [hdecode, Option.map_some, htable]⟩

end FileSystem

namespace FileStore

theorem run_read (path : String) (world : World) :
    world.run (read path) = (world.disk.preferences path, world) := by
  rw [read, World.run_bind, World.run_isPresent, preferences]
  cases hpresent : world.disk.isPresent path with
  | false => rfl
  | true =>
    simp only [Bool.not_true, Bool.false_eq_true, if_false, if_true]
    rw [World.run_bind, World.run_read]
    cases hread : world.disk.read path with
    | error cause => rfl
    | ok bytes =>
      simp only
      cases hdecode : Utf8.decode bytes with
      | none => rfl
      | some text =>
        simp only [Option.map_some]
        cases Toml.Table.ofText? text <;> rfl

/-- A store is what its file holds, or damaged if it cannot be read. Loading leaves all files alone. -/
theorem run_load (path : String) (world : World) :
    (world.run (load path)).1 = (match world.disk.preferences path with
        | .ok contents => ⟨path, contents, false⟩
        | .error _ => ⟨path, [], true⟩) ∧
      (world.run (load path)).2.disk = world.disk := by
  rw [load, World.run_bind, run_read]
  cases world.disk.preferences path <;> exact ⟨rfl, rfl⟩

theorem path_of_load (path : String) (world : World) : (world.run (load path)).1.path = path := by
  rw [(run_load path world).1]
  cases world.disk.preferences path <;> rfl

/-- Preparing the directory of a file lets the tree grow above it, however far it comes, and fails for reasons of the
    system only. -/
theorem run_prepareDirectory (path : String) (world : World) :
    GrowsAbove path world.disk (world.run (prepareDirectory path)).2.disk ∧
      ∀ failure, (world.run (prepareDirectory path)).1 = .error failure →
        ∃ directory cause, failure = .io directory cause := by
  rw [prepareDirectory]
  cases hparent : Path.parent? path with
  | none => exact ⟨GrowsAbove.refl path world.disk, fun failure h => by cases h⟩
  | some directory =>
    have hgrows := (makes_makeDirectories (Path.ancestors directory) world).growsAbove hparent
    simp only
    rw [makeDirectoryPath, World.run_bind]
    cases (world.run (makeDirectories (Path.ancestors directory))).1 with
    | ok => exact ⟨hgrows, fun failure h => by cases h⟩
    | error cause => exact ⟨hgrows, fun failure h => ⟨directory, cause, (Except.error.inj h).symm⟩⟩

theorem growsAbove_of_prepared {path : String} {world world' : World} {prepared : Except Failure Unit}
    (h : world.run (prepareDirectory path) = (prepared, world')) : GrowsAbove path world.disk world'.disk := by
  have hgrows := (run_prepareDirectory path world).1
  rwa [h] at hgrows

theorem grows_of_prepared {path : String} {world world' : World} {prepared : Except Failure Unit}
    (h : world.run (prepareDirectory path) = (prepared, world')) : Grows world.disk world'.disk :=
  (growsAbove_of_prepared h).toGrows

/-- The ways in which a save can end. -/
inductive Saves (store : FileStore) (world : World) : Except Failure Unit → World → Prop where
  | damaged (hdamaged : store.damaged = true) : Saves store world (.error (.damaged store.path)) world
  | unserializable (hdamaged : store.damaged = false) (htext : store.contents.toText? = none) :
      Saves store world (.error .unserializable) world
  | unprepared {text : String} {failure : Failure} {world' : World} (hdamaged : store.damaged = false)
      (htext : store.contents.toText? = some text) (hfailure : failure ≠ .unserializable)
      (hprepared : world.run (prepareDirectory store.path) = (.error failure, world')) :
      Saves store world (.error failure) world'
  | unwritten {text : String} {cause : Cause} {world' : World} (hdamaged : store.damaged = false)
      (htext : store.contents.toText? = some text)
      (hprepared : world.run (prepareDirectory store.path) = (.ok (), world'))
      (hwritten : world'.disk.overwrite store.path (Utf8.encode text) false = .error cause) :
      Saves store world (.error (.io store.path cause)) world'
  | written {text : String} {world' world'' : World} (hdamaged : store.damaged = false)
      (htext : store.contents.toText? = some text)
      (hprepared : world.run (prepareDirectory store.path) = (.ok (), world'))
      (hwritten : world'.disk.overwrite store.path (Utf8.encode text) false = .ok world''.disk) :
      Saves store world (.ok ()) world''

theorem saves_save (store : FileStore) (world : World) :
    Saves store world (world.run store.save).1 (world.run store.save).2 := by
  rw [save]
  cases hdamaged : store.damaged with
  | true => exact .damaged hdamaged
  | false =>
    cases htext : store.contents.toText? with
    | none => exact .unserializable hdamaged htext
    | some text =>
      have hfailure := (run_prepareDirectory store.path world).2
      simp only [Bool.false_eq_true, if_false, World.run_bind]
      cases hprepared : world.run (prepareDirectory store.path) with
      | mk prepared world' =>
        rw [hprepared] at hfailure
        cases prepared with
        | error failure =>
          obtain ⟨directory, cause, rfl⟩ := hfailure failure rfl
          exact .unprepared hdamaged htext (by simp) hprepared
        | ok =>
          simp only [World.run_bind, World.run_overwrite]
          cases hwritten : world'.disk.overwrite store.path (Utf8.encode text) false with
          | error cause => exact .unwritten hdamaged htext hprepared hwritten
          | ok disk => exact .written hdamaged htext hprepared hwritten

/-- A save succeeds if the directory of the file can be prepared and the file can be written. -/
theorem Saves.of_overwrite {store : FileStore} {world world' prepared : World} {outcome : Except Failure Unit}
    {text : String} {disk : FileSystem} (h : Saves store world outcome world') (hdamaged : store.damaged = false)
    (htext : store.contents.toText? = some text)
    (hprepared : world.run (prepareDirectory store.path) = (.ok (), prepared))
    (hwritten : prepared.disk.overwrite store.path (Utf8.encode text) false = .ok disk) :
    outcome = .ok () ∧ world'.disk = disk := by
  cases h with
  | damaged hdamaged' => simp [hdamaged] at hdamaged'
  | unserializable _ htext' => simp [htext] at htext'
  | unprepared _ _ _ hprepared' => simp [hprepared] at hprepared'
  | unwritten _ htext' hprepared' hrefused =>
    obtain rfl := Option.some.inj (htext.symm.trans htext')
    obtain ⟨-, rfl⟩ := Prod.mk.inj (hprepared.symm.trans hprepared')
    cases hwritten.symm.trans hrefused
  | written _ htext' hprepared' hwritten' =>
    obtain rfl := Option.some.inj (htext.symm.trans htext')
    obtain ⟨-, rfl⟩ := Prod.mk.inj (hprepared.symm.trans hprepared')
    exact ⟨rfl, Except.ok.inj (hwritten'.symm.trans hwritten)⟩

/-- Without a text there is nothing to save. -/
theorem Saves.of_unserializable {store : FileStore} {world world' : World} {outcome : Except Failure Unit}
    (h : Saves store world outcome world') (htext : store.contents.toText? = none) : outcome ≠ .ok () := by
  rintro ⟨⟩
  cases h with
  | written _ htext' => simp [htext] at htext'

/-- Only a store that is not damaged and has no text cannot be serialized. -/
theorem Saves.unserializable_iff {store : FileStore} {world world' : World} {outcome : Except Failure Unit}
    (h : Saves store world outcome world') :
    outcome = .error .unserializable ↔ store.damaged = false ∧ store.contents.toText? = none := by
  cases h with
  | damaged hdamaged => simp [hdamaged]
  | unserializable hdamaged htext => simp [hdamaged, htext]
  | unprepared _ htext hfailure _ => simp [htext, hfailure]
  | unwritten _ htext _ _ | written _ htext _ _ => simp [htext]

/-- A save that fails leaves all files as they were. Unless the system refused, it leaves everything. -/
theorem Saves.of_error {store : FileStore} {world world' : World} {failure : Failure}
    (h : Saves store world (.error failure) world') :
    world'.disk = world.disk ∨
      (∃ path cause, failure = .io path cause) ∧ GrowsAbove store.path world.disk world'.disk := by
  cases h with
  | damaged | unserializable => exact Or.inl rfl
  | unprepared _ _ _ hprepared =>
    have hfailure := (run_prepareDirectory store.path world).2
    rw [hprepared] at hfailure
    exact Or.inr ⟨hfailure failure rfl, growsAbove_of_prepared hprepared⟩
  | unwritten _ _ hprepared _ => exact Or.inr ⟨⟨_, _, rfl⟩, growsAbove_of_prepared hprepared⟩

end FileStore

end LedSwitch
