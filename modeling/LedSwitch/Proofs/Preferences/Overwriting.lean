import LedSwitch.Proofs.Preferences.Reloading

/-!
Which files a store writes over. As a rule it is the one that was read when the store was loaded
(`FileStore.ReadFrom`). The exception is a path that led nowhere then, but leads to an existing file once the
directories above it were made (`Store.clobbers_iff`).
-/

namespace LedSwitch

open FileSystem

namespace FileStore

variable {path : String} {world : World}

/-- The file at a location is the one to which the path of the store led, and the store holds what it spells. -/
def ReadFrom (store : FileStore) (fs : FileSystem) (location : Location) (bytes : List UInt8) : Prop :=
  fs.resolve .look store.path = .ok ⟨location, some (.file bytes)⟩ ∧
    (Utf8.decode bytes).bind Toml.Table.ofText? = some store.contents

/-- The store of a missing file has no entries, and nothing is logged. -/
theorem run_load_missing (hmissing : world.disk.isPresent path = false) :
    world.run (load path) = (⟨path, [], false⟩, world) := by
  rw [load, World.run_bind, run_read, preferences, if_neg (by simp [hmissing])]
  rfl

/-- An undamaged store whose path leads to a file was read from it. -/
theorem readFrom_load {location : Location} {bytes : List UInt8}
    (hplace : world.disk.resolve .look path = .ok ⟨location, some (.file bytes)⟩)
    (hdamaged : (world.run (load path)).1.damaged = false) :
    (world.run (load path)).1.ReadFrom world.disk location bytes := by
  have hpresent : world.disk.isPresent path = true := by rw [isPresent, hplace]; rfl
  have hread : world.disk.read path = .ok bytes := by rw [FileSystem.read, hplace]; rfl
  rw [(run_load path world).1] at hdamaged ⊢
  obtain ⟨table, htable, hpreferences⟩ | ⟨-, failure, hpreferences⟩ := preferences_of_read hpresent hread
  · rw [hpreferences]
    exact ⟨hplace, htable⟩
  · rw [hpreferences] at hdamaged
    cases hdamaged

/-- A save changes one existing file at most: the one to which the path leads once its directories are there. -/
theorem changed_of_saves {store : FileStore} {world' : World} {outcome : Except Failure Unit}
    (h : Saves store world outcome world') {location : Location} {bytes : List UInt8}
    (hfile : world.disk.get? location = some (.file bytes))
    (hchanged : world'.disk.get? location ≠ some (.file bytes)) :
    ∃ opened text, store.damaged = false ∧ store.contents.toText? = some text ∧
      world.run (prepareDirectory store.path) = (.ok (), opened) ∧
      opened.disk.resolve .create store.path = .ok ⟨location, some (.file bytes)⟩ ∧ Utf8.encode text ≠ bytes := by
  cases h with
  | damaged _ | unserializable _ _ => exact absurd hfile hchanged
  | unprepared _ _ _ hprepared | unwritten _ _ hprepared _ =>
    exact absurd ((grows_of_prepared hprepared).keeps location _ hfile) hchanged
  | @written text opened _ hdamaged htext hprepared hwritten =>
    have hkept := (grows_of_prepared hprepared).keeps location _ hfile
    obtain ⟨place, hplace, ⟨hfound, hput⟩ | ⟨-, hsame⟩⟩ := overwrite_eq_ok hwritten
    · obtain ⟨hlocation, hentry⟩ := get?_of_resolve hplace (by
        rcases hfound with hfound | ⟨old, hfound⟩ <;> simp [hfound])
      rw [hput, get?_put _ _ _ hlocation] at hchanged
      split_ifs at hchanged with heq
      · obtain ⟨location', found⟩ := place
        obtain rfl : location' = location := heq
        obtain rfl : found = some (.file bytes) := hentry.symm.trans hkept
        exact ⟨opened, text, hdamaged, htext, hprepared, hplace, fun hbytes => hchanged (by rw [hbytes])⟩
      · exact absurd hkept hchanged
    · rw [hsame] at hchanged
      exact absurd hkept hchanged

/-- A save that goes to an existing file puts the text of the store there. -/
theorem get?_of_saves {store : FileStore} {world' opened : World} {outcome : Except Failure Unit}
    (h : Saves store world outcome world') {location : Location} {bytes : List UInt8} {text : String}
    (hdamaged : store.damaged = false) (htext : store.contents.toText? = some text)
    (hprepared : world.run (prepareDirectory store.path) = (.ok (), opened))
    (hplace : opened.disk.resolve .create store.path = .ok ⟨location, some (.file bytes)⟩) :
    world'.disk.get? location = some (.file (Utf8.encode text)) := by
  have hoverwrite : opened.disk.overwrite store.path (Utf8.encode text) false =
      .ok (opened.disk.put location (.file (Utf8.encode text))) := by
    rw [FileSystem.overwrite, hplace]
    rfl
  obtain ⟨hlocation, -⟩ := get?_of_resolve hplace (by simp)
  rw [(h.of_overwrite hdamaged htext hprepared hoverwrite).2, get?_put _ _ _ hlocation, if_pos rfl]

end FileStore

namespace Store

/-- Setting a truth value in a store that was just loaded changes an existing file that was not read into the store
    exactly if the path led nowhere, but leads to that file once the directories above it were made, and the file
    does not hold the new text anyway. -/
theorem clobbers_iff {world loaded world' : World} {path key : String} {value : Bool} {store : FileStore}
    (hload : world.run (FileStore.load path) = (store, loaded))
    (hset : (loaded.run ((file store).setBool key value)).2 = world') {location : Location} {bytes : List UInt8}
    (hfile : world.disk.get? location = some (.file bytes)) :
    (world'.disk.get? location ≠ some (.file bytes) ∧ ¬ store.ReadFrom world.disk location bytes) ↔
      world.disk.isPresent path = false ∧ ∃ opened text,
        world.run (FileStore.prepareDirectory path) = (.ok (), opened) ∧
        opened.disk.resolve .create path = .ok ⟨location, some (.file bytes)⟩ ∧
        Toml.Table.toText? [(key, .boolean value)] = some text ∧ Utf8.encode text ≠ bytes := by
  have hdisk : loaded.disk = world.disk := by
    have hsame := (FileStore.run_load path world).2
    rwa [hload] at hsame
  have hstore : (world.run (FileStore.load path)).1 = store := by rw [hload]
  have hpath : store.path = path := hstore ▸ FileStore.path_of_load path world
  have hsaves := FileStore.saves_save (store.withBool key value) loaded
  obtain rfl : (loaded.run (store.withBool key value).save).2 = world' := hset
  constructor
  · rintro ⟨hchanged, hunread⟩
    obtain ⟨opened, text, hdamaged, htext, hprepared, hplace, hbytes⟩ :=
      FileStore.changed_of_saves hsaves (hdisk ▸ hfile) hchanged
    change store.damaged = false at hdamaged
    change loaded.run (FileStore.prepareDirectory store.path) = _ at hprepared
    change opened.disk.resolve .create store.path = _ at hplace
    rw [hpath] at hprepared hplace
    cases hpresent : world.disk.isPresent path with
    | false =>
      obtain ⟨rfl, rfl⟩ := Prod.mk.inj (hload.symm.trans (FileStore.run_load_missing hpresent))
      exact ⟨rfl, opened, text, hprepared, hplace, htext, hbytes⟩
    | true =>
      refine absurd ?_ hunread
      obtain ⟨place, hlook⟩ : ∃ place, world.disk.resolve .look path = .ok place := by
        rw [isPresent] at hpresent
        cases hlook : world.disk.resolve .look path with
        | error cause => simp [hlook, Except.toBool] at hpresent
        | ok place => exact ⟨place, rfl⟩
      have hgrows := (FileStore.run_prepareDirectory path loaded).1
      rw [hprepared, hdisk] at hgrows
      obtain rfl := resolve_create_eq (resolve_of_keeps hgrows.keeps hgrows.home hlook) hplace
      rw [← hstore]
      exact FileStore.readFrom_load hlook (hstore ▸ hdamaged)
  · rintro ⟨hpresent, opened, text, hprepared, hplace, htext, hbytes⟩
    obtain ⟨rfl, rfl⟩ := Prod.mk.inj (hload.symm.trans (FileStore.run_load_missing hpresent))
    have hwritten := FileStore.get?_of_saves hsaves rfl htext hprepared hplace
    refine ⟨?_, fun hread => ?_⟩
    · rw [hwritten]
      exact fun heq => hbytes (Entry.file.inj (Option.some.inj heq))
    · rw [isPresent, hread.1] at hpresent
      cases hpresent

/-- A path through a missing directory and back leads to a file that is no document, and that is written over. -/
theorem clobbers_behind_missing :
    let world : World := ⟨⟨[(["f"], .file [0x5b])], []⟩, []⟩
    let loaded := world.run (FileStore.load "x/../f")
    let answer := loaded.2.run ((file loaded.1).setBool "k" true)
    world.disk.get? ["f"] = some (.file [0x5b]) ∧
      answer.2.disk.get? ["f"] = some (.file (Utf8.encode "k = true\n")) ∧
      ¬ loaded.1.ReadFrom world.disk ["f"] [0x5b] := by
  refine ⟨rfl, rfl, fun hread => ?_⟩
  have hmissing : FileSystem.resolve ⟨[(["f"], .file [0x5b])], []⟩ .look "x/../f" = .error .noEntry := rfl
  cases hmissing.symm.trans hread.1

/-- Of a document behind a missing directory nothing is left. -/
theorem clobbers_document :
    let world : World := ⟨⟨[(["f"], .file (Utf8.encode "a = 1\n"))], []⟩, []⟩
    world.run (FileStore.load "x/../f") = (⟨"x/../f", [], false⟩, world) ∧
      (world.run ((file ⟨"x/../f", [], false⟩).setBool "k" true)).2.disk.get? ["f"] ≠
        some (.file (Utf8.encode "a = 1\n")) := by
  intro world
  have hfile : world.disk.get? ["f"] = some (.file (Utf8.encode "a = 1\n")) := rfl
  have hload : world.run (FileStore.load "x/../f") = (⟨"x/../f", [], false⟩, world) := rfl
  have htext : Toml.Table.toText? [("k", .boolean true)] = some "k = true\n" := rfl
  have hprepared : world.run (FileStore.prepareDirectory "x/../f") =
      (.ok (), ⟨⟨world.disk.entries ++ [(["x"], .directory)], []⟩, []⟩) := rfl
  exact ⟨hload, ((clobbers_iff hload rfl hfile).2 ⟨rfl, _, _, hprepared, rfl, htext, by decide⟩).1⟩

end Store

end LedSwitch
