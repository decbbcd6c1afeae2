import LedSwitch.Proofs.Preferences.Saving
import LedSwitch.Proofs.Text.Utf8
import LedSwitch.Proofs.Toml.Assembled
import LedSwitch.Proofs.Toml.Parsed

/-!
What a store finds in its file after it was saved. The file holds the text that was written, unless a device that
keeps nothing took it (`FileStore.load_of_saves`). Truth values come back as they are, whatever their keys, after
any number of changes (`Store.load_setEach`).
-/

namespace LedSwitch

namespace Toml

/-- All entries of a table are truth values. -/
def Table.Booleans (table : Table) : Prop := ∀ entry ∈ table, ∃ value, entry.2 = .boolean value

namespace Table.Booleans

variable {table : Table}

theorem insert (h : table.Booleans) (key : String) (value : Bool) :
    Table.Booleans (table.insert key (.boolean value)) := by
  intro entry hentry
  rcases Keyed.mem_insert hentry with rfl | hentry
  · exact ⟨value, rfl⟩
  · exact h entry hentry

theorem insertAll (h : table.Booleans) (sets : List (String × Bool)) :
    Table.Booleans (Keyed.insertAll table (sets.map fun set => (set.1, .boolean set.2))) := by
  induction sets generalizing table with
  | nil => exact h
  | cons set rest ih => exact ih (h.insert set.1 set.2)

/-- Truth values are written and read back as they are, whatever their keys. -/
theorem ofText?_toText? (h : table.Booleans) (hordered : Keyed.Ordered table) :
    ∃ text, table.toText? = some text ∧ Table.ofText? text = some table := by
  have hsound : ∀ entry ∈ table, entry.2.Sound := by
    intro entry hentry
    obtain ⟨value, hvalue⟩ := h entry hentry
    rw [hvalue]
    exact ⟨trivial, trivial, trivial, trivial⟩
  have hreread : Value.rereadEntries table = table := by
    refine Value.rereadEntries_of_notFloat table (Value.everywhereIn_iff.2 fun entry hentry => ?_)
    obtain ⟨value, hvalue⟩ := h entry hentry
    rw [hvalue]
    trivial
  obtain ⟨text, htext, hread⟩ := Table.ofText?_toText?_of_sound hordered hsound
  exact ⟨text, htext, hreread ▸ hread⟩

end Table.Booleans

end Toml

/-- The table of a preferences file meets, everywhere in it, the conditions that every document meets. -/
theorem FileSystem.everywhere_of_preferences {p : Toml.Value → Prop} (hp : Toml.Parsed p) {fs : FileSystem}
    {path : String} {table : Toml.Table} (h : fs.preferences path = .ok table) : (Toml.Value.table table).Everywhere p := by
  rw [preferences] at h
  split_ifs at h
  · split at h
    · cases h
    · split at h
      · cases h
      · cases h
      · rename_i htext
        obtain ⟨text, -, htable⟩ := Option.map_eq_some_iff.1 htext
        exact Except.ok.inj h ▸ Toml.Table.everywhere_of_ofText? hp htable
  · obtain rfl := Except.ok.inj h
    exact ⟨hp.table [] List.Pairwise.nil, trivial⟩

namespace FileSystem

/-- A preferences file that is missing, or a table of truth values. -/
def HoldsBooleans (fs : FileSystem) (path : String) : Prop :=
  fs.isPresent path = false ∨ ∃ bytes text table, fs.read path = .ok bytes ∧ Utf8.decode bytes = some text ∧
    Toml.Table.ofText? text = some table ∧ table.Booleans

theorem HoldsBooleans.preferences {fs : FileSystem} {path : String} (h : fs.HoldsBooleans path) :
    ∃ table, fs.preferences path = .ok table ∧ table.Booleans := by
  cases hpresent : fs.isPresent path with
  | false => exact ⟨[], by simp [FileSystem.preferences, hpresent], by simp [Toml.Table.Booleans]⟩
  | true =>
    obtain ⟨bytes, text, table, hread, hdecode, htable, hbooleans⟩ := h.resolve_left (by simp [hpresent])
    exact ⟨table, by simp [FileSystem.preferences, hpresent, hread, hdecode, htable], hbooleans⟩

end FileSystem

namespace FileStore

variable {store : FileStore} {world world' : World}

/-- After a successful save the file holds the text of the store. -/
theorem read_of_saves (h : Saves store world (.ok ()) world') (hdevice : world'.disk.isDevice store.path = false) :
    ∃ text, store.contents.toText? = some text ∧ world'.disk.isPresent store.path = true ∧
      world'.disk.read store.path = .ok (Utf8.encode text) := by
  cases h with
  | written hdamaged htext hprepared hwritten =>
    exact ⟨_, htext, FileSystem.read_overwrite hwritten hdevice⟩

/-- After a successful save the store is loaded as its text reads. -/
theorem load_of_saves (h : Saves store world (.ok ()) world') (hdevice : world'.disk.isDevice store.path = false) :
    ∃ text, store.contents.toText? = some text ∧ (world'.run (load store.path)).1 =
      match Toml.Table.ofText? text with
      | some contents => ⟨store.path, contents, false⟩
      | none => ⟨store.path, [], true⟩ := by
  obtain ⟨text, htext, hpresent, hread⟩ := read_of_saves h hdevice
  refine ⟨text, htext, ?_⟩
  rw [(run_load store.path world').1]
  have hpreferences := FileSystem.preferences_of_read hpresent hread
  rw [Utf8.decode_encode, Option.bind_some] at hpreferences
  obtain ⟨table, htable, hpreferences⟩ | ⟨htable, failure, hpreferences⟩ := hpreferences <;>
  rw [hpreferences, htable]

/-- A store that was loaded meets, everywhere in it, the conditions that every document meets. -/
theorem everywhere_of_load {p : Toml.Value → Prop} (hp : Toml.Parsed p) (path : String) (world : World) :
    (Toml.Value.table (world.run (load path)).1.contents).Everywhere p := by
  rw [(run_load path world).1]
  cases hpreferences : world.disk.preferences path with
  | error failure => exact ⟨hp.table [] List.Pairwise.nil, trivial⟩
  | ok table => exact FileSystem.everywhere_of_preferences hp hpreferences

/-- The store with truth values at keys, not yet saved. -/
def withBools (store : FileStore) (sets : List (String × Bool)) : FileStore :=
  { store with contents := Keyed.insertAll store.contents (sets.map fun set => (set.1, .boolean set.2)) }

/-- A truth value that was set is found, and every other one that was there. -/
theorem getBool_withBools (store : FileStore) (sets : List (String × Bool)) (key : String) (default : Bool) :
    (store.withBools sets).getBool key default = ((Keyed.ofPairs sets).get? key).getD (store.getBool key default) := by
  rw [getBool, withBools, Keyed.get?_insertAll, Keyed.get?_ofPairs, ← List.map_reverse, List.find?_map, getBool]
  change ((((sets.reverse.find? (·.1 = key)).map _).map _).or _ |>.bind _).getD _ = _
  cases sets.reverse.find? (·.1 = key) <;> rfl

end FileStore

namespace Store

variable {m : Type → Type} [Monad m] [Machine m]

/-- Sets truth values one after the other. The outcomes stand in the order of the calls. -/
def setEach : Store → List (String × Bool) → m (List (Except Failure Unit) × Store)
  | store, [] => return ([], store)
  | store, (key, value) :: rest => do
    let (outcome, store) ← store.setBool key value
    let (outcomes, store) ← setEach store rest
    return (outcome :: outcomes, store)

/-- A truth value is set in memory, whatever comes of the saving. -/
theorem setBool_file (store : FileStore) (key : String) (value : Bool) (world : World) :
    world.run ((file store).setBool key value) = (((world.run (store.withBool key value).save).1,
      file (store.withBool key value)), (world.run (store.withBool key value).save).2) := rfl

theorem saves_of_setBool {store : FileStore} {key : String} {value : Bool} {world world' : World}
    {outcome : Except Failure Unit} {changed : Store}
    (h : world.run ((file store).setBool key value) = ((outcome, changed), world')) :
    FileStore.Saves (store.withBool key value) world outcome world' ∧ changed = file (store.withBool key value) := by
  have hsaves := FileStore.saves_save (store.withBool key value) world
  rw [setBool_file] at h
  obtain ⟨hanswer, rfl⟩ := Prod.mk.inj h
  obtain ⟨rfl, rfl⟩ := Prod.mk.inj hanswer
  exact ⟨hsaves, rfl⟩

/-- A run of changes ends with all of them in the store, and the last outcome is that of saving this store. -/
theorem setEach_file (store : FileStore) (sets : List (String × Bool)) (world : World) :
    ∃ outcomes world', world.run (setEach (file store) sets) =
        ((outcomes, file (store.withBools sets)), world') ∧ outcomes.length = sets.length ∧
      ∀ {outcome}, outcomes.getLast? = some outcome →
        ∃ before, FileStore.Saves (store.withBools sets) before outcome world' := by
  induction sets generalizing store world with
  | nil => exact ⟨[], world, rfl, rfl, fun h => by cases h⟩
  | cons set rest ih =>
    obtain ⟨key, value⟩ := set
    have hsave := FileStore.saves_save (store.withBool key value) world
    have hset := setBool_file store key value world
    generalize world.run (store.withBool key value).save = saved at hsave hset
    obtain ⟨outcomes, world', hrun, hlength, hlast⟩ := ih (store.withBool key value) saved.2
    refine ⟨saved.1 :: outcomes, world', ?_, by rw [List.length_cons, List.length_cons, hlength], fun {outcome} h => ?_⟩
    · rw [setEach, World.run_bind, hset]
      simp only
      rw [World.run_bind, hrun]
      rfl
    · cases rest with
      | nil =>
        obtain rfl := List.length_eq_zero_iff.1 hlength
        obtain ⟨-, rfl⟩ := Prod.mk.inj hrun
        rw [List.getLast?_singleton, Option.some.injEq] at h
        exact ⟨world, h ▸ hsave⟩
      | cons next rest =>
        cases outcomes with
        | nil => simp at hlength
        | cons outcome outcomes => exact hlast (by rwa [List.getLast?_cons_cons] at h)

/-- Truth values are loaded again as they were set, after any changes of which the last one was saved. Before, the
    file holds nothing but truth values or is missing; the keys may be any text. -/
theorem load_setEach {path : String} {world loaded world' : World} {store : FileStore} {sets : List (String × Bool)}
    {outcomes : List (Except Failure Unit)} {changed : Store} (hfile : world.disk.HoldsBooleans path)
    (hload : world.run (FileStore.load path) = (store, loaded))
    (hrun : loaded.run (setEach (file store) sets) = ((outcomes, changed), world'))
    (hlast : outcomes.getLast? = some (.ok ())) (hdevice : world'.disk.isDevice path = false) :
    ∃ reloaded, (world'.run (FileStore.load path)).1 = reloaded ∧ reloaded.damaged = false ∧ changed = file reloaded ∧
      ∀ key default, reloaded.getBool key default = changed.getBool key default ∧
        reloaded.getBool key default = ((Keyed.ofPairs sets).get? key).getD (store.getBool key default) := by
  obtain ⟨table, hpreferences, hbooleans⟩ := hfile.preferences
  have hstore : store = ⟨path, table, false⟩ := by
    have hcontents := (FileStore.run_load path world).1
    rwa [hload, hpreferences] at hcontents
  have hordered : Keyed.Ordered table := (FileSystem.everywhere_of_preferences Toml.parsed_keysOrdered hpreferences).self
  subst hstore
  obtain ⟨outcomes', world'', hrun', -, hsaved⟩ := setEach_file ⟨path, table, false⟩ sets loaded
  obtain ⟨houtcome, rfl⟩ := Prod.mk.inj (hrun.symm.trans hrun')
  obtain ⟨rfl, rfl⟩ := Prod.mk.inj houtcome
  obtain ⟨before, hsaves⟩ := hsaved hlast
  obtain ⟨text, htext, hreload⟩ := FileStore.load_of_saves hsaves hdevice
  obtain ⟨text', htext', hread⟩ := (hbooleans.insertAll sets).ofText?_toText? (Keyed.insertAll_ordered hordered _)
  obtain rfl : text = text' := Option.some.inj (htext.symm.trans htext')
  rw [hread] at hreload
  exact ⟨_, hreload, rfl, rfl, fun key default => ⟨rfl, FileStore.getBool_withBools ⟨path, table, false⟩ sets key default⟩⟩

/-- A key may spell lines and headers of a document. -/
theorem load_setEach_line :
    ∃ reloaded, (((World.mk ⟨[], []⟩ []).run (setEach (file ⟨"p", [], false⟩)
        [("a", true), ("a = false\n[a]\n#", false), ("", true)])).2.run (FileStore.load "p")).1 = reloaded ∧
      reloaded.damaged = false ∧ reloaded.getBool "a" false = true ∧
      reloaded.getBool "a = false\n[a]\n#" true = false ∧ reloaded.getBool "" false = true := by
  have hfile : (World.mk ⟨[], []⟩ []).disk.HoldsBooleans "p" := Or.inl rfl
  have hrun : (World.mk ⟨[], []⟩ []).run (setEach (file ⟨"p", [], false⟩)
    [("a", true), ("a = false\n[a]\n#", false), ("", true)]) = _ := rfl
  obtain ⟨reloaded, hreload, hdamaged, -, hvalues⟩ := load_setEach hfile rfl hrun rfl rfl
  exact ⟨reloaded, hreload, hdamaged, (hvalues "a" false).2, (hvalues "a = false\n[a]\n#" true).2, (hvalues "" false).2⟩

end Store

end LedSwitch
