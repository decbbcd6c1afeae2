import LedSwitch.Proofs.Preferences.Reloading

/-!
What a store answers. A truth value that was set is found whatever came of saving it (`Store.getBool_setBool`), so
stores that give the same answers go on doing so when the same values are set in them (`Store.Alike.setBool`). A store
with a file answers like one in memory that holds the truth values of the file (`Store.alike_booleans`).
-/

namespace LedSwitch

/-- The truth values of a table. -/
def Toml.Table.booleans (table : Table) : Keyed Bool :=
  table.filterMap fun entry => entry.2.bool?.map fun value => (entry.1, value)

/-- Where each key stands once, a truth value is found among the truth values if it is found in the table. -/
theorem Toml.Table.get?_booleans {table : Table} (hnodup : (table.map (·.1)).Nodup) (key : String) :
    table.booleans.get? key = (table.get? key).bind Value.bool? := by
  induction table with
  | nil => rfl
  | cons entry rest ih =>
    obtain ⟨k, value⟩ := entry
    rw [List.map_cons, List.nodup_cons] at hnodup
    have hrest := ih hnodup.2
    rw [booleans] at hrest ⊢
    by_cases hk : k = key
    · subst hk
      have hmissing : Keyed.get? k rest = none := Keyed.get?_eq_none_iff.2 hnodup.1
      cases hbool : value.bool? with
      | none => simp [Keyed.get?, hbool, hrest, hmissing]
      | some bool => simp [Keyed.get?, hbool]
    · cases hbool : value.bool? <;> simp [Keyed.get?, hbool, hrest, hk]

/-- The truth values that a preferences file holds: none if it is missing or cannot be read. -/
def FileSystem.booleans (fs : FileSystem) (path : String) : Keyed Bool :=
  match fs.preferences path with
  | .ok table => table.booleans
  | .error _ => []

namespace Store

/-- A truth value that was set is found, and every other one that was there, whatever came of the saving. -/
theorem getBool_setBool (store : Store) (key : String) (value : Bool) (world : World) (other : String)
    (default : Bool) : (world.run (store.setBool key value)).1.2.getBool other default =
      if key = other then value else store.getBool other default := by
  cases store with
  | memory values =>
    change ((Keyed.insert key value values).get? other).getD default = _
    rw [Keyed.get?_insert]
    split_ifs <;> rfl
  | file store =>
    rw [setBool_file]
    change (((Keyed.insert key _ store.contents).get? other).bind Toml.Value.bool?).getD default = _
    rw [Keyed.get?_insert]
    split_ifs <;> rfl

/-- Two stores that cannot be told apart by what they answer. -/
def Alike (store other : Store) : Prop := ∀ key default, store.getBool key default = other.getBool key default

/-- Stores that are alike stay so when the same value is set in both, on whatever machines. -/
theorem Alike.setBool {store other : Store} (h : store.Alike other) (key : String) (value : Bool)
    (world world' : World) :
    (world.run (store.setBool key value)).1.2.Alike (world'.run (other.setBool key value)).1.2 := by
  intro name default
  rw [getBool_setBool, getBool_setBool, h name default]

/-- A store with a file that was just loaded is like one in memory with the truth values of the file. -/
theorem alike_booleans (path : String) (world : World) :
    (file (world.run (FileStore.load path)).1).Alike (memory (world.disk.booleans path)) := by
  intro key default
  rw [(FileStore.run_load path world).1, FileSystem.booleans]
  cases hpreferences : world.disk.preferences path with
  | error failure => rfl
  | ok table =>
    have hordered := (FileSystem.everywhere_of_preferences Toml.parsed_keysOrdered hpreferences).self
    exact congrArg (·.getD default) (Toml.Table.get?_booleans (Keyed.Ordered.nodup hordered) key).symm

end Store

end LedSwitch
