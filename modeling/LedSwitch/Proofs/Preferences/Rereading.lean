import LedSwitch.Proofs.Preferences.Reloading
import LedSwitch.Proofs.Toml.Moments
import LedSwitch.Proofs.Toml.Rejected

/-!
Whether a preferences file can be read again after a truth value was set in it. That depends on the table alone, and
where the file can be read it holds the truth value (`Store.load_setBool_iff`).
-/

namespace LedSwitch

open Toml

namespace Store

/-- After a truth value was set and saved, the file can be read again if and only if the table with that value is flat
    and its sections can be put together. Then the value is found there. Both hold if each array holds tables only or
    none at all, and no nested table begins with the key of dates. -/
theorem load_setBool_iff {path : String} {world loaded world' : World} {store reloaded : FileStore} {key : String}
    {value : Bool} {changed : Store} (hload : world.run (FileStore.load path) = (store, loaded))
    (hset : loaded.run ((file store).setBool key value) = ((.ok (), changed), world'))
    (hdevice : world'.disk.isDevice path = false) (hreload : (world'.run (FileStore.load path)).1 = reloaded) :
    (reloaded.damaged = false ↔ Value.areFlat (store.contents.insert key (.boolean value)) = true ∧
        (Assembly.table? (Layout.documentSections (store.contents.insert key (.boolean value)))).isSome = true) ∧
      (reloaded.damaged = false → reloaded.contents.get? key = some (.boolean value)) ∧
      ((∀ entry ∈ store.contents, entry.1 ≠ key →
        entry.2.Everywhere Value.Uniform ∧ entry.2.Everywhere Value.NotDated) → reloaded.damaged = false) := by
  have hpath := FileStore.path_of_load path world
  have hordered := FileStore.everywhere_of_load parsed_keysOrdered path world
  have hspelled := FileStore.everywhere_of_load parsed_momentSpelled path world
  rw [hload] at hpath hordered hspelled
  dsimp only at hpath hordered hspelled
  subst hpath hreload
  have hordered' := Keyed.insert_ordered key (.boolean value) hordered.self
  obtain ⟨hsaves, -⟩ := saves_of_setBool hset
  obtain ⟨text, htext, hreload⟩ := FileStore.load_of_saves hsaves hdevice
  have hread := Table.ofText?_of_toText? htext
  change (world'.run (FileStore.load store.path)).1 = _ at hreload
  change Table.ofText? text = if Value.areFlat (store.contents.insert key (.boolean value)) then
    Assembly.table? (Layout.documentSections (store.contents.insert key (.boolean value))) else none at hread
  have hsound : (∀ entry ∈ store.contents, entry.1 ≠ key →
      entry.2.Everywhere Value.Uniform ∧ entry.2.Everywhere Value.NotDated) →
      ∀ entry ∈ store.contents.insert key (.boolean value), entry.2.Sound := by
    intro h entry hentry
    rcases hordered.self.mem_insert hentry with rfl | ⟨hentry, hkey⟩
    · exact ⟨trivial, trivial, trivial, trivial⟩
    · exact ⟨hordered.entry hentry, (h entry hentry hkey).1, (h entry hentry hkey).2, hspelled.entry hentry⟩
  rw [hreload]
  generalize htable : store.contents.insert key (.boolean value) = table at *
  cases hfound : Table.ofText? text with
  | some found =>
    rw [hfound, eq_comm, ite_eq_iff] at hread
    obtain ⟨hflat, hsections⟩ | ⟨-, hnone⟩ := hread
    · refine ⟨⟨fun _ => ⟨hflat, by simp [hsections]⟩, fun _ => rfl⟩, fun _ => ?_, fun _ => rfl⟩
      exact Assembly.get?_of_table?_documentSections hordered' hflat hsections
        (htable ▸ Keyed.mem_insert_self key (Value.boolean value) store.contents) rfl
    · cases hnone
  | none =>
    have hunread : ¬ (Value.areFlat table = true ∧ (Assembly.table? (Layout.documentSections table)).isSome = true) := by
      rintro ⟨hflat, hsections⟩
      rw [hfound, if_pos hflat] at hread
      rw [← hread] at hsections
      cases hsections
    refine ⟨⟨fun h => absurd h (by simp), fun h => absurd h hunread⟩, fun h => absurd h (by simp), fun h => ?_⟩
    have hentries := hsound h
    refine absurd ⟨?_, ?_⟩ hunread
    · exact Value.areFlat_of_sound hentries
    · rw [Assembly.table?_documentSections hordered' hentries]
      rfl

/-- An array with a table beside a number is written, but the file cannot be read again. -/
theorem load_setBool_mixed :
    let world : World := ⟨⟨[(["p"], .file (Utf8.encode "a = [1, {b = 2}]\n"))], []⟩, []⟩
    let loaded := world.run (FileStore.load "p")
    let answer := loaded.2.run ((file loaded.1).setBool "k" true)
    loaded.1.damaged = false ∧ answer.1.1 = .ok () ∧ answer.2.disk.isDevice "p" = false ∧
      (answer.2.run (FileStore.load "p")).1.damaged = true := by
  decide +kernel

/-- Beside an array of tables and a date the value is found again. -/
theorem load_setBool_dates :
    let world : World := ⟨⟨[(["p"], .file (Utf8.encode "a = [{b = 2}]\nd = 1979-05-27\n"))], []⟩, []⟩
    let loaded := world.run (FileStore.load "p")
    let answer := loaded.2.run ((file loaded.1).setBool "k" true)
    (answer.2.run (FileStore.load "p")).1.damaged = false ∧
      (answer.2.run (FileStore.load "p")).1.contents.get? "k" = some (.boolean true) := by
  have hreload : ∀ (world : World) (loaded : FileStore × World) (answer : (Except Failure Unit × Store) × World),
      world.run (FileStore.load "p") = loaded → loaded.2.run ((file loaded.1).setBool "k" true) = answer →
      answer.1.1 = .ok () → answer.2.disk.isDevice "p" = false →
      Value.areFlat (loaded.1.contents.insert "k" (.boolean true)) = true →
      (Assembly.table? (Layout.documentSections (loaded.1.contents.insert "k" (.boolean true)))).isSome = true →
      (answer.2.run (FileStore.load "p")).1.damaged = false ∧
        (answer.2.run (FileStore.load "p")).1.contents.get? "k" = some (.boolean true) := by
    rintro world ⟨store, loaded⟩ ⟨⟨outcome, changed⟩, world'⟩ hload hset rfl hdevice hflat hsections
    obtain ⟨hundamaged, hvalue, -⟩ := load_setBool_iff hload hset hdevice rfl
    exact ⟨hundamaged.2 ⟨hflat, hsections⟩, hvalue (hundamaged.2 ⟨hflat, hsections⟩)⟩
  exact hreload _ _ _ rfl rfl (by decide +kernel) (by decide +kernel) (by decide +kernel) (by decide +kernel)

end Store

end LedSwitch
