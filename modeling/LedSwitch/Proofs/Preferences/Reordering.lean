import LedSwitch.Proofs.Preferences.Reloading

/-!
What a store comes to does not depend on the way there. Changes of different keys may be made in any order, and only the
last value of a key counts; this holds of the contents in memory and of the file (`Store.setEach_agree`).
-/

namespace LedSwitch

namespace FileStore

variable {store : FileStore} {sets others : List (String × Bool)}

/-- Ways in which two lists of changes agree on what a store comes to. -/
inductive Agree (store : FileStore) (sets others : List (String × Bool)) : Prop where
  /-- They are the same changes of different keys, in two orders. -/
  | reordered (hkeys : (sets.map (·.1)).Nodup) (hperm : sets.Perm others)
  /-- Every key has the same value in the end, whatever value it had on the way. The entries stand in the order of their
      keys, as in every store that was loaded. -/
  | final (hordered : Keyed.Ordered store.contents) (hsets : sets ≠ []) (hothers : others ≠ [])
      (hvalues : ∀ key, (store.withBools sets).contents.get? key = (store.withBools others).contents.get? key)

theorem Agree.eq_nil_iff (h : store.Agree sets others) : sets = [] ↔ others = [] := by
  cases h with
  | reordered _ hperm => exact ⟨fun hnil => (hnil ▸ hperm).symm.eq_nil, fun hnil => (hnil ▸ hperm).eq_nil⟩
  | final _ hsets hothers => exact ⟨fun hnil => absurd hnil hsets, fun hnil => absurd hnil hothers⟩

theorem Agree.withBools_eq (h : store.Agree sets others) : store.withBools sets = store.withBools others := by
  have hcontents : Keyed.insertAll store.contents (sets.map fun set => (set.1, .boolean set.2)) =
      Keyed.insertAll store.contents (others.map fun set => (set.1, .boolean set.2)) := by
    cases h with
    | reordered hkeys hperm =>
      refine Keyed.insertAll_comm ?_ (hperm.map _) store.contents
      rwa [List.map_map]
    | final hordered _ _ hvalues =>
      exact (Keyed.insertAll_ordered hordered _).eq_of_get? (Keyed.insertAll_ordered hordered _) hvalues
  rw [withBools, withBools, hcontents]

end FileStore

namespace Store

variable {store : FileStore} {sets others : List (String × Bool)} {world world' there there' : World}
  {outcomes outcomes' : List (Except Failure Unit)} {changed changed' : Store}

/-- What is known of a run of changes from its answer. -/
theorem of_setEach (hrun : world.run (setEach (file store) sets) = ((outcomes, changed), world')) :
    changed = file (store.withBools sets) ∧ outcomes.length = sets.length ∧
      ∀ {outcome}, outcomes.getLast? = some outcome →
        ∃ before, FileStore.Saves (store.withBools sets) before outcome world' := by
  obtain ⟨_, _, hended, hlength, hlast⟩ := setEach_file store sets world
  obtain ⟨hanswer, rfl⟩ := Prod.mk.inj (hrun.symm.trans hended)
  obtain ⟨rfl, rfl⟩ := Prod.mk.inj hanswer
  exact ⟨rfl, hlength, hlast⟩

/-- Of the last change it depends on the store alone whether it can be written as a document. -/
theorem getLast?_setEach_iff (hrun : world.run (setEach (file store) sets) = ((outcomes, changed), world')) :
    outcomes.getLast? = some (.error .unserializable) ↔
      sets ≠ [] ∧ store.damaged = false ∧ (store.withBools sets).contents.toText? = none := by
  obtain ⟨-, hlength, hlast⟩ := of_setEach hrun
  cases houtcomes : outcomes.getLast? with
  | none =>
    rw [List.getLast?_eq_none_iff] at houtcomes
    rw [houtcomes] at hlength
    simp [List.length_eq_zero_iff.1 hlength.symm]
  | some outcome =>
    have hsets : sets ≠ [] := by
      rintro rfl
      rw [List.length_eq_zero_iff.1 hlength] at houtcomes
      cases houtcomes
    obtain ⟨before, hsaves⟩ := hlast houtcomes
    rw [Option.some.injEq, hsaves.unserializable_iff]
    exact (and_iff_right hsets).symm

/-- Changes of a store that agree, each list of them on a machine of its own, end with the same contents, those that
    are no truth values included. The last one of either list finds that the store cannot be written as a document if
    and only if the other's does; and if both were saved, then the files hold the same bytes, unless a device took
    them. It does not matter which of the changes before were saved. -/
theorem setEach_agree (hagree : store.Agree sets others)
    (hrun : world.run (setEach (file store) sets) = ((outcomes, changed), world'))
    (hrun' : there.run (setEach (file store) others) = ((outcomes', changed'), there')) :
    changed = file (store.withBools sets) ∧ changed' = changed ∧
      (outcomes.getLast? = some (.error .unserializable) ↔ outcomes'.getLast? = some (.error .unserializable)) ∧
      (outcomes.getLast? = some (.ok ()) → outcomes'.getLast? = some (.ok ()) →
        world'.disk.isDevice store.path = false → there'.disk.isDevice store.path = false →
        ∃ bytes, world'.disk.read store.path = .ok bytes ∧ there'.disk.read store.path = .ok bytes) := by
  have hstore := hagree.withBools_eq
  have hunserializable : outcomes.getLast? = some (.error .unserializable) ↔
      outcomes'.getLast? = some (.error .unserializable) := by
    rw [getLast?_setEach_iff hrun, getLast?_setEach_iff hrun', hstore, ne_eq, hagree.eq_nil_iff]
  obtain ⟨rfl, -, hlast⟩ := of_setEach hrun
  obtain ⟨rfl, -, hlast'⟩ := of_setEach hrun'
  refine ⟨rfl, by rw [hstore], hunserializable, fun hsaved hsaved' hdevice hdevice' => ?_⟩
  obtain ⟨before, hsaves⟩ := hlast hsaved
  obtain ⟨before', hsaves'⟩ := hlast' hsaved'
  obtain ⟨text, htext, -, hread⟩ := FileStore.read_of_saves hsaves hdevice
  obtain ⟨text', htext', -, hread'⟩ := FileStore.read_of_saves hsaves' hdevice'
  rw [hstore, htext', Option.some.injEq] at htext
  exact ⟨Utf8.encode text, hread, htext ▸ hread'⟩

/-- A key that was set twice, beside a number and a table that are kept. -/
theorem setEach_agree_twice :
    let store : FileStore := ⟨"p", [("n", .integer 7), ("t", .table [("k", .boolean true)])], false⟩
    let world := World.mk ⟨[], []⟩ []
    ∃ bytes, (world.run (setEach (file store) [("z", true), ("a", true), ("z", false)])).2.disk.read "p" = .ok bytes ∧
      (world.run (setEach (file store) [("z", false), ("a", true)])).2.disk.read "p" = .ok bytes := by
  intro store world
  have hordered : Keyed.Ordered store.contents := by
    rw [Keyed.Ordered]
    decide
  have hagree : store.Agree [("z", true), ("a", true), ("z", false)] [("z", false), ("a", true)] :=
    .final hordered (by decide) (by decide) fun _ => rfl
  have hsaved : (world.run (setEach (file store) [("z", true), ("a", true), ("z", false)])).1.1.getLast? =
      some (.ok ()) := by decide +kernel
  have hsaved' : (world.run (setEach (file store) [("z", false), ("a", true)])).1.1.getLast? = some (.ok ()) := by
    decide +kernel
  have hdevice : (world.run (setEach (file store) [("z", true), ("a", true), ("z", false)])).2.disk.isDevice "p" =
      false := by decide +kernel
  have hdevice' : (world.run (setEach (file store) [("z", false), ("a", true)])).2.disk.isDevice "p" = false := by
    decide +kernel
  exact (setEach_agree hagree rfl rfl).2.2.2 hsaved hsaved' hdevice hdevice'

end Store

end LedSwitch
