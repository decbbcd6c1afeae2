import LedSwitch.Proofs.Control.Rebooting

/-!
What a press may touch: the files of its preferences and of its node, and the directories above the preferences.
`FileSystem.Alters` says that nothing else was changed or made; saving a store and telling a node are of this kind
(`FileStore.Saves.alters`, `FileSystem.alters_overwritten`), and so is a press (`Control.press_alters`).
-/

namespace LedSwitch

open FileSystem

namespace FileSystem

/-- A tree has got other bytes in files that are owned, new files that are owned, and new directories that are named.
    All else is as before, and nothing is gone. -/
structure Alters (owned named : Location → Prop) (fs fs' : FileSystem) : Prop where
  home : fs'.home = fs.home
  kept : ∀ location entry, fs.get? location = some entry → fs'.get? location = some entry ∨
    ∃ old bytes, entry = .file old ∧ fs'.get? location = some (.file bytes) ∧ owned location
  made : ∀ location entry, fs.get? location = none → fs'.get? location = some entry →
    (entry = .directory ∧ named location) ∨ ∃ bytes, entry = .file bytes ∧ owned location

namespace Alters

variable {owned named : Location → Prop} {fs fs' fs'' : FileSystem}

theorem refl (owned named : Location → Prop) (fs : FileSystem) : Alters owned named fs fs := by
  refine ⟨rfl, fun _ _ => Or.inl, fun location entry hnone hsome => ?_⟩
  cases hnone.symm.trans hsome

theorem trans (h : Alters owned named fs fs') (h' : Alters owned named fs' fs'') : Alters owned named fs fs'' := by
  refine ⟨h'.home.trans h.home, fun location entry hentry => ?_, fun location entry hnone hentry => ?_⟩
  · rcases h.kept location entry hentry with hsame | ⟨old, bytes, rfl, hfile, howned⟩
    · exact h'.kept location entry hsame
    · rcases h'.kept location _ hfile with hsame | ⟨_, bytes', -, hfile', -⟩
      · exact Or.inr ⟨old, bytes, rfl, hsame, howned⟩
      · exact Or.inr ⟨old, bytes', rfl, hfile', howned⟩
  · cases hmiddle : fs'.get? location with
    | none => exact h'.made location entry hmiddle hentry
    | some middle =>
      -- What was made first is a directory, which stays, or an owned file, which stays one.
      have hmade := h.made location middle hnone hmiddle
      rcases h'.kept location middle hmiddle with hsame | ⟨old, bytes, rfl, hfile, howned⟩
      · obtain rfl : middle = entry := Option.some.inj (hsame.symm.trans hentry)
        exact hmade
      · obtain rfl : entry = .file bytes := Option.some.inj (hentry.symm.trans hfile)
        exact Or.inr ⟨bytes, rfl, howned⟩

theorem mono {owned' named' : Location → Prop} (h : Alters owned named fs fs')
    (howned : ∀ location, owned location → owned' location)
    (hnamed : ∀ location, named location → named' location) : Alters owned' named' fs fs' := by
  refine ⟨h.home, fun location entry hentry => ?_, fun location entry hnone hentry => ?_⟩
  · exact (h.kept location entry hentry).imp_right fun ⟨old, bytes, hold, hfile, hlocation⟩ =>
      ⟨old, bytes, hold, hfile, howned location hlocation⟩
  · exact (h.made location entry hnone hentry).imp (And.imp_right (hnamed location)) fun ⟨bytes, hfile, hlocation⟩ =>
      ⟨bytes, hfile, howned location hlocation⟩

end Alters

variable {fs fs' : FileSystem} {path : String} {location : Location}

/-- A directory at a location is found by the path of a file without its last component, or without more of them. -/
def LiesAbove (fs : FileSystem) (path : String) (location : Location) : Prop :=
  ∃ directory above, Path.parent? path = some directory ∧ above ∈ Path.ancestors directory ∧
    above.toList <+: directory.toList ∧ fs.resolve .look above = .ok ⟨location, some .directory⟩

theorem LiesAbove.overwritten (h : fs.LiesAbove path location) (written : String) (bytes : List UInt8) :
    (fs.overwritten written bytes).LiesAbove path location := by
  obtain ⟨directory, above, hparent, habove, hstart, hlook⟩ := h
  exact ⟨directory, above, hparent, habove, hstart, resolve_overwritten_of_directory hlook written bytes⟩

theorem GrowsAbove.alters (h : GrowsAbove path fs fs') (owned : Location → Prop) :
    Alters owned (fs'.LiesAbove path) fs fs' := by
  refine ⟨h.home, fun location entry hentry => Or.inl (h.toGrows.keeps location entry hentry),
    fun location entry hnone hentry => ?_⟩
  rcases h.entries location with hsame | ⟨-, hdirectory⟩
  · cases hnone.symm.trans (hsame.symm.trans hentry)
  · obtain rfl : entry = .directory := Option.some.inj (hentry.symm.trans hdirectory)
    exact Or.inl ⟨rfl, h.named location hnone hdirectory⟩

/-- An attempt to write touches the file to which the path leads afterwards. -/
theorem alters_overwritten (fs : FileSystem) (path : String) (bytes : List UInt8) (named : Location → Prop) :
    Alters ((fs.overwritten path bytes).FileAt path) named fs (fs.overwritten path bytes) := by
  obtain hsame | ⟨place, hplace, hfound, hput⟩ := fs.overwritten_eq path bytes
  · exact hsame.symm ▸ Alters.refl _ named fs
  · have howned : (fs.overwritten path bytes).FileAt path place.location :=
      ⟨bytes, hput ▸ resolve_look_of_put hplace hfound bytes⟩
    obtain ⟨hlocation, hplaced⟩ := get?_of_resolve hplace (by
      rcases hfound with hfound | ⟨old, hfound⟩ <;> simp [hfound])
    have hafter : ∀ location, (fs.overwritten path bytes).get? location =
        if place.location = location then some (.file bytes) else fs.get? location := fun location => by
      rw [hput, get?_put fs location _ hlocation]
    refine ⟨by rw [hput, put_home], fun location entry hentry => ?_, fun location entry hnone hentry => ?_⟩
    · rw [hafter]
      split_ifs with hhere
      · subst hhere
        rcases hfound with hnone | ⟨old, hfile⟩
        · simp [hplaced, hnone] at hentry
        · obtain rfl : entry = .file old := Option.some.inj (hentry.symm.trans (hplaced.trans hfile))
          exact Or.inr ⟨old, bytes, rfl, rfl, howned⟩
      · exact Or.inl hentry
    · rw [hafter] at hentry
      split_ifs at hentry with hhere
      · exact Or.inr ⟨bytes, (Option.some.inj hentry).symm, hhere ▸ howned⟩
      · cases hnone.symm.trans hentry

end FileSystem

/-- Saving a store touches its own file and makes directories above that, whatever comes of it. -/
theorem FileStore.Saves.alters {store : FileStore} {world world' : World} {outcome : Except Failure Unit}
    (h : Saves store world outcome world') :
    Alters (world'.disk.FileAt store.path) (world'.disk.LiesAbove store.path) world.disk world'.disk := by
  cases h with
  | damaged | unserializable => exact Alters.refl _ _ _
  | unprepared _ _ _ hprepared | unwritten _ _ hprepared _ => exact (growsAbove_of_prepared hprepared).alters _
  | @written text prepared _ _ _ hprepared hwritten =>
    have hdisk := overwritten_of_ok hwritten
    have hgrown := (growsAbove_of_prepared hprepared).alters (world'.disk.FileAt store.path)
    refine (hgrown.mono (fun _ => id) fun location habove => ?_).trans ?_
    · exact hdisk ▸ habove.overwritten store.path (Utf8.encode text)
    · have hput := alters_overwritten prepared.disk store.path (Utf8.encode text) (world'.disk.LiesAbove store.path)
      rwa [hdisk] at hput

namespace Control

variable {control shown : Control} {store : FileStore} {press : Press} {world world' : World}

/-- A press that is meant for another checkbox, or for one that does not react, does nothing. -/
theorem Pressed.of_inert (h : Pressed control press world shown world')
    (hinert : press.name ≠ key ∨ control.isEnabled = false) : shown = control ∧ world'.disk = world.disk := by
  cases h with
  | inert _ hdisk => exact ⟨rfl, hdisk⟩
  | applied hname henabled => simp [hname, henabled] at hinert

/-- A press that is meant for a checkbox that reacts saves the store with the value, and then tells the node. -/
theorem Pressed.of_file (h : Pressed control press world shown world') (hstore : control.store = .file store)
    (hname : press.name = key) (henabled : control.isEnabled = true) :
    ∃ noted outcome saved, noted.disk = world.disk ∧
      FileStore.Saves (store.withBool key press.checked) noted outcome saved ∧
      shown.store = .file (store.withBool key press.checked) ∧
      world'.disk = saved.disk.overwritten control.node press.signal := by
  cases h with
  | inert hinert => simp [hname, henabled] at hinert
  | applied _ _ hsaved hdisk =>
    rw [save, World.run_bind, hstore] at hsaved
    obtain ⟨hsaves, hchanged⟩ := Store.saves_of_setBool hsaved
    exact ⟨(world.run (log .warn .control ("key: " ++ press.name))).2, _, _, rfl, hsaves, hchanged, hdisk⟩

/-- A press that is meant for another checkbox, or for one that does not react, leaves all files, the checkbox and its
    store as they are. Any other one, whatever fails, gives other bytes to no file but those to which the paths of the
    store and of the node lead afterwards, makes no file but these, and makes no directory but such that are named by
    the directory of the store's path or by a beginning of that. Nothing is gone, nor is it of another kind. Of what is
    stored nothing but the value for the checkbox is touched. -/
theorem press_alters {handled : Bool} (hstore : control.store = .file store)
    (hpress : world.run (control.press press) = ((handled, shown), world')) :
    (press.name ≠ key ∨ control.isEnabled = false → shown = control ∧ world'.disk = world.disk) ∧
      (press.name = key → control.isEnabled = true →
        Alters (fun location => world'.disk.FileAt store.path location ∨ world'.disk.FileAt control.node location)
          (world'.disk.LiesAbove store.path) world.disk world'.disk ∧
        ∃ changed : FileStore, shown.store = .file changed ∧ changed.path = store.path ∧
          changed.damaged = store.damaged ∧
          ∀ other, other ≠ key → changed.contents.get? other = store.contents.get? other) := by
  have hpressed := control.pressed_press press world
  rw [hpress] at hpressed
  refine ⟨hpressed.of_inert, fun hname henabled => ?_⟩
  obtain ⟨noted, outcome, saved, hnoted, hsaves, hshown, hdisk⟩ := hpressed.of_file hstore hname henabled
  change world'.disk = _ at hdisk
  refine ⟨?_, store.withBool key press.checked, hshown, rfl, rfl, fun other hother => ?_⟩
  · -- Telling the node moves neither the file of the store nor the directories above it.
    have hsaved := hsaves.alters
    rw [hnoted] at hsaved
    have htold := saved.disk.alters_overwritten control.node press.signal (world'.disk.LiesAbove store.path)
    rw [← hdisk] at htold
    refine (hsaved.mono (fun location hfile => Or.inl ?_) fun location habove => ?_).trans
      (htold.mono (fun _ => Or.inr) fun _ => id)
    · exact hdisk ▸ hfile.overwritten control.node press.signal
    · exact hdisk ▸ habove.overwritten control.node press.signal
  · exact (Keyed.get?_insert key other _ store.contents).trans (if_neg hother.symm)

/-- The node is a link whose target is made by the press, as is a directory that the path of the store leaves again. -/
theorem press_alters_link :
    let world := World.mk ⟨[(["l"], .link "n")], []⟩ []
    let control : Control := ⟨.file ⟨"x/../p", [("vibration", .integer 1)], false⟩, "l", true, false⟩
    ∃ shown world' changed, world.run (control.press (.toggle true)) = ((true, shown), world') ∧
      world'.disk.get? ["n"] = some (.file [0x30]) ∧
      (world'.disk.FileAt "x/../p" ["n"] ∨ world'.disk.FileAt "l" ["n"]) ∧
      world'.disk.get? ["x"] = some .directory ∧ world'.disk.LiesAbove "x/../p" ["x"] ∧
      world'.disk.get? ["l"] = some (.link "n") ∧
      shown.store = .file changed ∧ changed.contents.get? "vibration" = some (.integer 1) := by
  intro world control
  obtain ⟨shown, world', hpress, -⟩ := control.run_press (.toggle true) world
  have hnode : (world.run (control.press (.toggle true))).2.disk.get? ["n"] = some (.file [0x30]) := by decide +kernel
  have hmade : (world.run (control.press (.toggle true))).2.disk.get? ["x"] = some .directory := by decide +kernel
  rw [hpress] at hnode hmade
  obtain ⟨halters, changed, hshown, -, -, hothers⟩ := (press_alters rfl hpress).2 rfl rfl
  obtain ⟨hdirectory, -⟩ | ⟨-, -, howned⟩ := halters.made ["n"] _ rfl hnode
  · cases hdirectory
  obtain ⟨-, habove⟩ | ⟨bytes, hfile, -⟩ := halters.made ["x"] _ rfl hmade
  · obtain hlink | ⟨old, bytes, hfile, -⟩ := halters.kept ["l"] (.link "n") rfl
    · exact ⟨shown, world', changed, hpress, hnode, howned, hmade, habove, hlink, hshown,
        hothers "vibration" (by decide)⟩
    · cases hfile
  · cases hfile

end Control

end LedSwitch
