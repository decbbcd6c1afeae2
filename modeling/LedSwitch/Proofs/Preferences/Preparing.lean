import LedSwitch.Proofs.FileSystem.Names
import LedSwitch.Proofs.Preferences.Reloading

/-!
Saving a store to a path of plain names makes the directories that are missing, at whatever depth the first one is
(`FileSystem.run_makeDirectories_ofNames`), and then writes the file. So nothing but the contents can prevent it
(`Store.setBool_ofNames`).
-/

namespace LedSwitch

open FileSystem LedSwitch.Path

namespace FileSystem

variable {fs fs' : FileSystem} {names : List String} {last : String}

/-- All directories to which names lead are there now. All else is as before. -/
structure Opens (names : List String) (fs fs' : FileSystem) : Prop where
  home : fs'.home = fs.home
  directories : ∀ location ∈ way fs.home names, fs'.get? location = some .directory
  others : ∀ location, location ∉ way fs.home names → fs'.get? location = fs.get? location

theorem Opens.refl (hway : ∀ location ∈ way fs.home names, fs.get? location = some .directory) : Opens names fs fs :=
  ⟨rfl, hway, fun _ _ => rfl⟩

/-- One more directory is there. -/
theorem Opens.append (h : Opens names fs fs') {fs'' : FileSystem} (hhome : fs''.home = fs'.home)
    (hlast : fs''.get? (last :: (names.reverse ++ fs.home)) = some .directory)
    (hothers : ∀ location, location ≠ last :: (names.reverse ++ fs.home) → fs''.get? location = fs'.get? location) :
    Opens (names ++ [last]) fs fs'' := by
  refine ⟨hhome.trans h.home, fun location hlocation => ?_, fun location hlocation => ?_⟩
  · by_cases heq : location = last :: (names.reverse ++ fs.home)
    · rw [heq, hlast]
    · rw [way_append, List.mem_append, List.mem_singleton] at hlocation
      rw [hothers location heq, h.directories location (hlocation.resolve_right heq)]
  · rw [way_append, List.mem_append, List.mem_singleton, not_or] at hlocation
    rw [hothers location hlocation.2, h.others location hlocation.1]

/-- Where all directories are there but perhaps the last one, that one is made, or it is there already. -/
theorem makeDirectory_last (h : ArePlain (names ++ [last])) (hopens : Opens names fs fs')
    (hlast : fs.get? (last :: (names.reverse ++ fs.home)) = none ∨
      fs.get? (last :: (names.reverse ++ fs.home)) = some .directory) :
    ∃ fs'', Opens (names ++ [last]) fs fs'' ∧ (fs'.makeDirectory (ofNames (names ++ [last])) = .ok fs'' ∨
      (fs'.makeDirectory (ofNames (names ++ [last])) = .error .alreadyExists ∧ fs'' = fs' ∧
        fs'.isDirectory (ofNames (names ++ [last])) = true)) := by
  have hname := (h.isName last (by simp)).short
  have hway := hopens.directories
  rw [← hopens.others _ (notMem_way fs.home names last)] at hlast
  rw [← hopens.home] at hway hlast
  rcases hlast with hfree | htaken
  · have hplace : fs'.resolve .entry (ofNames (names ++ [last])) = .ok ⟨last :: (names.reverse ++ fs'.home), none⟩ :=
      resolve_ofNames h hway (.free _ (by simp) (by simp) hname hfree)
    refine ⟨fs'.put (last :: (names.reverse ++ fs'.home)) .directory,
      hopens.append rfl ?_ fun location hne => ?_, .inl ?_⟩
    · rw [hopens.home, get?_put _ _ _ (by simp), if_pos rfl]
    · rw [hopens.home, get?_put _ _ _ (by simp), if_neg (Ne.symm hne)]
    · rw [makeDirectory, make, hplace]
      rfl
  · have hplace : ∀ purpose, purpose ≠ .create → fs'.resolve purpose (ofNames (names ++ [last])) =
        .ok ⟨last :: (names.reverse ++ fs'.home), some .directory⟩ := fun purpose hpurpose =>
      resolve_ofNames h hway (.entry _ (by simp) (by simp) hname htaken)
    refine ⟨fs', hopens.append rfl (hopens.home ▸ htaken) fun _ _ => rfl, .inr ⟨?_, rfl, ?_⟩⟩
    · rw [makeDirectory, make, hplace .entry (by simp)]
      rfl
    · rw [isDirectory, hplace .look (by simp)]
      simp

/-- Nothing can be made in a directory that is missing. -/
theorem makeDirectory_missing (h : ArePlain (names ++ [last]))
    (hway : ∀ location ∈ way fs.home names, fs.get? location = none ∨ fs.get? location = some .directory)
    (hmissing : ∃ location ∈ way fs.home names, fs.get? location = none) :
    fs.makeDirectory (ofNames (names ++ [last])) = .error .noEntry := by
  rw [makeDirectory, make, resolve_ofNames_missing h hway hmissing]
  rfl

/-- No refusal matters for a directory that is there. -/
theorem run_orDirectory_of_isDirectory {world : World} {path : String} (h : world.disk.isDirectory path = true)
    (made : Except Cause Unit) : world.run (makeDirectories.orDirectory path made) = (.ok (), world) := by
  cases made with
  | ok => rfl
  | error cause =>
    rw [makeDirectories.orDirectory, World.run_bind, World.run_isDirectory, h]
    rfl

/-- The directories to which names lead are made as far as they are missing. -/
theorem run_makeDirectories_ofNames {world : World} {count : Nat} (h : ArePlain names) (hcount : names.length < count)
    (hway : ∀ location ∈ way world.disk.home names,
      world.disk.get? location = none ∨ world.disk.get? location = some .directory) :
    ∃ disk, world.run (makeDirectories (ancestorsUpTo count (ofNames names))) = (.ok (), { world with disk := disk }) ∧
      Opens names world.disk disk := by
  -- From the last name to the first: a directory that cannot be made yet is made after those before it.
  induction names using List.reverseRecOn generalizing count with
  | nil =>
    obtain ⟨count, rfl⟩ := Nat.exists_eq_add_of_lt hcount
    exact ⟨world.disk, rfl, Opens.refl (by simp [way])⟩
  | append_singleton names last ih =>
    obtain ⟨count, rfl⟩ := Nat.exists_eq_succ_of_ne_zero (Nat.ne_of_gt (Nat.zero_lt_of_lt hcount))
    rw [way_append, List.forall_mem_append, List.forall_mem_singleton] at hway
    rw [List.length_append, List.length_singleton, Nat.add_lt_add_iff_right] at hcount
    have hnonempty := ofNames_ne_empty names (h.isName last (by simp))
    rw [ancestorsUpTo_ofNames_append h.isName, makeDirectories, if_neg hnonempty, World.run_bind,
      World.run_makeDirectory]
    by_cases hmissing : ∃ location ∈ way world.disk.home names, world.disk.get? location = none
    · obtain ⟨disk, habove, hopens⟩ := ih h.initial hcount hway.1
      obtain ⟨after, hafter, hmade⟩ := makeDirectory_last h hopens hway.2
      rw [makeDirectory_missing h hway.1 hmissing]
      simp only
      rw [World.run_bind, habove]
      simp only
      rw [World.run_bind, World.run_makeDirectory]
      refine ⟨after, ?_, hafter⟩
      rcases hmade with hok | ⟨htaken, rfl, hdirectory⟩
      · rw [hok]
        rfl
      · rw [htaken]
        exact run_orDirectory_of_isDirectory hdirectory _
    · have hopens : Opens names world.disk world.disk := Opens.refl fun location hlocation =>
        (hway.1 location hlocation).resolve_left fun hnone => hmissing ⟨location, hlocation, hnone⟩
      obtain ⟨after, hafter, hmade⟩ := makeDirectory_last h hopens hway.2
      refine ⟨after, ?_, hafter⟩
      rcases hmade with hok | ⟨htaken, rfl, hdirectory⟩
      · rw [hok]
        rfl
      · rw [htaken]
        exact run_orDirectory_of_isDirectory hdirectory _

/-- Where the directories are there, a file is made or written over. -/
theorem overwrite_ofNames (h : ArePlain (names ++ [last]))
    (hway : ∀ location ∈ way fs.home names, fs.get? location = some .directory)
    (hlast : fs.get? (last :: (names.reverse ++ fs.home)) = none ∨
      ∃ old, fs.get? (last :: (names.reverse ++ fs.home)) = some (.file old)) (bytes : List UInt8) (durable : Bool) :
    fs.overwrite (ofNames (names ++ [last])) bytes durable =
      .ok (fs.put (last :: (names.reverse ++ fs.home)) (.file bytes)) := by
  have hname := (h.isName last (by simp)).short
  rcases hlast with hfree | ⟨old, hfile⟩
  · rw [overwrite, resolve_ofNames h hway (.free _ (by simp) (by simp) hname hfree)]
    rfl
  · rw [overwrite, resolve_ofNames h hway (.entry _ (by simp) (by simp) hname hfile)]
    rfl

end FileSystem

/-- The directory of a file with a plain path can be prepared. -/
theorem FileStore.run_prepareDirectory_ofNames {directories : List String} {name : String} {world : World}
    (h : ArePlain (directories ++ [name]))
    (hway : ∀ location ∈ way world.disk.home directories,
      world.disk.get? location = none ∨ world.disk.get? location = some .directory) :
    ∃ disk, world.run (prepareDirectory (ofNames (directories ++ [name]))) = (.ok (), { world with disk := disk }) ∧
      Opens directories world.disk disk := by
  have hcount := Nat.lt_succ_of_le (length_le_ofNames h.initial.isName)
  obtain ⟨disk, hmade, hopens⟩ := run_makeDirectories_ofNames h.initial hcount hway
  refine ⟨disk, ?_, hopens⟩
  rw [prepareDirectory, parent?_ofNames h.isName]
  simp only
  rw [makeDirectoryPath, ancestors, World.run_bind, hmade]
  rfl

namespace Store

/-- A truth value is set in a store whose path consists of plain names. No directory has to be there for it, but where
    one would be there is nothing else, and where the file would be there is a file or nothing. If the contents with the
    value can be written as text, then the value is saved: the directories are there, the file holds that text, and
    everything else is as before. -/
theorem setBool_ofNames {directories : List String} {name key : String} {value : Bool} {store : FileStore}
    {changed : Store} {world world' : World} {outcome : Except Failure Unit} (hplain : ArePlain (directories ++ [name]))
    (hpath : store.path = ofNames (directories ++ [name])) (hdamaged : store.damaged = false)
    (hway : ∀ location ∈ way world.disk.home directories,
      world.disk.get? location = none ∨ world.disk.get? location = some .directory)
    (hlast : world.disk.get? (name :: (directories.reverse ++ world.disk.home)) = none ∨
      ∃ old, world.disk.get? (name :: (directories.reverse ++ world.disk.home)) = some (.file old))
    (hset : world.run ((file store).setBool key value) = ((outcome, changed), world')) :
    (outcome = .ok () ↔ ∃ text, Toml.Table.toText? (store.contents.insert key (.boolean value)) = some text) ∧
      ∀ text, Toml.Table.toText? (store.contents.insert key (.boolean value)) = some text →
        (∀ location ∈ way world.disk.home directories, world'.disk.get? location = some .directory) ∧
        world'.disk.get? (name :: (directories.reverse ++ world.disk.home)) = some (.file (Utf8.encode text)) ∧
        ∀ location, location ∉ way world.disk.home directories →
          location ≠ name :: (directories.reverse ++ world.disk.home) →
          world'.disk.get? location = world.disk.get? location := by
  obtain ⟨hsaves, -⟩ := saves_of_setBool hset
  obtain ⟨disk, hprepare, hopens⟩ := FileStore.run_prepareDirectory_ofNames hplain hway
  rw [← hpath] at hprepare
  have hoverwrite (bytes : List UInt8) : disk.overwrite store.path bytes false =
      .ok (disk.put (name :: (directories.reverse ++ world.disk.home)) (.file bytes)) := by
    have hlocation := notMem_way world.disk.home directories name
    rw [hpath, ← hopens.home]
    refine overwrite_ofNames hplain (hopens.home ▸ hopens.directories) ?_ bytes false
    rwa [hopens.home, hopens.others _ hlocation]
  have hsaved : ∀ text, (store.withBool key value).contents.toText? = some text → outcome = .ok () ∧
      world'.disk = disk.put (name :: (directories.reverse ++ world.disk.home)) (.file (Utf8.encode text)) :=
    fun text htext => hsaves.of_overwrite hdamaged htext hprepare (hoverwrite _)
  refine ⟨⟨fun hok => ?_, fun ⟨text, htext⟩ => (hsaved text htext).1⟩, fun text htext => ?_⟩
  · exact Option.ne_none_iff_exists'.1 fun hnone => hsaves.of_unserializable hnone hok
  · rw [(hsaved text htext).2]
    refine ⟨fun location hdirectory => ?_, ?_, fun location hother hfile => ?_⟩
    · have hne : name :: (directories.reverse ++ world.disk.home) ≠ location := fun heq =>
        notMem_way world.disk.home directories name (heq ▸ hdirectory)
      rw [get?_put _ _ _ (List.cons_ne_nil _ _), if_neg hne, hopens.directories location hdirectory]
    · rw [get?_put _ _ _ (List.cons_ne_nil _ _), if_pos rfl]
    · rw [get?_put _ _ _ (List.cons_ne_nil _ _), if_neg (Ne.symm hfile), hopens.others location hother]

/-- Of the directories on the way only the first one is there, and is not empty. -/
theorem setBool_ofNames_deep :
    let world := World.mk ⟨[(["h"], .directory), (["x", "h"], .directory), (["p", "x", "h"], .link "n")], ["h"]⟩ []
    let store : FileStore := ⟨"x/y/z/p", [("vibration", .integer 1)], false⟩
    ∃ changed world', world.run ((file store).setBool "k" true) = ((.ok (), changed), world') ∧
      world'.disk.get? ["y", "x", "h"] = some .directory ∧ world'.disk.get? ["z", "y", "x", "h"] = some .directory ∧
      world'.disk.get? ["p", "z", "y", "x", "h"] = some (.file (Utf8.encode "k = true\nvibration = 1\n")) ∧
      world'.disk.get? ["p", "x", "h"] = some (.link "n") := by
  intro world store
  have hname : ∀ name ∈ ["x", "y", "z", "p"], IsName name := by
    intro name hname
    simp only [List.mem_cons, List.not_mem_nil, or_false] at hname
    rcases hname with rfl | rfl | rfl | rfl <;> constructor <;> decide
  have hway : ∀ location ∈ way world.disk.home ["x", "y", "z"],
      world.disk.get? location = none ∨ world.disk.get? location = some .directory := by decide
  have htext : Toml.Table.toText? (store.contents.insert "k" (.boolean true)) = some "k = true\nvibration = 1\n" := rfl
  have hset : world.run ((file store).setBool "k" true) = _ := rfl
  obtain ⟨hok, hsaved⟩ := setBool_ofNames ⟨hname, by decide⟩ rfl rfl hway (.inl rfl) hset
  obtain ⟨hdirectories, hfile, hothers⟩ := hsaved _ htext
  refine ⟨_, _, Prod.ext (Prod.ext (hok.2 ⟨_, htext⟩) rfl) rfl, ?_, ?_, hfile, ?_⟩
  · exact hdirectories _ (by decide)
  · exact hdirectories _ (by decide)
  · exact hothers _ (by decide) (by decide)

end Store

end LedSwitch
