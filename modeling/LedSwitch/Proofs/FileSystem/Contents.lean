import LedSwitch.Proofs.FileSystem.Growth

/-!
What a new content of a file does to the places that paths lead to: nothing, but for the bytes that are found there
(`FileSystem.resolve_put_file`). So a file that is found is the one that is written over
(`FileSystem.overwrite_of_file`), and writing it leaves the ways to all other files as they were.
-/

namespace LedSwitch

/-- The place as it is found when the file at a location holds other bytes. -/
def Place.rewritten (place : Place) (location : Location) (bytes : List UInt8) : Place :=
  if place.location = location ∧ place.found ≠ some .directory then ⟨location, some (.file bytes)⟩ else place

namespace Place

variable {place : Place} {location : Location} {bytes : List UInt8}

theorem rewritten_of_directory (h : place.found = some .directory) : place.rewritten location bytes = place :=
  if_neg fun hfile => hfile.2 h

theorem rewritten_of_ne (h : place.location ≠ location) : place.rewritten location bytes = place :=
  if_neg fun hfile => h hfile.1

@[simp] theorem rewritten_file (old : List UInt8) :
    (⟨location, some (.file old)⟩ : Place).rewritten location bytes = ⟨location, some (.file bytes)⟩ := by
  simp [rewritten]

end Place

namespace FileSystem

variable {fs : FileSystem} {purpose : Purpose} {links : Nat} {steps : List Step} {here location : Location}
  {slash : Bool} {place : Place} {path : String} {old bytes : List UInt8}

theorem location_ne_nil (hfile : fs.get? location = some (.file old)) : location ≠ [] := by
  rintro rfl
  simp [get?] at hfile

theorem get?_put_file (hfile : fs.get? location = some (.file old)) {other : Location} {entry : Entry}
    (hentry : fs.get? other = some entry) (hother : ∀ old, entry ≠ .file old) :
    (fs.put location (.file bytes)).get? other = some entry := by
  rw [get?_put fs other _ (location_ne_nil hfile), if_neg]
  · exact hentry
  · rintro rfl
    exact hother old (Option.some.inj (hentry.symm.trans hfile))

/-- Steps lead where they led before when a file gets other bytes. -/
theorem Leads.put_file (hfile : fs.get? location = some (.file old))
    (h : Leads fs purpose links steps here slash place) :
    Leads (fs.put location (.file bytes)) purpose links steps here slash (place.rewritten location bytes) := by
  induction h with
  | arrive links here slash =>
    rw [Place.rewritten_of_directory rfl]
    exact .arrive links here slash
  | stay _ ih => exact .stay ih
  | up _ ih => exact .up ih
  | into hrest hname hentry _ ih => exact .into hrest hname (get?_put_file hfile hentry (by simp)) ih
  | link hlast hname hentry _ ih => exact .link hlast hname (get?_put_file hfile hentry (by simp)) ih
  | @free links name here slash hlook hslash hname hentry =>
    have hne : location ≠ name :: here := by
      rintro rfl
      simp [hentry] at hfile
    rw [Place.rewritten_of_ne hne.symm]
    refine .free links hlook hslash hname ?_
    rw [get?_put fs _ _ (location_ne_nil hfile), if_neg hne, hentry]
  | @entry links name here slash entry hlink hslash hname hentry =>
    by_cases heq : location = name :: here
    · subst heq
      obtain rfl : entry = .file old := Option.some.inj (hentry.symm.trans hfile)
      rw [Place.rewritten_file]
      exact .entry links (by simp) ⟨hslash.1, by simpa using hslash.2⟩ hname
        (by rw [get?_put fs _ _ (List.cons_ne_nil name here), if_pos rfl])
    · rw [Place.rewritten_of_ne (Ne.symm heq)]
      exact .entry links hlink hslash hname (by rw [get?_put fs _ _ (location_ne_nil hfile), if_neg heq, hentry])

theorem resolve_put_file (hfile : fs.get? location = some (.file old)) (h : fs.resolve purpose path = .ok place)
    (bytes : List UInt8) : (fs.put location (.file bytes)).resolve purpose path =
      .ok (place.rewritten location bytes) := by
  rw [resolve_eq_ok_iff] at h ⊢
  exact ⟨h.1, h.2.put_file hfile⟩

theorem isDevice_of_put_file (hfile : fs.get? location = some (.file old))
    (h : (fs.put location (.file bytes)).isDevice path = false) : fs.isDevice path = false := by
  rw [isDevice] at h ⊢
  split
  · rename_i place device hlook
    have hne : place ≠ location := by
      rintro rfl
      cases (get?_of_resolve hlook (by simp)).2.symm.trans hfile
    rw [resolve_put_file hfile hlook, Place.rewritten_of_ne hne] at h
    exact h
  · rfl

theorem isPresent_of_resolve (h : fs.resolve .look path = .ok place) : fs.isPresent path = true := by
  rw [isPresent, h]
  rfl

theorem read_of_resolve (h : fs.resolve .look path = .ok ⟨location, some (.file bytes)⟩) :
    fs.read path = .ok bytes := by
  rw [read, h]
  rfl

theorem resolve_of_read (hread : fs.read path = .ok bytes) (hdevice : fs.isDevice path = false) :
    ∃ location, fs.resolve .look path = .ok ⟨location, some (.file bytes)⟩ := by
  rw [read] at hread
  rw [isDevice] at hdevice
  cases hlook : fs.resolve .look path with
  | error cause =>
    rw [hlook] at hread
    cases hread
  | ok place =>
    obtain ⟨location, found⟩ := place
    rw [hlook] at hread hdevice
    cases found with
    | none => cases hread
    | some entry =>
      cases entry with
      | file bytes' => exact ⟨location, by rw [Except.ok.inj hread]⟩
      | device device => cases hdevice
      | directory | link => cases hread

/-- No slash is left at the end of a way to something that is no directory. -/
theorem Leads.slash_eq_false (h : Leads fs .look links steps here slash place)
    (hfound : place.found ≠ some .directory) : slash = false := by
  induction h with
  | arrive => exact absurd rfl hfound
  | stay _ ih | up _ ih | into _ _ _ _ ih => exact ih hfound
  | link _ _ _ _ ih => exact (Bool.or_eq_false_iff.1 (ih hfound)).1
  | free _ hlook => exact absurd rfl hlook
  | entry _ _ hslash =>
    rw [Bool.eq_false_iff]
    exact fun hslash' => hslash.2 ⟨rfl, hslash', fun heq => hfound (congrArg some heq)⟩

/-- What is found, unless it is a directory, is also what would be written over. -/
theorem Leads.create_of_look (h : Leads fs .look links steps here slash place)
    (hfound : place.found ≠ some .directory) : Leads fs .create links steps here slash place := by
  have hslash := h.slash_eq_false hfound
  induction h with
  | arrive => exact absurd rfl hfound
  | stay _ ih => exact .stay (ih hfound hslash)
  | up _ ih => exact .up (ih hfound hslash)
  | into hrest hname hentry _ ih => exact .into hrest hname hentry (ih hfound hslash)
  | link _ hname hentry hlook ih =>
    exact .link (fun _ => by simp [hslash]) hname hentry (ih hfound (hlook.slash_eq_false hfound))
  | free _ hlook => exact absurd rfl hlook
  | entry links hlink _ hname hentry =>
    exact .entry links (fun target htarget => by cases hlink target htarget) (by simp [hslash]) hname hentry

theorem resolve_create_of_look (h : fs.resolve .look path = .ok place) (hfound : place.found ≠ some .directory) :
    fs.resolve .create path = .ok place := by
  rw [resolve_eq_ok_iff] at h ⊢
  exact ⟨h.1, h.2.create_of_look hfound⟩

theorem overwrite_of_file (h : fs.resolve .look path = .ok ⟨location, some (.file old)⟩) (bytes : List UInt8)
    (durable : Bool) : fs.overwrite path bytes durable = .ok (fs.put location (.file bytes)) := by
  rw [overwrite, resolve_create_of_look h (by simp)]
  rfl

/-- What is found is there. -/
theorem Leads.found_ne_none (h : Leads fs .look links steps here slash place) : place.found ≠ none := by
  induction h with
  | arrive | entry => simp
  | stay _ ih | up _ ih | into _ _ _ _ ih | link _ _ _ _ ih => exact ih
  | free _ hlook => exact absurd rfl hlook

/-- What is found is found again after any file was written, with other bytes if it was that file. -/
theorem resolve_put {target : Place} {written : String} (htarget : fs.resolve .create written = .ok target)
    (hfound : target.found = none ∨ ∃ old, target.found = some (.file old)) (h : fs.resolve .look path = .ok place)
    (bytes : List UInt8) : (fs.put target.location (.file bytes)).resolve .look path =
      .ok (place.rewritten target.location bytes) := by
  obtain ⟨hlocation, hentry⟩ := get?_of_resolve htarget (by rcases hfound with hfound | ⟨_, hfound⟩ <;> simp [hfound])
  rcases hfound with hnone | ⟨written, hfile⟩
  · -- What is written is a new file, so all that was there is kept.
    rw [hnone] at hentry
    have hkeeps : Keeps fs (fs.put target.location (.file bytes)) := by
      intro other entry hother
      rw [get?_put fs other _ hlocation, if_neg, hother]
      rintro rfl
      simp [hentry] at hother
    have hplace : place.rewritten target.location bytes = place := by
      by_cases hdirectory : place.found = some .directory
      · exact Place.rewritten_of_directory hdirectory
      · refine Place.rewritten_of_ne fun heq => (resolve_eq_ok_iff.1 h).2.found_ne_none ?_
        rw [← (get?_of_resolve h hdirectory).2, heq, hentry]
    rw [hplace]
    exact resolve_of_keeps hkeeps rfl h
  · exact resolve_put_file (hentry.trans hfile) h bytes

/-- A path leads to a file at a location. -/
def FileAt (fs : FileSystem) (path : String) (location : Location) : Prop :=
  ∃ bytes, fs.resolve .look path = .ok ⟨location, some (.file bytes)⟩

theorem FileAt.of_grows {fs' : FileSystem} (h : fs.FileAt path location) (hgrows : Grows fs fs') :
    fs'.FileAt path location :=
  h.imp fun _ hlook => resolve_of_keeps hgrows.keeps hgrows.home hlook

/-- A file stays where it is when files are written. -/
theorem FileAt.put {target : Place} {written : String} (h : fs.FileAt path location)
    (htarget : fs.resolve .create written = .ok target)
    (hfound : target.found = none ∨ ∃ old, target.found = some (.file old)) (bytes : List UInt8) :
    (fs.put target.location (.file bytes)).FileAt path location := by
  obtain ⟨old, hlook⟩ := h
  have hput := resolve_put htarget hfound hlook bytes
  by_cases hsame : location = target.location
  · subst hsame
    exact ⟨bytes, by rw [hput, Place.rewritten_file]⟩
  · exact ⟨old, by rw [hput, Place.rewritten_of_ne hsame]⟩

/-- The tree after an attempt to write a file, which may have been refused. -/
def overwritten (fs : FileSystem) (path : String) (bytes : List UInt8) : FileSystem :=
  match fs.overwrite path bytes false with
  | .ok fs' => fs'
  | .error _ => fs

theorem overwritten_of_ok {fs' : FileSystem} (h : fs.overwrite path bytes false = .ok fs') :
    fs.overwritten path bytes = fs' := by
  rw [overwritten, h]

/-- An attempt to write changes at most the file to which the path leads, be it there already or not. -/
theorem overwritten_eq (fs : FileSystem) (path : String) (bytes : List UInt8) :
    fs.overwritten path bytes = fs ∨ ∃ place, fs.resolve .create path = .ok place ∧
      (place.found = none ∨ ∃ old, place.found = some (.file old)) ∧
      fs.overwritten path bytes = fs.put place.location (.file bytes) := by
  rw [overwritten]
  cases hwritten : fs.overwrite path bytes false with
  | error cause => exact Or.inl rfl
  | ok fs' =>
    obtain ⟨place, hplace, ⟨hfound, hput⟩ | ⟨-, hsame⟩⟩ := overwrite_eq_ok hwritten
    · exact Or.inr ⟨place, hplace, hfound, hput⟩
    · exact Or.inl hsame

/-- A directory stays where it is when a file is written. -/
theorem resolve_overwritten_of_directory (h : fs.resolve .look path = .ok ⟨location, some .directory⟩)
    (written : String) (bytes : List UInt8) :
    (fs.overwritten written bytes).resolve .look path = .ok ⟨location, some .directory⟩ := by
  obtain hsame | ⟨target, htarget, hfound, hput⟩ := fs.overwritten_eq written bytes
  · rwa [hsame]
  · rw [hput, resolve_put htarget hfound h, Place.rewritten_of_directory rfl]

theorem FileAt.overwritten (h : fs.FileAt path location) (written : String) (bytes : List UInt8) :
    (fs.overwritten written bytes).FileAt path location := by
  obtain hsame | ⟨target, htarget, hfound, hput⟩ := fs.overwritten_eq written bytes
  · rwa [hsame]
  · exact hput ▸ h.put htarget hfound bytes

end FileSystem

end LedSwitch
