import LedSwitch.Machine
import LedSwitch.Proofs.FileSystem.Leads

/-!
What the operations on files do to the places that paths lead to. Making directories only adds to a tree
(`FileSystem.Grows`), so that what was found once is found again; a file that was written is read back
(`FileSystem.read_overwrite`).
-/

namespace LedSwitch

namespace FileSystem

variable {fs fs' : FileSystem} {purpose : Purpose} {path : String} {place : Place}

/-- A path resolves to the place to which its steps lead, if it is no path that the system refuses outright. -/
theorem resolve_eq_ok_iff : fs.resolve purpose path = .ok place ↔
    ('\x00' ∉ path.toList ∧ path ≠ "" ∧ path.utf8ByteSize ≤ pathLimit) ∧
      Leads fs purpose linkLimit (Route.ofText path).steps (if (Route.ofText path).rooted then [] else fs.home)
        (Route.ofText path).slash place := by
  rw [resolve]
  by_cases hnul : '\x00' ∈ path.toList
  · simp [hnul]
  by_cases hempty : path = ""
  · simp [hempty]
  by_cases hlong : path.utf8ByteSize > pathLimit
  · simp [hnul, hempty, hlong, Nat.not_le.2 hlong]
  rw [if_neg hnul, if_neg hempty, if_neg hlong]
  exact ⟨fun h => ⟨⟨hnul, hempty, Nat.not_lt.1 hlong⟩, leads_of_follow h⟩, fun h => follow_of_leads h.2⟩

/-- A path that leads to an entry still does so when a tree keeps all its entries. -/
theorem resolve_of_keeps (hkeeps : Keeps fs fs') (hhome : fs'.home = fs.home) (h : fs.resolve .look path = .ok place) :
    fs'.resolve .look path = .ok place := by
  rw [resolve_eq_ok_iff] at h ⊢
  rw [hhome]
  exact ⟨h.1, h.2.keeps hkeeps⟩

/-- What would be written over is found. -/
theorem resolve_look_of_create (h : fs.resolve .create path = .ok place) (hfound : place.found ≠ none) :
    fs.resolve .look path = .ok place := by
  rw [resolve_eq_ok_iff] at h ⊢
  exact ⟨h.1, h.2.look_of_create hfound⟩

/-- What is found is also what would be written over. -/
theorem resolve_create_eq {other : Place} (h : fs.resolve .look path = .ok place)
    (hcreate : fs.resolve .create path = .ok other) : other = place := by
  rw [resolve_eq_ok_iff] at h hcreate
  by_cases hfound : other.found = none
  · exact absurd h.2 (hcreate.2.not_look_of_free hfound place)
  · exact (hcreate.2.look_of_create hfound).unique h.2

/-- A file is found at the place to which it was written. -/
theorem resolve_look_of_put (h : fs.resolve .create path = .ok place)
    (hfound : place.found = none ∨ ∃ old, place.found = some (.file old)) (bytes : List UInt8) :
    (fs.put place.location (.file bytes)).resolve .look path = .ok ⟨place.location, some (.file bytes)⟩ := by
  rw [resolve_eq_ok_iff] at h ⊢
  rw [put_home]
  exact ⟨h.1, h.2.look_of_put hfound⟩

/-- What is found at a place, unless that is a directory, is the entry there. -/
theorem get?_of_resolve (h : fs.resolve purpose path = .ok place) (hfound : place.found ≠ some .directory) :
    place.location ≠ [] ∧ fs.get? place.location = place.found :=
  ((resolve_eq_ok_iff.1 h).2.found).resolve_left hfound

/-- What a successful write does: it sets a file, or nothing if it went to a device. -/
theorem overwrite_eq_ok {bytes : List UInt8} {durable : Bool} (h : fs.overwrite path bytes durable = .ok fs') :
    ∃ place, fs.resolve .create path = .ok place ∧
      (((place.found = none ∨ ∃ old, place.found = some (.file old)) ∧
          fs' = fs.put place.location (.file bytes)) ∨
        ((∃ device, place.found = some (.device device)) ∧ fs' = fs)) := by
  rw [overwrite] at h
  cases hplace : fs.resolve .create path with
  | error cause =>
    rw [hplace] at h
    cases h
  | ok place =>
    rw [hplace] at h
    refine ⟨place, rfl, ?_⟩
    cases hfound : place.found with
    | none =>
      simp only [bind, Except.bind, hfound, Except.ok.injEq] at h
      exact Or.inl ⟨Or.inl rfl, h.symm⟩
    | some entry =>
      cases entry with
      | file old =>
        simp only [bind, Except.bind, hfound, Except.ok.injEq] at h
        exact Or.inl ⟨Or.inr ⟨old, rfl⟩, h.symm⟩
      | device device =>
        refine Or.inr ⟨⟨device, rfl⟩, ?_⟩
        cases device <;> simp only [bind, Except.bind, hfound] at h <;> split_ifs at h <;> exact (Except.ok.inj h).symm
      | directory => simp [bind, Except.bind, hfound] at h
      | link target => simp [bind, Except.bind, hfound] at h

/-- Whether a path leads to a device, which does not keep what is written to it. -/
def isDevice (fs : FileSystem) (path : String) : Bool :=
  match fs.resolve .look path with
  | .ok ⟨_, some (.device _)⟩ => true
  | _ => false

/-- A file that was written is read back. -/
theorem read_overwrite {bytes : List UInt8} {durable : Bool} (h : fs.overwrite path bytes durable = .ok fs')
    (hdevice : fs'.isDevice path = false) : fs'.isPresent path = true ∧ fs'.read path = .ok bytes := by
  obtain ⟨place, hplace, ⟨hfound, rfl⟩ | ⟨⟨device, hfound⟩, rfl⟩⟩ := overwrite_eq_ok h
  · have hlook := resolve_look_of_put hplace hfound bytes
    refine ⟨by rw [isPresent, hlook]; rfl, ?_⟩
    rw [read, hlook]
    rfl
  · obtain ⟨location, found⟩ := place
    obtain rfl : found = some (.device device) := hfound
    rw [isDevice, resolve_look_of_create hplace (by simp)] at hdevice
    cases hdevice

/-- A tree grows by directories at places that were free. -/
structure Grows (fs fs' : FileSystem) : Prop where
  home : fs'.home = fs.home
  entries : ∀ location, fs'.get? location = fs.get? location ∨
    (fs.get? location = none ∧ fs'.get? location = some .directory)

namespace Grows

theorem refl (fs : FileSystem) : Grows fs fs := ⟨rfl, fun _ => Or.inl rfl⟩

theorem trans {fs'' : FileSystem} (h : Grows fs fs') (h' : Grows fs' fs'') : Grows fs fs'' := by
  refine ⟨h'.home.trans h.home, fun location => ?_⟩
  rcases h.entries location with heq | ⟨hnone, hdirectory⟩
  · rw [← heq]
    exact h'.entries location
  · rcases h'.entries location with heq | ⟨hnone', -⟩
    · exact Or.inr ⟨hnone, heq.trans hdirectory⟩
    · simp [hdirectory] at hnone'

theorem keeps (h : Grows fs fs') : Keeps fs fs' := by
  intro location entry hentry
  rcases h.entries location with heq | ⟨hnone, -⟩
  · rwa [heq]
  · simp [hentry] at hnone

end Grows

/-- Making a directory adds just that. -/
theorem grows_makeDirectory (h : fs.makeDirectory path = .ok fs') : Grows fs fs' := by
  rw [makeDirectory, make] at h
  cases hplace : fs.resolve .entry path with
  | error cause =>
    rw [hplace] at h
    cases h
  | ok place =>
    simp only [hplace, bind, Except.bind] at h
    split_ifs at h with hfound
    obtain rfl := Except.ok.inj h
    have hnone : place.found = none := by simpa using hfound
    obtain ⟨hlocation, hentry⟩ := get?_of_resolve hplace (by simp [hnone])
    refine ⟨rfl, fun location => ?_⟩
    rw [get?_put fs location .directory hlocation]
    split_ifs with heq
    · exact Or.inr ⟨by rw [← heq, hentry, hnone], rfl⟩
    · exact Or.inl rfl

end FileSystem

end LedSwitch
