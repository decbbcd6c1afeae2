import Mathlib.Tactic.Common
import LedSwitch.FileSystem.Access

/-!
Where a path leads, as a relation: `FileSystem.Leads` has one rule for each kind of step that succeeds. It is what
following the steps comes to (`FileSystem.leads_of_follow`, `FileSystem.follow_of_leads`). Facts about resolution are
proved by induction on it.
-/

namespace LedSwitch.FileSystem

/-- The steps from the directory `here` lead to a place, through at most so many links. -/
inductive Leads (fs : FileSystem) (purpose : Purpose) : Nat → List Step → Location → Bool → Place → Prop where
  | arrive (links : Nat) (here : Location) (slash : Bool) : Leads fs purpose links [] here slash ⟨here, some .directory⟩
  | stay {links : Nat} {rest : List Step} {here : Location} {slash : Bool} {place : Place} :
      Leads fs purpose links rest here slash place → Leads fs purpose links (.stay :: rest) here slash place
  | up {links : Nat} {rest : List Step} {here : Location} {slash : Bool} {place : Place} :
      Leads fs purpose links rest here.tail slash place → Leads fs purpose links (.up :: rest) here slash place
  /-- Into a directory, and on. -/
  | into {links : Nat} {name : String} {rest : List Step} {here : Location} {slash : Bool} {place : Place}
      (hrest : rest ≠ []) (hname : name.utf8ByteSize ≤ nameLimit) (hentry : fs.get? (name :: here) = some .directory) :
      Leads fs purpose links rest (name :: here) slash place → Leads fs purpose links (.into name :: rest) here slash place
  /-- Along a link. -/
  | link {links : Nat} {name target : String} {rest : List Step} {here : Location} {slash : Bool} {place : Place}
      (hlast : rest = [] → purpose ≠ .entry ∧ ¬ (purpose = .create ∧ slash = true))
      (hname : name.utf8ByteSize ≤ nameLimit) (hentry : fs.get? (name :: here) = some (.link target)) :
      Leads fs purpose links ((Route.ofText target).steps ++ rest) (if (Route.ofText target).rooted then [] else here)
        (slash || rest.isEmpty && (Route.ofText target).slash) place →
      Leads fs purpose (links + 1) (.into name :: rest) here slash place
  /-- To a name that is free. -/
  | free (links : Nat) {name : String} {here : Location} {slash : Bool} (hlook : purpose ≠ .look)
      (hslash : ¬ (purpose = .create ∧ slash = true)) (hname : name.utf8ByteSize ≤ nameLimit)
      (hentry : fs.get? (name :: here) = none) : Leads fs purpose links [.into name] here slash ⟨name :: here, none⟩
  /-- To an entry. -/
  | entry (links : Nat) {name : String} {here : Location} {slash : Bool} {entry : Entry}
      (hlink : ∀ target, entry = .link target → purpose = .entry)
      (hslash : ¬ (purpose = .create ∧ slash = true) ∧ ¬ (purpose = .look ∧ slash = true ∧ entry ≠ .directory))
      (hname : name.utf8ByteSize ≤ nameLimit) (hentry : fs.get? (name :: here) = some entry) :
      Leads fs purpose links [.into name] here slash ⟨name :: here, some entry⟩

section

variable {fs : FileSystem} {purpose : Purpose} {links : Nat}

/-- A walk that succeeds leads to its place, if its links do. -/
theorem leads_of_walk {onLink : String → List Step → Location → Bool → Except Cause Place}
    (honLink : ∀ target rest here slash place, onLink target rest here slash = .ok place →
      ∃ links', links = links' + 1 ∧ Leads fs purpose links' ((Route.ofText target).steps ++ rest)
        (if (Route.ofText target).rooted then [] else here)
        (slash || rest.isEmpty && (Route.ofText target).slash) place) :
    ∀ (steps : List Step) (here : Location) (slash : Bool) (place : Place),
      walk fs purpose onLink steps here slash = .ok place → Leads fs purpose links steps here slash place
  | [], here, slash, place, h => by
    obtain rfl := Except.ok.inj h
    exact .arrive links here slash
  | .stay :: rest, here, slash, place, h => .stay (leads_of_walk honLink rest here slash place h)
  | .up :: rest, here, slash, place, h => .up (leads_of_walk honLink rest here.tail slash place h)
  | [.into name], here, slash, place, h => by
    rw [walk] at h
    by_cases hslash : purpose = .create ∧ slash = true
    · simp [hslash] at h
    by_cases hname : name.utf8ByteSize > nameLimit
    · simp [hslash, hname] at h
    rw [if_neg hslash, if_neg hname] at h
    rw [gt_iff_lt, Nat.not_lt] at hname
    split at h
    · rename_i hentry
      split_ifs at h with hlook
      obtain rfl := Except.ok.inj h
      exact .free links hlook hslash hname hentry
    · rename_i target hentry
      split_ifs at h with hpurpose
      · obtain rfl := Except.ok.inj h
        exact .entry links (fun _ _ => hpurpose) ⟨hslash, by simp [hpurpose]⟩ hname hentry
      · obtain ⟨links', rfl, hleads⟩ := honLink target [] here slash place h
        exact .link (fun _ => ⟨hpurpose, hslash⟩) hname hentry hleads
    · rename_i entry hlink hentry
      split_ifs at h with hlook
      obtain rfl := Except.ok.inj h
      exact .entry links (fun target htarget => absurd htarget (hlink target)) ⟨hslash, hlook⟩ hname hentry
  | .into name :: next :: rest, here, slash, place, h => by
    rw [walk] at h
    · split_ifs at h with hname
      rw [Nat.not_lt] at hname
      split at h
      · cases h
      · rename_i hentry
        exact .into (by simp) hname hentry (leads_of_walk honLink (next :: rest) (name :: here) slash place h)
      · rename_i target hentry
        obtain ⟨links', rfl, hleads⟩ := honLink target (next :: rest) here slash place h
        exact .link (by simp) hname hentry hleads
      · cases h
    · simp

/-- Steps that are followed to a place lead there. -/
theorem leads_of_follow {steps : List Step} {here : Location} {slash : Bool} {place : Place}
    (h : follow fs purpose links steps here slash = .ok place) : Leads fs purpose links steps here slash place := by
  induction links generalizing steps here slash place with
  | zero => exact leads_of_walk (fun _ _ _ _ _ hnone => by cases hnone) steps here slash place h
  | succ links ih =>
    exact leads_of_walk (fun target rest here slash place hlink => ⟨links, rfl, ih hlink⟩) steps here slash place h

/-- One turn of following steps. -/
def onLink (fs : FileSystem) (purpose : Purpose) : Nat → String → List Step → Location → Bool → Except Cause Place
  | 0 => fun _ _ _ _ => .error .tooManyLinks
  | links + 1 => fun target rest here slash =>
    follow fs purpose links ((Route.ofText target).steps ++ rest) (if (Route.ofText target).rooted then [] else here)
      (slash || rest.isEmpty && (Route.ofText target).slash)

theorem follow_eq_walk (steps : List Step) (here : Location) (slash : Bool) :
    follow fs purpose links steps here slash = walk fs purpose (onLink fs purpose links) steps here slash := by
  cases links <;> rfl

/-- Steps that lead to a place are followed there. -/
theorem follow_of_leads {steps : List Step} {here : Location} {slash : Bool} {place : Place}
    (h : Leads fs purpose links steps here slash place) : follow fs purpose links steps here slash = .ok place := by
  induction h with
  | arrive => simp only [follow_eq_walk, walk]
  | stay _ ih => rwa [follow_eq_walk, walk, ← follow_eq_walk]
  | up _ ih => rwa [follow_eq_walk, walk, ← follow_eq_walk]
  | @into links name rest here slash place hrest hname hentry _ ih =>
    obtain ⟨next, others, rfl⟩ := List.exists_cons_of_ne_nil hrest
    rw [follow_eq_walk, walk, if_neg (Nat.not_lt.2 hname)]
    · simp only [hentry]
      rwa [← follow_eq_walk]
    · simp
  | @link links name target rest here slash place hlast hname hentry _ ih =>
    cases rest with
    | nil =>
      rw [follow_eq_walk, walk, if_neg (hlast rfl).2, if_neg (Nat.not_lt.2 hname)]
      simp only [hentry, if_neg (hlast rfl).1]
      exact ih
    | cons next others =>
      rw [follow_eq_walk, walk, if_neg (Nat.not_lt.2 hname)]
      · simp only [hentry]
        exact ih
      · simp
  | free links hlook hslash hname hentry =>
    rw [follow_eq_walk, walk, if_neg hslash, if_neg (Nat.not_lt.2 hname)]
    simp only [hentry, if_neg hlook]
  | entry links hlink hslash hname hentry =>
    rw [follow_eq_walk, walk, if_neg hslash.1, if_neg (Nat.not_lt.2 hname)]
    simp only [hentry]
    split
    · contradiction
    · rename_i heq
      obtain rfl := Option.some.inj heq
      rw [if_pos (hlink _ rfl)]
    · rename_i heq
      obtain rfl := Option.some.inj heq
      rw [if_neg hslash.2]

end

variable {fs fs' : FileSystem} {purpose : Purpose} {links : Nat} {steps : List Step} {here : Location} {slash : Bool}
  {place : Place}

/-- Steps lead to one place only. -/
theorem Leads.unique {other : Place} (h : Leads fs purpose links steps here slash place)
    (hother : Leads fs purpose links steps here slash other) : place = other :=
  Except.ok.inj ((follow_of_leads h).symm.trans (follow_of_leads hother))

/-- What is found at a place is the entry there, unless the steps end in a directory without naming it. -/
theorem Leads.found (h : Leads fs purpose links steps here slash place) :
    place.found = some .directory ∨ (place.location ≠ [] ∧ fs.get? place.location = place.found) := by
  induction h with
  | arrive => exact Or.inl rfl
  | stay _ ih | up _ ih | into _ _ _ _ ih | link _ _ _ _ ih => exact ih
  | free _ _ _ _ hentry | entry _ _ _ _ hentry => exact Or.inr ⟨by simp, hentry⟩

/-- All entries of a tree are still there in another one. -/
def Keeps (fs fs' : FileSystem) : Prop := ∀ location entry, fs.get? location = some entry → fs'.get? location = some entry

/-- What was found once is found again as long as all entries stay. -/
theorem Leads.keeps (hkeeps : Keeps fs fs') (h : Leads fs .look links steps here slash place) :
    Leads fs' .look links steps here slash place := by
  induction h with
  | arrive links here slash => exact .arrive links here slash
  | stay _ ih => exact .stay ih
  | up _ ih => exact .up ih
  | into hrest hname hentry _ ih => exact .into hrest hname (hkeeps _ _ hentry) ih
  | link hlast hname hentry _ ih => exact .link hlast hname (hkeeps _ _ hentry) ih
  | free _ hlook => exact absurd rfl hlook
  | entry links hlink hslash hname hentry => exact .entry links hlink hslash hname (hkeeps _ _ hentry)

/-- A file that would be written over is also found. -/
theorem Leads.look_of_create (h : Leads fs .create links steps here slash place) (hfound : place.found ≠ none) :
    Leads fs .look links steps here slash place := by
  induction h with
  | arrive links here slash => exact .arrive links here slash
  | stay _ ih => exact .stay (ih hfound)
  | up _ ih => exact .up (ih hfound)
  | into hrest hname hentry _ ih => exact .into hrest hname hentry (ih hfound)
  | link _ hname hentry _ ih => exact .link (by simp) hname hentry (ih hfound)
  | free => exact absurd rfl hfound
  | entry links hlink hslash hname hentry =>
    have hnoslash := hslash.1
    simp only [true_and, Bool.not_eq_true] at hnoslash
    exact .entry links (fun target htarget => by cases hlink target htarget) (by simp [hnoslash]) hname hentry

/-- A file that would be made is not found. -/
theorem Leads.not_look_of_free (h : Leads fs .create links steps here slash place) (hfound : place.found = none)
    (other : Place) : ¬ Leads fs .look links steps here slash other := by
  induction h with
  | arrive => cases hfound
  | stay _ ih =>
    intro hlook
    cases hlook with
    | stay hlook => exact ih hfound hlook
  | up _ ih =>
    intro hlook
    cases hlook with
    | up hlook => exact ih hfound hlook
  | into hrest hname hentry _ ih =>
    intro hlook
    cases hlook with
    | into _ _ _ hlook => exact ih hfound hlook
    | link _ _ hentry' => simp [hentry] at hentry'
    | free => exact hrest rfl
    | entry => exact hrest rfl
  | link hlast hname hentry _ ih =>
    intro hlook
    cases hlook with
    | into _ _ hentry' => simp [hentry] at hentry'
    | link _ _ hentry' hlook =>
      obtain rfl : _ = _ := by simpa [hentry] using hentry'
      exact ih hfound hlook
    | free _ _ _ _ hentry' => simp [hentry] at hentry'
    | entry _ hlink _ _ hentry' =>
      obtain rfl : _ = _ := by simpa [hentry] using hentry'
      cases hlink _ rfl
  | free links hlook hslash hname hentry =>
    intro hlook'
    cases hlook' with
    | into hrest => exact hrest rfl
    | link _ _ hentry' => simp [hentry] at hentry'
    | free _ hlook => exact hlook rfl
    | entry _ _ _ _ hentry' => simp [hentry] at hentry'
  | entry _ _ _ _ hentry => cases hfound

/-- Whatever way leads to a file for writing leads to it for reading once it is written. -/
theorem Leads.look_of_put (h : Leads fs .create links steps here slash place) {bytes : List UInt8}
    (hfound : place.found = none ∨ ∃ old, place.found = some (.file old)) :
    Leads (fs.put place.location (.file bytes)) .look links steps here slash ⟨place.location, some (.file bytes)⟩ := by
  have hplace : place.location ≠ [] ∧ fs.get? place.location = place.found :=
    h.found.resolve_left fun hdirectory => by
      rcases hfound with hnone | ⟨old, hfile⟩
      · simp [hdirectory] at hnone
      · simp [hdirectory] at hfile
  have hother : ∀ location entry, fs.get? location = some entry → (∀ old, entry ≠ .file old) →
      (fs.put place.location (.file bytes)).get? location = some entry := by
    intro location entry hentry hnofile
    rw [get?_put fs location (.file bytes) hplace.1, if_neg]
    · exact hentry
    · rintro rfl
      rw [hplace.2] at hentry
      rcases hfound with hnone | ⟨old, hfile⟩
      · simp [hentry] at hnone
      · exact hnofile old (by simpa [hentry] using hfile)
  have hown : (fs.put place.location (.file bytes)).get? place.location = some (.file bytes) := by
    rw [get?_put fs place.location (.file bytes) hplace.1, if_pos rfl]
  generalize fs.put place.location (.file bytes) = fs' at hother hown ⊢
  induction h with
  | arrive => simp at hfound
  | stay _ ih => exact .stay (ih hfound hplace hown)
  | up _ ih => exact .up (ih hfound hplace hown)
  | into hrest hname hentry _ ih =>
    exact .into hrest hname (hother _ _ hentry (by simp)) (ih hfound hplace hown)
  | link _ hname hentry _ ih =>
    exact .link (by simp) hname (hother _ _ hentry (by simp)) (ih hfound hplace hown)
  | free links hlook hslash hname _ =>
    simp only [true_and, Bool.not_eq_true] at hslash
    exact .entry links (by simp) (by simp [hslash]) hname hown
  | entry links _ hslash hname _ =>
    have hnoslash := hslash.1
    simp only [true_and, Bool.not_eq_true] at hnoslash
    exact .entry links (by simp) (by simp [hnoslash]) hname hown

end LedSwitch.FileSystem
