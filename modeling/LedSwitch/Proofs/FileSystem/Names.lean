import Mathlib.Data.List.Induction
import LedSwitch.Proofs.FileSystem.Growth
import LedSwitch.Proofs.Text.Parts

/-!
Paths of plain names, which lead from the working directory into one directory after the other. Such a path reads as the
steps into its names (`Path.route_ofNames`), and its parent is the path without the last name (`Path.parent?_ofNames`).
Where the directories on its way are there it leads to its last name (`FileSystem.resolve_ofNames`), and where one of
them is missing it leads nowhere (`FileSystem.resolve_ofNames_missing`).
-/

namespace LedSwitch

namespace Path

/-- A name of an entry, with no other meaning in a path. -/
structure IsName (name : String) : Prop where
  ne_empty : name ≠ ""
  ne_stay : name ≠ "."
  ne_up : name ≠ ".."
  slash : '/' ∉ name.toList
  nul : '\x00' ∉ name.toList
  short : name.utf8ByteSize ≤ FileSystem.nameLimit

/-- The relative path that consists of some names. -/
def ofNames (names : List String) : String := "/".intercalate names

/-- Names that make up a path of a length that the system takes. -/
structure ArePlain (names : List String) : Prop where
  isName : ∀ name ∈ names, IsName name
  short : (ofNames names).utf8ByteSize ≤ FileSystem.pathLimit

variable {names : List String} {name last : String}

namespace IsName

theorem toList_ne_nil (h : IsName name) : name.toList ≠ [] := by simpa using h.ne_empty

theorem step?_eq (h : IsName name) : step? name.toList = some (.into name) := by
  have hstay : name.toList ≠ ['.'] := fun heq => h.ne_stay (String.toList_injective heq)
  have hup : name.toList ≠ ['.', '.'] := fun heq => h.ne_up (String.toList_injective heq)
  rw [step?, if_neg h.toList_ne_nil, if_neg hstay, if_neg hup, String.ofList_toList]

/-- Nothing is cut off a path that ends in a name. -/
theorem trimReversed_eq (h : IsName name) (before : List Char) :
    trimReversed (name.toList.reverse ++ before) = name.toList.reverse ++ before := by
  cases hreverse : name.toList.reverse with
  | nil => exact absurd (by simpa using hreverse) h.ne_empty
  | cons c rest =>
    have hslash : '/' ∉ c :: rest := hreverse ▸ fun hmem => h.slash (List.mem_reverse.1 hmem)
    rw [List.mem_cons, not_or] at hslash
    rw [List.cons_append, trimReversed, if_neg (Ne.symm hslash.1), if_neg]
    rintro ⟨rfl, hhead⟩
    cases rest with
    | nil => exact h.ne_stay (String.toList_injective (by simpa using hreverse))
    | cons d rest =>
      obtain rfl : d = '/' := Option.some.inj hhead
      exact hslash.2 List.mem_cons_self

end IsName

theorem ofNames_append (hnames : names ≠ []) (last : String) :
    ofNames (names ++ [last]) = ofNames names ++ "/" ++ last := by
  rw [ofNames, String.intercalate_append_of_ne_nil hnames (by simp), String.intercalate_singleton, ofNames]

theorem exists_toList_ofNames (names : List String) (last : String) :
    ∃ before, (ofNames (names ++ [last])).toList = before ++ last.toList := by
  by_cases hnames : names = []
  · exact ⟨[], by simp [hnames, ofNames]⟩
  · exact ⟨(ofNames names ++ "/").toList, by rw [ofNames_append hnames, String.toList_append]⟩

theorem ofNames_ne_empty (names : List String) (hlast : IsName last) : ofNames (names ++ [last]) ≠ "" := by
  obtain ⟨before, hbefore⟩ := exists_toList_ofNames names last
  intro hempty
  rw [hempty] at hbefore
  exact hlast.toList_ne_nil (List.append_eq_nil_iff.1 hbefore.symm).2

theorem head?_ofNames_ne (h : ∀ name ∈ names, IsName name) : (ofNames names).toList.head? ≠ some '/' := by
  cases names with
  | nil => simp [ofNames]
  | cons name rest =>
    have hname := h name List.mem_cons_self
    have hstart : ∃ after, (ofNames (name :: rest)).toList = name.toList ++ after := by
      cases rest with
      | nil => exact ⟨[], by simp [ofNames]⟩
      | cons next rest =>
        rw [ofNames, String.intercalate_cons_cons, String.append_assoc, String.toList_append]
        exact ⟨_, rfl⟩
    obtain ⟨after, hafter⟩ := hstart
    rw [hafter, List.head?_append_of_ne_nil _ hname.toList_ne_nil]
    exact fun hhead => hname.slash (List.mem_of_head? hhead)

theorem getLast?_ofNames_ne (h : ∀ name ∈ names, IsName name) : (ofNames names).toList.getLast? ≠ some '/' := by
  rcases List.eq_nil_or_concat' names with rfl | ⟨before, last, rfl⟩
  · simp [ofNames]
  · have hlast := h last (by simp)
    obtain ⟨start, hstart⟩ := exists_toList_ofNames before last
    rw [hstart, List.getLast?_append_of_ne_nil _ hlast.toList_ne_nil]
    exact fun hend => hlast.slash (List.mem_of_getLast? hend)

/-- The path of plain names goes into one after the other. -/
theorem route_ofNames (h : ∀ name ∈ names, IsName name) :
    Route.ofText (ofNames names) = ⟨false, names.map .into, false⟩ := by
  have hsteps : (Parts.split '/' (ofNames names).toList).filterMap step? = names.map .into := by
    by_cases hnames : names = []
    · rw [hnames]
      rfl
    · have hread : names.filterMap (step? ∘ String.toList) = names.filterMap (some ∘ Step.into) :=
        List.filterMap_congr fun name hname => (h name hname).step?_eq
      rw [ofNames, String.toList_intercalate, show "/".toList = ['/'] from rfl,
        Parts.split_intercalate (by simpa using hnames) (by simpa using fun name hname => (h name hname).slash),
        List.filterMap_map, hread, List.filterMap_eq_map]
  rw [Route.ofText, hsteps]
  simp [head?_ofNames_ne h, getLast?_ofNames_ne h]

theorem trimReversed_ofNames (h : ∀ name ∈ names, IsName name) :
    trimReversed (ofNames names).toList.reverse = (ofNames names).toList.reverse := by
  rcases List.eq_nil_or_concat' names with rfl | ⟨before, last, rfl⟩
  · rfl
  · obtain ⟨start, hstart⟩ := exists_toList_ofNames before last
    rw [hstart, List.reverse_append, (h last (by simp)).trimReversed_eq]

/-- The parent of a path that ends in a name is what stands before that, trimmed. -/
theorem parent?_of_name {path above : String} {before : List Char} (hlast : IsName last)
    (hpath : path.toList.reverse = last.toList.reverse ++ before) (hbefore : ∀ c ∈ before.head?, c = '/')
    (habove : trimReversed before = above.toList.reverse) : parent? path = some above := by
  have hsome : ¬ (last.toList.reverse ++ before = [] ∨ last.toList.reverse ++ before = ['/']) := by
    rintro (hnil | hroot)
    · exact hlast.toList_ne_nil (by simpa using (List.append_eq_nil_iff.1 hnil).1)
    · have hhead := congrArg List.head? hroot
      rw [List.head?_append_of_ne_nil _ (by simpa using hlast.toList_ne_nil)] at hhead
      exact hlast.slash (List.mem_reverse.1 (List.mem_of_head? hhead))
  have hcut : (last.toList.reverse ++ before).dropWhile (· ≠ '/') = before := by
    have hslash : ∀ c ∈ last.toList.reverse, decide (c ≠ '/') = true := fun c hc =>
      decide_eq_true fun heq => hlast.slash (heq ▸ List.mem_reverse.1 hc)
    rw [List.dropWhile_append_of_pos hslash]
    cases before with
    | nil => rfl
    | cons c rest => rw [List.dropWhile_cons_of_neg (by simp [hbefore c rfl])]
  rw [parent?, hpath, hlast.trimReversed_eq]
  simp only [if_neg hsome]
  rw [hcut, habove, List.reverse_reverse, String.ofList_toList]

/-- Without its last name, a path is that of the names before. -/
theorem parent?_ofNames (h : ∀ name ∈ names ++ [last], IsName name) :
    parent? (ofNames (names ++ [last])) = some (ofNames names) := by
  have hlast := h last (by simp)
  rcases List.eq_nil_or_concat' names with rfl | ⟨others, next, rfl⟩
  · have hpath : (ofNames ([] ++ [last])).toList.reverse = last.toList.reverse ++ [] := by simp [ofNames]
    exact parent?_of_name hlast hpath (by simp) rfl
  · have hnext := trimReversed_ofNames fun name hname => h name (List.mem_append_left _ hname)
    have hpath : (ofNames (others ++ [next] ++ [last])).toList.reverse =
        last.toList.reverse ++ '/' :: (ofNames (others ++ [next])).toList.reverse := by
      rw [ofNames_append (by simp)]
      simp
    have hsome : (ofNames (others ++ [next])).toList.reverse ≠ [] := by
      simpa using ofNames_ne_empty others (h next (by simp))
    refine parent?_of_name hlast hpath (by simp) ?_
    rw [trimReversed, if_pos rfl, if_neg hsome, hnext]

/-- There are no more names than characters. -/
theorem length_le_ofNames (h : ∀ name ∈ names, IsName name) : names.length ≤ (ofNames names).length := by
  induction names using List.reverseRecOn with
  | nil => exact Nat.zero_le _
  | append_singleton names last ih =>
    have hlast : 1 ≤ last.length := List.length_pos_of_ne_nil (h last (by simp)).toList_ne_nil
    have hnames := ih fun name hname => h name (List.mem_append_left _ hname)
    by_cases hempty : names = []
    · simpa [hempty, ofNames] using hlast
    · rw [ofNames_append hempty, String.length_append, String.length_append, List.length_append, List.length_singleton]
      omega

/-- What is left of a path of plain names by cutting off the last one again and again. -/
theorem ancestorsUpTo_ofNames_append (h : ∀ name ∈ names ++ [last], IsName name) (count : Nat) :
    ancestorsUpTo (count + 1) (ofNames (names ++ [last])) =
      ofNames (names ++ [last]) :: ancestorsUpTo count (ofNames names) := by
  rw [ancestorsUpTo, parent?_ofNames h]

namespace ArePlain

theorem initial (h : ArePlain (names ++ [last])) : ArePlain names := by
  refine ⟨fun name hname => h.isName name (List.mem_append_left _ hname), ?_⟩
  have hshort := h.short
  by_cases hempty : names = []
  · simp [hempty, ofNames]
  · rw [ofNames_append hempty, String.utf8ByteSize_append, String.utf8ByteSize_append] at hshort
    omega

theorem nul_notMem (h : ArePlain names) : '\x00' ∉ (ofNames names).toList := by
  rw [ofNames, String.toList_intercalate]
  exact Parts.notMem_intercalate (by decide) (by simpa using fun name hname => (h.isName name hname).nul)

end ArePlain

end Path

namespace FileSystem

open LedSwitch.Path

/-- The locations to which names lead from a directory, one after the other. -/
def way : Location → List String → List Location
  | _, [] => []
  | here, name :: rest => (name :: here) :: way (name :: here) rest

theorem way_append (here : Location) (names : List String) (last : String) :
    way here (names ++ [last]) = way here names ++ [last :: (names.reverse ++ here)] := by
  induction names generalizing here with
  | nil => rfl
  | cons name rest ih => simp [way, ih]

theorem length_le_of_mem_way {here location : Location} {names : List String} (h : location ∈ way here names) :
    location.length ≤ names.length + here.length := by
  induction names generalizing here with
  | nil => cases h
  | cons name rest ih =>
    rcases List.mem_cons.1 h with rfl | hrest
    · simp only [List.length_cons]
      omega
    · have hlength := ih hrest
      simp only [List.length_cons] at hlength ⊢
      omega

/-- The end of a way is none of the locations before it. -/
theorem notMem_way (here : Location) (names : List String) (last : String) :
    last :: (names.reverse ++ here) ∉ way here names := by
  intro hmem
  have hlength := length_le_of_mem_way hmem
  simp only [List.length_cons, List.length_append, List.length_reverse] at hlength
  omega

variable {fs : FileSystem} {purpose : Purpose} {links : Nat} {names : List String} {last : String} {here : Location}
  {rest : List Step} {slash : Bool} {place : Place}

/-- Steps lead on from the end of a way of directories. -/
theorem Leads.along (hnames : ∀ name ∈ names, IsName name)
    (hway : ∀ location ∈ way here names, fs.get? location = some .directory) (hrest : rest ≠ [])
    (h : Leads fs purpose links rest (names.reverse ++ here) slash place) :
    Leads fs purpose links (names.map .into ++ rest) here slash place := by
  induction names generalizing here with
  | nil => exact h
  | cons name names ih =>
    rw [List.forall_mem_cons] at hnames
    rw [way, List.forall_mem_cons] at hway
    refine .into (by simp [hrest]) hnames.1.short hway.1 (ih hnames.2 hway.2 ?_)
    simpa using h

/-- Steps lead nowhere if a directory on their way is missing. -/
theorem follow_missing (hnames : ∀ name ∈ names, IsName name)
    (hway : ∀ location ∈ way here names, fs.get? location = none ∨ fs.get? location = some .directory)
    (hmissing : ∃ location ∈ way here names, fs.get? location = none) (hrest : rest ≠ []) :
    follow fs purpose links (names.map .into ++ rest) here slash = .error .noEntry := by
  induction names generalizing here with
  | nil => simp [way] at hmissing
  | cons name names ih =>
    rw [List.forall_mem_cons] at hnames
    rw [way, List.forall_mem_cons] at hway
    rw [way, List.exists_mem_cons_iff] at hmissing
    obtain ⟨next, others, hsteps⟩ := List.exists_cons_of_ne_nil (l := names.map Step.into ++ rest) (by simp [hrest])
    rw [List.map_cons, List.cons_append, hsteps, follow_eq_walk, walk, if_neg (Nat.not_lt.2 hnames.1.short)]
    · rcases hway.1 with hnone | hdirectory
      · simp only [hnone]
      · simp only [hdirectory]
        rw [← hsteps, ← follow_eq_walk]
        exact ih hnames.2 hway.2 (hmissing.resolve_left (by simp [hdirectory]))
    · simp

theorem resolve_eq_follow (h : ArePlain (names ++ [last])) : fs.resolve purpose (ofNames (names ++ [last])) =
    follow fs purpose linkLimit (names.map .into ++ [.into last]) fs.home false := by
  have hempty := ofNames_ne_empty names (h.isName last (by simp))
  rw [resolve, if_neg h.nul_notMem, if_neg hempty, if_neg (Nat.not_lt.2 h.short), route_ofNames h.isName]
  simp

/-- A path of plain names leads where its last name does, if the directories on its way are there. -/
theorem resolve_ofNames (h : ArePlain (names ++ [last]))
    (hway : ∀ location ∈ way fs.home names, fs.get? location = some .directory)
    (hlast : Leads fs purpose linkLimit [.into last] (names.reverse ++ fs.home) false place) :
    fs.resolve purpose (ofNames (names ++ [last])) = .ok place := by
  rw [resolve_eq_follow h]
  exact follow_of_leads (hlast.along h.initial.isName hway (by simp))

/-- It leads nowhere if one of these directories is missing. -/
theorem resolve_ofNames_missing (h : ArePlain (names ++ [last]))
    (hway : ∀ location ∈ way fs.home names, fs.get? location = none ∨ fs.get? location = some .directory)
    (hmissing : ∃ location ∈ way fs.home names, fs.get? location = none) :
    fs.resolve purpose (ofNames (names ++ [last])) = .error .noEntry := by
  rw [resolve_eq_follow h]
  exact follow_missing h.initial.isName hway hmissing (by simp)

end FileSystem

end LedSwitch
