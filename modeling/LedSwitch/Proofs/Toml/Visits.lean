import Mathlib.Tactic.Common
import LedSwitch.Proofs.Keyed
import LedSwitch.Toml.Assembly

/-!
Where the entries of a table come from that a visit gathers. `Assembly.Passes` has one case for each way in which a
visit gets past a section. What is found at a key afterwards was there before, or some section introduced it
(`Assembly.origin_of_visit?`).
-/

namespace LedSwitch.Toml

namespace Assembly

variable {child : Numbered → List Nat → Option (Value × List Nat)} {target : Target} {parent : Numbered}
  {used : List Nat} {gathered : Table} {found : Gathered × List Nat}

/-- The ways in which a visit gets past its first section. -/
inductive Passes (child : Numbered → List Nat → Option (Value × List Nat)) (target : Target) (used : List Nat)
    (gathered : Table) (s : Section) (number : Nat) (rest : List Numbered) (found : Gathered × List Nat) : Prop where
  | skipped (parent : Numbered) (hskipped : number ∈ used ∨ ¬ target.header <+: s.header)
      (hrest : visit? child target parent used gathered rest = some found) :
      Passes child target used gathered s number rest found
  | entry (parent : Numbered) {key : String} {value : Value} {used' : List Nat}
      (hheader : target.header ++ [key] <+: s.header) (haccepts : target.accepts gathered key = true)
      (hvalue : child (s, number) used = some (value, used'))
      (hrest : visit? child target parent used' (gathered.insert key value) rest = some found) :
      Passes child target used gathered s number rest found
  | moment {moment : DateTime} (hheader : s.header = target.header)
      (hbody : target.addBody? gathered s.body = some (.moment moment)) (hfound : found = (.moment moment, number :: used)) :
      Passes child target used gathered s number rest found
  | own (parent : Numbered) {gathered' : Table} (hheader : s.header = target.header)
      (hbody : target.addBody? gathered s.body = some (.table gathered'))
      (hrest : visit? child target parent (number :: used) gathered' rest = some found) :
      Passes child target used gathered s number rest found

theorem passes_of_visit? {s : Section} {number : Nat} {rest : List Numbered}
    (h : visit? child target parent used gathered ((s, number) :: rest) = some found) :
    Passes child target used gathered s number rest found := by
  rw [visit?] at h
  by_cases hskipped : number ∈ used ∨ (!target.header.isPrefixOf s.header) = true
  · rw [if_pos hskipped] at h
    refine .skipped parent (hskipped.imp_right fun hother => ?_) h
    rwa [Bool.not_eq_true', Bool.eq_false_iff, ne_eq, List.isPrefixOf_iff_prefix] at hother
  rw [if_neg hskipped, ite_eq_iff] at h
  obtain ⟨-, h⟩ | ⟨-, h⟩ := h
  · cases h
  rw [not_or, Bool.not_eq_true', Bool.not_eq_false, List.isPrefixOf_iff_prefix] at hskipped
  obtain ⟨below, hbelow⟩ := hskipped.2
  rw [← hbelow, List.drop_left] at h
  cases below with
  | nil =>
    rw [List.append_nil] at hbelow
    simp only at h
    rw [ite_eq_iff] at h
    obtain ⟨-, h⟩ | ⟨-, h⟩ := h
    · cases h
    cases hbody : target.addBody? gathered s.body with
    | none =>
      rw [hbody] at h
      cases h
    | some body =>
      rw [hbody] at h
      cases body with
      | moment moment => exact .moment hbelow.symm hbody (Option.some.inj h).symm
      | table gathered' => exact .own _ hbelow.symm hbody h
  | cons key below =>
    simp only at h
    rw [ite_eq_iff] at h
    obtain ⟨-, h⟩ | ⟨haccepts, h⟩ := h
    · cases h
    obtain ⟨⟨value, used'⟩, hvalue, hrest⟩ := Option.bind_eq_some_iff.1 h
    exact .entry _ ⟨below, by rw [List.append_assoc, List.singleton_append, hbelow]⟩ (by simpa using haccepts) hvalue hrest

/-- The table of a document without sections is empty, and that of any other one a visit gathers. -/
theorem visit?_of_table? {sections : List Section} {entries : Table} (h : table? sections = some entries) :
    (sections = [] ∧ entries = []) ∨ ∃ levels parent used, visit? (value? sections.zipIdx levels 0 sections.zipIdx.length) ⟨[], false⟩ parent
      [] [] sections.zipIdx = some (.table entries, used) := by
  rw [table?] at h
  simp only at h
  split at h
  · rename_i hnil
    exact Or.inl ⟨List.zipIdx_eq_nil_iff.1 hnil, (Option.some.inj h).symm⟩
  · split at h
    · rename_i hvisit
      obtain rfl := Option.some.inj h
      exact Or.inr ⟨_, _, _, hvisit⟩
    · cases h

end Assembly

theorem Gathered.ofMoment?_ne_table {value : Value} {entries : Table} :
    Gathered.ofMoment? value ≠ some (.table entries) := by
  intro h
  cases value with
  | string text =>
    obtain ⟨moment, -, h⟩ := Option.map_eq_some_iff.1 h
    cases h
  | _ => cases h

namespace Item

/-- Gathering entries finds nothing new at other keys. -/
theorem get?_gather? {key : String} {entries : List (String × Item)} (hkey : key ∉ entries.map (·.1))
    {gathered result : Table} (h : gather? gathered entries = some (.table result)) :
    result.get? key = gathered.get? key := by
  induction entries generalizing gathered with
  | nil =>
    obtain rfl : gathered = result := by simpa [gather?] using h
    rfl
  | cons entry rest ih =>
    obtain ⟨k, item⟩ := entry
    rw [List.map_cons, List.mem_cons, not_or] at hkey
    rw [gather?] at h
    split_ifs at h
    · obtain ⟨value, -, h⟩ := Option.bind_eq_some_iff.1 h
      exact absurd h Gathered.ofMoment?_ne_table
    · obtain ⟨value, -, h⟩ := Option.bind_eq_some_iff.1 h
      rw [ih hkey.2 h, Keyed.get?_insert, if_neg (Ne.symm hkey.1)]

theorem get?_overlay? {key : String} {entries : List (String × Item)} (hkey : key ∉ entries.map (·.1))
    {gathered result : Table} (h : overlay? gathered entries = some result) : result.get? key = gathered.get? key := by
  induction entries generalizing gathered with
  | nil =>
    obtain rfl := Option.some.inj h
    rfl
  | cons entry rest ih =>
    obtain ⟨k, item⟩ := entry
    rw [List.map_cons, List.mem_cons, not_or] at hkey
    obtain ⟨value, -, h⟩ := Option.bind_eq_some_iff.1 h
    rw [ih hkey.2 h, Keyed.get?_insert, if_neg (Ne.symm hkey.1)]

end Item

namespace Assembly

variable {child : Numbered → List Nat → Option (Value × List Nat)} {target : Target} {key : String}

theorem Target.get?_addBody? {body : List (String × Item)} (hkey : key ∉ body.map (·.1)) {gathered result : Table}
    (h : target.addBody? gathered body = some (.table result)) : result.get? key = gathered.get? key := by
  unfold addBody? at h
  split_ifs at h
  · exact Item.get?_gather? hkey h
  · obtain ⟨entries, hentries, heq⟩ := Option.map_eq_some_iff.1 h
    obtain rfl := Gathered.table.inj heq
    exact Item.get?_overlay? hkey hentries

/-- A section says something of the entry at a key of the table with the header `keys`. -/
def Introduces (keys : List String) (key : String) (s : Section) : Prop :=
  keys ++ [key] <+: s.header ∨ (s.header = keys ∧ key ∈ s.body.map (·.1))

/-- A section from which a visit takes what it finds at a key: an entry below the header of the table, or what a
    visit of its own gathers. -/
inductive Origin (child : Numbered → List Nat → Option (Value × List Nat)) (keys : List String) (key : String)
    (value : Value) : List Numbered → Prop where
  | body {s : Numbered} {rest : List Numbered} (hheader : s.1.header = keys) (hkey : key ∈ s.1.body.map (·.1)) :
      Origin child keys key value (s :: rest)
  | visit {s : Numbered} {rest : List Numbered} {used used' : List Nat} (hheader : keys ++ [key] <+: s.1.header)
      (hvalue : child s used = some (value, used')) : Origin child keys key value (s :: rest)
  | later {s : Numbered} {rest : List Numbered} (h : Origin child keys key value rest) :
      Origin child keys key value (s :: rest)

/-- What a visit finds at a key was there before, or it comes from a section. -/
theorem origin_of_visit? {sections : List Numbered} {parent : Numbered} {used used' : List Nat}
    {gathered result : Table} {value : Value}
    (h : visit? child target parent used gathered sections = some (.table result, used'))
    (hvalue : result.get? key = some value) :
    gathered.get? key = some value ∨ Origin child target.header key value sections := by
  induction sections generalizing parent used gathered with
  | nil =>
    obtain ⟨rfl, -⟩ : gathered = result ∧ used = used' := by simpa [visit?] using h
    exact Or.inl hvalue
  | cons s rest ih =>
    obtain ⟨s, number⟩ := s
    cases passes_of_visit? h with
    | skipped _ _ hrest => exact (ih hrest).imp_right .later
    | @entry _ k found after hheader _ hfound hrest =>
      rcases ih hrest with hget | hother
      · rw [Keyed.get?_insert] at hget
        split_ifs at hget with heq
        · obtain rfl := heq
          obtain rfl := Option.some.inj hget
          exact Or.inr (.visit hheader hfound)
        · exact Or.inl hget
      · exact Or.inr hother.later
    | moment _ _ hfound => cases hfound
    | own _ hheader hbody hrest =>
      rcases ih hrest with hget | hother
      · by_cases hkey : key ∈ s.body.map (·.1)
        · exact Or.inr (.body hheader hkey)
        · exact Or.inl ((Target.get?_addBody? hkey hbody).symm.trans hget)
      · exact Or.inr hother.later

theorem Origin.mem {keys : List String} {value : Value} {sections : List Numbered}
    (h : Origin child keys key value sections) :
    (∃ s ∈ sections, s.1.header = keys ∧ key ∈ s.1.body.map (·.1)) ∨
      ∃ s ∈ sections, ∃ used used', keys ++ [key] <+: s.1.header ∧ child s used = some (value, used') := by
  induction h with
  | body hheader hkey => exact Or.inl ⟨_, List.mem_cons_self, hheader, hkey⟩
  | visit hheader hvalue => exact Or.inr ⟨_, List.mem_cons_self, _, _, hheader, hvalue⟩
  | later _ ih =>
    rcases ih with ⟨s, hs, h⟩ | ⟨s, hs, h⟩
    · exact Or.inl ⟨s, List.mem_cons_of_mem _ hs, h⟩
    · exact Or.inr ⟨s, List.mem_cons_of_mem _ hs, h⟩

/-- What a visit has at a key stays if no section says anything of it. -/
theorem get?_visit?_of_not_introduces {sections : List Numbered} {parent : Numbered} {used used' : List Nat}
    {gathered result : Table} (hnone : ∀ s ∈ sections, ¬ Introduces target.header key s.1)
    (h : visit? child target parent used gathered sections = some (.table result, used')) :
    result.get? key = gathered.get? key := by
  induction sections generalizing parent used gathered with
  | nil =>
    obtain ⟨rfl, -⟩ : gathered = result ∧ used = used' := by simpa [visit?] using h
    rfl
  | cons s rest ih =>
    obtain ⟨s, number⟩ := s
    rw [List.forall_mem_cons, Introduces, not_or, not_and] at hnone
    cases passes_of_visit? h with
    | skipped _ _ hrest => exact ih hnone.2 hrest
    | @entry _ k _ _ hheader _ _ hrest =>
      have hother : k ≠ key := by
        rintro rfl
        exact hnone.1.1 hheader
      rw [ih hnone.2 hrest, Keyed.get?_insert, if_neg hother]
    | moment _ _ hfound => cases hfound
    | own _ hheader hbody hrest => rw [ih hnone.2 hrest, Target.get?_addBody? (hnone.1.2 hheader) hbody]

/-- A section makes the key of dates the first one of the table with the header `keys`. -/
def BeginsDate (keys : List String) (s : Section) : Prop :=
  keys ++ [momentKey] <+: s.header ∨ (s.header = keys ∧ s.body.head?.map (·.1) = some momentKey)

/-- No visit finds the key of dates in a table that begins with it. -/
theorem get?_momentKey_of_visit? {keys : List String} {early late : List Numbered}
    (hearly : ∀ s ∈ early, keys <+: s.1.header → BeginsDate keys s.1)
    (hlate : ∀ s ∈ late, ¬ Introduces keys momentKey s.1) {parent : Numbered} {used used' : List Nat} {result : Table}
    (h : visit? child ⟨keys, true⟩ parent used [] (early ++ late) = some (.table result, used')) :
    result.get? momentKey = none := by
  induction early generalizing parent used with
  | nil => exact get?_visit?_of_not_introduces hlate h
  | cons s rest ih =>
    obtain ⟨s, number⟩ := s
    rw [List.forall_mem_cons] at hearly
    rw [List.cons_append] at h
    cases passes_of_visit? h with
    | skipped _ _ hrest => exact ih hearly.2 hrest
    | @entry _ key _ _ hheader haccepts _ _ =>
      rcases hearly.1 ((List.prefix_append keys [key]).trans hheader) with hdate | ⟨heq, -⟩
      · have hkeys := (List.prefix_of_prefix_length_le hdate hheader (by simp)).eq_of_length (by simp)
        obtain rfl : momentKey = key := by simpa using hkeys
        simp [Target.accepts] at haccepts
      · have hlength : (keys ++ [key]).length ≤ s.header.length := hheader.length_le
        rw [heq, List.length_append, List.length_singleton] at hlength
        omega
    | moment _ _ hfound => cases hfound
    | own _ hheader hbody _ =>
      have hheader' : s.header = keys := hheader
      rcases hearly.1 (hheader' ▸ List.prefix_refl _) with hdate | ⟨-, hhead⟩
      · have hlength := hdate.length_le
        rw [hheader', List.length_append, List.length_singleton] at hlength
        omega
      · cases hentries : s.body with
        | nil => simp [hentries] at hhead
        | cons entry rest =>
          obtain ⟨k, item⟩ := entry
          obtain rfl : k = momentKey := by simpa [hentries] using hhead
          rw [hentries, Target.addBody?, if_pos rfl, Item.gather?, if_pos ⟨rfl, rfl⟩] at hbody
          obtain ⟨value, -, hvalue⟩ := Option.bind_eq_some_iff.1 hbody
          exact absurd hvalue Gathered.ofMoment?_ne_table

/-- The same of a visit to those sections of a document that stand before a limit. -/
theorem get?_momentKey_of_visit?_filter {keys : List String} {all early late : List Section} (hsplit : all = early ++ late)
    (hearly : ∀ s ∈ early, keys <+: s.header → BeginsDate keys s) (hlate : ∀ s ∈ late, ¬ Introduces keys momentKey s)
    {limit : Nat} {parent : Numbered} {used used' : List Nat} {result : Table}
    (h : visit? child ⟨keys, true⟩ parent used [] (all.zipIdx.filter (·.2 < limit)) = some (.table result, used')) :
    result.get? momentKey = none := by
  rw [hsplit, List.zipIdx_append, List.filter_append] at h
  refine get?_momentKey_of_visit? (fun s hs => ?_) (fun s hs => ?_) h
  · exact hearly s.1 (List.fst_mem_of_mem_zipIdx (List.mem_filter.1 hs).1)
  · exact hlate s.1 (List.fst_mem_of_mem_zipIdx (List.mem_filter.1 hs).1)

end Assembly

end LedSwitch.Toml
