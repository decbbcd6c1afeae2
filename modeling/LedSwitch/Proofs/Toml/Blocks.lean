import LedSwitch.Proofs.Toml.Shape

/-!
The blocks of sections that a document consists of. All sections of a value have its keys in front, so that those of
two entries of one table are never mixed up.
-/

namespace LedSwitch.Toml

namespace Layout

/-- The sections of entries that are no lines. -/
def blocks (keys : List String) (entries : List (String × Value)) : List Section :=
  entries.flatMap fun entry => sections .key (keys ++ [entry.1]) entry.2

theorem blocks_append (keys : List String) (entries more : List (String × Value)) :
    blocks keys (entries ++ more) = blocks keys entries ++ blocks keys more := List.flatMap_append

theorem groupSections_eq_blocks (group : Group) (keys : List String) (entries : List (String × Value)) :
    groupSections group keys entries = blocks keys (Value.ofGroup group entries) := by
  induction entries with
  | nil => rfl
  | cons entry rest ih =>
    obtain ⟨key, value⟩ := entry
    by_cases hgroup : groupOf value = group <;> simp [groupSections, Value.ofGroup, blocks, hgroup, ih]

/-- The sections of a table. -/
theorem sections_table (site : Site) (keys : List String) (entries : List (String × Value)) :
    sections site keys (.table entries) =
      (if site = .element ∨ hasHeader entries then [⟨keys, site.repeated, lineItems entries⟩] else []) ++
        blocks keys (Value.sectioned entries) := by
  rw [sections, groupSections_eq_blocks, groupSections_eq_blocks, ← blocks_append]
  rfl

/-- The sections of a document. -/
theorem documentSections_eq (table : Table) :
    documentSections table = (if hasGroup .plain table then [⟨[], false, lineItems table⟩] else []) ++
      blocks [] (Value.sectioned table) := by
  rw [documentSections, groupSections_eq_blocks, groupSections_eq_blocks, ← blocks_append]
  rfl

mutual

/-- All sections of a value have its keys in front. -/
theorem prefix_of_mem_sections : ∀ (site : Site) (keys : List String) (value : Value), ∀ s ∈ sections site keys value,
    keys <+: s.header
  | site, keys, .moment moment, s, hs => by
    rw [sections, List.mem_singleton] at hs
    simp [hs]
  | site, keys, .table entries, s, hs => by
    rw [sections, List.mem_append, List.mem_append] at hs
    rcases hs with hs | hs | hs
    · split_ifs at hs
      · rw [List.mem_singleton] at hs
        simp [hs]
      · simp at hs
    · obtain ⟨key, hfront⟩ := prefix_of_mem_groupSections _ _ entries s hs
      exact (List.prefix_append _ _).trans hfront
    · obtain ⟨key, hfront⟩ := prefix_of_mem_groupSections _ _ entries s hs
      exact (List.prefix_append _ _).trans hfront
  | site, keys, .array elements, s, hs => by
    rw [sections] at hs
    exact prefix_of_mem_elementSections _ _ elements s hs
  | _, _, .boolean _, _, hs | _, _, .integer _, _, hs | _, _, .float _, _, hs | _, _, .string _, _, hs => by
    simp [sections] at hs

theorem prefix_of_mem_elementSections : ∀ (site : Site) (keys : List String) (values : List Value),
    ∀ s ∈ elementSections site keys values, keys <+: s.header
  | _, _, [], _, hs => by simp [elementSections] at hs
  | site, keys, value :: rest, s, hs => by
    rw [elementSections, List.mem_append] at hs
    exact hs.elim (prefix_of_mem_sections site keys value s) (prefix_of_mem_elementSections site keys rest s)

theorem prefix_of_mem_groupSections : ∀ (group : Group) (keys : List String) (entries : List (String × Value)),
    ∀ s ∈ groupSections group keys entries, ∃ key, keys ++ [key] <+: s.header
  | _, _, [], _, hs => by simp [groupSections] at hs
  | group, keys, (key, value) :: rest, s, hs => by
    rw [groupSections] at hs
    split_ifs at hs
    · rw [List.mem_append] at hs
      exact hs.elim (fun hs => ⟨key, prefix_of_mem_sections _ _ value s hs⟩) (prefix_of_mem_groupSections _ _ rest s)
    · exact prefix_of_mem_groupSections _ _ rest s hs

end

/-- The sections of other keys belong elsewhere. -/
theorem not_prefix_of_mem_blocks {keys : List String} {key : String} {entries : List (String × Value)}
    (hkey : key ∉ entries.map (·.1)) : ∀ s ∈ blocks keys entries, ¬ keys ++ [key] <+: s.header := by
  intro s hs hfront
  obtain ⟨entry, hentry, hs⟩ := List.mem_flatMap.1 hs
  have hother := prefix_of_mem_sections _ _ _ s hs
  have heq := (List.prefix_of_prefix_length_le hfront hother (by simp)).eq_of_length (by simp)
  exact hkey (List.mem_map.2 ⟨entry, hentry, by simpa using heq.symm⟩)

/-- The sections below a header have longer ones. -/
theorem header_ne_of_mem_blocks {keys : List String} {entries : List (String × Value)} {s : Section}
    (hs : s ∈ blocks keys entries) : s.header ≠ keys := by
  rintro rfl
  obtain ⟨entry, -, hmem⟩ := List.mem_flatMap.1 hs
  have hlong := (prefix_of_mem_sections _ _ _ _ hmem).length_le
  simp only [List.length_append, List.length_singleton] at hlong
  omega

mutual

/-- A value that is not plain has sections. -/
theorem sections_ne_nil : ∀ (keys : List String) (value : Value), groupOf value ≠ .plain →
    sections .key keys value ≠ []
  | keys, .moment moment, _ => by simp [sections]
  | keys, .table entries, _ => by
    rw [sections]
    by_cases hheader : hasHeader entries = true
    · simp [hheader]
    · rw [hasHeader, Bool.or_eq_true, not_or] at hheader
      obtain ⟨entry, hentry⟩ := List.exists_mem_of_ne_nil entries (by simpa using hheader.1)
      have hne := groupSections_ne_nil keys entries entry hentry
      have hplain : groupOf entry.2 ≠ .plain := fun h =>
        hheader.2 (List.any_eq_true.2 ⟨entry, hentry, by simpa using h⟩)
      cases hgroup : groupOf entry.2 with
      | plain => exact absurd hgroup hplain
      | arrayOfTables =>
        rw [hgroup] at hne
        simp [hne (by simp)]
      | table =>
        rw [hgroup] at hne
        simp [hne (by simp)]
  | keys, .array elements, h => by
    rw [sections]
    refine elementSections_ne_nil keys elements ?_
    by_contra hany
    simp [groupOf, hany] at h
  | _, .boolean _, h | _, .integer _, h | _, .float _, h | _, .string _, h => by simp [groupOf] at h

theorem elementSections_ne_nil : ∀ (keys : List String) (values : List Value), values.any isTable = true →
    elementSections (Site.ofElements .key) keys values ≠ []
  | _, [], h => by simp at h
  | keys, value :: rest, h => by
    rw [elementSections]
    rw [List.any_cons, Bool.or_eq_true] at h
    rcases h with h | h
    · cases value with
      | table entries => simp [sections, Site.ofElements]
      | moment _ => simp [sections]
      | _ => simp [isTable] at h
    · simp [elementSections_ne_nil keys rest h]

theorem groupSections_ne_nil : ∀ (keys : List String) (entries : List (String × Value)), ∀ entry ∈ entries,
    groupOf entry.2 ≠ .plain → groupSections (groupOf entry.2) keys entries ≠ []
  | _, [], _, hmem, _ => by simp at hmem
  | keys, (key, value) :: rest, entry, hmem, hgroup => by
    rw [groupSections]
    rcases List.mem_cons.1 hmem with heq | hmem
    · rw [heq] at hgroup ⊢
      simp [sections_ne_nil (keys ++ [key]) value hgroup]
    · have hrest := groupSections_ne_nil keys rest entry hmem hgroup
      split_ifs <;> simp [hrest]

end

/-- The sections of an element begin with the one that opens it; the others have longer headers. -/
theorem sections_element (keys : List String) {value : Value} (htable : isTable value = true) :
    ∃ first rest, sections .element keys value = first :: rest ∧ first.repeated = true ∧ first.header = keys ∧
      ∀ s ∈ rest, s.header ≠ keys := by
  cases value with
  | moment _ => exact ⟨_, [], rfl, rfl, rfl, by simp⟩
  | table entries =>
    refine ⟨_, _, by rw [sections_table, if_pos (Or.inl rfl), List.singleton_append], rfl, rfl, ?_⟩
    rintro s hs rfl
    obtain ⟨entry, _, hmem⟩ := List.mem_flatMap.1 hs
    have hlong := (prefix_of_mem_sections _ _ _ _ hmem).length_le
    simp only [List.length_append, List.length_singleton] at hlong
    omega
  | _ => simp [isTable] at htable

/-- The sections that open elements, with their numbers. -/
def openings (keys : List String) : (first : Nat) → List Value → List (Section × Nat)
  | _, [] => []
  | n, value :: rest =>
    (sections .element keys value).head?.toList.map (·, n) ++
      openings keys (n + (sections .element keys value).length) rest

theorem filter_elementSections (keys : List String) {values : List Value} (h : ∀ value ∈ values, isTable value = true)
    (n : Nat) : ((elementSections .element keys values).zipIdx n).filter
      (fun s => s.1.repeated ∧ s.1.header = keys) = openings keys n values := by
  induction values generalizing n with
  | nil => rfl
  | cons value rest ih =>
    obtain ⟨first, more, hsections, hrepeated, hheader, hmore⟩ := sections_element keys (h value List.mem_cons_self)
    have hnone : (more.zipIdx (n + 1)).filter (fun s => s.1.repeated ∧ s.1.header = keys) = [] := by
      rw [List.filter_eq_nil_iff]
      rintro ⟨s, number⟩ hs hkeys
      simp only [decide_eq_true_eq] at hkeys
      exact hmore s (List.fst_mem_of_mem_zipIdx hs) hkeys.2
    rw [elementSections, openings, List.zipIdx_append, List.filter_append,
      ih fun other hother => h other (List.mem_cons_of_mem _ hother), hsections, List.zipIdx_cons, List.filter_cons_of_pos
        (by simp [hrepeated, hheader]), hnone]
    rfl

/-- Each element but the last one ends where the next one is opened. -/
theorem head?_openings (keys : List String) {values : List Value} (h : ∀ value ∈ values, isTable value = true)
    (n limit : Nat) : (values = [] ∧ ((openings keys n values).head?.map (·.2)).getD limit = limit) ∨
      ((openings keys n values).head?.map (·.2)).getD limit = n := by
  cases values with
  | nil => exact Or.inl ⟨rfl, rfl⟩
  | cons value rest =>
    obtain ⟨first, more, hsections, -⟩ := sections_element keys (h value List.mem_cons_self)
    exact Or.inr (by simp [openings, hsections])

end Layout

end LedSwitch.Toml
