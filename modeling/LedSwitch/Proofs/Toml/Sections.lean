import LedSwitch.Proofs.Toml.Printed
import LedSwitch.Toml.Assembly

/-!
The sections of a written document. `Layout.documentSections` lists them for a table, and `Table.ofText?_toText?`
states that reading what was written comes to putting them together.
-/

namespace LedSwitch.Toml

theorem Spells.length_le {text : List Char} {pieces : List Piece} (h : Spells text pieces) :
    pieces.length ≤ text.length := by
  induction h with
  | nil => simp
  | blank _ ih =>
    rw [List.length_cons]
    omega
  | @header text pieces repeated keys _ _ ih =>
    have hpos : 1 ≤ (Layout.headerText repeated keys).length := by
      unfold Layout.headerText
      split_ifs <;> simp
    rw [List.length_cons, List.length_append]
    omega
  | @line text pieces key value _ _ ih =>
    have hpos : 1 ≤ (Layout.lineText key value).length := by
      simp only [Layout.lineText, List.length_append, List.length_singleton]
      omega
    rw [List.length_cons, List.length_append]
    omega

namespace Section

/-- The sections that pieces make, the first ones of which go to the section at hand. -/
def ofPieces (s : Section) (pieces : List Piece) : List Section :=
  (gather s pieces).1 ++ (gather s pieces).2.consIfAny []

theorem ofPieces_nil (s : Section) : ofPieces s [] = s.consIfAny [] := rfl

theorem ofPieces_header (s : Section) (repeated : Bool) (keys : List String) (pieces : List Piece) :
    ofPieces s (.header repeated keys :: pieces) = s.consIfAny (ofPieces ⟨keys, repeated, []⟩ pieces) := by
  simp [ofPieces, gather, consIfAny_append]

theorem ofPieces_line (s : Section) (key : String) (value : Value) (pieces : List Piece) :
    ofPieces s (.line key value :: pieces) = ofPieces { s with body := s.body ++ [(key, value.item)] } pieces := rfl

/-- What stands for pieces is read as their sections. -/
theorem readUpTo?_ofPieces {text : List Char} {pieces : List Piece} (h : Spells text pieces) (s : Section) :
    readUpTo? (text.length + 1) s text = some (ofPieces s pieces) := by
  have hlength := h.length_le
  have hread := readUpTo?_of_spells h s [] (text.length - pieces.length + 1)
  have hfuel : text.length - pieces.length + 1 + pieces.length = text.length + 1 := by omega
  rw [List.append_nil, hfuel] at hread
  rw [hread]
  simp [readUpTo?, Scan.skipLines, ofPieces]

/-- The sections of pieces that begin with a header. -/
def ofHeaded : List Piece → List Section
  | .header repeated keys :: pieces => ofPieces ⟨keys, repeated, []⟩ pieces
  | _ => []

end Section

/-- Pieces without lines in front of the first header. -/
def Headed : List Piece → Prop
  | .line _ _ :: _ => False
  | _ => True

theorem Headed.append {pieces others : List Piece} (h : Headed pieces) (hothers : Headed others) :
    Headed (pieces ++ others) := by
  cases pieces with
  | nil => exact hothers
  | cons piece pieces =>
    cases piece with
    | header => trivial
    | line => exact h

namespace Section

theorem ofPieces_of_headed (s : Section) {pieces : List Piece} (h : Headed pieces) :
    ofPieces s pieces = s.consIfAny (ofHeaded pieces) := by
  cases pieces with
  | nil => rfl
  | cons piece pieces =>
    cases piece with
    | header repeated keys => rw [ofPieces_header, ofHeaded]
    | line => exact h.elim

/-- Pieces that begin with a header make sections of their own. -/
theorem ofPieces_append (s : Section) (pieces : List Piece) {others : List Piece} (h : Headed others) :
    ofPieces s (pieces ++ others) = ofPieces s pieces ++ ofHeaded others := by
  induction pieces generalizing s with
  | nil => rw [List.nil_append, ofPieces_of_headed s h, ofPieces_nil, ← consIfAny_append, List.nil_append]
  | cons piece pieces ih =>
    cases piece with
    | header repeated keys => rw [List.cons_append, ofPieces_header, ih, ofPieces_header, consIfAny_append]
    | line key value => rw [List.cons_append, ofPieces_line, ih, ofPieces_line]

theorem ofHeaded_append {pieces others : List Piece} (h : Headed pieces) (hothers : Headed others) :
    ofHeaded (pieces ++ others) = ofHeaded pieces ++ ofHeaded others := by
  cases pieces with
  | nil => rfl
  | cons piece pieces =>
    cases piece with
    | header repeated keys => exact ofPieces_append _ pieces hothers
    | line => exact h.elim

end Section

namespace Layout

/-- The entries of a table that are plain, as they are read. -/
def lineItems : List (String × Value) → List (String × Item)
  | [] => []
  | (key, value) :: rest =>
    if groupOf value = .plain then (key, value.item) :: lineItems rest else lineItems rest

mutual

/-- The sections of a value that is not plain. -/
def sections (site : Site) (keys : List String) : Value → List Section
  | .moment moment => [⟨keys, site.repeated, [(momentKey, .plain (.string (String.ofList moment.text)))]⟩]
  | .table entries =>
    (if site = .element ∨ hasHeader entries then [⟨keys, site.repeated, lineItems entries⟩] else []) ++
      (groupSections .arrayOfTables keys entries ++ groupSections .table keys entries)
  | .array elements => elementSections site.ofElements keys elements
  | _ => []

/-- The sections of elements. -/
def elementSections (site : Site) (keys : List String) : List Value → List Section
  | [] => []
  | value :: rest => sections site keys value ++ elementSections site keys rest

/-- The sections of the entries that belong to a group. -/
def groupSections (group : Group) (keys : List String) : List (String × Value) → List Section
  | [] => []
  | (key, value) :: rest =>
    if groupOf value = group then sections .key (keys ++ [key]) value ++ groupSections group keys rest
    else groupSections group keys rest

end

/-- The sections of a document. Without plain values there is none in front of the first header. -/
def documentSections (table : Table) : List Section :=
  (if hasGroup .plain table then [⟨[], false, lineItems table⟩] else []) ++
    (groupSections .arrayOfTables [] table ++ groupSections .table [] table)

/-- Lines go to the section at hand. -/
theorem ofPieces_plain (s : Section) (keys : List String) (entries : List (String × Value)) :
    Section.ofPieces s (groupPieces .plain keys entries) =
      Section.consIfAny { s with body := s.body ++ lineItems entries } [] := by
  induction entries generalizing s with
  | nil => simp [groupPieces, lineItems, Section.ofPieces_nil]
  | cons first rest ih =>
    obtain ⟨key, value⟩ := first
    rw [groupPieces_cons, lineItems]
    split_ifs with hgroup
    · rw [entryPieces, if_pos rfl, List.singleton_append, Section.ofPieces_line, ih]
      simp
    · exact ih s

mutual

/-- The pieces of a value begin with a header and make its sections. -/
theorem ofHeaded_pieces : ∀ (site : Site) {keys : List String}, keys ≠ [] → ∀ value : Value,
    Headed (pieces site keys value) ∧ Section.ofHeaded (pieces site keys value) = sections site keys value
  | site, keys, _, .moment moment => by
    refine ⟨trivial, ?_⟩
    rw [pieces, Section.ofHeaded, Section.ofPieces_line, Section.ofPieces_nil]
    simp [Section.consIfAny, sections, Value.item]
  | site, keys, hkeys, .table entries => by
    obtain ⟨harrays, hsections⟩ := ofHeaded_groupPieces .arrayOfTables (by simp) keys entries
    obtain ⟨htables, hsections'⟩ := ofHeaded_groupPieces .table (by simp) keys entries
    have hrest := Section.ofHeaded_append harrays htables
    rw [hsections, hsections'] at hrest
    rw [pieces, headerPieces, sections]
    by_cases hheader : site = .element ∨ hasHeader entries = true
    · simp only [if_pos hheader, List.singleton_append]
      refine ⟨trivial, ?_⟩
      rw [Section.ofHeaded, Section.ofPieces_append _ _ (harrays.append htables), ofPieces_plain, hrest]
      simp [Section.consIfAny, hkeys]
    · rw [not_or, hasHeader, Bool.or_eq_true, not_or] at hheader
      have hplain : groupPieces .plain keys entries = [] :=
        groupPieces_eq_nil (by simpa [hasGroup] using hheader.2.2) keys
      simp only [hheader, hasHeader, hplain, Bool.or_self, Bool.false_eq_true, or_self, if_false, List.nil_append]
      exact ⟨harrays.append htables, hrest⟩
  | site, keys, hkeys, .array elements => by
    rw [pieces, sections]
    exact ofHeaded_elementPieces site.ofElements hkeys elements
  | _, _, _, .boolean _ | _, _, _, .integer _ | _, _, _, .float _ | _, _, _, .string _ => ⟨trivial, rfl⟩

theorem ofHeaded_elementPieces : ∀ (site : Site) {keys : List String}, keys ≠ [] → ∀ values : List Value,
    Headed (elementPieces site keys values) ∧
      Section.ofHeaded (elementPieces site keys values) = elementSections site keys values
  | _, _, _, [] => ⟨trivial, rfl⟩
  | site, keys, hkeys, value :: rest => by
    obtain ⟨hvalue, hsections⟩ := ofHeaded_pieces site hkeys value
    obtain ⟨hrest, hsections'⟩ := ofHeaded_elementPieces site hkeys rest
    rw [elementPieces, elementSections, Section.ofHeaded_append hvalue hrest, hsections, hsections']
    exact ⟨hvalue.append hrest, rfl⟩

theorem ofHeaded_groupPieces (group : Group) (hgroup : group ≠ .plain) : ∀ (keys : List String)
    (entries : List (String × Value)), Headed (groupPieces group keys entries) ∧
      Section.ofHeaded (groupPieces group keys entries) = groupSections group keys entries
  | _, [] => ⟨trivial, rfl⟩
  | keys, (key, value) :: rest => by
    obtain ⟨hvalue, hsections⟩ := ofHeaded_pieces .key (show keys ++ [key] ≠ [] by simp) value
    obtain ⟨hrest, hsections'⟩ := ofHeaded_groupPieces group hgroup keys rest
    rw [groupPieces_cons, groupSections, entryPieces, if_neg hgroup]
    split_ifs
    · rw [Section.ofHeaded_append hvalue hrest, hsections, hsections']
      exact ⟨hvalue.append hrest, rfl⟩
    · exact ⟨hrest, hsections'⟩

end

theorem lineItems_ne_nil {entries : List (String × Value)} (h : hasGroup .plain entries = true) :
    lineItems entries ≠ [] := by
  induction entries with
  | nil => simp [hasGroup] at h
  | cons first rest ih =>
    obtain ⟨key, value⟩ := first
    rw [lineItems]
    split_ifs with hgroup
    · simp
    · exact ih (by simpa [hasGroup, hgroup] using h)

theorem lineItems_eq_nil {entries : List (String × Value)} (h : ¬ hasGroup .plain entries = true) :
    lineItems entries = [] := by
  induction entries with
  | nil => rfl
  | cons first rest ih =>
    obtain ⟨key, value⟩ := first
    simp only [hasGroup, List.any_cons, Bool.or_eq_true, not_or, decide_eq_true_eq] at h
    rw [lineItems, if_neg h.1]
    exact ih h.2

/-- The pieces of a document make its sections. -/
theorem ofPieces_document (table : Table) :
    Section.ofPieces ⟨[], false, []⟩ (documentPieces table) = documentSections table := by
  obtain ⟨harrays, hsections⟩ := ofHeaded_groupPieces .arrayOfTables (by simp) [] table
  obtain ⟨htables, hsections'⟩ := ofHeaded_groupPieces .table (by simp) [] table
  have hrest := Section.ofHeaded_append harrays htables
  rw [hsections, hsections'] at hrest
  rw [documentPieces, Section.ofPieces_append _ _ (harrays.append htables), ofPieces_plain, hrest, documentSections]
  by_cases hplain : hasGroup .plain table = true
  · simp [Section.consIfAny, hplain, lineItems_ne_nil hplain]
  · simp [Section.consIfAny, hplain, lineItems_eq_nil hplain]

end Layout

/-- A clean text is read section by section. -/
theorem Table.ofText?_of_clean {text : List Char} (h : Clean text) :
    ofText? (String.ofList text) =
      (Section.readUpTo? (text.length + 1) ⟨[], false, []⟩ text).bind Assembly.table? := by
  have hmark : (Parts.after? '\ufeff' text).getD text = text := by
    rw [Parts.after?_of_head?_ne h.2]
    rfl
  rw [ofText?, String.toList_ofList, Section.listOfText?, Clean.unifyLines h.1, hmark]

/-- A document with flat values can be written, and reading it comes to putting its sections together. -/
theorem Table.ofText?_toText? {table : Table} (h : Value.areFlat table = true) :
    ∃ text, table.toText? = some text ∧ ofText? text = Assembly.table? (Layout.documentSections table) := by
  obtain ⟨text, hvalue, htext⟩ := Layout.value?_document h
  refine ⟨String.ofList text, by simp [toText?, hvalue], ?_⟩
  rw [ofText?_of_clean (Layout.clean_value? _ _ _ hvalue), Section.readUpTo?_ofPieces htext, Layout.ofPieces_document]
  rfl

end LedSwitch.Toml
