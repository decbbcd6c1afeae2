import LedSwitch.Proofs.Keyed
import LedSwitch.Proofs.Toml.Sections

/-!
The shapes of values on which it depends whether a document reads back. `Value.Everywhere` extends a condition to
all that a value holds; the conditions are the order of keys, what an array holds, with which key a table begins,
and whether the text of a date spells it.
-/

namespace LedSwitch.Toml

namespace Value

mutual

/-- Whether a condition holds of a value and of all values in it. -/
def Everywhere (p : Value → Prop) : Value → Prop
  | .array elements => p (.array elements) ∧ EverywhereAmong p elements
  | .table entries => p (.table entries) ∧ EverywhereIn p entries
  | value => p value

def EverywhereAmong (p : Value → Prop) : List Value → Prop
  | [] => True
  | value :: rest => Everywhere p value ∧ EverywhereAmong p rest

/-- Whether a condition holds of the values of entries and of all values in them. -/
def EverywhereIn (p : Value → Prop) : List (String × Value) → Prop
  | [] => True
  | (_, value) :: rest => Everywhere p value ∧ EverywhereIn p rest

end

variable {p q : Value → Prop}

theorem everywhereAmong_iff {values : List Value} :
    EverywhereAmong p values ↔ ∀ value ∈ values, Everywhere p value := by
  induction values with
  | nil => simp [EverywhereAmong]
  | cons value rest ih => simp [EverywhereAmong, ih]

theorem everywhereIn_iff {entries : List (String × Value)} :
    EverywhereIn p entries ↔ ∀ entry ∈ entries, Everywhere p entry.2 := by
  induction entries with
  | nil => simp [EverywhereIn]
  | cons entry rest ih =>
    obtain ⟨key, value⟩ := entry
    simp only [EverywhereIn, ih, List.forall_mem_cons]

theorem Everywhere.self {value : Value} (h : Everywhere p value) : p value := by
  cases value with
  | array _ | table _ => exact h.1
  | _ => exact h

theorem Everywhere.entry {entries : List (String × Value)} (h : Everywhere p (.table entries))
    {entry : String × Value} (hentry : entry ∈ entries) : Everywhere p entry.2 :=
  everywhereIn_iff.1 h.2 entry hentry

theorem Everywhere.element {elements : List Value} (h : Everywhere p (.array elements)) {value : Value}
    (hvalue : value ∈ elements) : Everywhere p value :=
  everywhereAmong_iff.1 h.2 value hvalue

theorem Everywhere.insert {entries : Table} (h : Everywhere p (.table entries)) {key : String} {value : Value}
    (hself : p (.table (entries.insert key value))) (hvalue : Everywhere p value) :
    Everywhere p (.table (entries.insert key value)) := by
  refine ⟨hself, everywhereIn_iff.2 fun entry hentry => ?_⟩
  rcases Keyed.mem_insert hentry with rfl | hentry
  · exact hvalue
  · exact h.entry hentry

/-- The entries of a table stand in the order of their keys. -/
def KeysOrdered : Value → Prop
  | .table entries => Keyed.Ordered entries
  | _ => True

/-- An array holds no tables at all, or nothing else. -/
def Uniform : Value → Prop
  | .array elements => arePlain elements = true ∨ ∀ value ∈ elements, Layout.isTable value = true
  | _ => True

/-- The entries of a table that belong to a group. -/
def ofGroup (group : Layout.Group) (entries : List (String × Value)) : List (String × Value) :=
  entries.filter fun entry => Layout.groupOf entry.2 = group

/-- The entries of a table that are no lines, in the order in which they are written. -/
def sectioned (entries : List (String × Value)) : List (String × Value) :=
  ofGroup .arrayOfTables entries ++ ofGroup .table entries

/-- The entries of a table in the order in which they are written. -/
def written (entries : List (String × Value)) : List (String × Value) := ofGroup .plain entries ++ sectioned entries

theorem written_perm (entries : List (String × Value)) : (written entries).Perm entries := by
  induction entries with
  | nil => rfl
  | cons entry rest ih =>
    cases hgroup : Layout.groupOf entry.2 with
    | plain => simpa [written, sectioned, ofGroup, hgroup] using ih
    | arrayOfTables =>
      refine List.Perm.trans ?_ (ih.cons entry)
      simp only [written, sectioned, ofGroup, List.filter_cons, hgroup]
      simp
    | table =>
      refine List.Perm.trans ?_ (ih.cons entry)
      simp only [written, sectioned, ofGroup, List.filter_cons, hgroup]
      simp only [reduceCtorEq, decide_false, Bool.false_eq_true, if_false, decide_true, if_true, ← List.append_assoc]
      exact List.perm_middle

/-- A table does not begin with the key of dates when it is written. -/
def NotDated : Value → Prop
  | .table entries => (written entries).head?.map (·.1) ≠ some momentKey
  | _ => True

/-- The text of a date or time spells just that. -/
def MomentSpelled : Value → Prop
  | .moment m => DateTime.ofText? m.text = some m
  | _ => True

/-- A value is no float. -/
def NotFloat : Value → Prop
  | .float _ => False
  | _ => True

mutual

/-- Without floats a value is what it is read as. -/
theorem reread_of_notFloat : ∀ value : Value, Everywhere NotFloat value → value.reread = value
  | .array elements, h => by rw [reread, rereadAll_of_notFloat elements h.2]
  | .table entries, h => by rw [reread, rereadEntries_of_notFloat entries h.2]
  | .float _, h => absurd h id
  | .boolean _, _ | .integer _, _ | .string _, _ | .moment _, _ => rfl

theorem rereadAll_of_notFloat : ∀ values : List Value, EverywhereAmong NotFloat values → rereadAll values = values
  | [], _ => rfl
  | value :: rest, h => by rw [rereadAll, reread_of_notFloat value h.1, rereadAll_of_notFloat rest h.2]

theorem rereadEntries_of_notFloat : ∀ entries : List (String × Value), EverywhereIn NotFloat entries →
    rereadEntries entries = entries
  | [], _ => rfl
  | (_, value) :: rest, h => by rw [rereadEntries, reread_of_notFloat value h.1, rereadEntries_of_notFloat rest h.2]

end

theorem rereadEntries_eq_map (entries : List (String × Value)) :
    rereadEntries entries = entries.map fun entry => (entry.1, entry.2.reread) := by
  induction entries with
  | nil => rfl
  | cons entry rest ih => simp [rereadEntries, ih]

/-- Reading floats again keeps the keys. -/
theorem rereadEntries_ordered {entries : List (String × Value)} (h : Keyed.Ordered entries) :
    Keyed.Ordered (rereadEntries entries) := by
  rw [rereadEntries_eq_map, Keyed.Ordered, List.pairwise_map]
  exact h

/-- A table is made of its entries in the order in which they are written. -/
theorem insertAll_written {entries : List (String × Value)} (h : Keyed.Ordered entries) :
    Keyed.insertAll [] (rereadEntries (written entries)) = rereadEntries entries := by
  refine Keyed.insertAll_eq_of_perm (rereadEntries_ordered h) ?_
  rw [rereadEntries_eq_map, rereadEntries_eq_map]
  exact (written_perm entries).map _

theorem rereadEntries_append (entries more : List (String × Value)) :
    rereadEntries (entries ++ more) = rereadEntries entries ++ rereadEntries more := by
  simp only [rereadEntries_eq_map, List.map_append]

theorem keys_rereadEntries (entries : List (String × Value)) :
    (rereadEntries entries).map (·.1) = entries.map (·.1) := by
  rw [rereadEntries_eq_map, List.map_map]
  rfl

/-- What the lines of a table come to. -/
def lines (entries : List (String × Value)) : Table := Keyed.insertAll [] (rereadEntries (ofGroup .plain entries))

theorem nodup_written {entries : List (String × Value)} (h : Keyed.Ordered entries) :
    ((written entries).map (·.1)).Nodup :=
  ((written_perm entries).map _).nodup_iff.2 h.nodup

theorem lines_perm {entries : List (String × Value)} (h : Keyed.Ordered entries) :
    (lines entries).Perm (rereadEntries (ofGroup .plain entries)) := by
  refine Keyed.insertAll_perm ?_
  have hnodup := nodup_written h
  rw [written, List.map_append] at hnodup
  rw [List.nil_append, keys_rereadEntries]
  exact (List.nodup_append.1 hnodup).1

/-- The lines of a table and its other entries have different keys. -/
theorem nodup_lines_append {entries : List (String × Value)} (h : Keyed.Ordered entries) :
    ((lines entries ++ sectioned entries).map (·.1)).Nodup := by
  have hperm := ((lines_perm h).map Prod.fst).append_right ((sectioned entries).map (·.1))
  rw [keys_rereadEntries] at hperm
  rw [List.map_append, hperm.nodup_iff, ← List.map_append]
  exact nodup_written h

theorem ofGroup_eq_nil {group : Layout.Group} {entries : List (String × Value)}
    (h : ¬ Layout.hasGroup group entries = true) : ofGroup group entries = [] := by
  rw [ofGroup, List.filter_eq_nil_iff]
  intro entry hentry hgroup
  exact h (List.any_eq_true.2 ⟨entry, hentry, hgroup⟩)

theorem hasGroup_iff {group : Layout.Group} {entries : List (String × Value)} :
    Layout.hasGroup group entries = true ↔ ofGroup group entries ≠ [] := by
  rw [ne_eq, ofGroup, List.filter_eq_nil_iff, Layout.hasGroup, List.any_eq_true]
  push Not
  rfl

theorem lines_eq_nil {entries : List (String × Value)} (h : ¬ Layout.hasGroup .plain entries = true) :
    lines entries = [] := by
  rw [lines, ofGroup_eq_nil h]
  rfl

/-- Without lines a table begins with its other entries. -/
theorem written_of_lines_eq_nil {entries : List (String × Value)} (h : Keyed.Ordered entries)
    (hlines : lines entries = []) : written entries = sectioned entries := by
  have hlength := (lines_perm h).length_eq
  rw [hlines, rereadEntries_eq_map, List.length_map, List.length_nil] at hlength
  rw [written, List.length_eq_zero_iff.1 hlength.symm, List.nil_append]

/-- The lines of a table with its other entries are the table. -/
theorem insertAll_lines {entries : List (String × Value)} (h : Keyed.Ordered entries) :
    Keyed.insertAll (lines entries) (rereadEntries (sectioned entries)) = rereadEntries entries := by
  rw [lines, ← Keyed.insertAll_append, ← rereadEntries_append]
  exact insertAll_written h

theorem areElements_iff {values : List Value} :
    areElements values = true ↔ ∀ value ∈ values, value.isElement = true := by
  induction values with
  | nil => simp [areElements]
  | cons value rest ih => simp [areElements, ih]

theorem isElement_of_isTable {value : Value} (htable : Layout.isTable value = true) (hflat : value.isFlat = true) :
    value.isElement = true := by
  cases value with
  | table entries => exact hflat
  | moment _ => rfl
  | _ => simp [Layout.isTable] at htable

mutual

/-- A value in which every array holds no tables or nothing else is flat. -/
theorem isFlat_of_uniform : ∀ value : Value, Everywhere Uniform value → value.isFlat = true
  | .array [], _ => rfl
  | .array (first :: rest), h => by
    rw [isFlat, Bool.or_eq_true, Bool.and_eq_true]
    refine h.self.imp id fun htables => ⟨htables first List.mem_cons_self, ?_⟩
    exact areElements_iff.2 fun value hvalue =>
      isElement_of_isTable (htables value hvalue) (areAllFlat_of_uniform (first :: rest) h.2 value hvalue)
  | .table entries, h => areFlat_of_uniform entries h.2
  | .boolean _, _ | .integer _, _ | .float _, _ | .string _, _ | .moment _, _ => rfl

theorem areAllFlat_of_uniform : ∀ values : List Value, EverywhereAmong Uniform values →
    ∀ value ∈ values, value.isFlat = true
  | [], _, _, hmem => by simp at hmem
  | first :: rest, h, value, hmem => by
    rcases List.mem_cons.1 hmem with heq | hmem
    · rw [heq]
      exact isFlat_of_uniform first h.1
    · exact areAllFlat_of_uniform rest h.2 value hmem

theorem areFlat_of_uniform : ∀ entries : List (String × Value), EverywhereIn Uniform entries →
    areFlat entries = true
  | [], _ => rfl
  | (_, value) :: rest, h => by
    rw [areFlat, Bool.and_eq_true]
    exact ⟨isFlat_of_uniform value h.1, areFlat_of_uniform rest h.2⟩

end

/-- What it takes for a value to be read back from its sections. -/
structure Sound (value : Value) : Prop where
  ordered : Everywhere KeysOrdered value
  uniform : Everywhere Uniform value
  dated : Everywhere NotDated value
  spelled : Everywhere MomentSpelled value

theorem Sound.entry {entries : List (String × Value)} (h : Sound (.table entries)) {entry : String × Value}
    (hentry : entry ∈ entries) : Sound entry.2 :=
  ⟨h.ordered.entry hentry, h.uniform.entry hentry, h.dated.entry hentry, h.spelled.entry hentry⟩

theorem Sound.element {elements : List Value} (h : Sound (.array elements)) {value : Value} (hvalue : value ∈ elements) :
    Sound value :=
  ⟨h.ordered.element hvalue, h.uniform.element hvalue, h.dated.element hvalue, h.spelled.element hvalue⟩

theorem areFlat_of_sound {entries : List (String × Value)} (h : ∀ entry ∈ entries, entry.2.Sound) :
    areFlat entries = true :=
  areFlat_of_uniform entries (everywhereIn_iff.2 fun entry hentry => (h entry hentry).uniform)

theorem groupOf_of_mem_sectioned {entries : List (String × Value)} {entry : String × Value}
    (h : entry ∈ sectioned entries) : entry ∈ entries ∧ Layout.groupOf entry.2 ≠ .plain := by
  simp only [sectioned, ofGroup, List.mem_append, List.mem_filter, decide_eq_true_eq] at h
  rcases h with ⟨hmem, hgroup⟩ | ⟨hmem, hgroup⟩ <;> simp [hmem, hgroup]

theorem mem_sectioned_of_isTable {entries : List (String × Value)} {entry : String × Value} (h : entry ∈ entries)
    (htable : Layout.isTable entry.2 = true) : entry ∈ sectioned entries := by
  refine List.mem_append_right _ (List.mem_filter.2 ⟨h, ?_⟩)
  cases hvalue : entry.2 with
  | table _ | moment _ => rfl
  | _ => simp [hvalue, Layout.isTable] at htable

/-- An array that is not plain but uniform holds tables only. -/
theorem isTable_of_uniform {elements : List Value} (h : Uniform (.array elements))
    (hgroup : Layout.groupOf (.array elements) ≠ .plain) : ∀ value ∈ elements, Layout.isTable value = true := by
  rcases h with hplain | htables
  · exact absurd (groupOf_of_isPlain (by rwa [isPlain])) hgroup
  · exact htables

end Value

end LedSwitch.Toml
