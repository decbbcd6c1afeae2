import Mathlib.Data.List.Nodup
import LedSwitch.Proofs.Toml.Assembled
import LedSwitch.Proofs.Toml.Visits

/-!
Tables that begin with the key of dates are not read back. A document of tables and plain values is read back just
if none of its nested tables begins so (`Assembly.table?_documentSections_iff`).
-/

namespace LedSwitch.Toml

theorem Layout.lineItems_eq_map (entries : List (String × Value)) :
    lineItems entries = (Value.ofGroup .plain entries).map fun entry => (entry.1, entry.2.item) := by
  induction entries with
  | nil => rfl
  | cons entry rest ih =>
    obtain ⟨key, value⟩ := entry
    by_cases hgroup : groupOf value = .plain <;> simp [lineItems, Value.ofGroup, hgroup, ih]

namespace Assembly

open Layout

/-- The sections of a block, and no others, have keys in front. -/
structure Apart (all : List Section) (keys : List String) (before block after : List Section) : Prop where
  split : all = before ++ (block ++ after)
  none_before : ∀ s ∈ before, ¬ keys <+: s.header
  none_after : ∀ s ∈ after, ¬ keys <+: s.header

variable {all before after : List Section} {keys : List String} {entries : List (String × Value)}

/-- The sections of a table: those of its lines, and a block for each other entry. -/
structure TableApart (all : List Section) (keys : List String) (entries : List (String × Value))
    (before own after : List Section) : Prop extends
    Apart all keys before (own ++ blocks keys (Value.sectioned entries)) after where
  ordered : Keyed.Ordered entries
  own_lines : ∀ s ∈ own, s.header = keys ∧ s.body = lineItems entries

namespace TableApart

variable {own : List Section}

/-- A section with the header of a table holds its lines. -/
theorem body_eq (h : TableApart all keys entries before own after) {s : Section} (hs : s ∈ all)
    (hheader : s.header = keys) : s.body = lineItems entries := by
  rw [h.split, List.mem_append, List.mem_append, List.mem_append] at hs
  rcases hs with hs | (hs | hs) | hs
  · exact absurd (hheader ▸ List.prefix_refl _) (h.none_before s hs)
  · exact (h.own_lines s hs).2
  · exact absurd hheader (header_ne_of_mem_blocks hs)
  · exact absurd (hheader ▸ List.prefix_refl _) (h.none_after s hs)

/-- The sections of an entry that is no line stand in a block of their own. -/
theorem entry (h : TableApart all keys entries before own after) {entry : String × Value}
    (hentry : entry ∈ Value.sectioned entries) :
    ∃ before' after', Apart all (keys ++ [entry.1]) before' (sections .key (keys ++ [entry.1]) entry.2) after' := by
  obtain ⟨key, value⟩ := entry
  obtain ⟨first, rest, hsectioned⟩ := List.append_of_mem hentry
  have hnodup := Value.nodup_written h.ordered
  rw [Value.written, hsectioned] at hnodup
  simp only [List.map_append, List.map_cons] at hnodup
  have hmiddle := (List.nodup_append.1 hnodup).2.1
  rw [List.nodup_middle, List.nodup_cons, List.mem_append, not_or] at hmiddle
  have hblocks : blocks keys (Value.sectioned entries) =
      blocks keys first ++ (sections .key (keys ++ [key]) value ++ blocks keys rest) := by
    rw [hsectioned, blocks_append]
    rfl
  have hshorter : ∀ {header : List String}, ¬ keys <+: header → ¬ keys ++ [key] <+: header := fun hnot hfront =>
    hnot ((List.prefix_append keys [key]).trans hfront)
  refine ⟨before ++ (own ++ blocks keys first), blocks keys rest ++ after, ?_, ?_, ?_⟩
  · rw [h.split, hblocks]
    simp only [List.append_assoc]
  · intro s hs
    rw [List.mem_append, List.mem_append] at hs
    rcases hs with hs | hs | hs
    · exact hshorter (h.none_before s hs)
    · intro hfront
      have hlength := hfront.length_le
      rw [(h.own_lines s hs).1] at hlength
      simp at hlength
    · exact not_prefix_of_mem_blocks hmiddle.1.1 s hs
  · intro s hs
    rcases List.mem_append.1 hs with hs | hs
    · exact not_prefix_of_mem_blocks hmiddle.1.2 s hs
    · exact hshorter (h.none_after s hs)

/-- What a visit finds at the key of an entry that is no line, a visit of its own has gathered. -/
theorem child_of_visit? (h : TableApart all keys entries before own after)
    {child : Numbered → List Nat → Option (Value × List Nat)} {nested : Bool} {parent : Numbered} {used used' : List Nat}
    {visited : List Numbered} {result : Table} (hvisited : ∀ s ∈ visited, s ∈ all.zipIdx)
    (hvisit : visit? child ⟨keys, nested⟩ parent used [] visited = some (.table result, used'))
    {entry : String × Value} (hentry : entry ∈ Value.sectioned entries) (hget : result.get? entry.1 = some entry.2) :
    ∃ s ∈ all.zipIdx, ∃ used used', keys ++ [entry.1] <+: s.1.header ∧ child s used = some (entry.2, used') := by
  obtain hnone | horigin := origin_of_visit? hvisit hget
  · cases hnone
  rcases horigin.mem with ⟨s, hs, hheader, hkey⟩ | ⟨s, hs, hchild⟩
  · rw [h.body_eq (List.fst_mem_of_mem_zipIdx (hvisited s hs)) hheader, lineItems_eq_map, List.map_map] at hkey
    have hnodup := Value.nodup_written h.ordered
    rw [Value.written, List.map_append, List.nodup_append] at hnodup
    exact absurd rfl (hnodup.2.2 entry.1 hkey entry.1 (List.mem_map_of_mem hentry))
  · exact ⟨s, hvisited s hs, hchild⟩

end TableApart

/-- Of the sections with keys in front, those come first that say that the table there begins with the key of dates. -/
def DateFirst (all : List Section) (keys : List String) : Prop :=
  ∃ early late, all = early ++ late ∧ (∀ s ∈ early, keys <+: s.header → BeginsDate keys s) ∧
    ∀ s ∈ late, ¬ Introduces keys momentKey s

namespace Apart

theorem table (h : Apart all keys before (sections .key keys (.table entries)) after)
    (hordered : Keyed.Ordered entries) : ∃ own, TableApart all keys entries before own after := by
  rw [sections_table] at h
  refine ⟨_, h, hordered, fun s hs => ?_⟩
  rw [List.mem_ite_nil_right, List.mem_singleton] at hs
  rw [hs.2]
  exact ⟨rfl, rfl⟩

/-- Neither the blocks of other keys nor what comes after the table says that it begins with the key of dates. -/
theorem not_introduces {block : List Section} (h : Apart all keys before block after) {rest : List (String × Value)}
    (hrest : momentKey ∉ rest.map (·.1)) : ∀ s ∈ blocks keys rest ++ after, ¬ Introduces keys momentKey s := by
  intro s hs hintroduces
  rcases List.mem_append.1 hs with hs | hs
  · rcases hintroduces with hfront | ⟨hheader, -⟩
    · exact not_prefix_of_mem_blocks hrest s hs hfront
    · exact header_ne_of_mem_blocks hs hheader
  · rcases hintroduces with hfront | ⟨hheader, -⟩
    · exact h.none_after s hs ((List.prefix_append _ _).trans hfront)
    · exact h.none_after s hs (hheader ▸ List.prefix_refl _)

/-- The key of dates has a block of its own, and there is no line. -/
theorem dateFirst_of_section (h : Apart all keys before (sections .key keys (.table entries)) after) {value : Value}
    {rest : List (String × Value)} (hplain : Value.ofGroup .plain entries = [])
    (hsectioned : Value.sectioned entries = (momentKey, value) :: rest) (hrest : momentKey ∉ rest.map (·.1)) :
    DateFirst all keys := by
  have hheader : hasHeader entries = false := by
    have hmem : (momentKey, value) ∈ entries :=
      (Value.groupOf_of_mem_sectioned (by rw [hsectioned]; exact List.mem_cons_self)).1
    rw [hasHeader, Bool.or_eq_false_iff, List.isEmpty_eq_false_iff, Bool.eq_false_iff]
    exact ⟨List.ne_nil_of_mem hmem, fun hany => Value.hasGroup_iff.1 hany hplain⟩
  refine ⟨before ++ sections .key (keys ++ [momentKey]) value, blocks keys rest ++ after, ?_, ?_,
    h.not_introduces hrest⟩
  · rw [h.split, sections_table, hsectioned, hheader]
    simp [blocks]
  · intro s hs hfront
    rcases List.mem_append.1 hs with hs | hs
    · exact absurd hfront (h.none_before s hs)
    · exact Or.inl (prefix_of_mem_sections _ _ _ s hs)

/-- The key of dates has the first of the lines. -/
theorem dateFirst_of_line (h : Apart all keys before (sections .key keys (.table entries)) after) {value : Value}
    {rest : List (String × Value)} (hplain : Value.ofGroup .plain entries = (momentKey, value) :: rest)
    (hsectioned : momentKey ∉ (Value.sectioned entries).map (·.1)) : DateFirst all keys := by
  have hheader : hasHeader entries = true := by
    rw [hasHeader, Bool.or_eq_true, Value.hasGroup_iff, hplain]
    exact Or.inr (by simp)
  refine ⟨before ++ [⟨keys, false, lineItems entries⟩], blocks keys (Value.sectioned entries) ++ after, ?_, ?_,
    h.not_introduces hsectioned⟩
  · rw [h.split, sections_table, if_pos (Or.inr hheader)]
    simp [Site.repeated]
  · intro s hs hfront
    rcases List.mem_append.1 hs with hs | hs
    · exact absurd hfront (h.none_before s hs)
    · rw [List.mem_singleton] at hs
      exact Or.inr ⟨by rw [hs], by rw [hs, lineItems_eq_map, hplain]; rfl⟩

/-- Of a table that begins with the key of dates, the sections that say so come first. -/
theorem dateFirst_of_dated (h : Apart all keys before (sections .key keys (.table entries)) after)
    (hordered : Keyed.Ordered entries) (hdated : (Value.written entries).head?.map (·.1) = some momentKey) :
    DateFirst all keys := by
  have hnodup := Value.nodup_written hordered
  cases hplain : Value.ofGroup .plain entries with
  | nil =>
    rw [Value.written, hplain, List.nil_append] at hdated hnodup
    cases hsectioned : Value.sectioned entries with
    | nil => simp [hsectioned] at hdated
    | cons entry rest =>
      obtain ⟨key, value⟩ := entry
      obtain rfl : key = momentKey := by simpa [hsectioned] using hdated
      rw [hsectioned, List.map_cons, List.nodup_cons] at hnodup
      exact h.dateFirst_of_section hplain hsectioned hnodup.1
  | cons entry rest =>
    obtain ⟨key, value⟩ := entry
    rw [Value.written, hplain] at hdated hnodup
    obtain rfl : key = momentKey := by simpa using hdated
    rw [List.cons_append, List.map_cons, List.nodup_cons, List.map_append, List.mem_append, not_or] at hnodup
    exact h.dateFirst_of_line hplain hnodup.1.2

end Apart

/-- What a visit makes of a table is what the document holds, only if the table does not begin with the key of dates.
    Its nested entries are then made by visits too. -/
theorem visits_of_value? (hsingle : ∀ s ∈ all, s.repeated = false)
    (hapart : Apart all keys before (sections .key keys (.table entries)) after) (hordered : Keyed.Ordered entries)
    {levels depth limit : Nat} {s : Numbered} {used used' : List Nat} (hdepth : keys.length = depth + 1)
    (hs : s ∈ all.zipIdx) (hfront : keys <+: s.1.header)
    (h : value? all.zipIdx levels depth limit s used = some (.table entries, used')) :
    Value.NotDated (.table entries) ∧ ∀ entry ∈ Value.sectioned entries, ∃ levels limit s used used', s ∈ all.zipIdx ∧
      keys ++ [entry.1] <+: s.1.header ∧ value? all.zipIdx levels (depth + 1) limit s used = some (entry.2, used') := by
  cases levels with
  | zero => simp [value?] at h
  | succ levels =>
    have hrepeated := hsingle s.1 (List.fst_mem_of_mem_zipIdx hs)
    have htake : s.1.header.take (depth + 1) = keys := by
      rw [← hdepth]
      exact (List.prefix_iff_eq_take.1 hfront).symm
    rw [value?_single (by simp [hrepeated]), gatherBelow, htake] at h
    obtain ⟨⟨gathered, used''⟩, hvisit, heq⟩ := Option.map_eq_some_iff.1 h
    obtain rfl : gathered = .table entries := by
      cases gathered with
      | table found =>
        obtain ⟨hfound, -⟩ := Prod.mk.inj heq
        rw [Value.table.inj hfound]
      | moment moment => cases (Prod.mk.inj heq).1
    refine ⟨fun hdated => ?_, fun entry hentry => ?_⟩
    · obtain ⟨early, late, hsplit, hearly, hlate⟩ := hapart.dateFirst_of_dated hordered hdated
      have hnone := get?_momentKey_of_visit?_filter hsplit hearly hlate hvisit
      refine Keyed.get?_eq_none_iff.1 hnone (((Value.written_perm entries).map _).mem_iff.1 ?_)
      rw [← List.head?_map] at hdated
      exact List.mem_of_mem_head? hdated
    · obtain ⟨own, htable⟩ := hapart.table hordered
      have hmem := (Value.groupOf_of_mem_sectioned hentry).1
      obtain ⟨t, ht, u, u', hheader, hvalue⟩ := htable.child_of_visit? (fun t ht => (List.mem_filter.1 ht).1) hvisit hentry
        (Keyed.get?_of_mem hordered.nodup hmem)
      exact ⟨levels, limit, t, u, u', ht, hheader, hvalue⟩

end Assembly

namespace Value

/-- No float and no date, and an array only of plain values. -/
def Ordinary : Value → Prop
  | .float _ | .moment _ => False
  | .array elements => arePlain elements = true
  | _ => True

mutual

theorem notDated_of_isPlain : ∀ value : Value, value.isPlain = true → Everywhere NotDated value
  | .array elements, h => ⟨trivial, notDated_of_arePlain elements h⟩
  | .table _, h | .moment _, h => by simp [isPlain] at h
  | .boolean _, _ | .integer _, _ | .float _, _ | .string _, _ => trivial

theorem notDated_of_arePlain : ∀ values : List Value, arePlain values = true → EverywhereAmong NotDated values
  | [], _ => trivial
  | value :: rest, h => by
    rw [arePlain, Bool.and_eq_true] at h
    exact ⟨notDated_of_isPlain value h.1, notDated_of_arePlain rest h.2⟩

end

/-- An ordinary value that is no table is plain. -/
theorem Ordinary.isPlain {value : Value} (h : Ordinary value) (htable : Layout.isTable value = false) :
    value.isPlain = true := by
  cases value with
  | array elements => exact h
  | table _ => cases htable
  | float _ | moment _ => exact absurd h id
  | _ => rfl

theorem Ordinary.uniform {value : Value} (h : Ordinary value) : Uniform value := by
  cases value with
  | array elements => exact Or.inl h
  | _ => trivial

theorem Ordinary.momentSpelled {value : Value} (h : Ordinary value) : MomentSpelled value := by
  cases value with
  | moment _ => exact absurd h id
  | _ => trivial

theorem Ordinary.notFloat {value : Value} (h : Ordinary value) : NotFloat value := by
  cases value with
  | float _ => exact absurd h id
  | _ => trivial

mutual

/-- A condition that implies another one does so everywhere. -/
theorem Everywhere.imp {p q : Value → Prop} (himp : ∀ {value}, p value → q value) :
    ∀ value : Value, Everywhere p value → Everywhere q value
  | .array elements, h => ⟨himp h.1, EverywhereAmong.imp himp elements h.2⟩
  | .table entries, h => ⟨himp h.1, EverywhereIn.imp himp entries h.2⟩
  | .boolean _, h | .integer _, h | .float _, h | .string _, h | .moment _, h => himp h

theorem EverywhereAmong.imp {p q : Value → Prop} (himp : ∀ {value}, p value → q value) :
    ∀ values : List Value, EverywhereAmong p values → EverywhereAmong q values
  | [], _ => trivial
  | value :: rest, h => ⟨Everywhere.imp himp value h.1, EverywhereAmong.imp himp rest h.2⟩

theorem EverywhereIn.imp {p q : Value → Prop} (himp : ∀ {value}, p value → q value) :
    ∀ entries : List (String × Value), EverywhereIn p entries → EverywhereIn q entries
  | [], _ => trivial
  | (_, value) :: rest, h => ⟨Everywhere.imp himp value h.1, EverywhereIn.imp himp rest h.2⟩

end

/-- An ordinary value is sound if its tables are in order and none of them begins with the key of dates. -/
theorem sound_of_ordinary {value : Value} (hordered : Everywhere KeysOrdered value) (hordinary : Everywhere Ordinary value)
    (hdated : Everywhere NotDated value) : Sound value :=
  ⟨hordered, Everywhere.imp Ordinary.uniform value hordinary, hdated, Everywhere.imp Ordinary.momentSpelled value hordinary⟩

end Value

namespace Assembly

open Layout

/-- A value is found by a visit to its own sections only if none of its tables begins with the key of dates. -/
def FoundUndated (value : Value) : Prop :=
  ∀ {all before after : List Section} {keys : List String} {levels depth limit : Nat} {s : Numbered}
    {used used' : List Nat}, (∀ s ∈ all, s.repeated = false) →
    Apart all keys before (sections .key keys value) after → keys.length = depth + 1 → s ∈ all.zipIdx →
    keys <+: s.1.header → value? all.zipIdx levels depth limit s used = some (value, used') →
    value.Everywhere Value.NotDated

mutual

theorem foundUndated : ∀ value : Value, value.Everywhere Value.KeysOrdered → value.Everywhere Value.Ordinary →
    FoundUndated value
  | .table entries, hordered, hordinary => by
    intro hsingle hapart hdepth hs hfront h
    obtain ⟨hdated, hvisits⟩ := visits_of_value? hsingle hapart hordered.self hdepth hs hfront h
    refine ⟨hdated, Value.everywhereIn_iff.2 fun entry hentry => ?_⟩
    cases htable : isTable entry.2 with
    | false => exact Value.notDated_of_isPlain _ ((hordinary.entry hentry).self.isPlain htable)
    | true =>
      have hsectioned := Value.mem_sectioned_of_isTable hentry htable
      obtain ⟨levels, limit, s, used, used', hs, hfront, hvalue⟩ := hvisits entry hsectioned
      obtain ⟨own, hown⟩ := hapart.table hordered.self
      obtain ⟨before', after', hapart'⟩ := hown.entry hsectioned
      exact entries_foundUndated entries hordered.2 hordinary.2 entry hentry hsingle hapart' (by simp [hdepth]) hs hfront
        hvalue
  | .moment _, _, hordinary => absurd hordinary id
  | .array elements, _, hordinary => fun _ _ _ _ _ _ => Value.notDated_of_isPlain _ hordinary.self
  | .float _, _, hordinary => absurd hordinary id
  | .boolean _, _, _ | .integer _, _, _ | .string _, _, _ => fun _ _ _ _ _ _ => trivial

theorem entries_foundUndated : ∀ entries : List (String × Value), Value.EverywhereIn Value.KeysOrdered entries →
    Value.EverywhereIn Value.Ordinary entries → ∀ entry ∈ entries, FoundUndated entry.2
  | [], _, _, _, hmem => by simp at hmem
  | (_, value) :: rest, hordered, hordinary, entry, hmem => by
    rcases List.mem_cons.1 hmem with heq | hmem
    · rw [heq]
      exact foundUndated value hordered.1 hordinary.1
    · exact entries_foundUndated rest hordered.2 hordinary.2 entry hmem

end

mutual

/-- Only arrays of tables have headers in double brackets. -/
theorem repeated_of_mem_sections : ∀ value : Value, value.Everywhere Value.Ordinary → isTable value = true →
    ∀ keys, ∀ s ∈ sections .key keys value, s.repeated = false
  | .table entries, hordinary, _, keys, s, hs => by
    rw [sections_table, List.mem_append, List.mem_ite_nil_right, List.mem_singleton] at hs
    rcases hs with ⟨-, rfl⟩ | hs
    · rfl
    · obtain ⟨entry, hentry, hs⟩ := List.mem_flatMap.1 hs
      exact repeated_of_mem_entries entries hordinary.2 entry (Value.groupOf_of_mem_sectioned hentry).1
        (Value.groupOf_of_mem_sectioned hentry).2 _ s hs
  | .moment _, hordinary, _, _, _, _ => absurd hordinary id
  | .array _, _, htable, _, _, _ | .boolean _, _, htable, _, _, _ | .integer _, _, htable, _, _, _
  | .float _, _, htable, _, _, _ | .string _, _, htable, _, _, _ => by cases htable

theorem repeated_of_mem_entries : ∀ entries : List (String × Value), Value.EverywhereIn Value.Ordinary entries →
    ∀ entry ∈ entries, groupOf entry.2 ≠ .plain → ∀ keys, ∀ s ∈ sections .key keys entry.2, s.repeated = false
  | [], _, _, hmem, _ => by simp at hmem
  | (_, value) :: rest, hordinary, entry, hmem, hgroup => by
    rcases List.mem_cons.1 hmem with heq | hmem
    · rw [heq] at hgroup ⊢
      cases htable : isTable value with
      | true => exact repeated_of_mem_sections value hordinary.1 htable
      | false => exact absurd (Value.groupOf_of_isPlain (hordinary.1.self.isPlain htable)) hgroup
    · exact repeated_of_mem_entries rest hordinary.2 entry hmem hgroup

end

theorem tableApart_document {table : Table} (hordered : Keyed.Ordered table) :
    ∃ own, TableApart (documentSections table) [] table [] own [] := by
  refine ⟨_, ⟨by rw [documentSections_eq, List.nil_append, List.append_nil], by simp, by simp⟩, hordered, fun s hs => ?_⟩
  rw [List.mem_ite_nil_right, List.mem_singleton] at hs
  rw [hs.2]
  exact ⟨rfl, rfl⟩

/-- A document of ordinary values is put together from its sections just if none of its nested tables begins with the
    key of dates. -/
theorem table?_documentSections_iff {table : Table} (hordered : (Value.table table).Everywhere Value.KeysOrdered)
    (hordinary : (Value.table table).Everywhere Value.Ordinary) :
    table? (documentSections table) = some table ↔ ∀ entry ∈ table, entry.2.Everywhere Value.NotDated := by
  constructor
  · intro h entry hentry
    cases htable : isTable entry.2 with
    | false => exact Value.notDated_of_isPlain _ ((hordinary.entry hentry).self.isPlain htable)
    | true =>
      have hsectioned := Value.mem_sectioned_of_isTable hentry htable
      obtain ⟨own, hown⟩ := tableApart_document hordered.self
      obtain ⟨before, after, hapart⟩ := hown.entry hsectioned
      obtain ⟨-, rfl⟩ | ⟨levels, parent, used, hvisit⟩ := visit?_of_table? h
      · cases hentry
      obtain ⟨s, hs, used, used', hfront, hvalue⟩ := hown.child_of_visit? (fun _ hs => hs) hvisit hsectioned
        (Keyed.get?_of_mem hordered.self.nodup hentry)
      refine foundUndated entry.2 (hordered.entry hentry) (hordinary.entry hentry) (fun s hs => ?_) hapart rfl hs hfront
        hvalue
      rw [documentSections_eq, List.mem_append, List.mem_ite_nil_right, List.mem_singleton] at hs
      rcases hs with ⟨-, rfl⟩ | hs
      · rfl
      · obtain ⟨other, hother, hs⟩ := List.mem_flatMap.1 hs
        exact repeated_of_mem_entries table hordinary.2 other (Value.groupOf_of_mem_sectioned hother).1
          (Value.groupOf_of_mem_sectioned hother).2 _ s hs
  · intro hdated
    have hsound : ∀ entry ∈ table, entry.2.Sound := fun entry hentry =>
      Value.sound_of_ordinary (hordered.entry hentry) (hordinary.entry hentry) (hdated entry hentry)
    rw [table?_documentSections hordered.self hsound,
      Value.rereadEntries_of_notFloat table (Value.EverywhereIn.imp Value.Ordinary.notFloat table hordinary.2)]

end Assembly

end LedSwitch.Toml
