import LedSwitch.Proofs.Toml.Alone
import LedSwitch.Proofs.Toml.Blocks
import LedSwitch.Proofs.Toml.Visits

/-!
The sections of a written document are put together to the table that was written. Each value has its sections in a
block that stands alone. A visit then takes the block and nothing else, which `Assembly.Rebuilt` says of a value and
`Assembly.rebuilt_of_sound` states.
-/

namespace LedSwitch.Toml

namespace Item

/-- The lines of a document are its plain entries. -/
theorem overlay?_lineItems {entries : List (String × Value)} (hflat : Value.areFlat entries = true)
    (gathered : Table) :
    overlay? gathered (Layout.lineItems entries) = some (Keyed.insertAll gathered
      (Value.rereadEntries (Value.ofGroup .plain entries))) := by
  induction entries generalizing gathered with
  | nil => rfl
  | cons entry rest ih =>
    obtain ⟨key, value⟩ := entry
    simp only [Value.areFlat, Bool.and_eq_true] at hflat
    by_cases hgroup : Layout.groupOf value = .plain
    · have hvalue := Value.value?_item value (Value.isPlain_of_isFlat hflat.1 hgroup)
      simp [Layout.lineItems, Value.ofGroup, hgroup, overlay?, hvalue, ih hflat.2, Value.rereadEntries,
        Keyed.insertAll_cons]
    · simp [Layout.lineItems, Value.ofGroup, hgroup, ih hflat.2]

theorem isEmpty_insert (key : String) (value : Value) (entries : Table) :
    (entries.insert key value).isEmpty = false := by
  cases entries with
  | nil => rfl
  | cons entry rest =>
    rw [Keyed.insert]
    split_ifs <;> rfl

/-- The lines of a table are its plain entries, if they do not begin with the key of dates. -/
theorem gather?_lineItems {entries : List (String × Value)} (hflat : Value.areFlat entries = true) {gathered : Table}
    (hnodup : ((gathered ++ Value.ofGroup .plain entries).map (·.1)).Nodup)
    (hfirst : gathered = [] → (Value.ofGroup .plain entries).head?.map (·.1) ≠
      some momentKey) :
    gather? gathered (Layout.lineItems entries) = some (.table (Keyed.insertAll gathered
      (Value.rereadEntries (Value.ofGroup .plain entries)))) := by
  induction entries generalizing gathered with
  | nil => rfl
  | cons entry rest ih =>
    obtain ⟨key, value⟩ := entry
    simp only [Value.areFlat, Bool.and_eq_true] at hflat
    by_cases hgroup : Layout.groupOf value = .plain
    · have hvalue := Value.value?_item value (Value.isPlain_of_isFlat hflat.1 hgroup)
      simp only [Value.ofGroup, List.filter_cons, hgroup, decide_true, if_true] at hnodup hfirst ⊢
      have hnotdate : ¬ (gathered.isEmpty = true ∧ key = momentKey) := by
        rintro ⟨hempty, rfl⟩
        exact hfirst (List.isEmpty_iff.1 hempty) rfl
      obtain ⟨hnew, hnodup⟩ := Keyed.nodup_insert hnodup value.reread
      have hrest := ih hflat.2 hnodup fun h => by
        have hfull := isEmpty_insert key value.reread gathered
        simp [h] at hfull
      rw [Layout.lineItems, if_pos hgroup, gather?, if_neg hnotdate, Keyed.contains_eq_false_iff.2 hnew]
      simp [hvalue, hrest, Value.ofGroup, Value.rereadEntries, Keyed.insertAll_cons]
    · simp only [Value.ofGroup, List.filter_cons, hgroup, decide_false, Bool.false_eq_true, if_false] at hnodup hfirst ⊢
      rw [Layout.lineItems, if_neg hgroup]
      exact ih hflat.2 hnodup hfirst

end Item

namespace Assembly

open Layout

/-- The sections of a value below `keys` give just that value, wherever they stand alone. -/
def Rebuilt (all : List Section) (keys : List String) (key : String) (value : Value) : Prop :=
  ∀ (levels limit : Nat) (before after : List Section) (used : List Nat),
    (∀ s ∈ all, s.header.length ≤ keys.length + levels) →
    Alone all (keys ++ [key]) before (sections .key (keys ++ [key]) value) after limit used →
    ∃ first rest used', sections .key (keys ++ [key]) value = first :: rest ∧
      value? all.zipIdx levels keys.length limit (first, before.length) used = some (value.reread, used') ∧
      UsesUp used used' before.length (sections .key (keys ++ [key]) value).length

/-- A new key is accepted, unless it is the key of dates and a table would begin with it. -/
theorem Target.accepts_of_notMem {target : Target} {gathered : Table} {key : String} (hnew : key ∉ gathered.map (·.1))
    (hundated : target.nested = true → gathered = [] → key ≠ momentKey) : target.accepts gathered key = true := by
  rw [accepts, Keyed.contains_eq_false_iff.2 hnew]
  cases hnested : target.nested with
  | false => rfl
  | true => simpa [imp_iff_not_or] using hundated hnested

/-- A visit takes the sections of one entry after the other. -/
theorem visit?_blocks {all : List Section} {keys : List String} {levels limit : Nat} (nested : Bool)
    (hlevels : ∀ s ∈ all, s.header.length ≤ keys.length + levels) {after : List Section}
    {entries : List (String × Value)} {before : List Section} {used : List Nat} {gathered : Table}
    (hentries : ∀ entry ∈ entries, Rebuilt all keys entry.1 entry.2)
    (halone : Alone all keys before (blocks keys entries) after limit used)
    (hnodup : ((gathered ++ entries).map (·.1)).Nodup)
    (hfirst : nested = true → gathered = [] → entries.head?.map (·.1) ≠ some momentKey) (parent : Numbered)
    (hparent : Checked keys (entries.map (·.1)) ((blocks keys entries).zipIdx before.length) parent) :
    ∃ used', visit? (value? all.zipIdx levels keys.length limit) ⟨keys, nested⟩ parent used gathered
        ((blocks keys entries).zipIdx before.length ++
          (after.zipIdx (before.length + (blocks keys entries).length)).filter (·.2 < limit)) =
        some (.table (Keyed.insertAll gathered (Value.rereadEntries entries)), used') ∧
      UsesUp used used' before.length (blocks keys entries).length := by
  induction entries generalizing before used gathered parent with
  | nil =>
    exact ⟨used, visit?_skipped halone.skips_after, UsesUp.nil used before.length⟩
  | cons entry rest ih =>
    obtain ⟨key, value⟩ := entry
    have hblocks : blocks keys ((key, value) :: rest) = sections .key (keys ++ [key]) value ++ blocks keys rest := rfl
    rw [hblocks] at halone hparent ⊢
    obtain ⟨hnew, hnodup'⟩ := Keyed.nodup_insert hnodup value.reread
    have hdistinct : key ∉ rest.map (·.1) := by
      rw [List.map_append, List.nodup_append, List.map_cons, List.nodup_cons] at hnodup
      exact hnodup.2.1.1
    have hleft := halone.left (List.prefix_append keys [key]) (not_prefix_of_mem_blocks hdistinct)
    obtain ⟨first, more, used', hsections, hvalue, hused⟩ :=
      hentries (key, value) List.mem_cons_self levels limit before _ used hlevels hleft
    obtain ⟨keys', hkeys'⟩ := prefix_of_mem_sections .key (keys ++ [key]) value first (by rw [hsections]; simp)
    have hheader : first.header = keys ++ key :: keys' := by rw [← hkeys']; simp
    have hunused : before.length ∉ used := by
      refine halone.unused _ (Nat.le_refl _) ?_
      rw [List.length_append, hsections, List.length_cons]
      omega
    have hown : keys ++ [key] <+: first.header := ⟨keys', hkeys'⟩
    have hnext : (sections .key (keys ++ [key]) value ++ blocks keys rest).zipIdx before.length =
        (first, before.length) :: (more ++ blocks keys rest).zipIdx (before.length + 1) := by
      rw [hsections, List.cons_append, List.zipIdx_cons]
    rw [hnext] at hparent
    have haccepts : Target.accepts ⟨keys, nested⟩ gathered key = true :=
      Target.accepts_of_notMem hnew fun hnested hempty hkey => hfirst hnested hempty (by rw [hkey]; rfl)
    obtain ⟨used'', hvisit, hused'⟩ := ih (fun entry hentry => hentries entry (List.mem_cons_of_mem _ hentry))
      (halone.right hused) hnodup' (fun _ h => by
        have hfull := Item.isEmpty_insert key value.reread gathered
        simp [h] at hfull) _ (hparent.shorter hown hdistinct _)
    refine ⟨used'', ?_, ?_⟩
    · rw [List.length_append] at hvisit
      rw [List.zipIdx_append, List.append_assoc, List.length_append, ← Nat.add_assoc]
      rw [hsections] at hused hvisit ⊢
      rw [visit?_block hunused hheader (hparent.ne hown) haccepts hvalue hused]
      exact hvisit
    · rw [List.length_append] at hused' ⊢
      exact hused.append hused'

/-- The visit that gathers a table below a header, going on from what is gathered. -/
def gatherBelow (all : List Numbered) (levels depth : Nat) (header : List String) (limit : Nat) (s : Numbered)
    (used : List Nat) (gathered : Table) : Option (Value × List Nat) :=
  (visit? (value? all levels (depth + 1) limit) ⟨header, true⟩ s used gathered (all.filter (·.2 < limit))).map
    fun found => (found.1.value, found.2)

theorem value?_single {all : List Numbered} {levels depth limit : Nat} {first : Numbered} {used : List Nat}
    (h : ¬ (first.1.repeated = true ∧ first.1.header.length = depth + 1)) :
    value? all (levels + 1) depth limit first used =
      gatherBelow all levels depth (first.1.header.take (depth + 1)) limit first used [] := by
  rw [value?, if_neg h]
  rfl

/-- What there is to show for a value to be rebuilt: with one level for its own keys, it is found from the first of
    its sections. -/
theorem rebuilt_of_first {all : List Section} {keys : List String} {key : String} {value : Value}
    (hgroup : groupOf value ≠ .plain)
    (h : ∀ (levels limit : Nat) (before after : List Section) (used : List Nat) (first : Section) (rest : List Section),
      sections .key (keys ++ [key]) value = first :: rest → first.header.take (keys.length + 1) = keys ++ [key] →
      (∀ s ∈ all, s.header.length ≤ (keys ++ [key]).length + levels) →
      Alone all (keys ++ [key]) before (first :: rest) after limit used → before.length ∉ used →
      ∃ used', value? all.zipIdx (levels + 1) keys.length limit (first, before.length) used =
        some (value.reread, used') ∧ UsesUp used used' before.length (first :: rest).length) :
    Rebuilt all keys key value := by
  intro levels limit before after used hlevels halone
  obtain ⟨first, rest, hsections⟩ := List.exists_cons_of_ne_nil (sections_ne_nil (keys ++ [key]) value hgroup)
  have hfront := prefix_of_mem_sections .key (keys ++ [key]) value first (by rw [hsections]; simp)
  have hlength := hfront.length_le
  rw [List.length_append, List.length_singleton] at hlength
  rw [hsections] at halone ⊢
  obtain ⟨levels, rfl⟩ : ∃ n, levels = n + 1 := by
    have hbound := hlevels first (by rw [halone.split]; simp)
    exact ⟨levels - 1, by omega⟩
  have htake := List.prefix_iff_eq_take.1 hfront
  rw [List.length_append, List.length_singleton] at htake
  obtain ⟨used', hvalue, hused⟩ := h levels limit before after used first rest hsections htake.symm (fun s hs => by
    have hbound := hlevels s hs
    rw [List.length_append, List.length_singleton]
    omega) halone (halone.unused _ (Nat.le_refl _) (by rw [List.length_cons]; omega))
  exact ⟨first, rest, used', rfl, hvalue, hused⟩

/-- A date or time is put together from its one section. -/
theorem rebuilt_moment (all : List Section) (keys : List String) (key : String) {moment : DateTime}
    (hspelled : Value.MomentSpelled (.moment moment)) : Rebuilt all keys key (.moment moment) := by
  refine rebuilt_of_first (by simp [groupOf]) fun levels limit before after used first rest hsections htake _ halone hunused => ?_
  have hbody : (Target.mk (keys ++ [key]) true).addBody? []
      [(momentKey, .plain (.string (String.ofList moment.text)))] = some (.moment moment) := by
    have hread : DateTime.ofText? moment.text = some moment := hspelled
    simp [Target.addBody?, Item.gather?, Item.value?, Gathered.ofMoment?, hread]
  rw [sections] at hsections
  obtain ⟨rfl, rfl⟩ := List.cons.inj hsections
  refine ⟨before.length :: used, ?_, UsesUp.single used before.length⟩
  rw [value?_single (by simp [Site.repeated]), gatherBelow, halone.filter_zipIdx, htake,
    visit?_skip _ halone.skips_before, List.zipIdx_cons, List.cons_append, visit?_moment hunused rfl rfl hbody]
  rfl

/-- The lines of a table are gathered, if the table does not begin with the key of dates. -/
theorem gather?_lines {entries : List (String × Value)} (hordered : Keyed.Ordered entries)
    (hflat : Value.areFlat entries = true) (hdated : Value.NotDated (.table entries)) :
    Item.gather? [] (lineItems entries) = some (.table (Value.lines entries)) := by
  have hnodup := Value.nodup_written hordered
  refine Item.gather?_lineItems hflat ?_ fun _ => ?_
  · rw [Value.written, List.map_append] at hnodup
    exact (List.nodup_append.1 hnodup).1
  · intro hfirst
    refine hdated ?_
    rw [Value.written, List.head?_append]
    obtain ⟨entry, hhead, hkey⟩ := Option.map_eq_some_iff.1 hfirst
    simp [hhead, hkey]

/-- Below a table of which the lines are gathered, the visit completes the table. -/
theorem visit?_sectioned {all : List Section} {keys : List String} {levels limit : Nat}
    (hlevels : ∀ s ∈ all, s.header.length ≤ keys.length + levels) {before after : List Section}
    {entries : List (String × Value)} (hordered : Keyed.Ordered entries) (hdated : Value.NotDated (.table entries))
    {used : List Nat} (hentries : ∀ entry ∈ Value.sectioned entries, Rebuilt all keys entry.1 entry.2)
    (halone : Alone all keys before (blocks keys (Value.sectioned entries)) after limit used) (parent : Numbered)
    (hparent : Checked keys ((Value.sectioned entries).map (·.1))
      ((blocks keys (Value.sectioned entries)).zipIdx before.length) parent) :
    ∃ used', visit? (value? all.zipIdx levels keys.length limit) ⟨keys, true⟩ parent used (Value.lines entries)
        ((blocks keys (Value.sectioned entries)).zipIdx before.length ++ (after.zipIdx (before.length +
          (blocks keys (Value.sectioned entries)).length)).filter (·.2 < limit)) =
        some (.table (Value.rereadEntries entries), used') ∧
      UsesUp used used' before.length (blocks keys (Value.sectioned entries)).length := by
  have hvisit := visit?_blocks true hlevels hentries halone (Value.nodup_lines_append hordered)
    (fun _ hlines => by
      rw [← Value.written_of_lines_eq_nil hordered hlines]
      exact hdated) parent hparent
  rwa [Value.insertAll_lines hordered] at hvisit

/-- A table is put together from its sections. -/
theorem rebuilt_table {all : List Section} (keys : List String) (key : String) {entries : List (String × Value)}
    (hordered : Keyed.Ordered entries) (hflat : Value.areFlat entries = true) (hdated : Value.NotDated (.table entries))
    (hentries : ∀ entry ∈ Value.sectioned entries, Rebuilt all (keys ++ [key]) entry.1 entry.2) :
    Rebuilt all keys key (.table entries) := by
  refine rebuilt_of_first (by simp [groupOf])
    fun levels limit before after used first rest hsections htake hlevels halone hunused => ?_
  have hdepth : keys.length + 1 = (keys ++ [key]).length := by simp
  rw [sections_table] at hsections
  by_cases hheader : hasHeader entries = true
  · simp only [hheader, or_true, if_true, List.singleton_append] at hsections
    obtain ⟨rfl, rfl⟩ := List.cons.inj hsections
    have hbody : (Target.mk (keys ++ [key]) true).addBody? [] (lineItems entries) = some (.table (Value.lines entries)) :=
      gather?_lines hordered hflat hdated
    obtain ⟨used', hvisit, hused⟩ := visit?_sectioned hlevels hordered hdated hentries
      halone.tail (⟨keys ++ [key], false, lineItems entries⟩, before.length) (Or.inl rfl)
    have hnumber : ∀ own : Section, (before ++ [own]).length = before.length + 1 := by simp
    have hcount : ∀ own : Section, before.length + (own :: blocks (keys ++ [key]) (Value.sectioned entries)).length =
        before.length + 1 + (blocks (keys ++ [key]) (Value.sectioned entries)).length := by
      intro own
      rw [List.length_cons]
      omega
    rw [hnumber] at hvisit hused
    refine ⟨used', ?_, ?_⟩
    · rw [value?_single (by simp [Site.repeated]), gatherBelow, halone.filter_zipIdx, htake,
        visit?_skip _ halone.skips_before, List.zipIdx_cons, List.cons_append, visit?_own hunused rfl rfl hbody,
        hcount, hdepth]
      exact congrArg _ hvisit
    · rw [List.length_cons, Nat.add_comm]
      exact (UsesUp.single used before.length).append hused
  · simp only [hheader, reduceCtorEq, Bool.false_eq_true, or_self, if_false, List.nil_append] at hsections
    have hlines : Value.lines entries = [] := by
      rw [hasHeader, Bool.or_eq_true, not_or] at hheader
      exact Value.lines_eq_nil hheader.2
    have hsingle : ¬ (first.repeated = true ∧ first.header.length = keys.length + 1) := by
      rintro ⟨-, hlength⟩
      obtain ⟨entry, _, hmem⟩ := List.mem_flatMap.1 (show first ∈ blocks (keys ++ [key]) (Value.sectioned entries) by
        rw [hsections]
        exact List.mem_cons_self)
      have hlong := (prefix_of_mem_sections _ _ _ _ hmem).length_le
      simp only [List.length_append, List.length_singleton] at hlong
      omega
    rw [← hsections] at halone
    obtain ⟨used', hvisit, hused⟩ := visit?_sectioned hlevels hordered hdated hentries halone
      (first, before.length) (Or.inr (Or.inl (by rw [hsections]; rfl)))
    rw [hlines] at hvisit
    refine ⟨used', ?_, ?_⟩
    · rw [value?_single hsingle, gatherBelow, halone.filter_zipIdx, htake, visit?_skip _ halone.skips_before, hdepth,
        hvisit]
      rfl
    · rwa [hsections] at hused

/-- What an element of an array gives from the section that opens it. -/
def elementAt (all : List Numbered) (levels depth : Nat) (header : List String) (s : Numbered) (limit : Nat)
    (used : List Nat) : Option (Value × List Nat) :=
  if s.2 ∈ used then none
  else match Item.gather? [] s.1.body with
    | none => none
    | some (.moment moment) => some (.moment moment, s.2 :: used)
    | some (.table gathered) => gatherBelow all levels depth header limit s (s.2 :: used) gathered

theorem value?_elements {all : List Numbered} {levels depth limit : Nat} {first : Numbered} {used : List Nat}
    (h : first.1.repeated = true ∧ first.1.header.length = depth + 1) :
    value? all (levels + 1) depth limit first used =
      (elements? (elementAt all levels depth (first.1.header.take (depth + 1))) limit (all.filter fun s =>
        first.2 ≤ s.2 ∧ s.2 < limit ∧ s.1.repeated ∧ s.1.header = first.1.header) used).map
          fun found => (.array found.1, found.2) := by
  rw [value?, if_pos h]
  rfl

/-- The sections of an element give just that element, wherever they stand alone. -/
def ElementRebuilt (all : List Section) (keys : List String) (value : Value) : Prop :=
  ∀ (levels depth limit : Nat) (before after : List Section) (used : List Nat) (first : Section) (rest : List Section),
    sections .element keys value = first :: rest → keys.length = depth + 1 →
    (∀ s ∈ all, s.header.length ≤ keys.length + levels) → Alone all keys before (first :: rest) after limit used →
    ∃ used', elementAt all.zipIdx levels depth keys (first, before.length) limit used = some (value.reread, used') ∧
      UsesUp used used' before.length (first :: rest).length

theorem elementRebuilt_moment (all : List Section) (keys : List String) {moment : DateTime}
    (hspelled : Value.MomentSpelled (.moment moment)) : ElementRebuilt all keys (.moment moment) := by
  intro levels depth limit before after used first rest hsections _ _ halone
  have hunused : before.length ∉ used := halone.unused _ (Nat.le_refl _) (by rw [List.length_cons]; omega)
  rw [sections] at hsections
  obtain ⟨rfl, rfl⟩ := List.cons.inj hsections
  have hread : DateTime.ofText? moment.text = some moment := hspelled
  refine ⟨before.length :: used, ?_, UsesUp.single used before.length⟩
  simp [elementAt, hunused, Item.gather?, Item.value?, Gathered.ofMoment?, hread, Value.reread]

theorem elementRebuilt_table {all : List Section} {keys : List String} {entries : List (String × Value)}
    (hordered : Keyed.Ordered entries) (hflat : Value.areFlat entries = true) (hdated : Value.NotDated (.table entries))
    (hentries : ∀ entry ∈ Value.sectioned entries, Rebuilt all keys entry.1 entry.2) :
    ElementRebuilt all keys (.table entries) := by
  intro levels depth limit before after used first rest hsections hdepth hlevels halone
  have hunused : before.length ∉ used := halone.unused _ (Nat.le_refl _) (by rw [List.length_cons]; omega)
  rw [sections_table, if_pos (Or.inl rfl), List.singleton_append] at hsections
  obtain ⟨rfl, rfl⟩ := List.cons.inj hsections
  have hrest := halone.tail
  obtain ⟨used', hvisit, hused⟩ := visit?_sectioned hlevels hordered hdated hentries hrest
    (⟨keys, true, lineItems entries⟩, before.length) (Or.inl rfl)
  refine ⟨used', ?_, ?_⟩
  · rw [elementAt, if_neg hunused]
    simp only [gather?_lines hordered hflat hdated]
    rw [gatherBelow, hrest.filter_zipIdx, visit?_skip _ hrest.skips_before, ← hdepth]
    exact congrArg _ hvisit
  · rw [List.length_cons, Nat.add_comm]
    rw [List.length_append, List.length_singleton] at hused
    exact (UsesUp.single used before.length).append hused

/-- The elements of an array are put together one after the other. -/
theorem elements?_openings {all : List Section} {keys : List String} {levels depth limit : Nat}
    (hdepth : keys.length = depth + 1) (hlevels : ∀ s ∈ all, s.header.length ≤ keys.length + levels)
    {after : List Section} {values : List Value} (htables : ∀ value ∈ values, isTable value = true)
    (hvalues : ∀ value ∈ values, ElementRebuilt all keys value) {before : List Section} {used : List Nat}
    (halone : Alone all keys before (elementSections .element keys values) after limit used) :
    ∃ used', elements? (elementAt all.zipIdx levels depth keys) limit (openings keys before.length values) used =
        some (Value.rereadAll values, used') ∧
      UsesUp used used' before.length (elementSections .element keys values).length := by
  induction values generalizing before used with
  | nil => exact ⟨used, rfl, UsesUp.nil used before.length⟩
  | cons value rest ih =>
    obtain ⟨first, more, hsections, -⟩ := sections_element keys (htables value List.mem_cons_self)
    have htables' : ∀ other ∈ rest, isTable other = true := fun other hother => htables other (List.mem_cons_of_mem _ hother)
    rw [elementSections, hsections] at halone ⊢
    have hlimit := head?_openings keys htables' (before.length + (first :: more).length) limit
    generalize hnext : ((openings keys (before.length + (first :: more).length) rest).head?.map (·.2)).getD limit =
      limit' at hlimit
    have hempty : rest = [] → elementSections .element keys rest = [] := by
      rintro rfl
      rfl
    obtain ⟨used', hvalue, hused⟩ := hvalues value List.mem_cons_self levels depth limit' before _ used first more
      hsections hdepth hlevels (halone.below (hlimit.imp_left fun h => ⟨hempty h.1, h.2⟩))
    obtain ⟨used'', hrest, hused'⟩ := ih htables' (fun other hother => hvalues other (List.mem_cons_of_mem _ hother))
      (halone.right hused)
    rw [List.length_append] at hrest hused'
    refine ⟨used'', ?_, ?_⟩
    · simp only [openings, hsections, List.head?_cons, Option.toList_some, List.map_cons, List.map_nil,
        List.singleton_append, elements?, hnext, hvalue, Option.bind_eq_bind, Option.bind_some, hrest, Value.rereadAll]
    · rw [List.length_append]
      exact hused.append hused'

/-- The sections that open elements are found among all sections. -/
theorem Alone.filter_openings {all before after : List Section} {keys : List String} {values : List Value}
    {limit : Nat} {used : List Nat} (htables : ∀ value ∈ values, isTable value = true)
    (h : Alone all keys before (elementSections .element keys values) after limit used) :
    (all.zipIdx.filter fun s => before.length ≤ s.2 ∧ s.2 < limit ∧ s.1.repeated ∧ s.1.header = keys) =
      openings keys before.length values := by
  have hsplit : (all.zipIdx.filter fun s => before.length ≤ s.2 ∧ s.2 < limit ∧ s.1.repeated ∧ s.1.header = keys) =
      (all.zipIdx.filter (·.2 < limit)).filter fun s => before.length ≤ s.2 ∧ s.1.repeated ∧ s.1.header = keys := by
    rw [List.filter_filter]
    refine List.filter_congr fun s _ => ?_
    rw [← Bool.decide_and, decide_eq_decide]
    tauto
  have hbefore : (before.zipIdx.filter fun s => before.length ≤ s.2 ∧ s.1.repeated ∧ s.1.header = keys) = [] := by
    rw [List.filter_eq_nil_iff]
    rintro ⟨s, n⟩ hs hkeys
    have hn := (List.mem_zipIdx hs).2.1
    simp only [decide_eq_true_eq] at hkeys
    omega
  have hafter : (((after.zipIdx (before.length + (elementSections .element keys values).length)).filter
      (·.2 < limit)).filter fun s => before.length ≤ s.2 ∧ s.1.repeated ∧ s.1.header = keys) = [] := by
    rw [List.filter_eq_nil_iff]
    rintro ⟨s, n⟩ hs hkeys
    rw [List.mem_filter] at hs
    simp only [decide_eq_true_eq] at hs hkeys
    exact h.none_after s n hs.1 hs.2 (hkeys.2.2 ▸ List.prefix_rfl)
  rw [hsplit, h.filter_zipIdx, List.filter_append, List.filter_append, hbefore, hafter, List.append_nil,
    List.nil_append, ← filter_elementSections keys htables]
  refine List.filter_congr ?_
  rintro ⟨s, n⟩ hs
  have hn := (List.mem_zipIdx hs).1
  simp [hn]

/-- An array of tables is put together from its sections. -/
theorem rebuilt_array {all : List Section} (keys : List String) (key : String) {elements : List Value}
    (hgroup : groupOf (.array elements) ≠ .plain) (htables : ∀ value ∈ elements, isTable value = true)
    (helements : ∀ value ∈ elements, ElementRebuilt all (keys ++ [key]) value) :
    Rebuilt all keys key (.array elements) := by
  refine rebuilt_of_first hgroup
    fun levels limit before after used first rest hsections htake hlevels halone hunused => ?_
  have hdepth : (keys ++ [key]).length = keys.length + 1 := by simp
  rw [sections, show Site.ofElements .key = .element from rfl] at hsections
  have hfirst : first.repeated = true ∧ first.header = keys ++ [key] := by
    cases elements with
    | nil => simp [groupOf] at hgroup
    | cons value others =>
      obtain ⟨opening, more, hvalue, hrepeated, hheader, -⟩ := sections_element (keys ++ [key])
        (htables value List.mem_cons_self)
      rw [elementSections, hvalue, List.cons_append] at hsections
      obtain ⟨rfl, -⟩ := List.cons.inj hsections
      exact ⟨hrepeated, hheader⟩
  rw [← hsections] at halone ⊢
  obtain ⟨used', hvalues, hused⟩ := elements?_openings hdepth hlevels htables helements halone
  refine ⟨used', ?_, hused⟩
  rw [value?_elements ⟨hfirst.1, by rw [hfirst.2, hdepth]⟩, htake]
  simp only [hfirst.2, halone.filter_openings htables, hvalues]
  rfl

mutual

/-- A sound value that is not plain is put together from its sections. -/
theorem rebuilt_of_sound : ∀ value : Value, value.Sound → groupOf value ≠ .plain →
    ∀ (all : List Section) (keys : List String) (key : String), Rebuilt all keys key value
  | .moment moment, h, _, all, keys, key => rebuilt_moment all keys key h.spelled.self
  | .table entries, h, _, all, keys, key =>
    rebuilt_table keys key h.ordered.self (Value.areFlat_of_uniform entries h.uniform.2) h.dated.self
      fun entry hentry => entries_rebuilt_of_sound entries (fun _ => h.entry) entry
        (Value.groupOf_of_mem_sectioned hentry).1 (Value.groupOf_of_mem_sectioned hentry).2 all _
  | .array elements, h, hgroup, all, keys, key => by
    have htables := Value.isTable_of_uniform h.uniform.self hgroup
    exact rebuilt_array keys key hgroup htables fun value hvalue =>
      elements_rebuilt_of_sound elements (fun _ => h.element) value hvalue (htables value hvalue) all _
  | .boolean _, _, hgroup, _, _, _ | .integer _, _, hgroup, _, _, _ | .float _, _, hgroup, _, _, _
  | .string _, _, hgroup, _, _, _ => by simp [groupOf] at hgroup

theorem elementRebuilt_of_sound : ∀ value : Value, value.Sound → isTable value = true →
    ∀ (all : List Section) (keys : List String), ElementRebuilt all keys value
  | .moment moment, h, _, all, keys => elementRebuilt_moment all keys h.spelled.self
  | .table entries, h, _, all, keys =>
    elementRebuilt_table h.ordered.self (Value.areFlat_of_uniform entries h.uniform.2) h.dated.self
      fun entry hentry => entries_rebuilt_of_sound entries (fun _ => h.entry) entry
        (Value.groupOf_of_mem_sectioned hentry).1 (Value.groupOf_of_mem_sectioned hentry).2 all _
  | .array _, _, htable, _, _ | .boolean _, _, htable, _, _ | .integer _, _, htable, _, _
  | .float _, _, htable, _, _ | .string _, _, htable, _, _ => by simp [isTable] at htable

theorem elements_rebuilt_of_sound : ∀ values : List Value, (∀ value ∈ values, value.Sound) → ∀ value ∈ values,
    isTable value = true → ∀ (all : List Section) (keys : List String), ElementRebuilt all keys value
  | [], _, _, hmem => by simp at hmem
  | first :: rest, h, value, hmem => by
    rcases List.mem_cons.1 hmem with heq | hmem
    · rw [heq]
      exact elementRebuilt_of_sound first (h first List.mem_cons_self)
    · exact elements_rebuilt_of_sound rest (fun other hother => h other (List.mem_cons_of_mem _ hother)) value hmem

theorem entries_rebuilt_of_sound : ∀ entries : List (String × Value), (∀ entry ∈ entries, entry.2.Sound) →
    ∀ entry ∈ entries, groupOf entry.2 ≠ .plain → ∀ (all : List Section) (keys : List String),
      Rebuilt all keys entry.1 entry.2
  | [], _, _, hmem, _ => by simp at hmem
  | (key, value) :: rest, h, entry, hmem, hgroup => by
    rcases List.mem_cons.1 hmem with heq | hmem
    · rw [heq] at hgroup ⊢
      exact fun all keys => rebuilt_of_sound value (h (key, value) List.mem_cons_self) hgroup all keys key
    · exact entries_rebuilt_of_sound rest (fun other hother => h other (List.mem_cons_of_mem _ hother)) entry hmem hgroup

end

theorem length_le_levels (all : List Numbered) (most : Nat) :
    most ≤ all.foldl (fun most s => max most s.1.header.length) most ∧
      ∀ s ∈ all, s.1.header.length ≤ all.foldl (fun most s => max most s.1.header.length) most := by
  induction all generalizing most with
  | nil => simp
  | cons s rest ih =>
    obtain ⟨hmost, hrest⟩ := ih (max most s.1.header.length)
    rw [List.foldl_cons]
    refine ⟨Nat.le_trans (Nat.le_max_left _ _) hmost, fun other hother => ?_⟩
    rcases List.mem_cons.1 hother with rfl | hother
    · exact Nat.le_trans (Nat.le_max_right _ _) hmost
    · exact hrest other hother

/-- The table of a document with sections is gathered from them all. -/
theorem table?_cons (first : Section) (rest : List Section) {levels : Nat} {gathered : Table}
    (hlevels : levels = (first :: rest).zipIdx.foldl (fun most s => max most s.1.header.length) 0)
    (hvisit : ∃ used, visit? (value? (first :: rest).zipIdx levels 0 (first :: rest).length) ⟨[], false⟩ (first, 0) []
      [] (first :: rest).zipIdx = some (.table gathered, used)) : table? (first :: rest) = some gathered := by
  obtain ⟨used, hvisit⟩ := hvisit
  have hlength : (first :: rest).zipIdx.length = (first :: rest).length := List.length_zipIdx
  rw [table?]
  simp only [List.zipIdx_cons, Nat.zero_add] at hvisit hlevels hlength ⊢
  rw [hlength, ← hlevels, hvisit]

/-- The sections of a document whose entries are sound are put together to the document. -/
theorem table?_documentSections {table : Table} (hordered : Keyed.Ordered table)
    (hsound : ∀ entry ∈ table, entry.2.Sound) :
    table? (documentSections table) = some (Value.rereadEntries table) := by
  have hflat := Value.areFlat_of_sound hsound
  have hentries : ∀ all, ∀ entry ∈ Value.sectioned table, Rebuilt all [] entry.1 entry.2 := fun all entry hentry =>
    entries_rebuilt_of_sound table hsound entry (Value.groupOf_of_mem_sectioned hentry).1
      (Value.groupOf_of_mem_sectioned hentry).2 all []
  have halone : ∀ all : List Section, Alone all [] [] all [] all.length [] := fun all =>
    ⟨by simp, by simp, by simp, by simp, by simp⟩
  have hlevels : ∀ all : List Section, ∀ s ∈ all, s.header.length ≤
      0 + all.zipIdx.foldl (fun most s => max most s.1.header.length) 0 := by
    intro all s hs
    obtain ⟨n, hn, rfl⟩ := List.mem_iff_getElem.1 hs
    rw [Nat.zero_add]
    exact (length_le_levels all.zipIdx 0).2 (all[n], n) (List.mk_mem_zipIdx_iff_getElem?.2 (by simp [hn]))
  rw [documentSections_eq]
  by_cases hplain : hasGroup .plain table = true
  · rw [if_pos hplain, List.singleton_append]
    have hbody : (Target.mk [] false).addBody? [] (lineItems table) = some (.table (Value.lines table)) := by
      rw [Target.addBody?, if_neg (by simp), Item.overlay?_lineItems hflat]
      rfl
    obtain ⟨used, hvisit, -⟩ := visit?_blocks false (hlevels _) (hentries _)
      (halone (⟨[], false, lineItems table⟩ :: blocks [] (Value.sectioned table))).tail
      (Value.nodup_lines_append hordered) (by simp) (⟨[], false, lineItems table⟩, 0) (Or.inl rfl)
    rw [Value.insertAll_lines hordered] at hvisit
    refine table?_cons _ _ rfl ⟨used, ?_⟩
    rw [List.zipIdx_cons, visit?_own (by simp) rfl rfl hbody]
    simpa using hvisit
  · rw [if_neg hplain, List.nil_append]
    have hvisit := visit?_blocks false (hlevels _) (hentries _) (halone _) (Value.nodup_lines_append hordered) (by simp)
    rw [Value.insertAll_lines hordered, Value.lines_eq_nil hplain] at hvisit
    cases hblocks : blocks [] (Value.sectioned table) with
    | nil =>
      obtain ⟨used, hvisit, -⟩ := hvisit (⟨[], false, []⟩, 0) (Or.inl rfl)
      simp only [hblocks, List.zipIdx_nil, List.filter_nil, List.append_nil, visit?, Option.some.injEq, Prod.mk.injEq,
        Gathered.table.injEq] at hvisit
      rw [← hvisit.1]
      rfl
    | cons first rest =>
      obtain ⟨used, hvisit, -⟩ := hvisit (first, 0) (Or.inr (Or.inl (by rw [hblocks]; rfl)))
      rw [hblocks] at hvisit
      refine table?_cons _ _ rfl ⟨used, ?_⟩
      simpa using hvisit

/-- Whatever the sections of a document come to, its lines are found there. -/
theorem get?_of_table?_documentSections {table result : Table} (hordered : Keyed.Ordered table)
    (hflat : Value.areFlat table = true) (h : table? (documentSections table) = some result) {entry : String × Value}
    (hentry : entry ∈ table) (hgroup : groupOf entry.2 = .plain) : result.get? entry.1 = some entry.2.reread := by
  have hplain : hasGroup .plain table = true := List.any_eq_true.2 ⟨entry, hentry, by simpa using hgroup⟩
  have hlines : (Value.lines table).get? entry.1 = some entry.2.reread := by
    have hnodup := Value.nodup_lines_append hordered
    rw [List.map_append] at hnodup
    refine Keyed.get?_of_mem (List.nodup_append.1 hnodup).1
      (show (entry.1, entry.2.reread) ∈ Value.lines table from (Value.lines_perm hordered).mem_iff.2 ?_)
    rw [Value.rereadEntries_eq_map]
    exact List.mem_map.2 ⟨entry, List.mem_filter.2 ⟨hentry, by simpa using hgroup⟩, rfl⟩
  have hother : entry.1 ∉ (Value.sectioned table).map (·.1) := by
    intro hmem
    have hnodup := Value.nodup_written hordered
    rw [Value.written, List.map_append, List.nodup_append] at hnodup
    exact hnodup.2.2 entry.1 (List.mem_map_of_mem (List.mem_filter.2 ⟨hentry, by simpa using hgroup⟩)) entry.1 hmem rfl
  have hbody : (Target.mk [] false).addBody? [] (lineItems table) = some (.table (Value.lines table)) := by
    rw [Target.addBody?, if_neg (by simp), Item.overlay?_lineItems hflat]
    rfl
  obtain ⟨hnil, -⟩ | ⟨levels, parent, used, hvisit⟩ := visit?_of_table? h
  · simp [documentSections_eq, hplain] at hnil
  rw [documentSections_eq, if_pos hplain, List.singleton_append, List.zipIdx_cons] at hvisit
  have hrest : ∀ s ∈ (blocks [] (Value.sectioned table)).zipIdx (0 + 1), ¬ Introduces [] entry.1 s.1 := by
    rintro s hs (hfront | ⟨hheader, -⟩)
    · exact not_prefix_of_mem_blocks hother s.1 (List.fst_mem_of_mem_zipIdx hs) hfront
    · exact header_ne_of_mem_blocks (List.fst_mem_of_mem_zipIdx hs) hheader
  cases passes_of_visit? hvisit with
  | skipped _ hskipped _ => simp at hskipped
  | entry _ hheader _ _ _ => simp at hheader
  | moment _ _ hfound => cases hfound
  | own _ _ hown hvisit =>
    obtain rfl := Gathered.table.inj (Option.some.inj (hbody.symm.trans hown))
    rw [get?_visit?_of_not_introduces hrest hvisit, hlines]

end Assembly

/-- A document whose entries are sound can be written, and it reads back but for the rounding of its floats. -/
theorem Table.ofText?_toText?_of_sound {table : Table} (hordered : Keyed.Ordered table)
    (hsound : ∀ entry ∈ table, entry.2.Sound) :
    ∃ text, table.toText? = some text ∧ Table.ofText? text = some (Value.rereadEntries table) := by
  have hflat := Value.areFlat_of_sound hsound
  obtain ⟨text, htext, hread⟩ := Table.ofText?_toText? hflat
  exact ⟨text, htext, hread.trans (Assembly.table?_documentSections hordered hsound)⟩

end LedSwitch.Toml
