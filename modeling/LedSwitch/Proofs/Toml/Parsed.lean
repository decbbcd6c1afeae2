import LedSwitch.Proofs.Toml.Shape
import LedSwitch.Proofs.Toml.Visits

/-!
What all documents that are read have in common. A condition that scalars, arrays, tables with their keys in order
and dates that were read all meet holds everywhere in such a document (`Table.everywhere_of_ofText?`).
-/

namespace LedSwitch.Toml

/-- A condition that values meet which are read, if the values in them do. -/
structure Parsed (p : Value → Prop) : Prop where
  boolean : ∀ value, p (.boolean value)
  integer : ∀ value, p (.integer value)
  float : ∀ value, p (.float value)
  string : ∀ text, p (.string text)
  moment : ∀ text moment, DateTime.ofText? text = some moment → p (.moment moment)
  array : ∀ elements, p (.array elements)
  table : ∀ entries, Keyed.Ordered entries → p (.table entries)

variable {p : Value → Prop}

namespace Item

mutual

/-- Whether a condition holds everywhere in the plain values of an item. -/
def Holds (p : Value → Prop) : Item → Prop
  | .plain value => value.Everywhere p
  | .moment _ => True
  | .list items => AllHold p items
  | .inline entries | .dotted entries => EntriesHold p entries

def AllHold (p : Value → Prop) : List Item → Prop
  | [] => True
  | item :: rest => Holds p item ∧ AllHold p rest

/-- Whether a condition holds in the items of entries. -/
def EntriesHold (p : Value → Prop) : List (String × Item) → Prop
  | [] => True
  | (_, item) :: rest => Holds p item ∧ EntriesHold p rest

end

theorem entriesHold_nil : EntriesHold p [] := trivial

theorem entriesHold_append {entries more : List (String × Item)} :
    EntriesHold p (entries ++ more) ↔ EntriesHold p entries ∧ EntriesHold p more := by
  induction entries with
  | nil => simp [EntriesHold]
  | cons entry rest ih =>
    obtain ⟨key, item⟩ := entry
    simp only [List.cons_append, EntriesHold, ih, and_assoc]

theorem modifyFirst?_holds {key : String} {change : Item → Option Item}
    (hchange : ∀ item changed, Holds p item → change item = some changed → Holds p changed)
    {entries changed : List (String × Item)} (h : EntriesHold p entries)
    (hmodify : modifyFirst? key change entries = some (some changed)) : EntriesHold p changed := by
  induction entries generalizing changed with
  | nil => simp [modifyFirst?] at hmodify
  | cons entry rest ih =>
    obtain ⟨k, item⟩ := entry
    rw [modifyFirst?] at hmodify
    split_ifs at hmodify
    · obtain ⟨item', hitem', rfl⟩ := Option.map_eq_some_iff.1 (Option.some.inj hmodify)
      exact ⟨hchange item item' h.1 hitem', h.2⟩
    · obtain ⟨rest', hrest', heq⟩ := Option.map_eq_some_iff.1 hmodify
      obtain ⟨others, rfl, rfl⟩ := Option.map_eq_some_iff.1 heq
      exact ⟨h.1, ih h.2 hrest'⟩

/-- Adding an item below keys keeps the condition. -/
theorem insertAt?_holds {item : Item} (hitem : Holds p item) {keys : List String}
    {entries changed : List (String × Item)} (h : EntriesHold p entries)
    (hinsert : insertAt? item keys entries = some changed) : EntriesHold p changed := by
  induction keys generalizing entries changed with
  | nil => simp [insertAt?] at hinsert
  | cons key keys ih =>
    cases keys with
    | nil =>
      obtain rfl := Option.some.inj hinsert
      exact entriesHold_append.2 ⟨h, hitem, trivial⟩
    | cons next keys =>
      rw [insertAt?] at hinsert
      · split at hinsert
        · rename_i changed' hmodify
          subst hinsert
          refine modifyFirst?_holds (fun item' changed' hitem' hchange => ?_) h hmodify
          split at hchange
          · obtain ⟨inner, hinner, rfl⟩ := Option.map_eq_some_iff.1 hchange
            exact ih hitem' hinner
          · cases hchange
        · obtain ⟨inner, hinner, rfl⟩ := Option.map_eq_some_iff.1 hinsert
          exact entriesHold_append.2 ⟨h, ih entriesHold_nil hinner, trivial⟩
      · simp

section

variable (hp : Parsed p) {word text : List Char}

include hp

theorem float?_holds {fraction : Option (List Char)} {found : Value × List Char}
    (h : Number.float? word fraction text = some found) : found.1.Everywhere p := by
  simp only [Number.float?, Option.bind_eq_bind, Option.bind_eq_some_iff] at h
  obtain ⟨whole, -, h⟩ := h
  cases fraction with
  | none =>
    simp only [Option.bind_some, Option.bind_eq_some_iff] at h
    obtain ⟨exponent, -, number, -, h⟩ := h
    obtain rfl := Option.some.inj h
    exact hp.float number
  | some fraction =>
    simp only at h
    split_ifs at h
    · simp only [Option.bind_eq_some_iff] at h
      obtain ⟨places, -, exponent, -, number, -, h⟩ := h
      obtain rfl := Option.some.inj h
      exact hp.float number
    · simp at h

theorem int64?_holds {integer : Int} {found : Value} (h : (Number.int64? integer).map Value.integer = some found) :
    found.Everywhere p := by
  obtain ⟨value, -, rfl⟩ := Option.map_eq_some_iff.1 h
  exact hp.integer value

theorem inBase?_holds {base : Nat} {found : Value} (h : Number.inBase? base word = some found) :
    found.Everywhere p := by
  simp only [Number.inBase?, Option.bind_eq_bind, Option.bind_eq_some_iff] at h
  obtain ⟨digits, -, h⟩ := h
  split_ifs at h
  exact int64?_holds hp h

theorem decimal?_holds {found : Value} (h : Number.decimal? word = some found) : found.Everywhere p := by
  simp only [Number.decimal?, Option.bind_eq_bind, Option.bind_eq_some_iff] at h
  obtain ⟨digits, -, h⟩ := h
  split at h
  · cases h
  · exact int64?_holds hp h

theorem number?_holds {found : Value × List Char} (h : Number.number? word text = some found) :
    found.1.Everywhere p := by
  have hbase {base : Nat} {word : List Char} (h : (Number.inBase? base word).map (·, text) = some found) :
      found.1.Everywhere p := by
    obtain ⟨value, hvalue, rfl⟩ := Option.map_eq_some_iff.1 h
    exact inBase?_holds hp hvalue
  unfold Number.number? at h
  split at h
  · exact hbase h
  · exact hbase h
  · exact hbase h
  by_cases hexponent : 'e' ∈ word ∨ 'E' ∈ word
  · rw [if_pos hexponent] at h
    exact float?_holds hp h
  rw [if_neg hexponent] at h
  cases hpoint : Parts.after? '.' text with
  | some rest =>
    rw [hpoint] at h
    obtain ⟨⟨fraction, text⟩, -, h⟩ := Option.bind_eq_some_iff.1 h
    exact float?_holds hp h
  | none =>
    rw [hpoint] at h
    simp only at h
    split_ifs at h
    · obtain rfl := Option.some.inj h
      exact hp.float _
    · obtain rfl := Option.some.inj h
      exact hp.float _
    · obtain rfl := Option.some.inj h
      exact hp.float _
    · obtain rfl := Option.some.inj h
      exact hp.float _
    · obtain ⟨value, hvalue, rfl⟩ := Option.map_eq_some_iff.1 h
      exact decimal?_holds hp hvalue

end

theorem ofWord?_holds (hp : Parsed p) {word rest text : List Char} {found : Item × List Char}
    (h : ofWord? word rest text = some found) : Holds p found.1 := by
  unfold ofWord? at h
  split_ifs at h
  · obtain rfl := Option.some.inj h
    exact hp.boolean true
  · obtain rfl := Option.some.inj h
    exact hp.boolean false
  · obtain ⟨tail, -, rfl⟩ := Option.map_eq_some_iff.1 h
    trivial
  · split at h
    · obtain ⟨tail, -, rfl⟩ := Option.map_eq_some_iff.1 h
      trivial
    · obtain ⟨number, hnumber, rfl⟩ := Option.map_eq_some_iff.1 h
      exact number?_holds hp hnumber

/-- What is read with so much fuel meets a condition. -/
structure ReadHolds (p : Value → Prop) (fuel : Nat) : Prop where
  item : ∀ {text found}, readUpTo? fuel text = some found → Holds p found.1
  elements : ∀ {text found}, elementsUpTo? fuel text = some found → AllHold p found.1
  entries : ∀ {entries text found}, EntriesHold p entries → entriesUpTo? fuel entries text = some found →
    EntriesHold p found.1

section

variable {fuel : Nat} {text : List Char} (ih : ReadHolds p fuel)

include ih

theorem ReadHolds.item_succ (hp : Parsed p) {found : Item × List Char} (h : readUpTo? (fuel + 1) text = some found) :
    Holds p found.1 := by
  cases text with
  | nil => simp [readUpTo?] at h
  | cons c rest =>
    rw [readUpTo?] at h
    split_ifs at h
    · obtain ⟨text, -, rfl⟩ := Option.map_eq_some_iff.1 h
      exact hp.string _
    · obtain ⟨elements, helements, rfl⟩ := Option.map_eq_some_iff.1 h
      exact ih.elements helements
    · simp only at h
      split at h
      · obtain rfl := Option.some.inj h
        trivial
      · obtain ⟨entries, hentries, rfl⟩ := Option.map_eq_some_iff.1 h
        exact ih.entries entriesHold_nil hentries
    · obtain ⟨⟨word, rest⟩, -, h⟩ := Option.bind_eq_some_iff.1 h
      obtain ⟨number, hnumber, rfl⟩ := Option.map_eq_some_iff.1 h
      exact number?_holds hp hnumber
    · obtain ⟨⟨word, rest'⟩, -, h⟩ := Option.bind_eq_some_iff.1 h
      exact ofWord?_holds hp h

theorem ReadHolds.elements_succ {found : List Item × List Char} (h : elementsUpTo? (fuel + 1) text = some found) :
    AllHold p found.1 := by
  rw [elementsUpTo?] at h
  obtain ⟨text, -, h⟩ := Option.bind_eq_some_iff.1 h
  split at h
  · obtain rfl := Option.some.inj h
    trivial
  · obtain ⟨⟨item, text⟩, hitem, h⟩ := Option.bind_eq_some_iff.1 h
    obtain ⟨text, -, h⟩ := Option.bind_eq_some_iff.1 h
    split at h
    · obtain ⟨items, hitems, rfl⟩ := Option.map_eq_some_iff.1 h
      exact ⟨ih.item hitem, ih.elements hitems⟩
    · obtain ⟨rest, -, rfl⟩ := Option.map_eq_some_iff.1 h
      exact ⟨ih.item hitem, trivial⟩

theorem ReadHolds.entries_succ {entries : List (String × Item)} {found : List (String × Item) × List Char}
    (hentries : EntriesHold p entries) (h : entriesUpTo? (fuel + 1) entries text = some found) :
    EntriesHold p found.1 := by
  rw [entriesUpTo?] at h
  obtain ⟨⟨keys, text⟩, -, h⟩ := Option.bind_eq_some_iff.1 h
  obtain ⟨text, -, h⟩ := Option.bind_eq_some_iff.1 h
  obtain ⟨⟨item, text⟩, hitem, h⟩ := Option.bind_eq_some_iff.1 h
  obtain ⟨changed, hchanged, h⟩ := Option.bind_eq_some_iff.1 h
  have hholds := insertAt?_holds (ih.item hitem) hentries hchanged
  simp only at h
  split at h
  · obtain rfl := Option.some.inj h
    exact hholds
  · obtain ⟨text, -, h⟩ := Option.bind_eq_some_iff.1 h
    exact ih.entries hholds h

end

theorem readHolds (hp : Parsed p) (fuel : Nat) : ReadHolds p fuel := by
  induction fuel with
  | zero => exact ⟨fun h => by simp [readUpTo?] at h, fun h => by simp [elementsUpTo?] at h,
      fun _ h => by simp [entriesUpTo?] at h⟩
  | succ fuel ih => exact ⟨ih.item_succ hp, ih.elements_succ, ih.entries_succ⟩

end Item

/-- The values of a table that is being gathered meet a condition, and its keys stand in their order. -/
def TableHolds (p : Value → Prop) (entries : Table) : Prop :=
  Keyed.Ordered entries ∧ ∀ entry ∈ entries, entry.2.Everywhere p

theorem tableHolds_nil : TableHolds p [] := ⟨List.Pairwise.nil, by simp⟩

theorem TableHolds.insert {entries : Table} (h : TableHolds p entries) (key : String) {value : Value}
    (hvalue : value.Everywhere p) : TableHolds p (entries.insert key value) := by
  refine ⟨Keyed.insert_ordered key value h.1, fun entry hentry => ?_⟩
  rcases Keyed.mem_insert hentry with rfl | hentry
  · exact hvalue
  · exact h.2 entry hentry

theorem TableHolds.everywhere {entries : Table} (h : TableHolds p entries) (hp : Parsed p) :
    (Value.table entries).Everywhere p :=
  ⟨hp.table entries h.1, Value.everywhereIn_iff.2 h.2⟩

/-- What was gathered meets a condition. -/
def Gathered.Holds (p : Value → Prop) : Gathered → Prop
  | .table entries => TableHolds p entries
  | .moment m => p (.moment m)

theorem Gathered.Holds.value {gathered : Gathered} (h : gathered.Holds p) (hp : Parsed p) :
    gathered.value.Everywhere p := by
  cases gathered with
  | table entries => exact TableHolds.everywhere h hp
  | moment m => exact h

theorem Gathered.holds_ofMoment? (hp : Parsed p) {value : Value} {gathered : Gathered}
    (h : Gathered.ofMoment? value = some gathered) : gathered.Holds p := by
  cases value with
  | string text =>
    obtain ⟨m, hm, rfl⟩ := Option.map_eq_some_iff.1 h
    exact hp.moment text.toList m hm
  | _ => cases h

namespace Item

mutual

theorem value?_holds (hp : Parsed p) : ∀ (item : Item) {value : Value}, Holds p item → value? item = some value →
    value.Everywhere p
  | .plain value, _, hitem, h => by
    obtain rfl := Option.some.inj h
    exact hitem
  | .moment text, _, _, h => by
    obtain ⟨m, hm, rfl⟩ := Option.map_eq_some_iff.1 h
    exact hp.moment text m hm
  | .list items, _, hitem, h => by
    obtain ⟨values, hvalues, rfl⟩ := Option.map_eq_some_iff.1 h
    exact ⟨hp.array values, values?_holds hp items hitem hvalues⟩
  | .inline entries, _, hitem, h => by
    obtain ⟨gathered, hgathered, rfl⟩ := Option.map_eq_some_iff.1 h
    exact (gather?_holds hp entries tableHolds_nil hitem hgathered).value hp
  | .dotted entries, _, hitem, h => by
    obtain ⟨gathered, hgathered, rfl⟩ := Option.map_eq_some_iff.1 h
    exact (gather?_holds hp entries tableHolds_nil hitem hgathered).value hp

theorem values?_holds (hp : Parsed p) : ∀ (items : List Item) {values : List Value}, AllHold p items →
    values? items = some values → Value.EverywhereAmong p values
  | [], _, _, h => by
    obtain rfl := Option.some.inj h
    trivial
  | item :: rest, _, hitems, h => by
    obtain ⟨value, hvalue, h⟩ := Option.bind_eq_some_iff.1 h
    obtain ⟨values, hvalues, rfl⟩ := Option.map_eq_some_iff.1 h
    exact ⟨value?_holds hp item hitems.1 hvalue, values?_holds hp rest hitems.2 hvalues⟩

/-- Gathering entries keeps the condition. -/
theorem gather?_holds (hp : Parsed p) : ∀ (entries : List (String × Item)) {gathered : Table} {found : Gathered},
    TableHolds p gathered → EntriesHold p entries → gather? gathered entries = some found → found.Holds p
  | [], _, _, hgathered, _, h => by
    obtain rfl := Option.some.inj h
    exact hgathered
  | (key, item) :: rest, gathered, _, hgathered, hentries, h => by
    rw [gather?] at h
    split_ifs at h
    · obtain ⟨value, -, h⟩ := Option.bind_eq_some_iff.1 h
      exact Gathered.holds_ofMoment? hp h
    · obtain ⟨value, hvalue, h⟩ := Option.bind_eq_some_iff.1 h
      exact gather?_holds hp rest (hgathered.insert key (value?_holds hp item hentries.1 hvalue)) hentries.2 h

end

theorem overlay?_holds (hp : Parsed p) {entries : List (String × Item)} {gathered found : Table}
    (hgathered : TableHolds p gathered) (hentries : EntriesHold p entries)
    (h : overlay? gathered entries = some found) : TableHolds p found := by
  induction entries generalizing gathered with
  | nil =>
    obtain rfl := Option.some.inj h
    exact hgathered
  | cons entry rest ih =>
    obtain ⟨key, item⟩ := entry
    obtain ⟨value, hvalue, h⟩ := Option.bind_eq_some_iff.1 h
    exact ih (hgathered.insert key (value?_holds hp item hentries.1 hvalue)) hentries.2 h

end Item

namespace Section

/-- The entries that are read into a section meet the condition. -/
theorem extend?_holds (hp : Parsed p) {s : Section} {text : List Char} {found : Section × List Char}
    (hs : Item.EntriesHold p s.body) (h : s.extend? text = some found) : Item.EntriesHold p found.1.body := by
  simp only [extend?, Option.bind_eq_bind, Option.bind_eq_some_iff] at h
  obtain ⟨keys, -, text, -, item, hitem, text', -, body, hbody, h⟩ := h
  obtain rfl := Option.some.inj h
  exact Item.insertAt?_holds ((Item.readHolds hp _).item hitem) hs hbody

theorem ofHeader?_body {text : List Char} {found : Section × List Char} (h : ofHeader? text = some found) :
    found.1.body = [] := by
  simp only [ofHeader?, Option.bind_eq_bind, Option.bind_eq_some_iff] at h
  obtain ⟨keys, -, text, -, h⟩ := h
  split_ifs at h <;>
  · simp only [Option.bind_some, Option.bind_eq_some_iff] at h
    obtain ⟨text, -, h⟩ := h
    first
      | obtain rfl := Option.some.inj h
        rfl
      | obtain ⟨text, -, h⟩ := h
        obtain rfl := Option.some.inj h
        rfl

theorem readUpTo?_holds (hp : Parsed p) {fuel : Nat} {s : Section} {text : List Char} {sections : List Section}
    (hs : Item.EntriesHold p s.body) (h : readUpTo? fuel s text = some sections) :
    ∀ s ∈ sections, Item.EntriesHold p s.body := by
  have hcons : ∀ {s : Section} {rest : List Section}, Item.EntriesHold p s.body →
      (∀ s ∈ rest, Item.EntriesHold p s.body) → ∀ s' ∈ s.consIfAny rest, Item.EntriesHold p s'.body := by
    intro s rest hs hrest s' hmem
    rw [consIfAny] at hmem
    split_ifs at hmem
    · exact hrest s' hmem
    · rcases List.mem_cons.1 hmem with rfl | hmem
      · exact hs
      · exact hrest s' hmem
  induction fuel generalizing s text sections with
  | zero => simp [readUpTo?] at h
  | succ fuel ih =>
    rw [readUpTo?] at h
    obtain ⟨text, -, h⟩ := Option.bind_eq_some_iff.1 h
    cases text with
    | nil =>
      obtain rfl := Option.some.inj h
      exact hcons hs (by simp)
    | cons c rest =>
      simp only at h
      split_ifs at h
      · obtain ⟨⟨next, rest⟩, hnext, h⟩ := Option.bind_eq_some_iff.1 h
        obtain ⟨sections, hsections, rfl⟩ := Option.map_eq_some_iff.1 h
        refine hcons hs (ih ?_ hsections)
        rw [ofHeader?_body hnext]
        trivial
      · obtain ⟨⟨s', rest⟩, hs', h⟩ := Option.bind_eq_some_iff.1 h
        exact ih (extend?_holds hp hs hs') h

theorem listOfText?_holds (hp : Parsed p) {text : List Char} {sections : List Section}
    (h : listOfText? text = some sections) : ∀ s ∈ sections, Item.EntriesHold p s.body :=
  readUpTo?_holds hp Item.entriesHold_nil h

end Section

namespace Assembly

theorem Target.addBody?_holds (hp : Parsed p) {target : Target} {gathered : Table} {body : List (String × Item)}
    {found : Gathered} (hgathered : TableHolds p gathered) (hbody : Item.EntriesHold p body)
    (h : target.addBody? gathered body = some found) : found.Holds p := by
  unfold addBody? at h
  split_ifs at h
  · exact Item.gather?_holds hp body hgathered hbody h
  · obtain ⟨entries, hentries, rfl⟩ := Option.map_eq_some_iff.1 h
    exact Item.overlay?_holds hp hgathered hbody hentries

/-- A visit keeps the condition if the values of its children meet it. -/
theorem visit?_holds (hp : Parsed p) {child : Numbered → List Nat → Option (Value × List Nat)}
    (hchild : ∀ {s used found}, child s used = some found → found.1.Everywhere p) {target : Target} {parent : Numbered}
    {used : List Nat} {gathered : Table} {sections : List Numbered} {found : Gathered × List Nat}
    (hgathered : TableHolds p gathered) (hsections : ∀ s ∈ sections, Item.EntriesHold p s.1.body)
    (h : visit? child target parent used gathered sections = some found) : found.1.Holds p := by
  induction sections generalizing parent used gathered with
  | nil =>
    obtain rfl := Option.some.inj h
    exact hgathered
  | cons s rest ih =>
    obtain ⟨s, number⟩ := s
    rw [List.forall_mem_cons] at hsections
    cases passes_of_visit? h with
    | skipped _ _ hrest => exact ih hgathered hsections.2 hrest
    | entry _ _ _ hvalue hrest => exact ih (hgathered.insert _ (hchild hvalue)) hsections.2 hrest
    | moment _ hbody hfound =>
      subst hfound
      exact Target.addBody?_holds hp hgathered hsections.1 hbody
    | own _ _ hbody hrest => exact ih (Target.addBody?_holds hp hgathered hsections.1 hbody) hsections.2 hrest

theorem elements?_holds {element : Numbered → Nat → List Nat → Option (Value × List Nat)} {limit : Nat}
    {sections : List Numbered} {used : List Nat} {found : List Value × List Nat}
    (helement : ∀ s ∈ sections, ∀ {limit used found}, element s limit used = some found → found.1.Everywhere p)
    (h : elements? element limit sections used = some found) : Value.EverywhereAmong p found.1 := by
  induction sections generalizing used found with
  | nil =>
    obtain rfl := Option.some.inj h
    trivial
  | cons s rest ih =>
    rw [List.forall_mem_cons] at helement
    obtain ⟨⟨value, used'⟩, hvalue, h⟩ := Option.bind_eq_some_iff.1 h
    obtain ⟨⟨values, used''⟩, hvalues, h⟩ := Option.bind_eq_some_iff.1 h
    obtain rfl := Option.some.inj h
    exact ⟨helement.1 hvalue, ih helement.2 hvalues⟩

theorem value?_holds (hp : Parsed p) {all : List Numbered} (hall : ∀ s ∈ all, Item.EntriesHold p s.1.body)
    (levels : Nat) {depth limit : Nat} {first : Numbered} {used : List Nat} {found : Value × List Nat}
    (h : value? all levels depth limit first used = some found) : found.1.Everywhere p := by
  induction levels generalizing depth limit first used found with
  | zero => simp [value?] at h
  | succ levels ih =>
    have hgather : ∀ {header limit s used gathered found}, TableHolds p gathered →
        ((visit? (value? all levels (depth + 1) limit) ⟨header, true⟩ s used gathered
          (all.filter (·.2 < limit))).map fun found => (found.1.value, found.2)) = some found →
        found.1.Everywhere p := by
      intro header limit s used gathered found hgathered hfound
      obtain ⟨visited, hvisited, rfl⟩ := Option.map_eq_some_iff.1 hfound
      exact (visit?_holds hp ih hgathered (fun s hs => hall s (List.mem_filter.1 hs).1) hvisited).value hp
    rw [value?] at h
    simp only at h
    split_ifs at h
    · obtain ⟨values, hvalues, rfl⟩ := Option.map_eq_some_iff.1 h
      refine ⟨hp.array values.1, elements?_holds (fun s hs limit used found hfound => ?_) hvalues⟩
      have hbody := hall s (List.mem_filter.1 hs).1
      split_ifs at hfound
      split at hfound
      · cases hfound
      · rename_i hgathered
        obtain rfl := Option.some.inj hfound
        exact (Item.gather?_holds hp s.1.body tableHolds_nil hbody hgathered : Gathered.Holds p (.moment _))
      · rename_i hgathered
        exact hgather (Item.gather?_holds hp s.1.body tableHolds_nil hbody hgathered) hfound
    · exact hgather tableHolds_nil h

theorem table?_holds (hp : Parsed p) {sections : List Section} (hsections : ∀ s ∈ sections, Item.EntriesHold p s.body)
    {entries : Table} (h : table? sections = some entries) : TableHolds p entries := by
  have hall : ∀ s ∈ sections.zipIdx, Item.EntriesHold p s.1.body := fun s hs =>
    hsections s.1 (List.fst_mem_of_mem_zipIdx hs)
  obtain ⟨-, rfl⟩ | ⟨_, _, _, hvisit⟩ := visit?_of_table? h
  · exact tableHolds_nil
  · exact visit?_holds hp (fun hvalue => value?_holds hp hall _ hvalue) tableHolds_nil hall hvisit

end Assembly

/-- What is read meets, everywhere in it, the conditions that everything meets of which it is made. -/
theorem Table.everywhere_of_ofText? (hp : Parsed p) {text : String} {entries : Table}
    (h : Table.ofText? text = some entries) : (Value.table entries).Everywhere p := by
  obtain ⟨sections, hsections, hentries⟩ := Option.bind_eq_some_iff.1 h
  exact (Assembly.table?_holds hp (Section.listOfText?_holds hp hsections) hentries).everywhere hp

/-- Tables that are read have their keys in order. -/
theorem parsed_keysOrdered : Parsed Value.KeysOrdered where
  boolean _ := trivial
  integer _ := trivial
  float _ := trivial
  string _ := trivial
  moment _ _ _ := trivial
  array _ := trivial
  table _ h := h

end LedSwitch.Toml
