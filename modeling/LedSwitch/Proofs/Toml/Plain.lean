import Mathlib.Tactic.Common
import LedSwitch.Proofs.Toml.Floats

/-!
Plain values read back as they were written: truth values, numbers, strings, and arrays of such values nested to
any depth. `Layout.plainText` is the text of a plain value and `Value.item` what is read from it; the two are tied
by `Item.reads_plainText`.
-/

namespace LedSwitch.Toml

namespace Value

mutual

/-- Whether neither a table nor a date stands anywhere in a value. -/
def isPlain : Value → Bool
  | .moment _ | .table _ => false
  | .array elements => arePlain elements
  | _ => true

/-- Whether values are all plain. -/
def arePlain : List Value → Bool
  | [] => true
  | value :: rest => value.isPlain && arePlain rest

end

mutual

/-- What the text of a plain value is read as. -/
def item : Value → Item
  | .float x => .plain (.float x.reread)
  | .array elements => .list (items elements)
  | value => .plain value

/-- What the texts of plain values are read as. -/
def items : List Value → List Item
  | [] => []
  | value :: rest => value.item :: items rest

end

mutual

/-- A value with the floats that their texts are read as. -/
def reread : Value → Value
  | .float x => .float x.reread
  | .array elements => .array (rereadAll elements)
  | .table entries => .table (rereadEntries entries)
  | value => value

/-- Values with the floats that their texts are read as. -/
def rereadAll : List Value → List Value
  | [] => []
  | value :: rest => value.reread :: rereadAll rest

/-- Entries with the floats that their texts are read as. -/
def rereadEntries : List (String × Value) → List (String × Value)
  | [] => []
  | (key, value) :: rest => (key, value.reread) :: rereadEntries rest

end

mutual

/-- The item of a plain value spells that value, but for the text of its floats. -/
theorem value?_item : ∀ value : Value, value.isPlain = true → value.item.value? = some value.reread
  | .boolean _, _ | .integer _, _ | .string _, _ | .float _, _ => by simp [item, reread, Item.value?]
  | .array elements, h => by
    rw [isPlain] at h
    simp [item, reread, Item.value?, values?_items elements h]
  | .moment _, h | .table _, h => by simp [isPlain] at h

/-- The items of plain values spell those values, but for the text of their floats. -/
theorem values?_items : ∀ values : List Value, arePlain values = true →
    Item.values? (items values) = some (rereadAll values)
  | [], _ => rfl
  | value :: rest, h => by
    simp only [arePlain, Bool.and_eq_true] at h
    simp [items, rereadAll, Item.values?, value?_item value h.1, values?_items rest h.2]

end

end Value

namespace Layout

mutual

/-- The text of a plain value. -/
def plainText : Value → List Char
  | .boolean true => ['t', 'r', 'u', 'e']
  | .boolean false => ['f', 'a', 'l', 's', 'e']
  | .integer value => integerText value
  | .float value => value.text
  | .string text => stringText text.toList
  | .array [] => ['[', ']']
  | .array [value] => '[' :: plainText value ++ [']']
  | .array elements => '[' :: elementLines elements ++ ['\n', ']']
  | .moment _ | .table _ => []

/-- The elements of an array of more than one element, each on its line with a comma after it. -/
def elementLines : List Value → List Char
  | [] => []
  | value :: rest => ['\n', ' ', ' ', ' ', ' '] ++ plainText value ++ ',' :: elementLines rest

end

theorem length_le_elementLines (values : List Value) : values.length ≤ (elementLines values).length := by
  induction values with
  | nil => simp
  | cons value values ih =>
    simp only [elementLines, List.length_append, List.length_cons]
    omega

end Layout

theorem Scan.skipLines_of_start {c : Char} (hblank : isBlank c = false) (hline : c ≠ '\n') (hcomment : c ≠ '#')
    (rest : List Char) : skipLines false (c :: rest) = some (c :: rest) := by
  simp [skipLines, hblank, hline, hcomment]

namespace Item

/-- An item does not begin with anything that may stand between items. -/
theorem start_of_readUpTo? {fuel : Nat} {text : List Char} {found : Item × List Char}
    (h : readUpTo? fuel text = some found) :
    ∃ c tail, text = c :: tail ∧ Scan.isBlank c = false ∧ c ≠ '\n' ∧ c ≠ '#' ∧ c ≠ ']' := by
  match fuel, text with
  | 0, _ => simp [readUpTo?] at h
  | _ + 1, [] => simp [readUpTo?] at h
  | fuel + 1, c :: tail =>
    refine ⟨c, tail, rfl, ?_⟩
    have hnone : ∀ d : Char, Scan.isWordChar d = false → d ≠ '"' → d ≠ '\'' → d ≠ '[' → d ≠ '{' → d ≠ '+' →
        c ≠ d := by
      rintro d hword hquote hapostrophe hbracket hbrace hplus rfl
      simp [readUpTo?, hquote, hapostrophe, hbracket, hbrace, hplus, Scan.word?, hword] at h
    have hspace : c ≠ ' ' := hnone ' ' rfl (by decide) (by decide) (by decide) (by decide) (by decide)
    have htab : c ≠ '\t' := hnone '\t' rfl (by decide) (by decide) (by decide) (by decide) (by decide)
    refine ⟨by simp [Scan.isBlank, hspace, htab], ?_, ?_, ?_⟩
    · exact hnone '\n' rfl (by decide) (by decide) (by decide) (by decide) (by decide)
    · exact hnone '#' rfl (by decide) (by decide) (by decide) (by decide) (by decide)
    · exact hnone ']' rfl (by decide) (by decide) (by decide) (by decide) (by decide)

/-- A text is read as an item wherever it stands as a value. -/
def Reads (text : List Char) (item : Item) : Prop :=
  ∀ rest, EndsValue rest → ∀ fuel, 2 * text.length ≤ fuel → readUpTo? fuel (text ++ rest) = some (item, rest)

theorem reads_of_succ {text : List Char} {item : Item}
    (h : ∀ rest, EndsValue rest → ∀ fuel, readUpTo? (fuel + 1) (text ++ rest) = some (item, rest)) :
    Reads text item := by
  intro rest hrest fuel hfuel
  have hne : text ≠ [] := by
    rintro rfl
    obtain ⟨c, tail, hc, -, hline, -⟩ := start_of_readUpTo? (h ['\n'] ⟨'\n', [], rfl, by simp⟩ 0)
    simp at hc
    exact hline hc.1.symm
  have hpos := List.length_pos_iff.2 hne
  obtain ⟨fuel, rfl⟩ : ∃ n, fuel = n + 1 := ⟨fuel - 1, by omega⟩
  exact h rest hrest fuel

/-- A text that is read as an item begins with something of that item. -/
theorem Reads.start {text : List Char} {item : Item} (h : Reads text item) :
    ∃ c tail, text = c :: tail ∧ Scan.isBlank c = false ∧ c ≠ '\n' ∧ c ≠ '#' ∧ c ≠ ']' := by
  have hends : EndsValue ['\n'] := ⟨'\n', [], rfl, by simp⟩
  obtain ⟨c, tail, hc, hstart⟩ := start_of_readUpTo? (h ['\n'] hends _ (Nat.le_refl _))
  cases text with
  | nil =>
    simp at hc
    exact absurd hc.1.symm hstart.2.1
  | cons x text =>
    simp at hc
    exact ⟨x, text, rfl, hc.1 ▸ hstart⟩

theorem Reads.skipLines {text : List Char} {item : Item} (h : Reads text item) (rest : List Char) :
    Scan.skipLines false (text ++ rest) = some (text ++ rest) ∧ Parts.after? ']' (text ++ rest) = none := by
  obtain ⟨c, tail, rfl, hblank, hline, hcomment, hbracket⟩ := h.start
  exact ⟨Scan.skipLines_of_start hblank hline hcomment _, Parts.after?_of_head?_ne (by simpa using hbracket)⟩

theorem reads_boolean (value : Bool) : Reads (Layout.plainText (.boolean value)) (.plain (.boolean value)) := by
  refine reads_of_succ fun rest hrest fuel => ?_
  cases value <;> rw [Layout.plainText, readUpTo?_word (List.all_eq_true.1 rfl) (by decide) hrest.isWordChar_head?] <;>
    simp [ofWord?]

theorem reads_string (text : String) : Reads (Layout.plainText (.string text)) (.plain (.string text)) := by
  refine reads_of_succ fun rest hrest fuel => ?_
  obtain ⟨delimiter, body, multiline, htext, hdelimiter, hstring⟩ := Layout.string?_stringText text.toList hrest
  rw [Layout.plainText, htext, List.cons_append]
  simp only [readUpTo?, hdelimiter, if_true, hstring, Option.map_some, String.ofList_toList]

/-- One element with its comma is read, and then the elements go on. -/
theorem elementsUpTo?_line {text : List Char} {item : Item} (h : Reads text item) (fuel : Nat)
    (hfuel : 2 * text.length ≤ fuel) (rest : List Char) :
    elementsUpTo? (fuel + 1) (['\n', ' ', ' ', ' ', ' '] ++ text ++ ',' :: rest) =
      (elementsUpTo? fuel rest).map fun found => (item :: found.1, found.2) := by
  have hends : EndsValue (',' :: rest) := ⟨',', rest, rfl, by simp⟩
  obtain ⟨hskip, hbracket⟩ := h.skipLines (',' :: rest)
  have hindent : Scan.skipLines false (['\n', ' ', ' ', ' ', ' '] ++ text ++ ',' :: rest) = some (text ++ ',' :: rest) := by
    simpa [Scan.skipLines, Scan.isBlank] using hskip
  have hcomma : Scan.skipLines false (',' :: rest) = some (',' :: rest) :=
    Scan.skipLines_of_start rfl (by decide) (by decide) rest
  simp only [elementsUpTo?, hindent, Option.bind_eq_bind, Option.bind_some, hbracket, h _ hends fuel hfuel, hcomma,
    Parts.after?_cons_self]

/-- An element without a comma is the last one. -/
theorem elementsUpTo?_single {text : List Char} {item : Item} (h : Reads text item) (fuel : Nat)
    (hfuel : 2 * text.length ≤ fuel) (rest : List Char) :
    elementsUpTo? (fuel + 1) (text ++ ']' :: rest) = some ([item], rest) := by
  have hends : EndsValue (']' :: rest) := ⟨']', rest, rfl, by simp⟩
  obtain ⟨hskip, hbracket⟩ := h.skipLines (']' :: rest)
  have hclose : Scan.skipLines false (']' :: rest) = some (']' :: rest) :=
    Scan.skipLines_of_start rfl (by decide) (by decide) rest
  have hcomma : Parts.after? ',' (']' :: rest) = none := Parts.after?_of_head?_ne (by simp)
  simp only [elementsUpTo?, hskip, Option.bind_eq_bind, Option.bind_some, hbracket, h _ hends fuel hfuel, hclose,
    hcomma, Parts.after?_cons_self, Option.map_some]

mutual

/-- The text of a plain value is read as its item. -/
theorem reads_plainText : ∀ value : Value, value.isPlain = true → Reads (Layout.plainText value) value.item
  | .boolean value, _ => reads_boolean value
  | .integer value, _ => reads_of_succ fun _ hrest fuel => readUpTo?_integerText value hrest fuel
  | .float value, _ => reads_of_succ fun _ hrest fuel => readUpTo?_floatText value hrest fuel
  | .string text, _ => reads_string text
  | .array [], _ => by
    intro rest _ fuel hfuel
    obtain ⟨fuel, rfl⟩ : ∃ n, fuel = n + 2 := ⟨fuel - 2, by simp [Layout.plainText] at hfuel; omega⟩
    have hskip : Scan.skipLines false (']' :: rest) = some (']' :: rest) :=
      Scan.skipLines_of_start rfl (by decide) (by decide) rest
    simp [Layout.plainText, readUpTo?, elementsUpTo?, hskip, Value.item, Value.items]
  | .array [value], h => by
    intro rest _ fuel hfuel
    simp only [Layout.plainText, List.length_cons, List.length_append, List.length_nil] at hfuel
    obtain ⟨fuel, rfl⟩ : ∃ n, fuel = n + 2 := ⟨fuel - 2, by omega⟩
    have hvalue : value.isPlain = true := by simpa [Value.isPlain, Value.arePlain] using h
    have hread := elementsUpTo?_single (reads_plainText value hvalue) fuel (by omega) rest
    simp [Layout.plainText, readUpTo?, hread, Value.item, Value.items]
  | .array (first :: second :: others), h => by
    intro rest _ fuel hfuel
    simp only [Layout.plainText, List.length_cons, List.length_append, List.length_nil] at hfuel
    obtain ⟨fuel, rfl⟩ : ∃ n, fuel = n + 2 := ⟨fuel - 2, by omega⟩
    have hlines := elementsUpTo?_elementLines (first :: second :: others) (by simpa [Value.isPlain] using h)
      ('\n' :: ']' :: rest) (fuel + 1) (by omega)
    have hlength := Layout.length_le_elementLines (first :: second :: others)
    obtain ⟨left, hleft⟩ : ∃ n, fuel + 1 - (first :: second :: others).length = n + 1 :=
      ⟨_, (Nat.succ_pred (by omega)).symm⟩
    have hclose : elementsUpTo? (left + 1) ('\n' :: ']' :: rest) = some ([], rest) := by
      simp [elementsUpTo?, Scan.skipLines, Scan.isBlank]
    rw [hleft, hclose] at hlines
    have htext : Layout.plainText (.array (first :: second :: others)) ++ rest =
        '[' :: (Layout.elementLines (first :: second :: others) ++ '\n' :: ']' :: rest) := by
      simp [Layout.plainText]
    rw [htext]
    simp [readUpTo?, hlines, Value.item]
  | .moment _, h | .table _, h => by simp [Value.isPlain] at h

/-- The lines of plain elements are read as their items, and then the elements go on. -/
theorem elementsUpTo?_elementLines : ∀ values : List Value, Value.arePlain values = true →
    ∀ rest fuel, 2 * (Layout.elementLines values).length ≤ fuel →
    elementsUpTo? fuel (Layout.elementLines values ++ rest) =
      (elementsUpTo? (fuel - values.length) rest).map fun found => (Value.items values ++ found.1, found.2)
  | [], _, rest, fuel, _ => by simp [Layout.elementLines, Value.items]
  | value :: values, h, rest, fuel, hfuel => by
    simp only [Value.arePlain, Bool.and_eq_true] at h
    simp only [Layout.elementLines, List.length_append, List.length_cons, List.length_nil] at hfuel
    obtain ⟨fuel, rfl⟩ : ∃ n, fuel = n + 1 := ⟨fuel - 1, by omega⟩
    have hline := elementsUpTo?_line (reads_plainText value h.1) fuel (by omega)
      (Layout.elementLines values ++ rest)
    have hmore := elementsUpTo?_elementLines values h.2 rest fuel (by omega)
    have htext : Layout.elementLines (value :: values) ++ rest =
        ['\n', ' ', ' ', ' ', ' '] ++ Layout.plainText value ++ ',' :: (Layout.elementLines values ++ rest) := by
      simp [Layout.elementLines]
    rw [htext, hline, hmore, Option.map_map, List.length_cons, Nat.add_sub_add_right]
    rfl

end

end Item

end LedSwitch.Toml
