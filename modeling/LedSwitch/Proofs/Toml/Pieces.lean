import Mathlib.Tactic.Common
import LedSwitch.Proofs.Toml.Plain
import LedSwitch.Toml.Document

/-!
A written document is a sequence of pieces: headers, and lines with a key and a plain value. `Spells` says which
texts stand for which pieces, blank lines being of no account, and `Spells.readUpTo?` what sections are read from
such a text.
-/

namespace LedSwitch.Toml

/-- One piece of a written document. -/
inductive Piece where
  /-- A header, in double brackets if `repeated`. -/
  | header (repeated : Bool) (keys : List String)
  /-- A key with a plain value. -/
  | line (key : String) (value : Value)

namespace Layout

/-- Keys with dots between them. -/
def dotted (keys : List String) : List Char := ['.'].intercalate (keys.map keyText)

/-- The line of a header. -/
def headerText (repeated : Bool) (keys : List String) : List Char :=
  if repeated then '[' :: '[' :: dotted keys ++ [']', ']', '\n'] else '[' :: dotted keys ++ [']', '\n']

/-- The line of a key with a plain value. -/
def lineText (key : String) (value : Value) : List Char :=
  keyText key ++ [' ', '=', ' '] ++ plainText value ++ ['\n']

theorem length_le_dotted (keys : List String) : keys.length ≤ (dotted keys).length := by
  have hkey : ∀ key, 1 ≤ (keyText key).length := by
    intro key
    obtain ⟨c, rest, hc, -⟩ := keyText_eq_cons key
    simp [hc]
  induction keys with
  | nil => simp
  | cons key keys ih =>
    cases keys with
    | nil => simpa [dotted] using hkey key
    | cons next keys =>
      have htext : dotted (key :: next :: keys) = keyText key ++ '.' :: dotted (next :: keys) := by
        simp [dotted, List.intercalate]
      have hfirst := hkey key
      simp only [htext, List.length_append, List.length_cons] at ih ⊢
      omega

end Layout

/-- The texts that stand for pieces, each on its line and with blank lines anywhere. -/
inductive Spells : List Char → List Piece → Prop where
  | nil : Spells [] []
  | blank {text : List Char} {pieces : List Piece} : Spells text pieces → Spells ('\n' :: text) pieces
  | header {text : List Char} {pieces : List Piece} (repeated : Bool) {keys : List String} (hkeys : keys ≠ []) :
      Spells text pieces → Spells (Layout.headerText repeated keys ++ text) (.header repeated keys :: pieces)
  | line {text : List Char} {pieces : List Piece} (key : String) {value : Value} (hvalue : value.isPlain = true) :
      Spells text pieces → Spells (Layout.lineText key value ++ text) (.line key value :: pieces)

theorem Spells.append {text more : List Char} {pieces others : List Piece} (h : Spells text pieces)
    (hmore : Spells more others) : Spells (text ++ more) (pieces ++ others) := by
  induction h with
  | nil => exact hmore
  | blank _ ih => exact ih.blank
  | header repeated hkeys _ ih =>
    rw [List.append_assoc]
    exact ih.header repeated hkeys
  | line key hvalue _ ih =>
    rw [List.append_assoc]
    exact ih.line key hvalue

theorem Spells.headerLine (repeated : Bool) {keys : List String} (hkeys : keys ≠ []) :
    Spells (Layout.headerText repeated keys) [.header repeated keys] := by
  simpa using Spells.nil.header repeated hkeys

namespace Section

/-- The sections that pieces complete, and the section at hand after them. -/
def gather : Section → List Piece → List Section × Section
  | s, [] => ([], s)
  | s, .header repeated keys :: pieces =>
    let found := gather ⟨keys, repeated, []⟩ pieces
    (s.consIfAny found.1, found.2)
  | s, .line key value :: pieces => gather { s with body := s.body ++ [(key, value.item)] } pieces

theorem consIfAny_append (s : Section) (sections more : List Section) :
    s.consIfAny (sections ++ more) = s.consIfAny sections ++ more := by
  unfold consIfAny
  split <;> simp

theorem lineEnd?_newline (rest : List Char) : Scan.lineEnd? ('\n' :: rest) = some rest := by
  simp [Scan.lineEnd?, Scan.skipBlanks, Scan.isBlank]

/-- The keys of a header are read back, up to its bracket. -/
theorem keys?_dotted {keys : List String} (hkeys : keys ≠ []) (rest : List Char) :
    Scan.keys? (Layout.dotted keys ++ ']' :: rest) = some (keys, ']' :: rest) := by
  have hskip : Scan.skipBlanks (']' :: rest) = ']' :: rest := Scan.skipBlanks_of_head? (by simp [Scan.isBlank])
  have hlength := Layout.length_le_dotted keys
  have hread : Scan.keysUpTo? ((Layout.dotted keys ++ ']' :: rest).length + 1) (Layout.dotted keys ++ ']' :: rest) =
      some (keys, Scan.skipBlanks (']' :: rest)) :=
    Layout.keysUpTo?_keyText hkeys ⟨by simp [Scan.isWordChar], by simp⟩ (by simp [hskip])
      (by simp only [List.length_append]; omega)
  rw [hskip] at hread
  exact hread

/-- Dotted keys begin with a key. -/
theorem dotted_eq_cons {keys : List String} (hkeys : keys ≠ []) :
    ∃ c rest, Layout.dotted keys = c :: rest ∧ (c = '"' ∨ Scan.isWordChar c = true) := by
  obtain ⟨key, keys, rfl⟩ := List.exists_cons_of_ne_nil hkeys
  obtain ⟨c, rest, hkey, hc⟩ := Layout.keyText_eq_cons key
  cases keys with
  | nil => exact ⟨c, rest, by simp [Layout.dotted, hkey], hc⟩
  | cons next keys =>
    refine ⟨c, rest ++ '.' :: Layout.dotted (next :: keys), ?_, hc⟩
    simp [Layout.dotted, List.intercalate, hkey]

/-- A header reads back, to the end of its line. -/
theorem ofHeader?_headerText (repeated : Bool) {keys : List String} (hkeys : keys ≠ []) (rest : List Char) :
    ∃ tail, Layout.headerText repeated keys ++ rest = '[' :: tail ∧
      ofHeader? tail = some (⟨keys, repeated, []⟩, rest) := by
  cases repeated with
  | true =>
    refine ⟨'[' :: (Layout.dotted keys ++ ']' :: ']' :: '\n' :: rest), by simp [Layout.headerText], ?_⟩
    simp [ofHeader?, keys?_dotted hkeys, lineEnd?_newline]
  | false =>
    obtain ⟨c, text, htext, hc⟩ := dotted_eq_cons hkeys
    refine ⟨Layout.dotted keys ++ ']' :: '\n' :: rest, by simp [Layout.headerText], ?_⟩
    have hbracket : Parts.after? '[' (Layout.dotted keys ++ ']' :: '\n' :: rest) = none := by
      refine Parts.after?_of_head?_ne ?_
      rw [htext]
      rintro h
      obtain rfl : c = '[' := by simpa using h
      simp [Scan.isWordChar] at hc
    simp [ofHeader?, hbracket, keys?_dotted hkeys, lineEnd?_newline]

/-- The key of a line is read back, up to its equals sign. -/
theorem keys?_line (key : String) (rest : List Char) :
    Scan.keys? (Layout.keyText key ++ ' ' :: '=' :: rest) = some ([key], '=' :: rest) := by
  have hequals : Scan.skipBlanks (' ' :: '=' :: rest) = '=' :: rest := by
    simp [Scan.skipBlanks, Scan.isBlank]
  have htext : Layout.keyText key ++ ' ' :: '=' :: rest =
      ['.'].intercalate ([key].map Layout.keyText) ++ ' ' :: '=' :: rest := by
    simp
  have hread : Scan.keysUpTo? ((Layout.keyText key ++ ' ' :: '=' :: rest).length + 1)
      (['.'].intercalate ([key].map Layout.keyText) ++ ' ' :: '=' :: rest) =
      some ([key], Scan.skipBlanks (' ' :: '=' :: rest)) :=
    Layout.keysUpTo?_keyText (by simp) ⟨by simp [Scan.isWordChar], by simp⟩ (by simp [hequals]) (by simp)
  rwa [hequals, ← htext] at hread

/-- A line reads back as an entry. -/
theorem extend?_lineText (s : Section) (key : String) {value : Value} (hvalue : value.isPlain = true)
    (rest : List Char) :
    s.extend? (Layout.lineText key value ++ rest) =
      some ({ s with body := s.body ++ [(key, value.item)] }, rest) := by
  have hreads := Item.reads_plainText value hvalue
  have hends : EndsValue ('\n' :: rest) := ⟨'\n', rest, rfl, by simp⟩
  obtain ⟨c, tail, hstart, hblank, -⟩ := hreads.start
  have htext : Layout.lineText key value ++ rest =
      Layout.keyText key ++ ' ' :: '=' :: ' ' :: (Layout.plainText value ++ '\n' :: rest) := by
    simp [Layout.lineText]
  have hskip : Scan.skipBlanks (' ' :: (Layout.plainText value ++ '\n' :: rest)) =
      Layout.plainText value ++ '\n' :: rest := by
    have hspace : Scan.isBlank ' ' = true := rfl
    simp [Scan.skipBlanks, hstart, hblank, hspace]
  have hitem : Item.read? (Layout.plainText value ++ '\n' :: rest) = some (value.item, '\n' :: rest) :=
    hreads _ hends _ (by simp only [List.length_append]; omega)
  rw [extend?, htext, keys?_line]
  simp only [Option.bind_eq_bind, Option.bind_some, Parts.after?_cons_self, hskip, hitem, lineEnd?_newline,
    Item.insertAt?]

theorem readUpTo?_blank (fuel : Nat) (s : Section) (text : List Char) :
    readUpTo? fuel s ('\n' :: text) = readUpTo? fuel s text := by
  cases fuel <;> simp [readUpTo?, Scan.skipLines, Scan.isBlank]

/-- A header completes the section at hand. -/
theorem readUpTo?_headerText (fuel : Nat) (s : Section) (repeated : Bool) {keys : List String} (hkeys : keys ≠ [])
    (rest : List Char) :
    readUpTo? (fuel + 1) s (Layout.headerText repeated keys ++ rest) =
      (readUpTo? fuel ⟨keys, repeated, []⟩ rest).map s.consIfAny := by
  obtain ⟨tail, htext, hheader⟩ := ofHeader?_headerText repeated hkeys rest
  have hskip : Scan.skipLines false ('[' :: tail) = some ('[' :: tail) :=
    Scan.skipLines_of_start rfl (by decide) (by decide) tail
  rw [htext]
  simp only [readUpTo?, hskip, Option.bind_eq_bind, Option.bind_some, if_true, hheader]

/-- A line that begins with a key is no header. -/
theorem readUpTo?_keyText (fuel : Nat) (s : Section) (key : String) (rest : List Char) :
    readUpTo? (fuel + 1) s (Layout.keyText key ++ rest) =
      (s.extend? (Layout.keyText key ++ rest)).bind fun found => readUpTo? fuel found.1 found.2 := by
  obtain ⟨c, tail, hkey, hc⟩ := Layout.keyText_eq_cons key
  have hstart : ∀ d : Char, d ≠ '"' → Scan.isWordChar d = false → c ≠ d := by
    rintro d hquote hword rfl
    rcases hc with rfl | hc
    · exact hquote rfl
    · simp [hword] at hc
  have hblank : Scan.isBlank c = false := by
    simp [Scan.isBlank, hstart ' ' (by decide) rfl, hstart '\t' (by decide) rfl]
  have hskip : Scan.skipLines false (c :: (tail ++ rest)) = some (c :: (tail ++ rest)) :=
    Scan.skipLines_of_start hblank (hstart '\n' (by decide) rfl) (hstart '#' (by decide) rfl) _
  rw [hkey, List.cons_append, readUpTo?, hskip]
  simp only [Option.bind_eq_bind, Option.bind_some, hstart '[' (by decide) rfl, if_false]

/-- A line adds to the section at hand. -/
theorem readUpTo?_lineText (fuel : Nat) (s : Section) (key : String) {value : Value} (hvalue : value.isPlain = true)
    (rest : List Char) :
    readUpTo? (fuel + 1) s (Layout.lineText key value ++ rest) =
      readUpTo? fuel { s with body := s.body ++ [(key, value.item)] } rest := by
  have hextend := extend?_lineText s key hvalue rest
  simp only [Layout.lineText, List.append_assoc] at hextend ⊢
  rw [readUpTo?_keyText, hextend, Option.bind_some]

/-- A text that stands for pieces is read as the sections that they complete. -/
theorem readUpTo?_of_spells {text : List Char} {pieces : List Piece} (h : Spells text pieces) (s : Section)
    (rest : List Char) (fuel : Nat) :
    readUpTo? (fuel + pieces.length) s (text ++ rest) =
      (readUpTo? fuel (gather s pieces).2 rest).map ((gather s pieces).1 ++ ·) := by
  induction h generalizing s with
  | nil => simp [gather]
  | blank _ ih => rw [List.cons_append, readUpTo?_blank, ih]
  | header repeated hkeys _ ih =>
    rw [List.append_assoc, List.length_cons, ← Nat.add_assoc, readUpTo?_headerText _ s repeated hkeys, ih,
      Option.map_map]
    simp only [gather, Function.comp_def, consIfAny_append]
  | line key hvalue _ ih =>
    rw [List.append_assoc, List.length_cons, ← Nat.add_assoc, readUpTo?_lineText _ s key hvalue, ih]
    rfl

end Section

end LedSwitch.Toml
