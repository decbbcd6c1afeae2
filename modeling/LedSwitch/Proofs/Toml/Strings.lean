import Mathlib.Tactic.Common
import LedSwitch.Toml.Layout

/-!
Strings and keys read back as they were written. Whichever of its four forms `Layout.stringText` chooses,
`Scan.string?` finds the same text between the delimiters; `Scan.key?` reads what `Layout.keyText` writes, and
`Scan.keysUpTo?` does so for keys with dots between them.
-/

namespace LedSwitch.Parts

@[simp] theorem after?_cons_self (c : Char) (rest : List Char) : after? c (c :: rest) = some rest := by
  simp [after?]

theorem after?_of_head?_ne {c : Char} {text : List Char} (h : text.head? ≠ some c) : after? c text = none := by
  cases text with
  | nil => rfl
  | cons x rest =>
    have hne : x ≠ c := by simpa using h
    simp [after?, hne]

end LedSwitch.Parts

namespace LedSwitch.Toml

/-- What can follow a value in a written text: the end of its line, a comma or a bracket, or an opening bracket with
    which the text goes on but cannot be read. -/
def EndsValue (rest : List Char) : Prop :=
  ∃ c tail, rest = c :: tail ∧ c ∈ ['\n', ',', ']', '[']

theorem EndsValue.head?_ne {rest : List Char} (h : EndsValue rest) {d : Char} (hother : d ∉ ['\n', ',', ']', '[']) :
    rest.head? ≠ some d := by
  obtain ⟨c, tail, rfl, hc⟩ := h
  rw [List.head?_cons, ne_eq, Option.some.injEq]
  rintro rfl
  exact hother hc

/-- What ends a key: neither a letter of a word nor a quote, so that the key cannot go on. -/
def EndsKey (rest : List Char) : Prop :=
  (∀ c ∈ rest.head?, Scan.isWordChar c = false) ∧ rest.head? ≠ some '"'

namespace Scan

theorem body?_close (delimiter : Char) (rest : List Char) :
    body? delimiter false .text (delimiter :: rest) = some ([], rest) := by
  simp [body?]

theorem body?_plain {delimiter c : Char} {multiline : Bool} (hclose : c ≠ delimiter)
    (hescape : ¬ (c = '\\' ∧ delimiter = '"'))
    (hallowed : c = '\t' ∨ (' ' ≤ c ∧ c ≠ '\x7f') ∨ (multiline = true ∧ c = '\n')) (rest : List Char) :
    body? delimiter multiline .text (c :: rest) =
      (body? delimiter multiline .text rest).map fun found => (c :: found.1, found.2) := by
  rw [body?]
  · simp only [reduceCtorEq, false_and, if_false, hclose, hescape, hallowed, if_true]
  all_goals simp

theorem body?_escaped {letter x : Char} (h : escaped? letter = some x) (multiline : Bool) (rest : List Char) :
    body? '"' multiline .text ('\\' :: letter :: rest) =
      (body? '"' multiline .text rest).map fun found => (x :: found.1, found.2) := by
  simp [body?, h]

theorem body?_code {n : Nat} (hlow : n < 128) (multiline : Bool) (rest : List Char) :
    body? '"' multiline .text ('\\' :: 'u' :: (Layout.fourDigits n ++ rest)) =
      (body? '"' multiline .text rest).map fun found => (Char.ofNat n :: found.1, found.2) := by
  have hdigit : ∀ d < 16, Hex.digit? (Nat.digitChar d).toUpper = some d := by decide
  have hzero : Hex.digit? '0' = some 0 := rfl
  have hfour : ∀ n < 128, Layout.fourDigits n =
      ['0', '0', (Nat.digitChar (n / 16)).toUpper, (Nat.digitChar (n % 16)).toUpper] := by decide +kernel
  have hchar : Hex.char? n = some (Char.ofNat n) := by rw [Hex.char?, if_pos (Or.inl (by omega))]
  have hvalue : n / 16 * 16 + n % 16 = n := by omega
  rw [hfour n hlow]
  simp [body?, escaped?, hdigit _ (show n / 16 < 16 by omega), hdigit _ (show n % 16 < 16 by omega), hzero,
    hvalue, hchar]

theorem body?_closeLines {delimiter : Char} {rest : List Char} (hrest : rest.head? ≠ some delimiter) :
    body? delimiter true .text (delimiter :: delimiter :: delimiter :: rest) = some ([], rest) := by
  have hnone : rest.takeWhile (· = delimiter) = [] := by
    cases rest with
    | nil => rfl
    | cons c rest =>
      have hne : c ≠ delimiter := by simpa using hrest
      simp [hne]
  simp [body?, body?.closing?, hnone]

/-- An apostrophe after which no two more follow does not close a string of several lines. -/
theorem closing?_of_apostrophe {text : List Char} (htriple : Layout.hasTripleApostrophe ('\'' :: text) = false)
    (hlast : ('\'' :: text).getLast? ≠ some '\'') (rest : List Char) :
    body?.closing? '\'' (text ++ rest) = none := by
  match text with
  | [] => simp at hlast
  | [x] =>
    have hx : x ≠ '\'' := by simpa using hlast
    simp [body?.closing?, hx]
  | x :: y :: text =>
    by_cases hx : x = '\''
    · have hy : y ≠ '\'' := by
        rintro rfl
        simp [Layout.hasTripleApostrophe, hx] at htriple
      simp [body?.closing?, hx, hy]
    · simp [body?.closing?, hx]

/-- A text without triple apostrophes, and without one at its end, can stand between triple apostrophes. -/
theorem body?_literalLines {text rest : List Char} (htriple : Layout.hasTripleApostrophe text = false)
    (hlast : text.getLast? ≠ some '\'') (hrest : rest.head? ≠ some '\'')
    (hallowed : ∀ c ∈ text, c = '\t' ∨ (' ' ≤ c ∧ c ≠ '\x7f') ∨ (true = true ∧ c = '\n')) :
    body? '\'' true .text (text ++ '\'' :: '\'' :: '\'' :: rest) = some (text, rest) := by
  induction text with
  | nil => exact body?_closeLines hrest
  | cons c text ih =>
    have htail : body? '\'' true .text (text ++ '\'' :: '\'' :: '\'' :: rest) = some (text, rest) := by
      refine ih ?_ ?_ fun x hx => hallowed x (List.mem_cons_of_mem _ hx)
      · match text with
        | [] | [_] => rfl
        | x :: y :: text =>
          rw [Layout.hasTripleApostrophe, Bool.or_eq_false_iff] at htriple
          exact htriple.2
      · cases text with
        | nil => simp
        | cons x text => simpa using hlast
    by_cases hc : c = '\''
    · subst hc
      have hclosing := closing?_of_apostrophe htriple hlast ('\'' :: '\'' :: '\'' :: rest)
      simp [body?, hclosing, htail]
    · rw [List.cons_append, body?_plain hc (by simp) (hallowed c List.mem_cons_self), htail]
      rfl

theorem body?_literal {text rest : List Char} (hquote : '\'' ∉ text)
    (hallowed : ∀ c ∈ text, c = '\t' ∨ ' ' ≤ c ∧ c ≠ '\x7f') :
    body? '\'' false .text (text ++ '\'' :: rest) = some (text, rest) := by
  induction text with
  | nil => exact body?_close '\'' rest
  | cons c text ih =>
    simp only [List.mem_cons, not_or] at hquote
    have hc : c = '\t' ∨ (' ' ≤ c ∧ c ≠ '\x7f') ∨ (false = true ∧ c = '\n') :=
      (hallowed c List.mem_cons_self).imp_right Or.inl
    rw [List.cons_append, body?_plain (Ne.symm hquote.1) (by simp) hc,
      ih hquote.2 fun x hx => hallowed x (List.mem_cons_of_mem _ hx)]
    rfl

theorem skipBlanks_of_head? {text : List Char} (h : ∀ c ∈ text.head?, isBlank c = false) :
    skipBlanks text = text := by
  cases text with
  | nil => rfl
  | cons c rest => simp [skipBlanks, h c rfl]

theorem word?_append {word rest : List Char} (hword : ∀ c ∈ word, isWordChar c = true) (hne : word ≠ [])
    (hrest : ∀ c ∈ rest.head?, isWordChar c = false) : word? (word ++ rest) = some (word, rest) := by
  have htake : (word ++ rest).takeWhile isWordChar = word := by
    rw [List.takeWhile_append_of_pos hword]
    cases rest with
    | nil => simp
    | cons c rest => simp [hrest c rfl]
  have hdrop : (word ++ rest).dropWhile isWordChar = rest := by
    rw [List.dropWhile_append_of_pos hword]
    cases rest with
    | nil => rfl
    | cons c rest => simp [hrest c rfl]
  simp [word?, htake, hdrop, hne]

theorem isBlank_of_isWordChar {c : Char} (h : isWordChar c = true) : isBlank c = false := by
  by_contra hblank
  simp only [isBlank, Bool.not_eq_false, Bool.or_eq_true, decide_eq_true_eq] at hblank
  rcases hblank with rfl | rfl <;> simp [isWordChar] at h

end Scan

namespace Layout

open Scan

theorem body?_escape (multiline : Bool) (c : Char) (rest : List Char) :
    body? '"' multiline .text (escape multiline c ++ rest) =
      (body? '"' multiline .text rest).map fun found => (c :: found.1, found.2) := by
  unfold escape
  split_ifs with hline hmulti hback htab hfeed hreturn hquote hslash hcontrol
  · subst hline
    exact body?_plain (by decide) (by decide) (Or.inr (Or.inr ⟨hmulti, rfl⟩)) rest
  · subst hline
    exact body?_escaped rfl multiline rest
  · subst hback
    exact body?_escaped rfl multiline rest
  · subst htab
    exact body?_escaped rfl multiline rest
  · subst hfeed
    exact body?_escaped rfl multiline rest
  · subst hreturn
    exact body?_escaped rfl multiline rest
  · subst hquote
    exact body?_escaped rfl multiline rest
  · subst hslash
    exact body?_escaped rfl multiline rest
  · have hlow : c.toNat < 128 := by
      rcases hcontrol with h | rfl
      · have : c.toNat < 32 := h
        omega
      · decide
    simpa using body?_code hlow multiline rest
  · have hallowed : ' ' ≤ c ∧ c ≠ '\x7f' := by
      rw [not_or] at hcontrol
      exact ⟨Char.not_lt.1 hcontrol.1, hcontrol.2⟩
    exact body?_plain hquote (fun h => hslash h.1) (Or.inr (Or.inl hallowed)) rest

theorem body?_flatMap_escape (multiline : Bool) (text rest : List Char) :
    body? '"' multiline .text (text.flatMap (escape multiline) ++ rest) =
      (body? '"' multiline .text rest).map fun found => (text ++ found.1, found.2) := by
  induction text with
  | nil => simp
  | cons c text ih =>
    rw [List.flatMap_cons, List.append_assoc, body?_escape, ih]
    simp [Function.comp_def]

theorem head?_escape_ne_quote (multiline : Bool) (c : Char) (rest : List Char) :
    (escape multiline c ++ rest).head? ≠ some '"' := by
  unfold escape
  split_ifs <;> simp_all

theorem string?_escaped (text : List Char) {rest : List Char} (hrest : rest.head? ≠ some '"') :
    string? '"' (text.flatMap (escape false) ++ '"' :: rest) = some (false, String.ofList text, rest) := by
  have hbody : body? '"' false .text (text.flatMap (escape false) ++ '"' :: rest) = some (text, rest) := by
    rw [body?_flatMap_escape, body?_close]
    simp
  cases text with
  | nil => simp [string?, Parts.after?_of_head?_ne hrest]
  | cons c text =>
    have hfirst : Parts.after? '"' ((c :: text).flatMap (escape false) ++ '"' :: rest) = none := by
      rw [List.flatMap_cons, List.append_assoc]
      exact Parts.after?_of_head?_ne (head?_escape_ne_quote false c _)
    simp only [string?, hfirst, hbody, Option.map_some]

/-- What a text that needs no escapes consists of. -/
theorem allowed_of_not_needsEscapes {text : List Char} (h : needsEscapes text = false) :
    ∀ c ∈ text, c = '\t' ∨ (' ' ≤ c ∧ c ≠ '\x7f') ∨ c = '\n' := by
  intro c hc
  simp only [needsEscapes, Bool.or_eq_false_iff, List.any_eq_false] at h
  have hc := h.2 c hc
  by_cases hlow : c < ' '
  · by_cases htab : c = '\t'
    · exact Or.inl htab
    · refine Or.inr (Or.inr ?_)
      by_contra hline
      simp [hlow, htab, hline] at hc
  · refine Or.inr (Or.inl ⟨Char.not_lt.1 hlow, ?_⟩)
    rintro rfl
    simp at hc

/-- A string in any of its forms reads back as its text. -/
theorem string?_stringText (text : List Char) {rest : List Char} (hrest : EndsValue rest) :
    ∃ delimiter body multiline, stringText text = delimiter :: body ∧ (delimiter = '"' ∨ delimiter = '\'') ∧
      string? delimiter (body ++ rest) = some (multiline, String.ofList text, rest) := by
  have hquote : rest.head? ≠ some '"' := hrest.head?_ne (by decide)
  have hapostrophe : rest.head? ≠ some '\'' := hrest.head?_ne (by decide)
  by_cases hescapes : needsEscapes text = true
  · by_cases hlines : '\n' ∈ text
    · refine ⟨'"', _, true, by rw [stringText, if_pos hescapes, if_pos hlines]; rfl, Or.inl rfl, ?_⟩
      simp [string?, body?_flatMap_escape, body?_closeLines hquote]
    · refine ⟨'"', _, false, by rw [stringText, if_pos hescapes, if_neg hlines]; rfl, Or.inl rfl, ?_⟩
      simpa using string?_escaped text hquote
  · rw [Bool.not_eq_true] at hescapes
    have hallowed := allowed_of_not_needsEscapes hescapes
    have hshape := hescapes
    simp only [needsEscapes, Bool.or_eq_false_iff, decide_eq_false_iff_not] at hshape
    obtain ⟨⟨htriple, hlast⟩, -⟩ := hshape
    have hbody : body? '\'' true .text (text ++ '\'' :: '\'' :: '\'' :: rest) = some (text, rest) :=
      body?_literalLines htriple hlast hapostrophe fun c hc => by simpa using hallowed c hc
    by_cases hlines : '\n' ∈ text
    · refine ⟨'\'', '\'' :: '\'' :: '\n' :: (text ++ ['\'', '\'', '\'']), true,
        by simp [stringText, hescapes, hlines], Or.inr rfl, ?_⟩
      simp [string?, hbody]
    · have hnoline : ∀ c ∈ text, c ≠ '\n' := fun c hc h => hlines (h ▸ hc)
      by_cases hmark : '\'' ∈ text
      · refine ⟨'\'', '\'' :: '\'' :: (text ++ ['\'', '\'', '\'']), true,
          by simp [stringText, hescapes, hlines, hmark], Or.inr rfl, ?_⟩
        have hfirst : Parts.after? '\n' (text ++ '\'' :: '\'' :: '\'' :: rest) = none := by
          cases text with
          | nil => simp at hmark
          | cons c text => exact Parts.after?_of_head?_ne (by simpa using hnoline c List.mem_cons_self)
        simp [string?, hfirst, hbody]
      · refine ⟨'\'', text ++ ['\''], false, by simp [stringText, hescapes, hlines, hmark], Or.inr rfl, ?_⟩
        have hliteral : body? '\'' false .text (text ++ '\'' :: rest) = some (text, rest) :=
          body?_literal hmark fun c hc => by simpa [hnoline c hc] using hallowed c hc
        cases text with
        | nil => simp [string?, Parts.after?_of_head?_ne hapostrophe]
        | cons c text =>
          have hfirst : Parts.after? '\'' (c :: (text ++ '\'' :: rest)) = none := by
            simp only [List.mem_cons, not_or] at hmark
            exact Parts.after?_of_head?_ne (by simpa using Ne.symm hmark.1)
          have htext : (c :: text) ++ ['\''] ++ rest = c :: (text ++ '\'' :: rest) := by simp
          rw [List.cons_append] at hliteral
          rw [htext, string?, hfirst]
          simp only [hliteral, Option.map_some]

/-- A key begins with a letter of a word or with a double quote. -/
theorem keyText_eq_cons (key : String) :
    ∃ c rest, keyText key = c :: rest ∧ (c = '"' ∨ isWordChar c = true) := by
  unfold keyText
  split_ifs with hbare
  · simp only [Bool.and_eq_true, Bool.not_eq_true', List.isEmpty_eq_false_iff, List.all_eq_true] at hbare
    obtain ⟨c, rest, hkey⟩ := List.exists_cons_of_ne_nil hbare.1
    exact ⟨c, rest, hkey, Or.inr (hbare.2 c (by simp [hkey]))⟩
  · exact ⟨'"', _, rfl, Or.inl rfl⟩

theorem skipBlanks_keyText (key : String) (rest : List Char) :
    skipBlanks (keyText key ++ rest) = keyText key ++ rest := by
  obtain ⟨c, text, hkey, hc⟩ := keyText_eq_cons key
  refine skipBlanks_of_head? fun x hx => ?_
  obtain rfl : c = x := by simpa [hkey] using hx
  rcases hc with rfl | hc
  · rfl
  · exact isBlank_of_isWordChar hc

/-- A key, bare or quoted, reads back as itself. -/
theorem key?_keyText (key : String) {rest : List Char} (hrest : EndsKey rest) :
    key? (keyText key ++ rest) = some (key, rest) := by
  unfold keyText
  split_ifs with hbare
  · simp only [Bool.and_eq_true, Bool.not_eq_true', List.isEmpty_eq_false_iff, List.all_eq_true] at hbare
    have hword := word?_append hbare.2 hbare.1 hrest.1
    obtain ⟨c, chars, hkey⟩ := List.exists_cons_of_ne_nil hbare.1
    have hc : isWordChar c = true := hbare.2 c (by simp [hkey])
    have hquote : ¬ (c = '"' ∨ c = '\'') := by
      rintro (rfl | rfl) <;> simp [isWordChar] at hc
    rw [hkey, List.cons_append] at hword ⊢
    simp only [key?, hquote, if_false, hword, Option.map_some, ← hkey, String.ofList_toList]
  · have hstring := string?_escaped key.toList hrest.2
    simp [key?, escaped, hstring]

/-- Keys with dots between them read back as they are, with the blanks after them skipped. -/
theorem keysUpTo?_keyText {keys : List String} (hne : keys ≠ []) {rest : List Char} (hrest : EndsKey rest)
    (hdot : (skipBlanks rest).head? ≠ some '.') {fuel : Nat} (hfuel : keys.length ≤ fuel) :
    keysUpTo? fuel (['.'].intercalate (keys.map keyText) ++ rest) = some (keys, skipBlanks rest) := by
  induction keys generalizing fuel with
  | nil => exact absurd rfl hne
  | cons key keys ih =>
    obtain ⟨fuel, rfl⟩ : ∃ n, fuel = n + 1 := ⟨fuel - 1, by simp at hfuel; omega⟩
    cases keys with
    | nil =>
      simp [keysUpTo?, skipBlanks_keyText, key?_keyText key hrest, Parts.after?_of_head?_ne hdot]
    | cons next keys =>
      have hends : EndsKey ('.' :: (['.'].intercalate ((next :: keys).map keyText) ++ rest)) :=
        ⟨by simp [isWordChar], by simp⟩
      have htext : ['.'].intercalate ((key :: next :: keys).map keyText) ++ rest =
          keyText key ++ '.' :: (['.'].intercalate ((next :: keys).map keyText) ++ rest) := by
        simp [List.intercalate]
      have hskip : skipBlanks ('.' :: (['.'].intercalate ((next :: keys).map keyText) ++ rest)) =
          '.' :: (['.'].intercalate ((next :: keys).map keyText) ++ rest) :=
        skipBlanks_of_head? (by simp [isBlank])
      have hmore := ih (by simp) (show (next :: keys).length ≤ fuel by simpa using hfuel)
      rw [htext, keysUpTo?, skipBlanks_keyText, key?_keyText key hends]
      simp only [Option.bind_eq_bind, Option.bind_some, hskip, Parts.after?_cons_self, hmore, Option.map_some]

end Layout

end LedSwitch.Toml
