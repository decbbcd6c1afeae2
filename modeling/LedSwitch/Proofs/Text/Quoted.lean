import Mathlib.Tactic.Common
import LedSwitch.Proofs.Text.Utf8
import LedSwitch.Text.Hex
import LedSwitch.Text.Quoted

/-!
Quoted text is read again up to its closing quote, whatever follows (`Quoted.read?_quote`). So it tells where it ends,
and two texts are never quoted alike. Between the quotes every other quote is behind a backslash (`Quoted.inside_flatMap`).
-/

namespace LedSwitch.Quoted

/-- The character that a letter stands for behind a backslash. -/
def unescape? (letter : Char) : Option Char :=
  if letter = '0' then some '\x00'
  else if letter = 't' then some '\t'
  else if letter = 'r' then some '\r'
  else if letter = 'n' then some '\n'
  else if letter = '"' then some '"'
  else if letter = '\\' then some '\\'
  else none

/-- Where reading is between the quotes. -/
inductive Mode where
  | plain
  /-- Behind a backslash. -/
  | escaped
  /-- Behind a backslash and the letter u. -/
  | opening
  /-- Among hexadecimal digits, of which those before have this value. -/
  | number (n : Nat)

/-- Reads up to the closing quote. The answer is the text that was quoted, and what follows the quote. -/
def readFrom? : Mode → List Char → Option (List Char × List Char)
  | _, [] => none
  | .plain, c :: rest =>
    if c = '"' then some ([], rest)
    else if c = '\\' then readFrom? .escaped rest
    else (readFrom? .plain rest).map fun found => (c :: found.1, found.2)
  | .escaped, letter :: rest =>
    if letter = 'u' then readFrom? .opening rest
    else (unescape? letter).bind fun c => (readFrom? .plain rest).map fun found => (c :: found.1, found.2)
  | .opening, c :: rest => if c = '\x7b' then readFrom? (.number 0) rest else none
  | .number n, c :: rest =>
    if c = '\x7d' then
      (Hex.char? n).bind fun c => (readFrom? .plain rest).map fun found => (c :: found.1, found.2)
    else (Hex.digit? c).bind fun d => readFrom? (.number (n * 16 + d)) rest

/-- Reads a quoted text and answers with it and with what follows it. -/
def read? : List Char → Option (List Char × List Char)
  | '"' :: rest => readFrom? .plain rest
  | _ => none

theorem unescape?_of_shortEscape {c letter : Char} (h : shortEscape? c = some letter) :
    letter ≠ 'u' ∧ unescape? letter = some c := by
  rw [shortEscape?] at h
  split_ifs at h <;> obtain rfl := Option.some.inj h <;> subst_vars <;> decide

theorem digit?_digitChar {d : Nat} (h : d < 16) : Nat.digitChar d ≠ '\x7d' ∧ Hex.digit? (Nat.digitChar d) = some d := by
  have hall : ∀ d < 16, Nat.digitChar d ≠ '\x7d' ∧ Hex.digit? (Nat.digitChar d) = some d := by decide
  exact hall d h

/-- What is true of single digits, and stays so when one more is written behind, is true of all numbers. -/
theorem toDigits_induction {p : Nat → List Char → Prop} (hlow : ∀ d < 16, p d [Nat.digitChar d])
    (hnext : ∀ n digits d, d < 16 → p n digits → p (n * 16 + d) (digits ++ [Nat.digitChar d])) (n : Nat) :
    p n (Nat.toDigits 16 n) := by
  induction n using Nat.strongRecOn with
  | ind n ih =>
    by_cases hn : n < 16
    · rw [Nat.toDigits_of_lt_base hn]
      exact hlow n hn
    · have hstep := hnext (n / 16) _ (n % 16) (Nat.mod_lt n (by decide)) (ih (n / 16) (by omega))
      rw [Nat.div_add_mod'] at hstep
      rw [Nat.toDigits_of_base_le (by decide) (Nat.le_of_not_lt hn)]
      exact hstep

theorem readFrom?_digitChar (n : Nat) {d : Nat} (hd : d < 16) (rest : List Char) :
    readFrom? (.number n) (Nat.digitChar d :: rest) = readFrom? (.number (n * 16 + d)) rest := by
  obtain ⟨hopen, hvalue⟩ := digit?_digitChar hd
  rw [readFrom?, if_neg hopen, hvalue, Option.bind_some]

/-- The digits of a number are read as this number. -/
theorem readFrom?_toDigits (n : Nat) (rest : List Char) :
    readFrom? (.number 0) (Nat.toDigits 16 n ++ rest) = readFrom? (.number n) rest := by
  refine toDigits_induction
    (p := fun n digits => ∀ rest, readFrom? (.number 0) (digits ++ rest) = readFrom? (.number n) rest)
    (fun d hd rest => ?_) (fun n digits d hd ih rest => ?_) n rest
  · rw [List.singleton_append, readFrom?_digitChar 0 hd, Nat.zero_mul, Nat.zero_add]
  · rw [List.append_assoc, ih, List.singleton_append, readFrom?_digitChar n hd]

/-- A character is read as it was written. -/
theorem readFrom?_escape (c : Char) (rest : List Char) : readFrom? .plain (escape c ++ rest) =
    (readFrom? .plain rest).map fun found => (c :: found.1, found.2) := by
  rw [escape]
  cases hshort : shortEscape? c with
  | some letter =>
    obtain ⟨hletter, hc⟩ := unescape?_of_shortEscape hshort
    simp only [List.cons_append, List.nil_append]
    rw [readFrom?, if_neg (by decide), if_pos rfl, readFrom?, if_neg hletter, hc, Option.bind_some]
  | none =>
    simp only
    split_ifs
    · have hchar : Hex.char? c.toNat = some c := by
        rw [Hex.char?, if_pos (Utf8.toNat_valid c), Char.ofNat_toNat]
      rw [List.cons_append, List.cons_append, List.cons_append, List.append_assoc, List.singleton_append, readFrom?,
        if_neg (by decide), if_pos rfl, readFrom?, if_pos rfl, readFrom?, if_pos rfl, readFrom?_toDigits, readFrom?,
        if_pos rfl, hchar, Option.bind_some]
    · have hquote : c ≠ '"' := by
        rintro rfl
        cases hshort
      have hbackslash : c ≠ '\\' := by
        rintro rfl
        cases hshort
      rw [List.singleton_append, readFrom?, if_neg hquote, if_neg hbackslash]

theorem readFrom?_flatMap (text rest : List Char) :
    readFrom? .plain (text.flatMap escape ++ '"' :: rest) = some (text, rest) := by
  induction text with
  | nil => rfl
  | cons c text ih => rw [List.flatMap_cons, List.append_assoc, readFrom?_escape, ih, Option.map_some]

theorem toList_quote (text : String) : (quote text).toList = '"' :: (text.toList.flatMap escape ++ ['"']) := by
  rw [quote, String.toList_ofList]

/-- A text that was quoted is read again, and so is what follows it. -/
theorem read?_quote (text : String) (rest : List Char) :
    read? ((quote text).toList ++ rest) = some (text.toList, rest) := by
  rw [toList_quote, List.cons_append, List.append_assoc, List.singleton_append]
  exact readFrom?_flatMap text.toList rest

/-- What may stand between the quotes: no control characters, and neither a quote nor a backslash unless a backslash
    is before it that belongs to it alone. -/
inductive Inside : List Char → Prop where
  | nil : Inside []
  | plain {c : Char} {rest : List Char} (hcontrol : 0x20 ≤ c.toNat) (hquote : c ≠ '"') (hbackslash : c ≠ '\\')
      (hrest : Inside rest) : Inside (c :: rest)
  | escaped {c : Char} {rest : List Char} (hcontrol : 0x20 ≤ c.toNat) (hrest : Inside rest) :
      Inside ('\\' :: c :: rest)

theorem Inside.noControl {inner : List Char} (h : Inside inner) : ∀ c ∈ inner, 0x20 ≤ c.toNat := by
  induction h with
  | nil => simp
  | plain hcontrol _ _ _ ih => exact List.forall_mem_cons.2 ⟨hcontrol, ih⟩
  | escaped hcontrol _ ih => exact List.forall_mem_cons.2 ⟨by decide, List.forall_mem_cons.2 ⟨hcontrol, ih⟩⟩

theorem Inside.digitChar_cons {d : Nat} (hd : d < 16) {rest : List Char} (hrest : Inside rest) :
    Inside (Nat.digitChar d :: rest) := by
  have hall : ∀ d < 16, 0x20 ≤ (Nat.digitChar d).toNat ∧ Nat.digitChar d ≠ '"' ∧ Nat.digitChar d ≠ '\\' := by decide
  obtain ⟨hcontrol, hquote, hbackslash⟩ := hall d hd
  exact .plain hcontrol hquote hbackslash hrest

theorem Inside.toDigits_append (n : Nat) {rest : List Char} (hrest : Inside rest) :
    Inside (Nat.toDigits 16 n ++ rest) := by
  refine toDigits_induction (p := fun _ digits => ∀ rest, Inside rest → Inside (digits ++ rest))
    (fun d hd rest hrest => hrest.digitChar_cons hd) (fun n digits d hd ih rest hrest => ?_) n rest hrest
  rw [List.append_assoc]
  exact ih _ (hrest.digitChar_cons hd)

theorem Inside.escape_append {rest : List Char} (c : Char) (hrest : Inside rest) : Inside (escape c ++ rest) := by
  rw [escape]
  cases hshort : shortEscape? c with
  | some letter =>
    have hcontrol : 0x20 ≤ letter.toNat := by
      rw [shortEscape?] at hshort
      split_ifs at hshort <;> obtain rfl := Option.some.inj hshort <;> decide
    exact .escaped hcontrol hrest
  | none =>
    simp only
    split_ifs with hunprintable
    · rw [List.cons_append, List.cons_append, List.cons_append, List.append_assoc]
      exact .escaped (by decide) (.plain (by decide) (by decide) (by decide)
        (.toDigits_append _ (.plain (by decide) (by decide) (by decide) hrest)))
    · refine .plain ?_ ?_ ?_ hrest
      · by_contra hcontrol
        exact hunprintable (Unprintable.holds_of_lt_space (Nat.lt_of_not_le hcontrol))
      · rintro rfl
        cases hshort
      · rintro rfl
        cases hshort

theorem inside_flatMap (text : List Char) : Inside (text.flatMap escape) := by
  induction text with
  | nil => exact .nil
  | cons c text ih => exact ih.escape_append c

end LedSwitch.Quoted
