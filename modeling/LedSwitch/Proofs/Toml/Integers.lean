import Mathlib.Tactic.Common
import LedSwitch.Proofs.Toml.Strings
import LedSwitch.Toml.Item

/-!
Integers read back as they were written. `Number.run?` finds the digits that `Nat.toDigits` writes, and
`Item.ofWord?` takes the text of an integer for that integer.
-/

namespace LedSwitch.Toml.Number

/-- The value of a decimal digit. -/
def digitValue (c : Char) : Nat := c.toNat - '0'.toNat

theorem digit?_of_isDigit {c : Char} (h : c.isDigit = true) : digit? 10 c = some (digitValue c) := by
  have hle : c.toNat ≤ 57 := by
    simp only [Char.isDigit, Bool.and_eq_true, decide_eq_true_eq] at h
    exact UInt32.le_iff_toNat_le.1 h.2
  have hlt : c.toNat - '0'.toNat < 10 := by
    have hzero : '0'.toNat = 48 := rfl
    omega
  simp only [digit?, Hex.digit?, h, if_true, digitValue, Option.filter_some, hlt, decide_true]

/-- The value of digits, with the digits read before them. -/
theorem ofDigits_eq_ofDigitChars (digits : List Char) :
    ofDigits 10 (digits.map digitValue) = Nat.ofDigitChars 10 digits 0 := by
  have hfold : ∀ init, (digits.map digitValue).foldl (fun value d => value * 10 + d) init =
      Nat.ofDigitChars 10 digits init := by
    induction digits with
    | nil => simp
    | cons c digits ih =>
      intro init
      rw [List.map_cons, List.foldl_cons, ih, Nat.ofDigitChars_cons, Nat.mul_comm]
      rfl
  exact hfold 0

/-- After a digit, more digits are all read, unless the first one was a zero that stands alone. -/
theorem run?_digit_append {digits : List Char} (hdigits : ∀ c ∈ digits, c.isDigit = true) {padded zero : Bool}
    (hzero : (zero && !padded) = true → digits = []) :
    run? 10 padded (.digit zero) digits = some (digits.map digitValue, []) := by
  induction digits with
  | nil => rfl
  | cons c digits ih =>
    have hc := digit?_of_isDigit (hdigits c List.mem_cons_self)
    have hnot : (zero && !padded) ≠ true := fun h => by simpa using hzero h
    have hmore := ih (fun x hx => hdigits x (List.mem_cons_of_mem _ hx)) fun h => absurd h hnot
    have hstep : ¬ (zero = true ∧ (!padded) = true) := by simpa using hnot
    simp only [run?, hc, hstep, if_false, hmore, Option.map_some, List.map_cons]

/-- A run of digits is read whole, unless it begins with a zero that stands alone. -/
theorem run?_digits {digits : List Char} (hne : digits ≠ []) (hdigits : ∀ c ∈ digits, c.isDigit = true)
    (padded : Bool) (hzero : padded = false → digits.head? = some '0' → digits = ['0']) :
    run? 10 padded .nothing digits = some (digits.map digitValue, []) := by
  obtain ⟨c, digits, rfl⟩ := List.exists_cons_of_ne_nil hne
  have hc := digit?_of_isDigit (hdigits c List.mem_cons_self)
  have hrest : run? 10 padded (.digit (decide (digitValue c = 0))) digits = some (digits.map digitValue, []) := by
    refine run?_digit_append (fun x hx => hdigits x (List.mem_cons_of_mem _ hx)) fun h => ?_
    simp only [Bool.and_eq_true, decide_eq_true_eq, Bool.not_eq_true'] at h
    have hchar : c = '0' := by
      have hdigit := hdigits c List.mem_cons_self
      simp only [Char.isDigit, Bool.and_eq_true, decide_eq_true_eq] at hdigit
      have hle : 48 ≤ c.toNat := UInt32.le_iff_toNat_le.1 hdigit.1
      have hvalue : c.toNat - 48 = 0 := h.1
      exact Char.toNat_inj.1 (show c.toNat = 48 by omega)
    simpa [hchar] using hzero h.2 (by simp [hchar])
  simp only [run?, hc, hrest, Option.map_some, List.map_cons]

/-- A decimal begins with a zero only if it is zero. -/
theorem toDigits_eq_of_head?_zero {n : Nat} (h : (Nat.toDigits 10 n).head? = some '0') :
    Nat.toDigits 10 n = ['0'] := by
  induction n using Nat.strongRecOn with
  | _ n ih =>
    rw [Nat.toDigits_eq_if (by decide)] at h ⊢
    split_ifs at h ⊢ with hn
    · simpa using h
    · have hhead : (Nat.toDigits 10 (n / 10)).head? = some '0' := by
        obtain ⟨c, digits, hdigits⟩ := List.exists_cons_of_ne_nil (show Nat.toDigits 10 (n / 10) ≠ [] from Nat.toDigits_ne_nil)
        simpa [hdigits] using h
      have hsingle := ih (n / 10) (by omega) hhead
      have hzero : n / 10 = 0 := by
        have hvalue := Nat.ofDigitChars_ten_toDigits (n := n / 10)
        rw [hsingle] at hvalue
        simpa [Nat.ofDigitChars_cons] using hvalue.symm
      omega

theorem isDigit_of_mem_toDigits {n : Nat} {c : Char} (h : c ∈ Nat.toDigits 10 n) : c.isDigit = true :=
  Nat.isDigit_of_mem_toDigits (by decide) (by decide) h

theorem run?_toDigits (n : Nat) (padded : Bool) :
    run? 10 padded .nothing (Nat.toDigits 10 n) = some ((Nat.toDigits 10 n).map digitValue, []) :=
  run?_digits Nat.toDigits_ne_nil (fun _ => isDigit_of_mem_toDigits) padded fun _ => toDigits_eq_of_head?_zero

/-- Digits with or without a minus sign before them. -/
def signed (negative : Bool) (digits : List Char) : List Char :=
  if negative then '-' :: digits else digits

theorem ne_of_isDigit {c d : Char} (hc : c.isDigit = true) (hd : d.isDigit = false) : c ≠ d := by
  rintro rfl
  simp [hc] at hd

theorem mem_signed {negative : Bool} {digits : List Char} {c : Char} (h : c ∈ signed negative digits) :
    c = '-' ∨ c ∈ digits := by
  cases negative with
  | false => exact Or.inr h
  | true => simpa [signed] using h

theorem sign_signed (negative : Bool) {digits : List Char} (hdigits : ∀ c ∈ digits, c.isDigit = true) :
    sign (signed negative digits) = (negative, digits) := by
  cases negative with
  | true => simp [sign, signed]
  | false =>
    have hnone : Parts.after? '-' digits = none := by
      refine Parts.after?_of_head?_ne fun h => ?_
      exact ne_of_isDigit (hdigits '-' (List.mem_of_mem_head? h)) rfl rfl
    simp [sign, signed, hnone]

/-- A numeral holds nothing that would make it a float in itself, or a number in another base. -/
theorem number?_signed {negative : Bool} {digits : List Char}
    (hdigits : ∀ c ∈ digits, c.isDigit = true) (rest : List Char) :
    number? (signed negative digits) rest =
      match Parts.after? '.' rest with
      | some text => do
        let (fraction, text) ← Scan.word? text
        float? (signed negative digits) (some fraction) text
      | none => (decimal? (signed negative digits)).map (·, rest) := by
  have hnot : ∀ c : Char, c ≠ '-' → c.isDigit = false → c ∉ signed negative digits := by
    intro c hminus hc hmem
    rcases mem_signed hmem with h | h
    · exact hminus h
    · simp [hdigits c h] at hc
  have hx := hnot 'x' (by decide) rfl
  have ho := hnot 'o' (by decide) rfl
  have hb := hnot 'b' (by decide) rfl
  have hlower := hnot 'e' (by decide) rfl
  have hupper := hnot 'E' (by decide) rfl
  have hn := hnot 'n' (by decide) rfl
  generalize hword : signed negative digits = word at *
  unfold number?
  split
  · simp at hx
  · simp at ho
  · simp at hb
  · have hinf : word ≠ ['i', 'n', 'f'] := by
      rintro rfl
      simp at hn
    have hminusInf : word ≠ ['-', 'i', 'n', 'f'] := by
      rintro rfl
      simp at hn
    have hnan : word ≠ ['n', 'a', 'n'] := by
      rintro rfl
      simp at hn
    have hminusNan : word ≠ ['-', 'n', 'a', 'n'] := by
      rintro rfl
      simp at hn
    cases Parts.after? '.' rest <;> simp only [hlower, hupper, or_self, if_false, hinf, hminusInf, hnan, hminusNan]

theorem integerText_eq_signed (value : Int64) :
    Layout.integerText value = signed (decide (value.toInt < 0)) (Nat.toDigits 10 value.toInt.natAbs) := by
  by_cases h : value.toInt < 0 <;> simp [Layout.integerText, signed, h]

/-- The text of an integer is read as that integer. -/
theorem decimal?_integerText (value : Int64) : decimal? (Layout.integerText value) = some (.integer value) := by
  have hrun := run?_toDigits value.toInt.natAbs false
  have hvalue : ofDigits 10 ((Nat.toDigits 10 value.toInt.natAbs).map digitValue) = value.toInt.natAbs := by
    rw [ofDigits_eq_ofDigitChars, Nat.ofDigitChars_ten_toDigits]
  have hsigned : (if decide (value.toInt < 0) = true then -(value.toInt.natAbs : Int) else value.toInt.natAbs) =
      value.toInt := by
    split_ifs with h <;> simp only [decide_eq_true_eq] at h <;> omega
  have hrange : int64? value.toInt = some value := by
    rw [int64?, if_pos ⟨value.minValue_le_toInt, value.toInt_le⟩, Int64.ofInt_toInt]
  rw [integerText_eq_signed, decimal?, sign_signed _ fun _ => isDigit_of_mem_toDigits]
  simp only [Option.bind_eq_bind, Option.bind_some, hrun, List.isEmpty_nil, Bool.not_true, Bool.false_eq_true,
    if_false, hvalue, hsigned, hrange, Option.map_some]

end LedSwitch.Toml.Number

namespace LedSwitch.Toml.Item

open Number

/-- A numeral is no date. -/
theorem beginsDate_signed {negative : Bool} {digits : List Char} (hdigits : ∀ c ∈ digits, c.isDigit = true) :
    beginsDate (signed negative digits) = false := by
  have hnot : ∀ c : Char, c.isDigit = false → c ∉ digits := fun c hc hmem => by simp [hdigits c hmem] at hc
  have hupper := hnot 'T' rfl
  have hlower := hnot 't' rfl
  have hminus := hnot '-' rfl
  have htail : '-' ∉ digits.tail := fun h => hminus (List.mem_of_mem_tail h)
  cases negative <;> simp [beginsDate, signed, hupper, hlower, hminus, htail]

/-- What begins with a numeral is a number, unless a colon follows. -/
theorem ofWord?_signed {negative : Bool} {digits : List Char} (hne : digits ≠ [])
    (hdigits : ∀ c ∈ digits, c.isDigit = true) {rest : List Char} (hcolon : rest.head? ≠ some ':')
    (text : List Char) :
    ofWord? (signed negative digits) rest text =
      (number? (signed negative digits) rest).map fun found => (.plain found.1, found.2) := by
  have hhead : (signed negative digits).head?.any (fun c => c = '-' || c.isDigit) = true := by
    cases negative with
    | true => rfl
    | false =>
      obtain ⟨c, digits, rfl⟩ := List.exists_cons_of_ne_nil hne
      simp [signed, hdigits c List.mem_cons_self]
  have hlast : ∀ word : List Char, word.getLast?.any Char.isDigit = false → signed negative digits ≠ word := by
    rintro word hword rfl
    have hc := List.getLast?_eq_some_getLast hne
    have hdigit := hdigits _ (List.getLast_mem hne)
    cases negative with
    | true => simp [signed, List.getLast?_cons, hc, hdigit] at hword
    | false => simp [signed, hc, hdigit] at hword
  rw [ofWord?, if_neg (hlast _ rfl), if_neg (hlast _ rfl), if_pos (Or.inr (Or.inr hhead)), beginsDate_signed hdigits]
  simp only [Bool.false_eq_true, if_false, Parts.after?_of_head?_ne hcolon]

/-- What begins with a bare word is read from that word. -/
theorem readUpTo?_word {word : List Char} (hword : ∀ c ∈ word, Scan.isWordChar c = true) (hne : word ≠ [])
    {rest : List Char} (hrest : ∀ c ∈ rest.head?, Scan.isWordChar c = false) (fuel : Nat) :
    readUpTo? (fuel + 1) (word ++ rest) = ofWord? word rest (word ++ rest) := by
  have hfound := Scan.word?_append hword hne hrest
  obtain ⟨c, word, rfl⟩ := List.exists_cons_of_ne_nil hne
  have hc : ∀ d : Char, Scan.isWordChar d = false → c ≠ d := by
    rintro d hd rfl
    simp [hword c List.mem_cons_self] at hd
  have hquote : ¬ (c = '"' ∨ c = '\'') := not_or.2 ⟨hc '"' rfl, hc '\'' rfl⟩
  rw [List.cons_append] at hfound ⊢
  simp only [readUpTo?, hquote, if_false, hc '[' rfl, hc '{' rfl, hc '+' rfl, hfound, Option.bind_eq_bind,
    Option.bind_some]

theorem isWordChar_of_mem_signed {negative : Bool} {digits : List Char} (hdigits : ∀ c ∈ digits, c.isDigit = true)
    {c : Char} (h : c ∈ signed negative digits) : Scan.isWordChar c = true := by
  rcases mem_signed h with rfl | h
  · rfl
  · simp [Scan.isWordChar, Char.isAlphanum, hdigits c h]

end LedSwitch.Toml.Item

namespace LedSwitch.Toml

theorem EndsValue.isWordChar_head? {rest : List Char} (h : EndsValue rest) :
    ∀ c ∈ rest.head?, Scan.isWordChar c = false := by
  obtain ⟨c, tail, rfl, hc⟩ := h
  simp only [List.mem_cons, List.not_mem_nil, or_false] at hc
  obtain rfl | rfl | rfl | rfl := hc <;> simp [Scan.isWordChar]

namespace Item

open Number

/-- The text of an integer reads back as that integer. -/
theorem readUpTo?_integerText (value : Int64) {rest : List Char} (hrest : EndsValue rest) (fuel : Nat) :
    readUpTo? (fuel + 1) (Layout.integerText value ++ rest) = some (.plain (.integer value), rest) := by
  have hdigits : ∀ c ∈ Nat.toDigits 10 value.toInt.natAbs, c.isDigit = true := fun c => isDigit_of_mem_toDigits
  have hcolon : rest.head? ≠ some ':' := hrest.head?_ne (by decide)
  have hpoint : rest.head? ≠ some '.' := hrest.head?_ne (by decide)
  have hne : Layout.integerText value ≠ [] := by
    rw [integerText_eq_signed]
    unfold signed
    split_ifs <;> simp
  have hvalue := decimal?_integerText value
  rw [readUpTo?_word (fun c hc => ?_) hne hrest.isWordChar_head?]
  · rw [integerText_eq_signed] at hvalue ⊢
    rw [ofWord?_signed Nat.toDigits_ne_nil hdigits hcolon, number?_signed hdigits, Parts.after?_of_head?_ne hpoint]
    simp only [hvalue, Option.map_some]
  · rw [integerText_eq_signed] at hc
    exact isWordChar_of_mem_signed hdigits hc

end Item

end LedSwitch.Toml
