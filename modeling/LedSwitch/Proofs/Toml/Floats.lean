import Mathlib.Tactic.Common
import LedSwitch.Proofs.Toml.Integers
import LedSwitch.Proofs.Decimal.Overflow

/-!
Floats can be read back. The text of a float is read as a float again, `Binary64.reread` of it, because its digits
stay so near to it that they do not overflow.
-/

namespace LedSwitch.Binary64

/-- The digits of the text of a number without its point, and the power of ten of the last one. -/
def spelled (digits : Nat) (exponent : Int) : Nat × Int :=
  if exponent ≥ 0 then (digits * 10 ^ (exponent.toNat + 1), -1) else (digits, exponent)

/-- The number that the text of a number is read as. -/
def reread (x : Binary64) : Binary64 :=
  if x.magnitude > infiniteMagnitude then notANumber x.isNegative
  else if x.magnitude = infiniteMagnitude then infinity x.isNegative
  else if x.magnitude = 0 then ofMagnitude x.isNegative 0
  else
    let (digits, exponent) := spelled x.shortest.1 x.shortest.2
    (ofDecimal? x.isNegative digits exponent).getD x

/-- Digits before a point and after it as floats have them: there are some on either side, and a zero comes before no
    other digit. -/
structure Pointed (whole places : List Char) : Prop where
  whole_isDigit : ∀ c ∈ whole, c.isDigit = true
  whole_ne_nil : whole ≠ []
  whole_of_zero : whole.head? = some '0' → whole = ['0']
  places_isDigit : ∀ c ∈ places, c.isDigit = true
  places_ne_nil : places ≠ []

theorem pointed_zero : Pointed ['0'] ['0'] := ⟨by simp, by simp, by simp, by simp, by simp⟩

theorem isDigit_of_mem_zeros {n : Nat} {c : Char} (h : c ∈ List.replicate n '0') : c.isDigit = true := by
  rw [List.eq_of_mem_replicate h]
  rfl

theorem head?_toDigits_ne_zero {n : Nat} (h : n ≠ 0) : (Nat.toDigits 10 n).head? ≠ some '0' := by
  intro hzero
  have hvalue := Nat.ofDigitChars_ten_toDigits (n := n)
  rw [Toml.Number.toDigits_eq_of_head?_zero hzero] at hvalue
  exact h (by simpa [Nat.ofDigitChars_cons] using hvalue.symm)

/-- The digits of a number, with zeros before them unless there are more than a number of places. -/
def zeroPadded (digits places : Nat) : List Char :=
  List.replicate (places + 1 - (Nat.toDigits 10 digits).length) '0' ++ Nat.toDigits 10 digits

theorem lt_length_zeroPadded (digits places : Nat) : places < (zeroPadded digits places).length := by
  rw [zeroPadded, List.length_append, List.length_replicate]
  omega

section

variable {digits places : Nat}

theorem isDigit_of_mem_zeroPadded {c : Char} (h : c ∈ zeroPadded digits places) : c.isDigit = true :=
  (List.mem_append.1 h).elim isDigit_of_mem_zeros Toml.Number.isDigit_of_mem_toDigits

theorem ofDigitChars_zeroPadded : Nat.ofDigitChars 10 (zeroPadded digits places) 0 = digits := by
  rw [zeroPadded, Nat.ofDigitChars_append, Nat.ofDigitChars_replicate_zero, Nat.mul_zero,
    Nat.ofDigitChars_ten_toDigits]

/-- Before the places of padded digits there is a single zero, or the first of the digits comes first. -/
theorem zeroPadded_take_of_zero (hpos : digits ≠ 0)
    (h : ((zeroPadded digits places).take ((zeroPadded digits places).length - places)).head? = some '0') :
    (zeroPadded digits places).take ((zeroPadded digits places).length - places) = ['0'] := by
  by_cases hshort : (Nat.toDigits 10 digits).length ≤ places
  · obtain ⟨n, hn⟩ : ∃ n, places + 1 - (Nat.toDigits 10 digits).length = n + 1 := ⟨_, (Nat.succ_pred (by omega)).symm⟩
    have hlength : (zeroPadded digits places).length - places = 1 := by
      rw [zeroPadded, List.length_append, List.length_replicate]
      omega
    rw [hlength, zeroPadded, hn]
    rfl
  · have hnone : places + 1 - (Nat.toDigits 10 digits).length = 0 := by omega
    have hdigits : zeroPadded digits places = Nat.toDigits 10 digits := by
      rw [zeroPadded, hnone]
      rfl
    rw [hdigits, List.head?_take, if_neg (by omega)] at h
    exact absurd h (head?_toDigits_ne_zero hpos)

theorem pointed_zeroPadded (hpos : digits ≠ 0) (hplaces : places ≠ 0) :
    Pointed ((zeroPadded digits places).take ((zeroPadded digits places).length - places))
      ((zeroPadded digits places).drop ((zeroPadded digits places).length - places)) where
  whole_isDigit c hc := isDigit_of_mem_zeroPadded (List.mem_of_mem_take hc)
  whole_ne_nil h := by
    have hlength := congrArg List.length h
    have hlonger := lt_length_zeroPadded digits places
    rw [List.length_take, List.length_nil] at hlength
    omega
  whole_of_zero := zeroPadded_take_of_zero hpos
  places_isDigit c hc := isDigit_of_mem_zeroPadded (List.mem_of_mem_drop hc)
  places_ne_nil h := by
    have hlength := congrArg List.length h
    have hlonger := lt_length_zeroPadded digits places
    rw [List.length_drop, List.length_nil] at hlength
    omega

theorem pointed_zeros (hpos : digits ≠ 0) (zeros : Nat) :
    Pointed (Nat.toDigits 10 digits ++ List.replicate zeros '0') ['0'] where
  whole_isDigit c hc := (List.mem_append.1 hc).elim Toml.Number.isDigit_of_mem_toDigits isDigit_of_mem_zeros
  whole_ne_nil h := Nat.toDigits_ne_nil (List.append_eq_nil_iff.1 h).1
  whole_of_zero h := by
    rw [List.head?_append, Option.or_eq_some_iff] at h
    obtain hzero | ⟨hnone, -⟩ := h
    · exact absurd hzero (head?_toDigits_ne_zero hpos)
    · exact absurd (List.head?_eq_none_iff.1 hnone) Nat.toDigits_ne_nil
  places_isDigit := by simp
  places_ne_nil := by simp

end

/-- A decimal in positional notation consists of digits before a point and after it. -/
theorem positional_eq_point {digits : Nat} (hpos : digits ≠ 0) (exponent : Int) :
    ∃ whole places, positional digits exponent = whole ++ '.' :: places ∧ Pointed whole places ∧
      (Nat.ofDigitChars 10 (whole ++ places) 0, -(places.length : Int)) = spelled digits exponent := by
  by_cases hwhole : exponent ≥ 0
  · refine ⟨_, _, ?_, pointed_zeros hpos exponent.toNat, ?_⟩
    · simp [positional, hwhole]
    · simp only [spelled, hwhole, if_true, Nat.ofDigitChars_append, Nat.ofDigitChars_ten_toDigits,
        Nat.ofDigitChars_replicate_zero, List.length_singleton]
      simp [Nat.ofDigitChars_cons, Nat.pow_succ, Nat.mul_comm, Nat.mul_left_comm]
  · have hplaces : (-exponent).toNat ≠ 0 := by omega
    refine ⟨_, _, ?_, pointed_zeroPadded hpos hplaces, ?_⟩
    · rw [positional, if_neg hwhole]
      rfl
    · have hlonger := lt_length_zeroPadded digits (-exponent).toNat
      rw [List.take_append_drop, ofDigitChars_zeroPadded, List.length_drop, spelled, if_neg hwhole]
      congr 1
      omega

/-- Reading the digits of a finite number other than zero does not overflow. -/
theorem ofDecimal?_shortest (x : Binary64) (hfinite : x.magnitude < infiniteMagnitude) (hne : x.magnitude ≠ 0) :
    x.shortest.1 ≠ 0 ∧ ∃ y, ofDecimal? x.isNegative (spelled x.shortest.1 x.shortest.2).1
      (spelled x.shortest.1 x.shortest.2).2 = some y := by
  obtain ⟨hdigits, hbelow⟩ := shortest_lt_overflow x hfinite hne
  refine ⟨hdigits, Option.isSome_iff_exists.1 (ofDecimal?_isSome _ ?_)⟩
  generalize x.shortest.1 = digits at hbelow ⊢
  generalize x.shortest.2 = exponent at hbelow ⊢
  unfold spelled
  split_ifs with hwhole
  · have hnone : (-exponent).toNat = 0 := by omega
    rw [hnone, Nat.pow_zero, Nat.mul_one] at hbelow
    calc digits * 10 ^ (exponent.toNat + 1) * 10 ^ (-1 : Int).toNat = digits * 10 ^ exponent.toNat * 10 := by
          rw [Nat.pow_succ]
          simp [Nat.mul_assoc]
      _ < overflow * 10 := Nat.mul_lt_mul_of_pos_right hbelow (by decide)
      _ = overflow * 10 ^ (-(-1 : Int)).toNat := by rw [show (-(-1 : Int)).toNat = 1 from rfl, Nat.pow_one]
  · exact hbelow

end LedSwitch.Binary64

namespace LedSwitch.Toml.Number

/-- A numeral, a point and more digits are read as the decimal that they spell. -/
theorem number?_point {negative : Bool} {whole places : List Char} (h : Binary64.Pointed whole places)
    {rest : List Char} (hrest : EndsValue rest) :
    number? (signed negative whole) ('.' :: (places ++ rest)) =
      (Binary64.ofDecimal? negative (Nat.ofDigitChars 10 (whole ++ places) 0) (-places.length)).map
        fun number => (.float number, rest) := by
  have hword : Scan.word? (places ++ rest) = some (places, rest) := by
    refine Scan.word?_append (fun c hc => ?_) h.places_ne_nil hrest.isWordChar_head?
    simp [Scan.isWordChar, Char.isAlphanum, h.places_isDigit c hc]
  have hrun := run?_digits h.whole_ne_nil h.whole_isDigit false fun _ => h.whole_of_zero
  have hmore := run?_digits h.places_ne_nil h.places_isDigit true fun hfalse => by cases hfalse
  rw [number?_signed h.whole_isDigit, Parts.after?_cons_self]
  simp only [Option.bind_eq_bind, hword, Option.bind_some, float?, sign_signed negative h.whole_isDigit, hrun, hmore,
    List.isEmpty_nil, if_true, exponent?, List.length_map, Int.zero_sub]
  rw [← List.map_append, ofDigits_eq_ofDigitChars]
  cases Binary64.ofDecimal? negative (Nat.ofDigitChars 10 (whole ++ places) 0) (-(places.length : Int)) <;> rfl

end LedSwitch.Toml.Number

namespace LedSwitch.Toml.Item

open Number Binary64

theorem readUpTo?_point (negative : Bool) {whole places : List Char} (h : Pointed whole places) {rest : List Char}
    (hrest : EndsValue rest) (fuel : Nat) :
    readUpTo? (fuel + 1) (signed negative (whole ++ '.' :: places) ++ rest) =
      (ofDecimal? negative (Nat.ofDigitChars 10 (whole ++ places) 0) (-places.length)).map
        fun number => (.plain (.float number), rest) := by
  have htext : signed negative (whole ++ '.' :: places) ++ rest =
      signed negative whole ++ '.' :: (places ++ rest) := by
    cases negative <;> simp [signed]
  have hsigned : signed negative whole ≠ [] := by
    cases negative with
    | true => simp [signed]
    | false => exact h.whole_ne_nil
  rw [htext, readUpTo?_word (fun c => isWordChar_of_mem_signed h.whole_isDigit) hsigned (by simp [Scan.isWordChar]),
    ofWord?_signed h.whole_ne_nil h.whole_isDigit (by simp), number?_point h hrest]
  simp [Function.comp_def]

/-- The words for what is no finite number are read as that. -/
theorem readUpTo?_special (negative : Bool) {rest : List Char} (hrest : EndsValue rest) (fuel : Nat) :
    readUpTo? (fuel + 1) ((if negative then ['-'] else []) ++ ['n', 'a', 'n'] ++ rest) =
        some (.plain (.float (notANumber negative)), rest) ∧
      readUpTo? (fuel + 1) ((if negative then ['-'] else []) ++ ['i', 'n', 'f'] ++ rest) =
        some (.plain (.float (infinity negative)), rest) := by
  have hcolon : Parts.after? ':' rest = none := Parts.after?_of_head?_ne (hrest.head?_ne (by decide))
  have hpoint : Parts.after? '.' rest = none := Parts.after?_of_head?_ne (hrest.head?_ne (by decide))
  -- None of the four words begins a date, and neither a colon nor a point follows it.
  cases negative
  all_goals
    constructor
    all_goals
      rw [readUpTo?_word (List.all_eq_true.1 rfl) (by decide) hrest.isWordChar_head?]
      simp [ofWord?, beginsDate, hasPair, number?, hcolon, hpoint]

/-- The text of a float is read as a float. -/
theorem readUpTo?_floatText (x : Binary64) {rest : List Char} (hrest : EndsValue rest) (fuel : Nat) :
    readUpTo? (fuel + 1) (x.text ++ rest) = some (.plain (.float x.reread), rest) := by
  have hsign : ∀ digits, (if x.isNegative then ['-'] else []) ++ digits = signed x.isNegative digits := by
    intro digits
    cases x.isNegative <;> rfl
  obtain ⟨hnan, hinf⟩ := readUpTo?_special x.isNegative hrest fuel
  by_cases hgreater : x.magnitude > infiniteMagnitude
  · simp only [Binary64.text, reread, if_pos hgreater]
    exact hnan
  · by_cases hequal : x.magnitude = infiniteMagnitude
    · simp only [Binary64.text, reread, if_neg hgreater, if_pos hequal]
      exact hinf
    · by_cases hzero : x.magnitude = 0
      · have hread := readUpTo?_point x.isNegative pointed_zero hrest fuel
        have hvalue : ofDecimal? x.isNegative (Nat.ofDigitChars 10 (['0'] ++ ['0']) 0) (-(['0'].length : Nat)) =
            some (ofMagnitude x.isNegative 0) := by
          simp [ofDecimal?, Nat.ofDigitChars_cons]
        rw [hvalue] at hread
        simp only [Binary64.text, reread, if_neg hgreater, if_neg hequal, if_pos hzero, hsign]
        exact hread
      · obtain ⟨hdigits, y, hy⟩ := ofDecimal?_shortest x (by omega) hzero
        obtain ⟨whole, places, htext, hpointed, hspelled⟩ := positional_eq_point hdigits x.shortest.2
        have hread := readUpTo?_point x.isNegative hpointed hrest fuel
        rw [← hspelled] at hy
        rw [hy] at hread
        simp only [Binary64.text, reread, if_neg hgreater, if_neg hequal, if_neg hzero, hsign, htext, hread,
          Option.map_some, ← hspelled, hy, Option.getD_some]

end LedSwitch.Toml.Item
