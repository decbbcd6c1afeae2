import Mathlib.Data.List.DropRight
import Mathlib.Tactic.Common
import LedSwitch.Proofs.Toml.Parsed

/-!
Dates and times read back as they were written, once they were read at all. `DateTime.Readable` bounds the numbers
in a date or time; what is read has such numbers, and what has them reads back.
-/

namespace LedSwitch.Toml

/-- The numbers of a date are those that can be read. -/
def Date.Readable (d : Date) : Prop := d.year < 10 ^ 4 ∧ 1 ≤ d.month ∧ d.month ≤ 12 ∧ 1 ≤ d.day ∧ d.day ≤ 31

/-- The numbers of a time of day are those that can be read. -/
def Clock.Readable (t : Clock) : Prop := t.hour ≤ 24 ∧ t.minute ≤ 59 ∧ t.second ≤ 59 ∧ t.nanosecond < 10 ^ 9

/-- The numbers of an offset are those that can be read. -/
def Offset.Readable : Offset → Prop
  | .utc => True
  | .shifted hours minutes => hours.natAbs < 10 ^ 2 ∧ minutes < 10 ^ 2

namespace DateTime

/-- The numbers of a date or time are those that can be read. -/
def Readable : DateTime → Prop
  | .date d => d.Readable
  | .time t => t.Readable
  | .full d t offset => d.Readable ∧ t.Readable ∧ ∀ o ∈ offset, o.Readable

/-- Characters that are all digits. -/
def AllDigits (digits : List Char) : Prop := ∀ c ∈ digits, c.isDigit = true

theorem foldl_digits (digits : List Char) (value : Nat) :
    digits.foldl (fun value c => value * 10 + (c.toNat - '0'.toNat)) value = Nat.ofDigitChars 10 digits value := by
  simp only [Nat.ofDigitChars_eq_foldl, Nat.mul_comm]

theorem digitValue_lt {c : Char} (h : c.isDigit = true) : c.toNat - '0'.toNat < 10 := by
  simp only [Char.isDigit, Bool.and_eq_true, decide_eq_true_eq] at h
  have hle : c.toNat ≤ 57 := UInt32.le_iff_toNat_le.1 h.2
  have hzero : '0'.toNat = 48 := rfl
  omega

theorem ofDigitChars_lt {digits : List Char} (h : AllDigits digits) (value : Nat) :
    Nat.ofDigitChars 10 digits value < (value + 1) * 10 ^ digits.length := by
  induction digits generalizing value with
  | nil => simp
  | cons c rest ih =>
    have hc := digitValue_lt (h c List.mem_cons_self)
    have hrest := ih (fun d hd => h d (List.mem_cons_of_mem _ hd)) (10 * value + (c.toNat - '0'.toNat))
    rw [Nat.ofDigitChars_cons, List.length_cons, Nat.pow_succ']
    refine lt_of_lt_of_le hrest ?_
    rw [← Nat.mul_assoc]
    exact Nat.mul_le_mul_right _ (by omega)

/-- What is read as digits is a number of so many digits. -/
theorem digits?_lt {count value n : Nat} {text rest : List Char} (h : digits? count value text = some (n, rest)) :
    n < (value + 1) * 10 ^ count := by
  induction count generalizing value text with
  | zero =>
    obtain ⟨rfl, -⟩ := Prod.mk.injEq .. ▸ Option.some.inj h
    omega
  | succ count ih =>
    cases text with
    | nil => cases h
    | cons c text =>
      rw [digits?] at h
      split_ifs at h with hc
      have hvalue := digitValue_lt hc
      refine lt_of_lt_of_le (ih h) ?_
      rw [Nat.pow_succ', ← Nat.mul_assoc]
      exact Nat.mul_le_mul_right _ (by omega)

/-- So many digits are read as their number. -/
theorem digits?_append {digits : List Char} (h : AllDigits digits) (value : Nat) (rest : List Char) :
    digits? digits.length value (digits ++ rest) = some (Nat.ofDigitChars 10 digits value, rest) := by
  induction digits generalizing value with
  | nil => rfl
  | cons c digits ih =>
    rw [List.length_cons, List.cons_append, digits?, if_pos (h c List.mem_cons_self),
      ih (fun d hd => h d (List.mem_cons_of_mem _ hd)), Nat.ofDigitChars_cons, Nat.mul_comm]

theorem allDigits_padded (width n : Nat) : AllDigits (padded width n) := by
  intro c hc
  rcases List.mem_append.1 hc with hc | hc
  · rw [List.eq_of_mem_replicate hc]
    rfl
  · exact Nat.isDigit_of_mem_toDigits (by decide) (by decide) hc

theorem length_padded {width n : Nat} (hwidth : 0 < width) (h : n < 10 ^ width) : (padded width n).length = width := by
  have hlength := (Nat.length_toDigits_le_iff (by decide) hwidth).2 h
  simp only [padded, List.length_append, List.length_replicate]
  omega

theorem ofDigitChars_padded (width n : Nat) : Nat.ofDigitChars 10 (padded width n) 0 = n := by
  simp [padded, Nat.ofDigitChars_append, Nat.ofDigitChars_replicate_zero]

/-- A number that was written with so many digits is read back. -/
theorem digits?_padded {width n : Nat} (hwidth : 0 < width) (h : n < 10 ^ width) (rest : List Char) :
    digits? width 0 (padded width n ++ rest) = some (n, rest) := by
  have hread := digits?_append (allDigits_padded width n) 0 rest
  rwa [length_padded hwidth h, ofDigitChars_padded] at hread

/-- The digits of a fraction of a second, without zeros at its end. -/
def fractionDigits (nanosecond : Nat) : List Char := (padded 9 nanosecond).rdropWhile (· = '0')

theorem clockText_eq (t : Clock) : clockText t = padded 2 t.hour ++ ':' :: (padded 2 t.minute ++ ':' ::
    (padded 2 t.second ++ if (fractionDigits t.nanosecond).isEmpty then [] else '.' :: fractionDigits t.nanosecond)) := by
  simp [clockText, fractionDigits, List.rdropWhile]

/-- Only zeros are missing from a fraction. -/
theorem padded_eq_fractionDigits (nanosecond : Nat) :
    ∃ zeros, padded 9 nanosecond = fractionDigits nanosecond ++ List.replicate zeros '0' := by
  have hparts := congrArg List.reverse
    (List.takeWhile_append_dropWhile (p := fun c => decide (c = '0')) (l := (padded 9 nanosecond).reverse))
  rw [List.reverse_append, List.reverse_reverse] at hparts
  refine ⟨_, hparts.symm.trans (congrArg _ (List.eq_replicate_iff.2 ⟨rfl, fun c hc => ?_⟩))⟩
  simpa using List.mem_takeWhile_imp (List.mem_reverse.1 hc)

/-- What follows a time of day: no digit and no fraction. -/
def EndsClock (rest : List Char) : Prop := ∀ c ∈ rest.head?, c.isDigit = false ∧ c ≠ '.'

/-- A fraction is read back. -/
theorem fraction?_fractionDigits {nanosecond : Nat} (h : nanosecond < 10 ^ 9) {rest : List Char} (hrest : EndsClock rest) :
    fraction? ((if (fractionDigits nanosecond).isEmpty then [] else '.' :: fractionDigits nanosecond) ++ rest) =
      some (nanosecond, rest) := by
  obtain ⟨zeros, hpadded⟩ := padded_eq_fractionDigits nanosecond
  have hnumber := ofDigitChars_padded 9 nanosecond
  have hlength := length_padded (by decide) h
  have hdigits := allDigits_padded 9 nanosecond
  rw [hpadded] at hnumber hlength hdigits
  generalize fractionDigits nanosecond = digits at hnumber hlength hdigits ⊢
  cases hempty : digits.isEmpty with
  | true =>
    obtain rfl := List.isEmpty_iff.1 hempty
    have hdot : Parts.after? '.' rest = none := Parts.after?_of_head?_ne fun hhead => (hrest '.' hhead).2 rfl
    have hzero : 0 = nanosecond := by simpa [Nat.ofDigitChars_replicate_zero] using hnumber
    simp [fraction?, hdot, hzero]
  | false =>
    have hall : ∀ c ∈ digits, c.isDigit = true := fun c hc => hdigits c (List.mem_append_left _ hc)
    have htake : rest.takeWhile Char.isDigit = [] := by
      cases rest with
      | nil => rfl
      | cons c rest => simp [(hrest c rfl).1]
    have hdrop : rest.dropWhile Char.isDigit = rest := by
      cases rest with
      | nil => rfl
      | cons c rest => simp [(hrest c rfl).1]
    have hnine : (digits ++ List.replicate 9 '0').take 9 = digits ++ List.replicate zeros '0' := by
      rw [List.length_append, List.length_replicate] at hlength
      rw [List.take_append, List.take_of_length_le (by omega), List.take_replicate]
      congr 2
      omega
    simp only [Bool.false_eq_true, if_false, List.cons_append, fraction?, Parts.after?_cons_self,
      List.takeWhile_append_of_pos hall, List.dropWhile_append_of_pos hall, htake, hdrop, List.append_nil, hempty, hnine,
      foldl_digits, hnumber]

/-- A time of day is read back. -/
theorem clock?_clockText {t : Clock} (h : t.Readable) {rest : List Char} (hrest : EndsClock rest) :
    clock? (clockText t ++ rest) = some (t, rest) := by
  obtain ⟨hhour, hminute, hsecond, hnanosecond⟩ := h
  have htwo : ∀ {n rest}, n ≤ 59 → digits? 2 0 (padded 2 n ++ rest) = some (n, rest) := fun hn =>
    digits?_padded (by decide) (by omega) _
  simp only [clockText_eq, List.append_assoc, List.cons_append, clock?, htwo (show t.hour ≤ 59 by omega), htwo hminute,
    htwo hsecond, Option.bind_eq_bind, Option.bind_some, Parts.after?_cons_self,
    fraction?_fractionDigits hnanosecond hrest]
  exact if_pos ⟨hhour, hminute, hsecond⟩

theorem offset?_offsetText {offset : Option Offset} (h : ∀ o ∈ offset, o.Readable) :
    offset? (offsetText offset) = some offset := by
  match offset with
  | none => rfl
  | some .utc => rfl
  | some (.shifted hours minutes) =>
    obtain ⟨hhours, hminutes⟩ : hours.natAbs < 10 ^ 2 ∧ minutes < 10 ^ 2 := h _ rfl
    have hread := digits?_padded (by decide) hhours (':' :: padded 2 minutes)
    have hread' := digits?_padded (by decide) hminutes []
    rw [List.append_nil] at hread'
    have habs : (if hours < 0 then -(hours.natAbs : Int) else hours.natAbs) = hours := by
      split_ifs <;> omega
    by_cases hsign : hours < 0
    · rw [if_pos hsign] at habs
      simp only [offsetText, hsign, if_true, List.cons_append, offset?, hread, hread', Option.bind_eq_bind,
        Option.bind_some, Parts.after?_cons_self, habs]
      rfl
    · rw [if_neg hsign] at habs
      simp only [offsetText, hsign, if_false, List.cons_append, offset?, hread, hread', Option.bind_eq_bind,
        Option.bind_some, Parts.after?_cons_self, habs]
      rfl

theorem date?_dateText {d : Date} (h : d.Readable) (rest : List Char) :
    date? (dateText d ++ rest) = some (d, rest) := by
  obtain ⟨hyear, hmonth, hmonth', hday, hday'⟩ := h
  have htwo : ∀ {n rest}, n ≤ 31 → digits? 2 0 (padded 2 n ++ rest) = some (n, rest) := fun hn =>
    digits?_padded (by decide) (by omega) _
  simp only [dateText, List.append_assoc, List.cons_append, date?, digits?_padded (show 0 < 4 by decide) hyear,
    htwo (show d.month ≤ 31 by omega), htwo hday', Option.bind_eq_bind, Option.bind_some, Parts.after?_cons_self,
    hmonth, hmonth', hday, hday', and_self, if_true]

/-- The third character tells a date from a time of day. -/
theorem dateText_third (d : Date) (h : d.Readable) (rest : List Char) : (dateText d ++ rest)[2]? ≠ some ':' := by
  intro hcolon
  have hlength := length_padded (show 0 < 4 by decide) h.1
  have hyear : (dateText d ++ rest)[2]? = (padded 4 d.year)[2]? := by
    rw [dateText, List.append_assoc, List.append_assoc, List.getElem?_append_left (by omega)]
  rw [hyear] at hcolon
  have hdigit := allDigits_padded 4 d.year ':' (List.mem_of_getElem? hcolon)
  cases hdigit

theorem clockText_third (t : Clock) (h : t.Readable) : (clockText t)[2]? = some ':' := by
  have hlength : (padded 2 t.hour).length = 2 := by
    have hhour := h.1
    exact length_padded (by decide) (by omega)
  rw [clockText_eq, List.getElem?_append_right (by omega), hlength]
  rfl

/-- A date or time that is readable is read back. -/
theorem ofText?_text {m : DateTime} (h : m.Readable) : ofText? m.text = some m := by
  cases m with
  | date d =>
    have hdate := date?_dateText h []
    have hthird := dateText_third d h []
    rw [List.append_nil] at hdate hthird
    simp [ofText?, text, hthird, hdate]
  | time t =>
    have hclock := clock?_clockText h (show EndsClock [] by simp [EndsClock])
    rw [List.append_nil] at hclock
    simp [ofText?, text, clockText_third t h, hclock]
  | full d t offset =>
    obtain ⟨hdate, hclock, hoffset⟩ := h
    have hends : EndsClock (offsetText offset) := by
      match offset with
      | none => simp [EndsClock, offsetText]
      | some .utc => simp [EndsClock, offsetText]
      | some (.shifted hours _) => by_cases hsign : hours < 0 <;> simp [EndsClock, offsetText, hsign]
    have hthird := dateText_third d hdate ('T' :: (clockText t ++ offsetText offset))
    have hdate' := date?_dateText hdate ('T' :: (clockText t ++ offsetText offset))
    simp only [ofText?, text, List.append_assoc, List.cons_append, hthird, if_false, hdate', Option.bind_eq_bind,
      Option.bind_some, true_or, if_true, clock?_clockText hclock hends, offset?_offsetText hoffset, Option.map_some]

/-- The numbers of a time of day that was read. -/
theorem readable_of_clock? {text rest : List Char} {t : Clock} (h : clock? text = some (t, rest)) : t.Readable := by
  simp only [clock?, Option.bind_eq_bind, Option.bind_eq_some_iff] at h
  obtain ⟨⟨hour, text⟩, -, _, -, ⟨minute, text⟩, -, _, -, ⟨second, text⟩, -, ⟨nanosecond, text⟩, hfraction, h⟩ := h
  split_ifs at h with hbounds
  obtain ⟨rfl, -⟩ := Prod.mk.injEq .. ▸ Option.some.inj h
  refine ⟨hbounds.1, hbounds.2.1, hbounds.2.2, ?_⟩
  rw [fraction?] at hfraction
  split at hfraction
  · obtain ⟨rfl, -⟩ := Prod.mk.injEq .. ▸ Option.some.inj hfraction
    exact Nat.pow_pos (by decide)
  · rename_i _ digits _
    simp only at hfraction
    split_ifs at hfraction
    obtain ⟨rfl, -⟩ := Prod.mk.injEq .. ▸ Option.some.inj hfraction
    have hall : AllDigits ((digits.takeWhile Char.isDigit ++ List.replicate 9 '0').take 9) := by
      intro c hc
      rcases List.mem_append.1 (List.mem_of_mem_take hc) with hc | hc
      · exact List.mem_takeWhile_imp hc
      · rw [List.eq_of_mem_replicate hc]
        rfl
    have hlt := ofDigitChars_lt hall 0
    rw [foldl_digits]
    simpa using hlt

/-- The numbers of a date that was read. -/
theorem readable_of_date? {text rest : List Char} {d : Date} (h : date? text = some (d, rest)) : d.Readable := by
  simp only [date?, Option.bind_eq_bind, Option.bind_eq_some_iff] at h
  obtain ⟨⟨year, text⟩, hyear, _, -, ⟨month, text⟩, -, _, -, ⟨day, text⟩, -, h⟩ := h
  split_ifs at h with hbounds
  obtain ⟨rfl, -⟩ := Prod.mk.injEq .. ▸ Option.some.inj h
  exact ⟨by simpa using digits?_lt hyear, hbounds⟩

/-- The numbers of an offset that was read. -/
theorem readable_of_offset? {text : List Char} {offset : Option Offset} (h : offset? text = some offset) :
    ∀ o ∈ offset, o.Readable := by
  cases text with
  | nil =>
    obtain rfl := Option.some.inj h
    simp
  | cons sign text =>
    rw [offset?] at h
    by_cases hzulu : sign = 'Z' ∨ sign = 'z'
    · rw [if_pos hzulu] at h
      split_ifs at h
      obtain rfl := Option.some.inj h
      simp [Offset.Readable]
    · rw [if_neg hzulu] at h
      by_cases hsign : sign = '+' ∨ sign = '-'
      · rw [if_pos hsign] at h
        simp only [Option.bind_eq_bind, Option.bind_eq_some_iff] at h
        obtain ⟨⟨hours, text⟩, hhours, _, -, ⟨minutes, text⟩, hminutes, h⟩ := h
        have hhours := digits?_lt hhours
        have hminutes := digits?_lt hminutes
        rw [ite_eq_iff] at h
        obtain ⟨-, h⟩ | ⟨-, h⟩ := h
        · obtain rfl := Option.some.inj h
          rintro o ⟨⟩
          refine ⟨?_, by simpa using hminutes⟩
          split_ifs <;> simpa using hhours
        · cases h
      · rw [if_neg hsign] at h
        cases h

/-- What is read as a date or time is readable. -/
theorem readable_of_ofText? {text : List Char} {m : DateTime} (h : ofText? text = some m) : m.Readable := by
  rw [ofText?] at h
  split_ifs at h
  · simp only [Option.bind_eq_bind, Option.bind_eq_some_iff] at h
    obtain ⟨⟨t, text⟩, hclock, h⟩ := h
    split_ifs at h
    obtain rfl := Option.some.inj h
    exact readable_of_clock? hclock
  · simp only [Option.bind_eq_bind, Option.bind_eq_some_iff] at h
    obtain ⟨⟨d, text⟩, hdate, h⟩ := h
    cases text with
    | nil =>
      obtain rfl := Option.some.inj h
      exact readable_of_date? hdate
    | cons c text =>
      simp only at h
      split_ifs at h
      simp only [Option.bind_eq_some_iff] at h
      obtain ⟨⟨t, text⟩, hclock, h⟩ := h
      obtain ⟨offset, hoffset, rfl⟩ := Option.map_eq_some_iff.1 h
      exact ⟨readable_of_date? hdate, readable_of_clock? hclock, readable_of_offset? hoffset⟩

end DateTime

/-- Dates and times that are read are spelled by their texts. -/
theorem parsed_momentSpelled : Parsed Value.MomentSpelled where
  boolean _ := trivial
  integer _ := trivial
  float _ := trivial
  string _ := trivial
  moment _ _ h := DateTime.ofText?_text (DateTime.readable_of_ofText? h)
  array _ := trivial
  table _ _ := trivial

end LedSwitch.Toml
