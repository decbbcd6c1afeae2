import Mathlib.Tactic.Common
import Mathlib.Tactic.Ring
import LedSwitch.Decimal.Shortest

/-!
Reading the shortest decimal of a finite number never overflows. Decimals below `overflow`, half a place above the
greatest finite number, are read as finite (`Binary64.ofDecimal?_isSome`), and a decimal in the interval of a finite
number lies below that (`Binary64.shortest_lt_overflow`).
-/

namespace LedSwitch.Binary64

/-- The least number that is read as too great. -/
@[irreducible] def overflow : Nat := (2 ^ 54 - 1) * 2 ^ 970

theorem nearest_le {n d k : Nat} (h : 2 * n < (2 * k + 1) * d) : nearest n d ≤ k := by
  have hsplit : d * (n / d) + n % d = n := Nat.div_add_mod n d
  by_contra hgreat
  have hbound : (2 * k + 1) * d = 2 * (d * k) + d := by ring
  simp only [nearest] at hgreat
  split_ifs at hgreat with hdown
  · have hmul : d * (k + 1) ≤ d * (n / d) := Nat.mul_le_mul_left d (by omega)
    rw [Nat.mul_add] at hmul
    omega
  · have hmul : d * k ≤ d * (n / d) := Nat.mul_le_mul_left d (by omega)
    omega

theorem scaleDown_natCast (n d power : Nat) : scaleDown n d power = (n, d * 2 ^ power) := by
  simp [scaleDown]

/-- A quotient divided by one more power of two is half as great. -/
theorem scaleDown_succ {n d bound : Nat} {power : Int} (h : (scaleDown n d power).1 < 2 * bound * (scaleDown n d power).2) :
    (scaleDown n d (power + 1)).1 < bound * (scaleDown n d (power + 1)).2 := by
  simp only [scaleDown, Nat.pow_eq] at h ⊢
  by_cases hpower : 0 ≤ power
  · have hdown : (-power).toNat = 0 := by omega
    have hdown' : (-(power + 1)).toNat = 0 := by omega
    have hup : (power + 1).toNat = power.toNat + 1 := by omega
    rw [hdown] at h
    rw [hdown', hup, Nat.pow_succ]
    calc n * 2 ^ 0 < 2 * bound * (d * 2 ^ power.toNat) := h
      _ = bound * (d * (2 ^ power.toNat * 2)) := by ring
  · have hup : power.toNat = 0 := by omega
    have hup' : (power + 1).toNat = 0 := by omega
    have hdown : (-power).toNat = (-(power + 1)).toNat + 1 := by omega
    rw [hup, hdown, Nat.pow_succ] at h
    rw [hup']
    have hdouble : 2 * (n * 2 ^ (-(power + 1)).toNat) < 2 * (bound * (d * 2 ^ 0)) := by
      calc 2 * (n * 2 ^ (-(power + 1)).toNat) = n * (2 ^ (-(power + 1)).toNat * 2) := by ring
        _ < 2 * bound * (d * 2 ^ 0) := h
        _ = 2 * (bound * (d * 2 ^ 0)) := by ring
    omega

/-- Divided by the power of two by which a quotient is scaled first, it has at most fifty-four places. -/
theorem scaleDown_lt {n d : Nat} (hd : d ≠ 0) {power : Int} (hpower : (n.log2 : Int) - d.log2 - 53 ≤ power) :
    (scaleDown n d power).1 < 2 ^ 54 * (scaleDown n d power).2 := by
  simp only [scaleDown, Nat.pow_eq]
  have hn : n < 2 ^ (n.log2 + 1) := Nat.lt_log2_self
  have hlow : 2 ^ d.log2 ≤ d := Nat.log2_self_le hd
  calc n * 2 ^ (-power).toNat < 2 ^ (n.log2 + 1) * 2 ^ (-power).toNat :=
        Nat.mul_lt_mul_of_pos_right hn (Nat.two_pow_pos _)
    _ = 2 ^ (n.log2 + 1 + (-power).toNat) := (Nat.pow_add ..).symm
    _ ≤ 2 ^ (54 + (d.log2 + power.toNat)) := Nat.pow_le_pow_right (by decide) (by omega)
    _ = 2 ^ 54 * (2 ^ d.log2 * 2 ^ power.toNat) := by rw [Nat.pow_add, Nat.pow_add]
    _ ≤ 2 ^ 54 * (d * 2 ^ power.toNat) := Nat.mul_le_mul_left _ (Nat.mul_le_mul_right _ hlow)

/-- A quotient below the bound has a finite number nearest to it. -/
theorem magnitudeOfRatio?_isSome {n d : Nat} (hd : d ≠ 0) (h : n < overflow * d) : (magnitudeOfRatio? n d).isSome := by
  rw [magnitudeOfRatio?]
  split_ifs with hn
  · rfl
  generalize hlow : max ((n.log2 : Int) - d.log2 - 53) (-1074) = lowPower
  have hlower : (n.log2 : Int) - d.log2 - 53 ≤ lowPower ∧ -1074 ≤ lowPower := by omega
  have hsize : n.log2 < d.log2 + 1025 := by
    have hpow : 2 ^ n.log2 < 2 ^ (d.log2 + 1025) := by
      calc 2 ^ n.log2 ≤ n := Nat.log2_self_le hn
        _ < overflow * d := h
        _ ≤ 2 ^ 1024 * 2 ^ (d.log2 + 1) := Nat.mul_le_mul (by decide +kernel) (Nat.le_of_lt Nat.lt_log2_self)
        _ = 2 ^ (d.log2 + 1025) := by rw [← Nat.pow_add]; congr 1; omega
    exact (Nat.pow_lt_pow_iff_right (by decide)).1 hpow
  generalize hchoice : (if (scaleDown n d lowPower).1 / (scaleDown n d lowPower).2 < 2 ^ 53 then lowPower
    else lowPower + 1) = power
  have hpositive : ∀ power, 0 < (scaleDown n d power).2 := fun power =>
    Nat.mul_pos (Nat.pos_of_ne_zero hd) (Nat.two_pow_pos _)
  have hplaces : (scaleDown n d power).1 < 2 ^ 53 * (scaleDown n d power).2 := by
    split_ifs at hchoice with hfits
    · rw [← hchoice]
      exact (Nat.div_lt_iff_lt_mul (hpositive _)).1 hfits
    · rw [← hchoice]
      exact scaleDown_succ (scaleDown_lt hd hlower.1)
  have hpower : power ≤ 971 := by
    split_ifs at hchoice with hfits
    · omega
    · by_contra hgreat
      obtain rfl : lowPower = (971 : Nat) := by omega
      refine hfits ((Nat.div_lt_iff_lt_mul (hpositive _)).2 ?_)
      rw [scaleDown_natCast]
      calc n < overflow * d := h
        _ ≤ 2 ^ 53 * 2 ^ 971 * d := Nat.mul_le_mul_right d (by decide +kernel)
        _ = 2 ^ 53 * (d * 2 ^ 971) := by rw [Nat.mul_assoc, Nat.mul_comm (2 ^ 971) d]
  have hfinite : (power + 1074).toNat * 2 ^ 52 + nearest (scaleDown n d power).1 (scaleDown n d power).2 <
      infiniteMagnitude := by
    rw [infiniteMagnitude, Nat.pow_eq]
    by_cases hlast : power = (971 : Nat)
    · have hhalf : (2 * (2 ^ 53 - 1) + 1) * (d * 2 ^ 971) = 2 * (overflow * d) := by
        have hpow : (2 * (2 ^ 53 - 1) + 1) * 2 ^ 971 = 2 * overflow := by decide +kernel
        rw [Nat.mul_comm d, ← Nat.mul_assoc, hpow, Nat.mul_assoc]
      have hrounded : nearest n (d * 2 ^ 971) ≤ 2 ^ 53 - 1 := nearest_le (by omega)
      rw [hlast, scaleDown_natCast]
      simp only
      omega
    · have hrounded : nearest (scaleDown n d power).1 (scaleDown n d power).2 ≤ 2 ^ 53 :=
        nearest_le (by omega)
      omega
  simp only [Nat.pow_eq, hchoice, hfinite, if_true, Option.isSome_some]

/-- A decimal below the bound is read as a finite number. -/
theorem ofDecimal?_isSome (negative : Bool) {digits : Nat} {exponent : Int}
    (h : digits * 10 ^ exponent.toNat < overflow * 10 ^ (-exponent).toNat) :
    (ofDecimal? negative digits exponent).isSome := by
  rw [ofDecimal?]
  split_ifs with hzero hgreat
  · rfl
  · exfalso
    rw [not_or] at hzero
    generalize hlength : decimalLength digits = length at hgreat
    have hlow : 10 ^ (length - 1) ≤ digits := by
      by_cases hone : length - 1 = 0
      · rw [hone]
        omega
      · by_contra hless
        have hshort := (Nat.length_toDigits_le_iff (b := 10) (by decide) (Nat.pos_of_ne_zero hone)).2 (Nat.not_le.1 hless)
        rw [← hlength, decimalLength] at hshort hone
        omega
    have hbound : 10 ^ (length - 1 + exponent.toNat) < 10 ^ (309 + (-exponent).toNat) := by
      calc 10 ^ (length - 1 + exponent.toNat) = 10 ^ (length - 1) * 10 ^ exponent.toNat := Nat.pow_add ..
        _ ≤ digits * 10 ^ exponent.toNat := Nat.mul_le_mul_right _ hlow
        _ < overflow * 10 ^ (-exponent).toNat := h
        _ ≤ 10 ^ 309 * 10 ^ (-exponent).toNat := Nat.mul_le_mul_right _ (by decide +kernel)
        _ = 10 ^ (309 + (-exponent).toNat) := by rw [Nat.pow_add]
    have hplaces := (Nat.pow_lt_pow_iff_right (by decide)).1 hbound
    omega
  · have hratio := magnitudeOfRatio?_isSome (n := digits * 10 ^ exponent.toNat) (d := 10 ^ (-exponent).toNat)
      (Nat.pos_iff_ne_zero.1 (Nat.pow_pos (by decide))) h
    rwa [Option.isSome_map]

/-- The parts of a finite number. -/
theorem parts_bounds (x : Binary64) (hfinite : x.magnitude < infiniteMagnitude) (hne : x.magnitude ≠ 0) :
    x.parts.1 ≠ 0 ∧ x.parts.1 < 2 ^ 53 ∧ -1074 ≤ x.parts.2 ∧ x.parts.2 ≤ 971 ∧
      (x.parts.1 < 2 ^ 52 → x.parts.2 = -1074) := by
  rw [infiniteMagnitude, Nat.pow_eq] at hfinite
  have hsplit := Nat.div_add_mod x.magnitude (2 ^ 52)
  have hfraction := Nat.mod_lt x.magnitude (Nat.two_pow_pos 52)
  rw [parts, Nat.pow_eq]
  split_ifs with hexponent <;> omega

namespace Interval

/-- The multiple of a power of ten that is found lies in the interval. -/
theorem holds_of_nearest? {i : Interval} {exponent : Int} {digits : Nat} (h : i.nearest? exponent = some digits) :
    i.holds (digits * (10 ^ exponent.toNat * i.denominator)) (10 ^ (-exponent).toNat * i.numerator) = true := by
  simp only [nearest?, Nat.pow_eq] at h
  split at h
  · rename_i hbelow habove
    split_ifs at h <;> obtain rfl := Option.some.inj h <;> assumption
  · rename_i hbelow _
    obtain rfl := Option.some.inj h
    exact hbelow
  · rename_i _ habove
    obtain rfl := Option.some.inj h
    exact habove
  · cases h

theorem bounds_of_holds {i : Interval} {n d : Nat} (h : i.holds n d = true) :
    i.low * d ≤ n ∧ n ≤ i.high * d ∧ (i.closed = false → n < i.high * d) := by
  rw [holds] at h
  split_ifs at h with hclosed <;> simp only [decide_eq_true_eq] at h
  · exact ⟨h.1, h.2, fun hopen => by simp [hopen] at hclosed⟩
  · exact ⟨Nat.le_of_lt h.1, Nat.le_of_lt h.2, fun _ => h.2⟩

/-- A power of ten no greater than a unit has a multiple in the interval. -/
theorem nearest?_isSome {i : Interval} {exponent : Int} (hlow : i.low < i.value) (hhigh : i.value < i.high)
    (hunit : 10 ^ exponent.toNat * i.denominator ≤ 10 ^ (-exponent).toNat * i.numerator)
    (hpos : 0 < 10 ^ exponent.toNat * i.denominator) : (i.nearest? exponent).isSome := by
  have hholds : i.holds (i.value * (10 ^ (-exponent).toNat * i.numerator) / (10 ^ exponent.toNat * i.denominator) *
      (10 ^ exponent.toNat * i.denominator)) (10 ^ (-exponent).toNat * i.numerator) = true := by
    generalize 10 ^ exponent.toNat * i.denominator = n at hunit hpos
    generalize 10 ^ (-exponent).toNat * i.numerator = d at hunit
    have hsplit := Nat.div_add_mod (i.value * d) n
    have hrest := Nat.mod_lt (i.value * d) hpos
    have hbelow : (i.low + 1) * d ≤ i.value * d := Nat.mul_le_mul_right d hlow
    have habove : (i.value + 1) * d ≤ i.high * d := Nat.mul_le_mul_right d hhigh
    rw [Nat.add_mul, Nat.one_mul] at hbelow habove
    rw [Nat.mul_comm n] at hsplit
    unfold holds
    split_ifs <;> simp only [decide_eq_true_eq] <;> omega
  simp only [nearest?, Nat.pow_eq]
  rw [hholds]
  split <;> simp_all

/-- The search finds a decimal if there is one on its way. -/
theorem nearest?_search {i : Interval} {fuel : Nat} {exponent : Int} (steps : Nat) (hsteps : steps < fuel)
    (h : (i.nearest? (exponent - steps)).isSome) :
    i.nearest? (i.search fuel exponent).2 = some (i.search fuel exponent).1 := by
  induction fuel generalizing exponent steps with
  | zero => omega
  | succ fuel ih =>
    rw [search]
    cases hfound : i.nearest? exponent with
    | some digits => exact hfound
    | none =>
      cases steps with
      | zero => simp [hfound] at h
      | succ steps =>
        refine ih steps (by omega) ?_
        rwa [show exponent - 1 - (steps : Int) = exponent - ((steps + 1 : Nat) : Int) by omega]

end Interval

/-- Twenty-two places below the greatest one of a number a power of ten is no greater than a quarter of its last
    binary place. -/
theorem unit_le_quarter : ∀ i < (2046 : Nat),
    10 ^ ((53 + ((i : Int) - 1074)) * 30103 / 100000 - 22).toNat * 2 ^ (2 - ((i : Int) - 1074)).toNat ≤
      10 ^ (-((53 + ((i : Int) - 1074)) * 30103 / 100000 - 22)).toNat * 2 ^ (((i : Int) - 1074) - 2).toNat := by
  decide +kernel

/-- A quarter of the last binary place is at least the power of ten at which the search for a decimal ends. -/
theorem last_le_quarter {mantissa : Nat} {power : Int} (hmantissa : mantissa ≠ 0) (hplaces : mantissa < 2 ^ 53)
    (hlow : -1074 ≤ power) (hhigh : power ≤ 971) (hsubnormal : mantissa < 2 ^ 52 → power = -1074) :
    10 ^ (((mantissa.log2 : Int) + 1 + power) * 30103 / 100000 + 2 - (24 : Nat)).toNat * 2 ^ (2 - power).toNat ≤
      10 ^ (-(((mantissa.log2 : Int) + 1 + power) * 30103 / 100000 + 2 - (24 : Nat))).toNat * 2 ^ (power - 2).toNat := by
  by_cases hnormal : mantissa < 2 ^ 52
  · obtain rfl := hsubnormal hnormal
    have hlog : mantissa.log2 < 52 := (Nat.log2_lt hmantissa).2 hnormal
    have hup : (((mantissa.log2 : Int) + 1 + -1074) * 30103 / 100000 + 2 - (24 : Nat)).toNat = 0 := by omega
    have hdown : 330 ≤ (-(((mantissa.log2 : Int) + 1 + -1074) * 30103 / 100000 + 2 - (24 : Nat))).toNat := by omega
    rw [hup]
    calc 10 ^ 0 * 2 ^ (2 - -1074 : Int).toNat ≤ 10 ^ 330 * 2 ^ (-1074 - 2 : Int).toNat := by decide +kernel
      _ ≤ _ := Nat.mul_le_mul_right _ (Nat.pow_le_pow_right (by decide) hdown)
  · have hlog : mantissa.log2 = 52 := by
      rw [Nat.log2_eq_iff hmantissa]
      omega
    have hunit := unit_le_quarter (power + 1074).toNat (by omega)
    have hindex : (((power + 1074).toNat : Nat) : Int) - 1074 = power := by omega
    have hexponent : ((mantissa.log2 : Int) + 1 + power) * 30103 / 100000 + 2 - (24 : Nat) =
        (53 + power) * 30103 / 100000 - 22 := by omega
    rw [hindex] at hunit
    rwa [hexponent]

theorem shortest_eq (x : Binary64) :
    x.shortest = x.interval.search 25 (((x.parts.1.log2 : Int) + 1 + x.parts.2) * 30103 / 100000 + 2) := by
  rw [shortest]

/-- The interval of a finite number other than zero has a decimal on the way of the search for it. -/
theorem nearest?_shortest (x : Binary64) (hfinite : x.magnitude < infiniteMagnitude) (hne : x.magnitude ≠ 0) :
    x.interval.nearest? x.shortest.2 = some x.shortest.1 := by
  obtain ⟨hmantissa, hplaces, hlow, hhigh, hsubnormal⟩ := parts_bounds x hfinite hne
  rw [shortest_eq]
  refine Interval.nearest?_search 24 (by decide) (Interval.nearest?_isSome ?_ ?_ ?_ ?_)
  · simp only [interval]
    split_ifs <;> omega
  · simp only [interval]
    omega
  · exact last_le_quarter hmantissa hplaces hlow hhigh hsubnormal
  · exact Nat.mul_pos (Nat.pow_pos (by decide)) (Nat.two_pow_pos _)

/-- The shortest decimal of a finite number other than zero is no zero and does not overflow. -/
theorem shortest_lt_overflow (x : Binary64) (hfinite : x.magnitude < infiniteMagnitude) (hne : x.magnitude ≠ 0) :
    x.shortest.1 ≠ 0 ∧ x.shortest.1 * 10 ^ x.shortest.2.toNat < overflow * 10 ^ (-x.shortest.2).toNat := by
  obtain ⟨hmantissa, hplaces, hlow, hhigh, -⟩ := parts_bounds x hfinite hne
  obtain ⟨hleast, hgreatest, hopen⟩ := Interval.bounds_of_holds
    (Interval.holds_of_nearest? (nearest?_shortest x hfinite hne))
  have hlowest : 2 ≤ x.interval.low := by
    simp only [interval]
    split_ifs <;> omega
  have hhighest : x.interval.high = 4 * x.parts.1 + 2 := rfl
  have hclosed : x.interval.closed = decide (x.parts.1 % 2 = 0) := rfl
  have hunit : x.interval.numerator ≤ 2 ^ 969 * x.interval.denominator := by
    simp only [interval, Nat.pow_eq]
    rw [← Nat.pow_add]
    exact Nat.pow_le_pow_right (by decide) (by omega)
  have hnumerator : 0 < x.interval.numerator := Nat.two_pow_pos _
  have hdown : 0 < 10 ^ (-x.shortest.2).toNat := Nat.pow_pos (by decide)
  generalize x.shortest.1 = digits at *
  generalize 10 ^ x.shortest.2.toNat = up at *
  generalize 10 ^ (-x.shortest.2).toNat = down at *
  generalize x.interval.numerator = numerator at *
  generalize x.interval.denominator = denominator at *
  have hpositive := Nat.mul_pos hdown hnumerator
  have habove : digits * (up * denominator) < (2 ^ 55 - 2) * (down * numerator) := by
    rw [hhighest] at hgreatest hopen
    by_cases hlast : x.parts.1 = 2 ^ 53 - 1
    · have hstrict := hopen (by simp [hclosed, hlast])
      rwa [hlast] at hstrict
    · exact Nat.lt_of_le_of_lt hgreatest (Nat.mul_lt_mul_of_pos_right (by omega) hpositive)
  refine ⟨?_, ?_⟩
  · rintro rfl
    have hleast' : 2 * (down * numerator) ≤ x.interval.low * (down * numerator) := Nat.mul_le_mul_right _ hlowest
    omega
  · refine Nat.lt_of_mul_lt_mul_right (a := denominator) ?_
    calc digits * up * denominator = digits * (up * denominator) := Nat.mul_assoc ..
      _ < (2 ^ 55 - 2) * (down * numerator) := habove
      _ ≤ (2 ^ 55 - 2) * (down * (2 ^ 969 * denominator)) := Nat.mul_le_mul_left _ (Nat.mul_le_mul_left _ hunit)
      _ = (2 ^ 55 - 2) * 2 ^ 969 * down * denominator := by
        rw [Nat.mul_left_comm down, ← Nat.mul_assoc, ← Nat.mul_assoc]
      _ = overflow * down * denominator := by
        have hoverflow : (2 ^ 55 - 2) * 2 ^ 969 = overflow := by decide +kernel
        rw [hoverflow]

end LedSwitch.Binary64
