/-!
Binary floating-point numbers of 64 bits, as bit patterns: a sign, eleven bits of exponent and fifty-two bits of
fraction. `ofDecimal?` gives the number nearest to a decimal one, computed in whole numbers; of two that are
equally near it gives the one with an even fraction.
-/

namespace LedSwitch

/-- A 64-bit floating-point number by its bits. -/
structure Binary64 where
  bits : UInt64
  deriving DecidableEq, Repr

namespace Binary64

/-- The bit of the sign, as a number. -/
def signBit : Nat := Nat.pow 2 63

/-- The magnitude of infinity. All greater ones are no numbers. -/
def infiniteMagnitude : Nat := 2047 * Nat.pow 2 52

/-- The number with this sign and these lower bits. -/
def ofMagnitude (negative : Bool) (magnitude : Nat) : Binary64 :=
  ⟨UInt64.ofNat ((if negative then signBit else 0) + magnitude)⟩

/-- The positive or negative infinity. -/
def infinity (negative : Bool) : Binary64 := ofMagnitude negative infiniteMagnitude

/-- The quiet value that is no number, with either sign. -/
def notANumber (negative : Bool) : Binary64 := ofMagnitude negative (infiniteMagnitude + Nat.pow 2 51)

/-- Whether the sign bit is set. -/
def isNegative (x : Binary64) : Bool := signBit ≤ x.bits.toNat

/-- The bits other than the sign, as a number. -/
def magnitude (x : Binary64) : Nat := x.bits.toNat % signBit

/-- The whole number `mantissa` and the power of two by which the value of a finite number is
    `mantissa * 2 ^ power`, its sign aside. -/
def parts (x : Binary64) : Nat × Int :=
  let exponent : Nat := x.magnitude / Nat.pow 2 52
  let fraction : Nat := x.magnitude % Nat.pow 2 52
  if exponent = 0 then (fraction, -1074) else (Nat.pow 2 52 + fraction, (exponent : Int) - 1075)

/-- The whole number nearest to a quotient, the even one of two that are equally near. -/
def nearest (numerator denominator : Nat) : Nat :=
  let q := numerator / denominator
  let r := numerator % denominator
  if 2 * r < denominator ∨ 2 * r = denominator ∧ q % 2 = 0 then q else q + 1

/-- The quotient of two numbers divided by a power of two, as a quotient. -/
def scaleDown (numerator denominator : Nat) (power : Int) : Nat × Nat :=
  (numerator * Nat.pow 2 (-power).toNat, denominator * Nat.pow 2 power.toNat)

/-- The magnitude of the finite number nearest to a quotient, if the quotient is not too great for one.

    In the units of `2 ^ power` a normal number is a whole number of fifty-three binary places, and adding that
    number to the exponent field at its place carries into the field just when it has to. -/
def magnitudeOfRatio? (numerator denominator : Nat) : Option Nat :=
  if numerator = 0 then some 0
  else
    let lowPower := max ((numerator.log2 : Int) - denominator.log2 - 53) (-1074)
    let (n, d) := scaleDown numerator denominator lowPower
    let power := if n / d < Nat.pow 2 53 then lowPower else lowPower + 1
    let (n, d) := scaleDown numerator denominator power
    let magnitude := (power + 1074).toNat * Nat.pow 2 52 + nearest n d
    if magnitude < infiniteMagnitude then some magnitude else none

/-- How many decimal digits a number has. -/
def decimalLength (n : Nat) : Nat := (Nat.toDigits 10 n).length

/-- The finite number nearest to `digits * 10 ^ exponent`, with its sign. Numbers that are too great have
    none; the bounds on the exponent only keep the arithmetic small. -/
def ofDecimal? (negative : Bool) (digits : Nat) (exponent : Int) : Option Binary64 :=
  let leading := exponent + decimalLength digits
  if digits = 0 ∨ leading < -330 then some (ofMagnitude negative 0)
  else if leading > 310 then none
  else
    let magnitude := magnitudeOfRatio? (digits * Nat.pow 10 exponent.toNat) (Nat.pow 10 (-exponent).toNat)
    magnitude.map (ofMagnitude negative)

end Binary64

end LedSwitch
