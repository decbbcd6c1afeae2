import LedSwitch.Decimal.Binary64

/-!
The decimal text of a floating-point number: the fewest digits that read back as the same number, of those the
nearest to it, and of two equally near ones the greater. The text is positional, never with an exponent, and a
whole number keeps `.0`.
-/

namespace LedSwitch.Binary64

/-- The numbers that read back as one number, in whole units: those from `low` to `high`. The number itself is
    `value`, and the unit is `numerator / denominator`. -/
structure Interval where
  low : Nat
  value : Nat
  high : Nat
  /-- Whether the ends read back as well. -/
  closed : Bool
  numerator : Nat
  denominator : Nat

/-- The interval of a finite number, in quarters of its last binary place. Below a power of two the neighbour is
    only half as far away, and an end belongs to the number with the even mantissa. -/
def interval (x : Binary64) : Interval :=
  let (mantissa, power) := x.parts
  let narrow := mantissa = Nat.pow 2 52 ∧ power > -1074
  { low := 4 * mantissa - (if narrow then 1 else 2)
    value := 4 * mantissa
    high := 4 * mantissa + 2
    closed := mantissa % 2 = 0
    numerator := Nat.pow 2 (power - 2).toNat
    denominator := Nat.pow 2 (2 - power).toNat }

/-- Whether `n / d`, in units of the interval, lies in it. -/
def Interval.holds (i : Interval) (n d : Nat) : Bool :=
  if i.closed then i.low * d ≤ n ∧ n ≤ i.high * d else i.low * d < n ∧ n < i.high * d

/-- The multiple of `10 ^ exponent` in the interval that is nearest to its number, if there is one; a tie goes to
    the greater. -/
def Interval.nearest? (i : Interval) (exponent : Int) : Option Nat :=
  -- a multiple `k` of the power is `k * n / d` units
  let n := Nat.pow 10 exponent.toNat * i.denominator
  let d := Nat.pow 10 (-exponent).toNat * i.numerator
  let below := i.value * d / n
  let above := below + 1
  match i.holds (below * n) d, i.holds (above * n) d with
  | true, true => some (if i.value * d - below * n < above * n - i.value * d then below else above)
  | true, false => some below
  | false, true => some above
  | false, false => none

/-- The shortest decimal in the interval, looked for from the power `exponent` downwards. -/
def Interval.search (i : Interval) : (fuel : Nat) → (exponent : Int) → Nat × Int
  | 0, exponent => (0, exponent)
  | fuel + 1, exponent =>
    match i.nearest? exponent with
    | some digits => (digits, exponent)
    | none => search i fuel (exponent - 1)

/-- The digits and the power of ten of the shortest decimal of a finite number other than zero. The search begins
    above the number, and seventeen digits are always enough. -/
def shortest (x : Binary64) : Nat × Int :=
  let (mantissa, power) := x.parts
  let places := ((mantissa.log2 : Int) + 1 + power) * 30103 / 100000 + 2
  x.interval.search 25 places

/-- Positional notation for `digits * 10 ^ exponent`, where a whole number keeps one place. -/
def positional (digits : Nat) (exponent : Int) : List Char :=
  let text := Nat.toDigits 10 digits
  if exponent ≥ 0 then text ++ List.replicate exponent.toNat '0' ++ ['.', '0']
  else
    let places := (-exponent).toNat
    let padded := List.replicate (places + 1 - text.length) '0' ++ text
    padded.take (padded.length - places) ++ '.' :: padded.drop (padded.length - places)

/-- The decimal text of a number. -/
def text (x : Binary64) : List Char :=
  let sign := if x.isNegative then ['-'] else []
  if x.magnitude > infiniteMagnitude then sign ++ ['n', 'a', 'n']
  else if x.magnitude = infiniteMagnitude then sign ++ ['i', 'n', 'f']
  else if x.magnitude = 0 then sign ++ ['0', '.', '0']
  else
    let (digits, exponent) := x.shortest
    sign ++ positional digits exponent

end LedSwitch.Binary64
