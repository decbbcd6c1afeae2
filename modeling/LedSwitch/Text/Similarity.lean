/-!
Likeness of two words after Jaro and Winkler, decided in whole numbers. Letters match when they are equal and
stand not further apart than half the longer word; a match is crossed when it lies before the previous one. The
measure is the mean of the matched share of either word and the uncrossed share of the matches, and each
letter of the common beginning closes a tenth of the gap to one. Two words are alike above four fifths.
-/

namespace LedSwitch.Similarity

/-- Takes the first unclaimed `c` at a position from `low` to `high`, where the list begins at `position`.
    Claimed letters are `none`. -/
def claim (c : Char) (low high : Nat) : (position : Nat) → List (Option Char) → Option (Nat × List (Option Char))
  | _, [] => none
  | position, letter :: rest =>
    if low ≤ position ∧ position ≤ high ∧ letter = some c then some (position, none :: rest)
    else (claim c low high (position + 1) rest).map fun found => (found.1, letter :: found.2)

/-- The matches of the letters seen so far. -/
structure Tally where
  matched : Nat
  crossed : Nat
  /-- Where the latest match lies. -/
  latest : Nat
  /-- The other word's letters, `none` for those that are taken. -/
  letters : List (Option Char)

/-- Matches one letter after the other, each from its own position in the word. -/
def tally (reach lastPosition : Nat) : (position : Nat) → List Char → Tally → Tally
  | _, [], t => t
  | position, c :: rest, t =>
    match claim c (position - reach) (min lastPosition (position + reach)) 0 t.letters with
    | none => tally reach lastPosition (position + 1) rest t
    | some (found, letters) =>
      tally reach lastPosition (position + 1) rest
        ⟨t.matched + 1, if found < t.latest then t.crossed + 1 else t.crossed, found, letters⟩

/-- How many letters the two words have in common at their beginning. -/
def commonBeginning : List Char → List Char → Nat
  | a :: as, b :: bs => if a = b then commonBeginning as bs + 1 else 0
  | _, _ => 0

/-- Whether the likeness of the words exceeds four fifths. -/
def alike (first second : String) : Bool :=
  let a := first.toList
  let b := second.toList
  if a.isEmpty ∧ b.isEmpty then true
  else if a.isEmpty ∨ b.isEmpty then false
  else if a.length = 1 ∧ b.length = 1 then a = b
  else
    let reach := max a.length b.length / 2 - 1
    let t := tally reach (b.length - 1) 0 a ⟨0, 0, 0, b.map some⟩
    -- the mean is `share / whole`
    let share := t.matched * t.matched * (a.length + b.length) + (t.matched - t.crossed) * a.length * b.length
    let whole := 3 * a.length * b.length * t.matched
    8 * whole < 10 * share + commonBeginning a b * (whole - share)

end LedSwitch.Similarity
