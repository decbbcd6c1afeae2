import LedSwitch.Toml.Scan
import LedSwitch.Toml.Value

/-!
Numbers of a TOML document. Single underscores may stand between digits. An integer has sixty-four bits and is
decimal, or hexadecimal, octal or binary after `0x`, `0o` or `0b`; a float has a fraction or an exponent, or is
infinite or not a number. The fraction of a float and an exponent with `+` lie beyond the bare word with which
the number begins.
-/

namespace LedSwitch.Toml.Number

/-- The value of a digit in a base up to sixteen. -/
def digit? (base : Nat) (c : Char) : Option Nat := (Hex.digit? c).filter (· < base)

/-- What was seen of a run of digits. -/
inductive Seen where
  | nothing
  /-- The last character was a digit; the first one was a zero, after which there is no other, if `zero`. -/
  | digit (zero : Bool)
  /-- The last character was an underscore. -/
  | bar (zero : Bool)
  deriving DecidableEq, Repr

/-- The values of the digits at the beginning of a text, and what follows them. The run ends with a digit. A zero
    at its beginning stands alone unless `padded`. -/
def run? (base : Nat) (padded : Bool) : Seen → List Char → Option (List Nat × List Char)
  | .digit _, [] => some ([], [])
  | _, [] => none
  | seen, c :: rest =>
    match digit? base c, seen with
    | some d, .nothing => (run? base padded (.digit (d = 0)) rest).map fun found => (d :: found.1, found.2)
    | some d, .digit zero | some d, .bar zero =>
      if zero ∧ !padded then none
      else (run? base padded (.digit zero) rest).map fun found => (d :: found.1, found.2)
    | none, .digit zero => if c = '_' then run? base padded (.bar zero) rest else some ([], c :: rest)
    | none, _ => none

/-- Whether a text begins with a minus sign, and what follows the sign. -/
def sign (text : List Char) : Bool × List Char :=
  match Parts.after? '-' text with
  | some rest => (true, rest)
  | none => (false, text)

/-- The number that digits spell. -/
def ofDigits (base : Nat) (digits : List Nat) : Nat := digits.foldl (fun value d => value * base + d) 0

/-- An integer of sixty-four bits. -/
def int64? (value : Int) : Option Int64 :=
  if Int64.minValue.toInt ≤ value ∧ value ≤ Int64.maxValue.toInt then some (Int64.ofInt value) else none

/-- A word that is a decimal integer. -/
def decimal? (word : List Char) : Option Value := do
  let (negative, text) := sign word
  let (digits, rest) ← run? 10 false .nothing text
  if !rest.isEmpty then none
  else
    let value : Int := ofDigits 10 digits
    (int64? (if negative then -value else value)).map .integer

/-- A word that is an integer in another base, where zeros may stand in front. -/
def inBase? (base : Nat) (word : List Char) : Option Value := do
  let (digits, rest) ← run? base true .nothing word
  if rest.isEmpty then (int64? (ofDigits base digits)).map .integer else none

/-- The exponent of a float, `tail` being the rest of a word and `text` what follows the word. An exponent with a
    plus sign is a word of its own. -/
def exponent? (tail text : List Char) : Option (Int × List Char) :=
  match tail with
  | [] => some (0, text)
  | e :: tail => do
    if e ≠ 'e' ∧ e ≠ 'E' then none
    else
      let ((negative, digits), text) ←
        if tail.isEmpty then (Scan.word? (← Parts.after? '+' text)).map fun found => ((false, found.1), found.2)
        else some (sign tail, text)
      let (digits, rest) ← run? 10 true .nothing digits
      let value : Int := ofDigits 10 digits
      if rest.isEmpty then some (if negative then -value else value, text) else none

/-- A float with the word before its point, the word after the point if there is one, and the text after the
    words. Floats are finite, and those too great are refused. -/
def float? (word : List Char) (fraction : Option (List Char)) (text : List Char) : Option (Value × List Char) := do
  let (negative, whole) := sign word
  let (digits, tail) ← run? 10 false .nothing whole
  let (places, tail) ← match fraction with
    | none => some ([], tail)
    | some fraction => if tail.isEmpty then run? 10 true .nothing fraction else none
  let (exponent, text) ← exponent? tail text
  let number ← Binary64.ofDecimal? negative (ofDigits 10 (digits ++ places)) (exponent - places.length)
  some (.float number, text)

/-- The number that begins with a word, `text` being what follows the word. -/
def number? (word text : List Char) : Option (Value × List Char) :=
  match word with
  | '0' :: 'x' :: rest => (inBase? 16 rest).map (·, text)
  | '0' :: 'o' :: rest => (inBase? 8 rest).map (·, text)
  | '0' :: 'b' :: rest => (inBase? 2 rest).map (·, text)
  | _ =>
    if 'e' ∈ word ∨ 'E' ∈ word then float? word none text
    else match Parts.after? '.' text with
      | some text => do
        let (fraction, text) ← Scan.word? text
        float? word (some fraction) text
      | none =>
        if word = ['i', 'n', 'f'] then some (.float (.infinity false), text)
        else if word = ['-', 'i', 'n', 'f'] then some (.float (.infinity true), text)
        else if word = ['n', 'a', 'n'] then some (.float (.notANumber false), text)
        else if word = ['-', 'n', 'a', 'n'] then some (.float (.notANumber true), text)
        else (decimal? word).map (·, text)

end LedSwitch.Toml.Number
