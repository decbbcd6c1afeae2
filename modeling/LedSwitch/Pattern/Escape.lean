import LedSwitch.Pattern.Settings
import LedSwitch.Text.Hex

/-!
The smallest pieces of a written pattern: numbers of repetitions, and what a backslash stands for. Each function
takes the characters that are left and answers with what it found and with the rest; no answer means that the
pattern is not well-formed.
-/

namespace LedSwitch.Pattern

/-- The greatest number of repetitions that can be written. -/
def maxCount : Nat := 4294967295

/-- A number of repetitions, with white space around it. -/
def Settings.count? (settings : Settings) (text : List Char) : Option (Nat × List Char) :=
  let (digits, rest) := settings.takeWhile Char.isDigit false (text.dropWhile Blank.holds)
  let count := digits.foldl (fun value c => value * 10 + (c.toNat - '0'.toNat)) 0
  if digits.isEmpty ∨ maxCount < count then none else some (count, rest.dropWhile Blank.holds)

/-- The least and the greatest number of repetitions, after an opening brace: `n`, `n,` or `n,m`, and a closing
    brace. -/
def Settings.counts? (settings : Settings) (text : List Char) : Option (Nat × Option Nat × List Char) := do
  let (least, text) ← settings.count? (settings.skip text)
  match Parts.after? ',' text with
  | none => return (least, some least, ← Parts.after? '\x7d' text)
  | some text =>
    let text := settings.skip text
    match Parts.after? '\x7d' text with
    | some rest => return (least, none, rest)
    | none =>
      let (most, text) ← settings.count? text
      if most < least then none else return (least, some most, ← Parts.after? '\x7d' text)

/-- The number that hexadecimal digits spell. -/
def hexValue (digits : List Char) : Nat :=
  digits.foldl (fun value c => value * 16 + (Hex.digit? c).getD 0) 0

/-- So many hexadecimal digits, with white space and comments after each where they do not count. -/
def Settings.digits? (settings : Settings) : (count : Nat) → List Char → Option (List Char × List Char)
  | 0, text => some ([], text)
  | _ + 1, [] => none
  | count + 1, c :: rest =>
    if (Hex.digit? c).isSome then
      (settings.digits? count (settings.skip rest)).map fun found => (c :: found.1, found.2)
    else none

/-- A character by its number: so many digits, or any number of digits between braces. -/
def Settings.numbered? (settings : Settings) (count : Nat) (text : List Char) : Option (Char × List Char) := do
  let text := settings.skip text
  match Parts.after? '\x7b' text with
  | none =>
    let (digits, rest) ← settings.digits? count text
    -- a byte beyond ASCII is no character
    if count = 2 ∧ !settings.allScripts ∧ 0x80 ≤ hexValue digits then none
    else return (← Hex.char? (hexValue digits), rest)
  | some text =>
    let (digits, text) := settings.takeWhile (fun c => (Hex.digit? c).isSome) false text
    let rest ← Parts.after? '\x7d' text
    if digits.isEmpty then none else return (← Hex.char? (hexValue digits), settings.skip rest)

/-- What a backslash and the characters after it stand for. -/
inductive Escaped where
  | char (c : Char)
  | set (set : CharSet)
  | look (condition : Look)
  deriving DecidableEq, Repr

/-- The conditions on words by name. -/
def edges : List (String × WordEdge) :=
  [("start", .start), ("end", .finish), ("start-half", .startHalf), ("end-half", .finishHalf)]

/-- The condition that the name in braces after `\b` stands for. Braces that hold no name, but a number, are left
    for a repetition. -/
def Settings.edge? (settings : Settings) (text : List Char) : Option (WordEdge × List Char) :=
  match Parts.after? '\x7b' text with
  | none => some (.boundary, text)
  | some inner =>
    let isNameChar (c : Char) : Bool := c.isAlpha || c = '-'
    if (settings.skip inner).head?.all isNameChar then do
      let (name, rest) := settings.takeWhile isNameChar false inner
      return (← edges.lookup (String.ofList name), ← Parts.after? '\x7d' rest)
    else some (.boundary, text)

/-- The letters that stand for a character that cannot be seen. -/
def invisible : List (Char × Char) :=
  [('a', '\x07'), ('f', '\x0c'), ('t', '\t'), ('n', '\n'), ('r', '\r'), ('v', '\x0b')]

/-- The letters that stand for a set of ASCII characters. -/
def asciiSets : List (Char × CharSet) :=
  [('d', CharSet.asciiDigit), ('s', CharSet.asciiSpace), ('w', CharSet.asciiWord)]

/-- What stands after a backslash. The sets `d`, `s` and `w` are known for ASCII alone; there are no properties, no
    complements of these sets, and no references to a group. -/
def Settings.escape? (settings : Settings) : List Char → Option (Escaped × List Char)
  | [] => none
  | c :: rest =>
    if c = 'x' then (settings.numbered? 2 rest).map fun found => (.char found.1, found.2)
    else if c = 'u' then (settings.numbered? 4 rest).map fun found => (.char found.1, found.2)
    else if c = 'U' then (settings.numbered? 8 rest).map fun found => (.char found.1, found.2)
    else if c = 'A' then some (.look .textStart, rest)
    else if c = 'z' then some (.look .textEnd, rest)
    else if c = 'b' then (settings.edge? rest).map fun found => (.look (.word found.1), found.2)
    else if c = 'B' then some (.look (.word .noBoundary), rest)
    else if c = '<' then some (.look (.word .start), rest)
    else if c = '>' then some (.look (.word .finish), rest)
    else match invisible.lookup c, asciiSets.lookup c with
      | some x, _ => some (.char x, rest)
      | none, some set => if settings.allScripts then none else some (.set set, rest)
      | none, none => if c.isAlphanum ∨ '\x7f' < c then none else some (.char c, rest)

end LedSwitch.Pattern
