import LedSwitch.Pattern.CharSet

/-!
Patterns: regular expressions with conditions on the characters around a position. A pattern occurs in a text if
some part of the text matches it. The search follows all matches at once: it keeps the set of positions that are
reached, one mark for each position of the text, and each part of a pattern takes the marks where it may begin to
the marks where it may end.
-/

namespace LedSwitch

/-- A condition on words; they consist of ASCII letters, digits and low lines. -/
inductive WordEdge where
  | boundary
  | noBoundary
  | start
  | finish
  /-- No word goes on to the left. -/
  | startHalf
  /-- No word goes on to the right. -/
  | finishHalf
  deriving DecidableEq, Repr

/-- A condition on a position in a text. -/
inductive Look where
  | textStart
  | textEnd
  /-- After a line feed, or at the start of the text. -/
  | lineStart
  /-- Before a line feed, or at the end of the text. -/
  | lineEnd
  /-- As `lineStart`, where a carriage return and a line feed, or one of them alone, end a line. -/
  | lineStartCrlf
  /-- As `lineEnd`, where a carriage return and a line feed, or one of them alone, end a line. -/
  | lineEndCrlf
  | word (edge : WordEdge)
  deriving DecidableEq, Repr

/-- A pattern. -/
inductive Pattern where
  | empty
  /-- One character of a set. -/
  | one (set : CharSet)
  /-- Nothing, where the condition holds. -/
  | look (condition : Look)
  /-- A numbered part. -/
  | group (body : Pattern)
  | seq (first second : Pattern)
  | either (first second : Pattern)
  /-- The same pattern several times in a row, at least `least` times, and at most `most` times if that is a
      number. -/
  | repeated (body : Pattern) (least : Nat) (most : Option Nat)
  deriving DecidableEq, Repr

namespace Pattern

/-- A position in a text: the characters before and after it. -/
structure Position where
  before : Option Char
  after : Option Char
  deriving DecidableEq, Repr

/-- The positions of a text that follows a certain character; there is one more than characters. -/
def positions : (before : Option Char) → List Char → List Position
  | before, [] => [⟨before, none⟩]
  | before, c :: rest => ⟨before, some c⟩ :: positions (some c) rest

/-- Whether a word includes the character, if there is one. -/
def inWord (c : Option Char) : Bool := c.any CharSet.asciiWord.holds

end Pattern

/-- Whether the condition holds at a position. -/
def WordEdge.holds (edge : WordEdge) (position : Pattern.Position) : Bool :=
  let before := Pattern.inWord position.before
  let after := Pattern.inWord position.after
  match edge with
  | .boundary => before != after
  | .noBoundary => before == after
  | .start => !before && after
  | .finish => before && !after
  | .startHalf => !before
  | .finishHalf => !after

/-- Whether the condition holds at a position. -/
def Look.holds (look : Look) (position : Pattern.Position) : Bool :=
  let ⟨before, after⟩ := position
  match look with
  | .textStart => before.isNone
  | .textEnd => after.isNone
  | .lineStart => before.isNone || before == some '\n'
  | .lineEnd => after.isNone || after == some '\n'
  | .lineStartCrlf =>
    before.isNone || before == some '\n' || (before == some '\r' && after != some '\n')
  | .lineEndCrlf =>
    after.isNone || after == some '\r' || (after == some '\n' && before != some '\r')
  | .word edge => edge.holds position

namespace Pattern

/-- The positions in one of two sets. -/
def union (first second : List Bool) : List Bool := List.zipWith (· || ·) first second

/-- Takes a step so many times, or fewer if it has come to rest before. -/
def steps (step : List Bool → List Bool) : (count : Nat) → List Bool → List Bool
  | 0, marks => marks
  | count + 1, marks =>
    let next := step marks
    if next = marks then marks else steps step count next

/-- Where a match of the pattern may end if it begins at one of the marked positions. In a text with `n`
    characters more than `n` repetitions reach nothing new: one of them would take no character, and it could be
    left out or doubled. -/
def reach (text : List Char) : Pattern → List Bool → List Bool
  | .empty, marks => marks
  | .one set, marks => false :: List.zipWith (fun c mark => mark && set.holds c) text marks
  | .look condition, marks =>
    List.zipWith (fun position mark => mark && condition.holds position) (positions none text) marks
  | .group body, marks => reach text body marks
  | .seq first second, marks => reach text second (reach text first marks)
  | .either first second, marks => union (reach text first marks) (reach text second marks)
  | .repeated body least most, marks =>
    let enough := text.length + 1
    let further := match most with
      | none => enough
      | some most => min (most - least) enough
    steps (fun marks => union marks (reach text body marks)) further
      (steps (reach text body) (min least enough) marks)

/-- Whether some part of the text matches the pattern. -/
def occursIn (pattern : Pattern) (text : List Char) : Bool :=
  (pattern.reach text (List.replicate (text.length + 1) true)).any id

/-- One of several patterns. -/
def oneOf : List Pattern → Pattern
  | [] => .empty
  | [pattern] => pattern
  | pattern :: others => .either pattern (oneOf others)

/-- Several patterns in a row. -/
def inRow : List Pattern → Pattern
  | [] => .empty
  | [pattern] => pattern
  | pattern :: others => .seq pattern (inRow others)

/-- A pattern with a least and a greatest number of repetitions. -/
def times (body : Pattern) (least : Nat) (most : Option Nat) : Pattern :=
  if most = some 0 then .empty else .repeated body least most

/-! The search needs a place in memory for each step that a pattern can take. -/

/-- Whether only the empty text can match. -/
def isBlank : Pattern → Bool
  | .empty | .look _ => true
  | .one _ => false
  | .group body | .repeated body _ _ => body.isBlank
  | .seq first second | .either first second => first.isBlank && second.isBlank

/-- The memory for one character of a set. -/
def setWeight (set : CharSet) : Nat :=
  match set with
  | .range low high => if low = high then 32 * low.utf8Size else if set.isAscii then 72 else 424
  | _ => if set.isAscii then 64 + 8 * set.size else 424

/-- How much memory the search takes. Repetitions of what is blank count once. -/
def weight : Pattern → Nat
  | .empty => 32
  | .look _ => 32
  | .one set => setWeight set
  | .group body => body.weight + 64
  | .seq first second => first.weight + second.weight
  | .either first second => first.weight + second.weight + 72
  | .repeated body least most =>
    let cap (count : Nat) := if body.isBlank then min count 1 else count
    match most with
    | none => max (cap least) 1 * body.weight + 40
    | some most => cap most * body.weight + (cap most - cap least) * 40 + 32

end Pattern

end LedSwitch
