import LedSwitch.Pattern.Escape

/-!
Sets of characters in brackets: single characters, ranges, named sets, sets in brackets of their own, and the
operators for intersection, difference and symmetric difference between all of these. A set is read together with
its depth, which counts brackets, operators and unions that stand in each other.
-/

namespace LedSwitch.Pattern

/-- A set that was read, and its depth. -/
structure NestedSet where
  set : CharSet
  depth : Nat
  deriving DecidableEq, Repr

/-- An operator between sets in brackets. -/
inductive SetOperator where
  | inter
  | diff
  | symmDiff
  deriving DecidableEq, Repr

/-- The set that an operator makes of two sets. -/
def SetOperator.apply : SetOperator → CharSet → CharSet → CharSet
  | .inter => .inter
  | .diff => .diff
  | .symmDiff => .symmDiff

/-- The operators, each of which is written as a character twice. -/
def setOperators : List (Char × SetOperator) := [('&', .inter), ('-', .diff), ('~', .symmDiff)]

/-- What was read after an opening bracket. -/
structure OpenBracket where
  negated : Bool
  /-- The left side of the last operator. -/
  left : Option (NestedSet × SetOperator)
  /-- What stands after the last operator, the last one first. -/
  items : List NestedSet
  deriving DecidableEq, Repr

namespace OpenBracket

/-- Adds what was read. -/
def add (bracket : OpenBracket) (item : NestedSet) : OpenBracket :=
  { bracket with items := item :: bracket.items }

/-- Letters in both cases, if that was set. -/
def fold (settings : Settings) (set : CharSet) : CharSet := if settings.anyCase then .anyCase set else set

/-- All that stands after the last operator, as one set. -/
def operand (bracket : OpenBracket) : NestedSet :=
  match bracket.items with
  | [] => ⟨.empty, 0⟩
  | [item] => item
  | items => ⟨.ofList (items.reverse.map (·.set)), items.foldl (fun depth item => max depth item.depth) 0 + 1⟩

/-- All that was read, as one set. Operators apply from left to right. -/
def contents (bracket : OpenBracket) (settings : Settings) : NestedSet :=
  let right := bracket.operand
  match bracket.left with
  | none => right
  | some (left, operator) =>
    ⟨operator.apply (fold settings left.set) (fold settings right.set), max left.depth right.depth + 1⟩

/-- Goes on to the right side of an operator. -/
def combine (bracket : OpenBracket) (settings : Settings) (operator : SetOperator) : OpenBracket :=
  { bracket with left := some (bracket.contents settings, operator), items := [] }

/-- The set that a closing bracket completes. There are no complements of sets of ASCII characters. -/
def close? (bracket : OpenBracket) (settings : Settings) : Option NestedSet :=
  let contents := bracket.contents settings
  let set := fold settings contents.set
  if !bracket.negated then some ⟨set, contents.depth + 1⟩
  else if settings.allScripts then some ⟨.compl set, contents.depth + 1⟩
  else none

end OpenBracket

/-- The set of the characters between two. Where characters are those of ASCII there are no others; of all other
    characters it is not known which are the same in another case. -/
def Settings.range? (settings : Settings) (low high : Char) : Option NestedSet :=
  if high < low ∨ (settings.allScripts ∧ settings.anyCase) ∨ (!settings.allScripts ∧ '\x7f' < high) then none
  else some ⟨.range low high, 0⟩

/-- A named set after its opening bracket: `:name:]`, with `:^` for the complement. -/
def namedSet? (text : List Char) : Option (Bool × CharSet × List Char) := do
  let text ← Parts.after? ':' text
  let (negated, text) := match Parts.after? '^' text with
    | some text => (true, text)
    | none => (false, text)
  let rest ← Parts.after? ':' (text.dropWhile (· ≠ ':'))
  let set ← CharSet.named.lookup (String.ofList (text.takeWhile (· ≠ ':')))
  return (negated, set, ← Parts.after? ']' rest)

/-- A named set, where it may stand. -/
def Settings.named? (settings : Settings) (negated : Bool) (set : CharSet) : Option NestedSet :=
  if settings.allScripts then
    if settings.anyCase then none else some ⟨if negated then .compl set else set, 0⟩
  else if negated then none else some ⟨OpenBracket.fold settings set, 0⟩

/-- One character, or a set that a backslash stands for. -/
def Settings.member? (settings : Settings) : List Char → Option (Escaped × List Char)
  | [] => none
  | c :: rest => if c = '\\' then settings.escape? rest else some (.char c, rest)

/-- What follows a minus sign that stands between the ends of a range: one that is followed by neither the closing
    bracket nor another minus sign. -/
def Settings.afterDash? (settings : Settings) (text : List Char) : Option (List Char) := do
  let rest ← Parts.after? '-' text
  let next := settings.peek? rest
  if next = some ']' ∨ next = some '-' then none else some rest

/-- A character, a range, or a set that a backslash stands for. -/
def Settings.item? (settings : Settings) (text : List Char) : Option (NestedSet × List Char) := do
  let (first, text) ← settings.member? text
  let text := settings.skip text
  match settings.afterDash? text, first with
  | none, .char c => return (← settings.range? c c, text)
  | none, .set set => return (⟨set, 0⟩, text)
  | some text, .char low =>
    match ← settings.member? (settings.skip text) with
    | (.char high, text) => return (← settings.range? low high, text)
    | _ => none
  | _, _ => none

/-- What follows an opening bracket: a sign for the complement, any number of minus signs that stand for
    themselves, and a closing bracket that stands for itself if it is the first character. -/
def Settings.openBracket? (settings : Settings) (text : List Char) : Option (OpenBracket × List Char) := do
  let text := settings.skip text
  let (negated, text) := match Parts.after? '^' text with
    | some text => (true, settings.skip text)
    | none => (false, text)
  let (dashes, text) := settings.takeWhile (· = '-') false text
  let (first, text) := match dashes, Parts.after? ']' text with
    | [], some text => ([']'], settings.skip text)
    | _, _ => (dashes, text)
  return (⟨negated, none, ← first.mapM fun c => settings.range? c c⟩, text)

/-- The rest of a set in brackets, and the text after it. At most `fuel` parts are read. -/
def Settings.bracket? (settings : Settings) :
    (fuel : Nat) → OpenBracket → List Char → Option (NestedSet × List Char)
  | 0, _, _ => none
  | fuel + 1, bracket, text =>
    match settings.skip text with
    | [] => none
    | c :: rest =>
      if c = ']' then (bracket.close? settings).map (·, rest)
      else if c = '[' then
        match namedSet? rest with
        | some (negated, set, rest) => do
          settings.bracket? fuel (bracket.add (← settings.named? negated set)) rest
        | none => do
          let (inner, rest) ← settings.openBracket? rest
          let (inner, rest) ← settings.bracket? fuel inner rest
          settings.bracket? fuel (bracket.add inner) rest
      else match (if rest.head? = some c then setOperators.lookup c else none) with
        | some operator => settings.bracket? fuel (bracket.combine settings operator) (rest.drop 1)
        | none => do
          let (item, rest) ← settings.item? (c :: rest)
          settings.bracket? fuel (bracket.add item) rest

end LedSwitch.Pattern
