import LedSwitch.Pattern.Bracket
import LedSwitch.Text.Letter

/-!
Reading a pattern: alternatives with `|`, repetitions, groups with or without a name, settings such as `(?i)` that
hold to the end of their group, and anchors. `Pattern.ofText` gives the pattern, or the reason why there is none.
-/

namespace LedSwitch.Pattern

/-- Why a text is no pattern. -/
inductive Fault where
  | malformed
  /-- The pattern has a condition on the words of all scripts. -/
  | wordsOfAllScripts
  | tooLarge
  deriving DecidableEq, Repr

/-- How much memory a search may take. -/
def weightLimit : Nat := 10485760

/-- How deep the parts of a pattern may stand in each other. -/
def depthLimit : Nat := 250

/-- The first line of the message about a fault. -/
def Fault.message : Fault → String
  | .malformed => "regex parse error:"
  | .wordsOfAllScripts => "error building NFA"
  | .tooLarge => "Compiled regex exceeds size limit of " ++ toString weightLimit ++ " bytes."

/-- A part of a pattern that was read. -/
structure Piece where
  pattern : Pattern
  depth : Nat := 0
  /-- It has a condition on the words of all scripts. -/
  allScripts : Bool := false
  /-- It can be repeated; settings cannot. -/
  repeatable : Bool := true
  deriving DecidableEq, Repr

namespace Piece

/-- Several pieces together. -/
def join (combine : List Pattern → Pattern) : List Piece → Piece
  | [] => { pattern := .empty }
  | [piece] => piece
  | pieces =>
    { pattern := combine (pieces.map (·.pattern))
      depth := pieces.foldl (fun depth piece => max depth piece.depth) 0 + 1
      allScripts := pieces.any (·.allScripts) }

/-- A group of its own, with or without a number. -/
def grouped (piece : Piece) (numbered : Bool) : Piece :=
  { pattern := if numbered then .group piece.pattern else piece.pattern
    depth := piece.depth + 1
    allScripts := piece.allScripts }

/-- A piece several times. Nothing is left of a piece that is to occur no times. -/
def times (piece : Piece) (least : Nat) (most : Option Nat) : Piece :=
  { pattern := piece.pattern.times least most
    depth := piece.depth + 1
    allScripts := piece.allScripts && most != some 0 }

end Piece

/-- What was read of a group: the alternatives before the present one, and the parts of that, each list with the
    last one first. -/
structure OpenGroup where
  alternatives : List Piece := []
  parts : List Piece := []
  deriving DecidableEq, Repr

namespace OpenGroup

/-- Adds a part. -/
def add (group : OpenGroup) (piece : Piece) : OpenGroup := { group with parts := piece :: group.parts }

/-- Goes on to the next alternative. -/
def next (group : OpenGroup) : OpenGroup :=
  ⟨.join inRow group.parts.reverse :: group.alternatives, []⟩

/-- The group as a whole. -/
def close (group : OpenGroup) : Piece := .join oneOf group.next.alternatives.reverse

/-- Repeats the last part. -/
def times? (group : OpenGroup) (least : Nat) (most : Option Nat) : Option OpenGroup :=
  match group.parts with
  | [] => none
  | last :: others =>
    if last.repeatable then some { group with parts := last.times least most :: others } else none

end OpenGroup

/-- What follows an opening parenthesis. -/
inductive Opening where
  /-- Settings for the rest of the group around it. -/
  | settings (settings : Settings)
  /-- A group that has a number. -/
  | numbered
  /-- A group without a number, and the settings in it. -/
  | plain (settings : Settings)
  deriving DecidableEq, Repr

/-- Whether a name of a group may begin with the character. -/
def isNameStart (c : Char) : Bool := c = '_' || Letter.isAlphabetic c

/-- Whether the character may stand in the name of a group. -/
def isNameChar (c : Char) : Bool :=
  c = '_' || c = '.' || c = '[' || c = ']' || Letter.isAlphabetic c || Letter.isNumeric c

/-- The name of a group, and what follows the angle bracket after it. -/
def groupName? (text : List Char) : Option (List Char × List Char) := do
  let name := text.takeWhile (· ≠ '>')
  let rest ← Parts.after? '>' (text.dropWhile (· ≠ '>'))
  if name.head?.any isNameStart ∧ name.all isNameChar then return (name, rest) else none

/-- Reads what follows an opening parenthesis. Each name occurs once only; there are no conditions on the text
    before or after a position. Gives the names, too. -/
def Settings.opening? (settings : Settings) (names : List (List Char)) (text : List Char) :
    Option (Opening × List (List Char) × List Char) := do
  let text := settings.skip text
  match Parts.after? '?' text with
  | none => return (.numbered, names, text)
  | some text =>
    let named := match Parts.after? 'P' text with
      | some text => Parts.after? '<' text
      | none => Parts.after? '<' text
    match named with
    | some text =>
      let (name, rest) ← groupName? text
      if name ∈ names then none else return (.numbered, name :: names, rest)
    | none =>
      let (letters, inner, final, rest) ← settings.change? [] text
      if final = ':' then return (.plain inner, names, rest)
      else if letters = [] then none
      else return (.settings inner, names, rest)

/-- The piece for a character that stands for itself. The letters of all scripts are not known in another case. -/
def Settings.literal? (settings : Settings) (c : Char) : Option Piece :=
  if !settings.anyCase then some { pattern := .one (.single c) }
  else if settings.allScripts then none
  else some { pattern := .one (if c.isAlpha then .anyCase (.single c) else .single c) }

/-- The piece for a condition. -/
def Settings.condition (settings : Settings) (look : Look) : Piece :=
  match look with
  | .word _ => { pattern := .look look, allScripts := settings.allScripts }
  | _ => { pattern := .look look }

/-- The part of a pattern that begins with a character without another meaning, with a dot, an anchor or a
    backslash. -/
def Settings.part? (settings : Settings) (c : Char) (rest : List Char) : Option (Piece × List Char) :=
  if c = '.' then if settings.allScripts then some ({ pattern := .one settings.dot }, rest) else none
  else if c = '^' then some (settings.condition settings.startLook, rest)
  else if c = '$' then some (settings.condition settings.endLook, rest)
  else if c = '\\' then do
    match ← settings.escape? rest with
    | (.char c, rest) => return (← settings.literal? c, rest)
    | (.set set, rest) => return ({ pattern := .one (OpenBracket.fold settings set) }, rest)
    | (.look condition, rest) => return (settings.condition condition, rest)
  else (settings.literal? c).map (·, rest)

/-- A question mark after a repetition says which match is preferred, which does not matter here. -/
def skipLazy (text : List Char) : List Char := (Parts.after? '?' text).getD text

/-- How often the last part is to occur, if a sign of repetition stands here. -/
def Settings.repetition? (settings : Settings) (c : Char) (rest : List Char) :
    Option (Option (Nat × Option Nat × List Char)) :=
  if c = '?' then some (some (0, some 1, skipLazy rest))
  else if c = '*' then some (some (0, none, skipLazy rest))
  else if c = '+' then some (some (1, none, skipLazy rest))
  else if c = '\x7b' then
    (settings.counts? rest).map fun (least, most, rest) => some (least, most, skipLazy (settings.skip rest))
  else some none

/-- The rest of a group, up to the closing parenthesis or the end of the text, with the names of the groups so far.
    At most `fuel` parts are read. -/
def group? : (fuel : Nat) → Settings → (names : List (List Char)) → OpenGroup → List Char →
    Option (Piece × List (List Char) × List Char)
  | 0, _, _, _, _ => none
  | fuel + 1, settings, names, opened, text =>
    match settings.skip text with
    | [] => some (opened.close, names, [])
    | c :: rest =>
      if c = ')' then some (opened.close, names, c :: rest)
      else if c = '|' then group? fuel settings names opened.next rest
      else if c = '(' then do
        match ← settings.opening? names rest with
        | (.settings inner, names, rest) =>
          group? fuel inner names (opened.add { pattern := .empty, repeatable := false }) rest
        | (.numbered, names, rest) =>
          let (piece, names, rest) ← group? fuel settings names {} rest
          group? fuel settings names (opened.add (piece.grouped true)) (← Parts.after? ')' rest)
        | (.plain inner, names, rest) =>
          let (piece, names, rest) ← group? fuel inner names {} rest
          group? fuel settings names (opened.add (piece.grouped false)) (← Parts.after? ')' rest)
      else if c = '[' then do
        let (bracket, rest) ← settings.openBracket? rest
        let (set, rest) ← settings.bracket? (rest.length + 1) bracket rest
        group? fuel settings names (opened.add { pattern := .one set.set, depth := set.depth }) rest
      else do
        match ← settings.repetition? c rest with
        | some (least, most, rest) => group? fuel settings names (← opened.times? least most) rest
        | none =>
          let (piece, rest) ← settings.part? c rest
          group? fuel settings names (opened.add piece) rest

/-- The pattern that a text stands for. -/
def ofText (text : List Char) : Except Fault Pattern :=
  match group? (text.length + 1) {} [] {} text with
  | some (piece, _, []) =>
    if depthLimit < piece.depth then .error .malformed
    else if weightLimit < piece.pattern.weight then .error .tooLarge
    else if piece.allScripts then .error .wordsOfAllScripts
    else .ok piece.pattern
  | _ => .error .malformed

end LedSwitch.Pattern
