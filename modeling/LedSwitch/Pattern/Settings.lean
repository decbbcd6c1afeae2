import LedSwitch.Pattern.Basic
import LedSwitch.Text.Blank
import LedSwitch.Text.Parts

/-!
The settings under which a part of a pattern is read: which characters count, what the dot and the anchors stand
for, and how settings are written and changed.
-/

namespace LedSwitch.Pattern

/-- The settings under which a part of a pattern is read, by their letters. -/
structure Settings where
  /-- `i`: letters stand for themselves in both cases. -/
  anyCase : Bool := false
  /-- `m`: the anchors hold at each line of the text. -/
  multiline : Bool := false
  /-- `s`: the dot stands for a line feed too. -/
  dotAll : Bool := false
  /-- `R`: a carriage return ends a line, too. -/
  crlf : Bool := false
  /-- `u`: characters are those of all scripts, and not of ASCII alone. -/
  allScripts : Bool := true
  /-- `x`: white space and comments do not count. -/
  spaced : Bool := false
  deriving DecidableEq, Repr

/-- Skips white space and comments, each of which reaches to the end of its line. -/
def skipComments : (inComment : Bool) → List Char → List Char
  | _, [] => []
  | true, c :: rest => skipComments (c != '\n') rest
  | false, c :: rest =>
    if Blank.holds c then skipComments false rest
    else if c = '#' then skipComments true rest
    else c :: rest

/-- Skips white space and comments where they do not count. -/
def Settings.skip (settings : Settings) (text : List Char) : List Char :=
  if settings.spaced then skipComments false text else text

/-- The characters of one kind at the beginning of a text, and what follows them; white space and comments between
    and after them are skipped where they do not count. -/
def Settings.takeWhile (settings : Settings) (kind : Char → Bool) :
    (inComment : Bool) → List Char → List Char × List Char
  | _, [] => ([], [])
  | true, c :: rest => settings.takeWhile kind (c != '\n') rest
  | false, c :: rest =>
    if kind c then
      let (found, rest) := settings.takeWhile kind false rest
      (c :: found, rest)
    else if settings.spaced && Blank.holds c then settings.takeWhile kind false rest
    else if settings.spaced && c = '#' then settings.takeWhile kind true rest
    else ([], c :: rest)

/-- The next character, past white space and the sign of a comment where these do not count. -/
def Settings.peek? (settings : Settings) (text : List Char) : Option Char :=
  if settings.spaced then
    let text := text.dropWhile Blank.holds
    match Parts.after? '#' text with
    | none => text.head?
    | some text => (text.dropWhile Blank.holds).head?
  else text.head?

/-- The condition at the start of a text or line. -/
def Settings.startLook (settings : Settings) : Look :=
  if !settings.multiline then .textStart else if settings.crlf then .lineStartCrlf else .lineStart

/-- The condition at the end of a text or line. -/
def Settings.endLook (settings : Settings) : Look :=
  if !settings.multiline then .textEnd else if settings.crlf then .lineEndCrlf else .lineEnd

/-- What the dot stands for. -/
def Settings.dot (settings : Settings) : CharSet :=
  if settings.dotAll then .compl .empty
  else if settings.crlf then .compl (.ofRanges [('\n', '\n'), ('\r', '\r')])
  else .compl (.single '\n')

/-- The settings with another value for the one with this letter. Which of several matches is preferred (`U`) does
    not matter here. -/
def Settings.set? (settings : Settings) (letter : Char) (value : Bool) : Option Settings :=
  if letter = 'i' then some { settings with anyCase := value }
  else if letter = 'm' then some { settings with multiline := value }
  else if letter = 's' then some { settings with dotAll := value }
  else if letter = 'R' then some { settings with crlf := value }
  else if letter = 'u' then some { settings with allScripts := value }
  else if letter = 'x' then some { settings with spaced := value }
  else if letter = 'U' then some settings
  else none

/-- Settings up to a colon or a closing parenthesis: letters that occur once each, of which those after a minus
    sign are turned off. Gives the letters, the settings, the final character and the rest. -/
def Settings.change? (settings : Settings) :
    (seen : List Char) → List Char → Option (List Char × Settings × Char × List Char)
  | _, [] => none
  | seen, c :: rest =>
    if c = ':' ∨ c = ')' then
      if seen.head? = some '-' then none else some (seen, settings, c, rest)
    else if c ∈ seen then none
    else if c = '-' then settings.change? (c :: seen) rest
    else do (← settings.set? c ('-' ∉ seen)).change? (c :: seen) rest

end LedSwitch.Pattern
