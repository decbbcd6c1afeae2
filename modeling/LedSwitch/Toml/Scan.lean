import LedSwitch.Text.Hex
import LedSwitch.Text.Parts

/-!
The smallest pieces of a TOML document: blanks and comments, line ends, bare words, and strings in their four
forms. Each function takes the characters that are left and answers with what it found and with the rest; no
answer means that the document is not well-formed. Line ends are single line feeds here, see `unifyLines`.
-/

namespace LedSwitch.Toml.Scan

/-- The text with each carriage return before a line feed taken away. -/
def unifyLines : List Char → List Char
  | [] => []
  | c :: rest => if c = '\r' ∧ rest.head? = some '\n' then unifyLines rest else c :: unifyLines rest

/-- Space and tab. -/
def isBlank (c : Char) : Bool := c = ' ' || c = '\t'

/-- The letters, digits and signs of which bare words consist. -/
def isWordChar (c : Char) : Bool := c.isAlphanum || c = '-' || c = '_'

/-- Skips spaces and tabs. -/
def skipBlanks (text : List Char) : List Char := text.dropWhile isBlank

/-- A bare word. -/
def word? (text : List Char) : Option (List Char × List Char) :=
  let word := text.takeWhile isWordChar
  if word.isEmpty then none else some (word, text.dropWhile isWordChar)

/-- The characters that a comment may hold. -/
def isCommentChar (c : Char) : Bool := c = '\t' || ' ' ≤ c

/-- Skips blanks, line ends and comments. A comment reaches to the end of its line. -/
def skipLines : (inComment : Bool) → List Char → Option (List Char)
  | _, [] => some []
  | false, c :: rest =>
    if isBlank c || c = '\n' then skipLines false rest
    else if c = '#' then skipLines true rest
    else some (c :: rest)
  | true, c :: rest =>
    if c = '\n' then skipLines false rest
    else if isCommentChar c then skipLines true rest
    else none

/-- The end of a line, after blanks and possibly a comment. -/
def lineEnd? (text : List Char) : Option (List Char) :=
  let text := skipBlanks text
  let text := if text.head? = some '#' then text.dropWhile isCommentChar else text
  match text with
  | [] => some []
  | c :: rest => if c = '\n' then some rest else none

/-- The character that a backslash and a letter stand for. -/
def escaped? (c : Char) : Option Char :=
  if c = '"' then some '"'
  else if c = '\\' then some '\\'
  else if c = 'b' then some '\x08'
  else if c = 'f' then some '\x0c'
  else if c = 'n' then some '\n'
  else if c = 'r' then some '\r'
  else if c = 't' then some '\t'
  else none

/-- Where in a string the reader is. -/
inductive Mode where
  /-- Among its characters. -/
  | text
  /-- After a backslash. -/
  | escape
  /-- In the number of a character, with so many digits to come. -/
  | code (left value : Nat)
  /-- After a backslash and blanks that have to be followed by a line end. -/
  | blanks
  /-- In the white space after a backslash and a line end, none of which counts. -/
  | gap
  deriving DecidableEq, Repr

/-- The characters of a string up to its closing delimiter. Only a double quote as delimiter gives the backslash
    its meaning. A string of several lines closes with three delimiters, before which one or two more belong to
    its text. -/
def body? (delimiter : Char) (multiline : Bool) : Mode → List Char → Option (List Char × List Char)
  | _, [] => none
  | .escape, c :: rest =>
    match escaped? c with
    | some x => (body? delimiter multiline .text rest).map fun found => (x :: found.1, found.2)
    | none =>
      if c = 'u' then body? delimiter multiline (.code 4 0) rest
      else if c = 'U' then body? delimiter multiline (.code 8 0) rest
      else if multiline && isBlank c then body? delimiter multiline .blanks rest
      else if multiline && c = '\n' then body? delimiter multiline .gap rest
      else none
  | .code left value, c :: rest =>
    match Hex.digit? c with
    | none => none
    | some digit =>
      let value := value * 16 + digit
      if left ≤ 1 then
        match Hex.char? value with
        | none => none
        | some x => (body? delimiter multiline .text rest).map fun found => (x :: found.1, found.2)
      else body? delimiter multiline (.code (left - 1) value) rest
  | .blanks, c :: rest =>
    if isBlank c then body? delimiter multiline .blanks rest
    else if c = '\n' then body? delimiter multiline .gap rest
    else none
  | mode, c :: rest =>
    if mode = .gap ∧ (isBlank c ∨ c = '\n') then body? delimiter multiline .gap rest
    else if c = delimiter then
      if !multiline then some ([], rest)
      else match closing? delimiter rest with
        | some found => some found
        | none => (body? delimiter multiline .text rest).map fun found => (c :: found.1, found.2)
    else if c = '\\' ∧ delimiter = '"' then body? delimiter multiline .escape rest
    else if c = '\t' ∨ (' ' ≤ c ∧ c ≠ '\x7f') ∨ (multiline ∧ c = '\n') then
      (body? delimiter multiline .text rest).map fun found => (c :: found.1, found.2)
    else none
where
  /-- After one delimiter, the second and third one, with those before them that belong to the text. -/
  closing? (delimiter : Char) (text : List Char) : Option (List Char × List Char) :=
    let more := text.takeWhile (· = delimiter)
    if more.length < 2 then none
    else
      let extra := min (more.length - 2) 2
      some (List.replicate extra delimiter, text.drop (extra + 2))

/-- A string after its first delimiter: whether it is of the kind that spans lines, its text, and the rest. -/
def string? (delimiter : Char) (text : List Char) : Option (Bool × String × List Char) :=
  match Parts.after? delimiter text with
  | none => (body? delimiter false .text text).map fun found => (false, String.ofList found.1, found.2)
  | some text =>
    match Parts.after? delimiter text with
    | none => some (false, "", text)
    | some text =>
      -- a line end right after the opening delimiters does not count
      let text := (Parts.after? '\n' text).getD text
      (body? delimiter true .text text).map fun found => (true, String.ofList found.1, found.2)

/-- A key: a bare word or a string on one line. -/
def key? (text : List Char) : Option (String × List Char) :=
  match text with
  | [] => none
  | c :: rest =>
    if c = '"' ∨ c = '\'' then
      match string? c rest with
      | some (false, key, rest) => some (key, rest)
      | _ => none
    else (word? text).map fun found => (String.ofList found.1, found.2)

/-- Keys with dots between them, and blanks wherever they may stand. At most `fuel` keys are read. -/
def keysUpTo? : (fuel : Nat) → List Char → Option (List String × List Char)
  | 0, _ => none
  | fuel + 1, text => do
    let (key, text) ← key? (skipBlanks text)
    let text := skipBlanks text
    match Parts.after? '.' text with
    | none => some ([key], text)
    | some text => (keysUpTo? fuel text).map fun found => (key :: found.1, found.2)

/-- Keys with dots between them, and the text after the blanks that follow. -/
def keys? (text : List Char) : Option (List String × List Char) := keysUpTo? (text.length + 1) text

end LedSwitch.Toml.Scan
