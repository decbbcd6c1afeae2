import LedSwitch.Toml.Number

/-!
Values as they are spelled. In an item dates are still text, and the tables that dotted keys and braces spell
are lists of entries in the order of the document, which may hold a key twice; `Item.value?` makes a value of it.
`Item.read?` reads an item, and `Item.insertAt?` puts one below a dotted key.
-/

namespace LedSwitch.Toml

/-- A value as it is spelled. -/
inductive Item where
  /-- A truth value, a number or a string. -/
  | plain (value : Value)
  /-- What may be a date or a time. -/
  | moment (text : List Char)
  | list (items : List Item)
  /-- A table in braces. -/
  | inline (entries : List (String × Item))
  /-- A table that the dots of a key open. -/
  | dotted (entries : List (String × Item))
  deriving Inhabited

namespace Item

/-- Changes the first entry with this key. The outer answer is none if there is no such entry, the inner one if
    the change is refused. -/
def modifyFirst? (key : String) (change : Item → Option Item) :
    List (String × Item) → Option (Option (List (String × Item)))
  | [] => none
  | (k, item) :: rest =>
    if k = key then some ((change item).map fun item => (k, item) :: rest)
    else (modifyFirst? key change rest).map (·.map ((k, item) :: ·))

/-- Adds an item below the keys. All keys but the last open dotted tables, which later keys may extend; a table
    that was spelled otherwise cannot be extended. -/
def insertAt? (item : Item) : (keys : List String) → List (String × Item) → Option (List (String × Item))
  | [], _ => none
  | [key], entries => some (entries ++ [(key, item)])
  | key :: keys, entries =>
    let extend : Item → Option Item
      | .dotted inner => (insertAt? item keys inner).map .dotted
      | _ => none
    match modifyFirst? key extend entries with
    | some changed => changed
    | none => (insertAt? item keys []).map fun inner => entries ++ [(key, .dotted inner)]

/-- What is left of a time after its hour and colon: minutes, seconds, a fraction, and an offset. -/
def clockTail? (text : List Char) : Option (List Char) := do
  let (_, text) ← Scan.word? text
  let (_, text) ← Scan.word? (← Parts.after? ':' text)
  let text ← optionalWord? '.' text
  let text ← optionalWord? '+' text
  optionalWord? ':' text
where
  /-- Skips a word with the mark before it. Without the mark there is nothing to skip. -/
  optionalWord? (mark : Char) (text : List Char) : Option (List Char) :=
    match Parts.after? mark text with
    | none => some text
    | some text => (Scan.word? text).map (·.2)

/-- Skips one space and a word, where they follow each other. -/
def skipSpacedWord (text : List Char) : List Char :=
  match (Parts.after? ' ' text).bind Scan.word? with
  | some (_, rest) => rest
  | none => text

/-- The end of a date or time whose first word has been read, and its colon if `colon`. -/
def momentTail? (colon : Bool) (text : List Char) : Option (List Char) :=
  let text := skipSpacedWord text
  if colon then clockTail? text
  else match Parts.after? ':' text with
    | some text => clockTail? text
    | none => some text

/-- The text before its own end `rest`. -/
def before (rest text : List Char) : List Char := text.take (text.length - rest.length)

/-- Whether `b` follows `a` somewhere. -/
def hasPair (a b : Char) : List Char → Bool
  | x :: y :: rest => (x = a && y = b) || hasPair a b (y :: rest)
  | _ => false

/-- Whether a word begins a date: it holds a `T`, or a minus sign that is neither its sign nor that of an
    exponent. -/
def beginsDate (word : List Char) : Bool :=
  'T' ∈ word || 't' ∈ word ||
    ('-' ∈ word.tail && !hasPair 'e' '-' word && !hasPair 'E' '-' word)

/-- The item that begins with a bare word; `text` includes the word and `rest` is what follows it. -/
def ofWord? (word rest text : List Char) : Option (Item × List Char) :=
  if word = ['t', 'r', 'u', 'e'] then some (.plain (.boolean true), rest)
  else if word = ['f', 'a', 'l', 's', 'e'] then some (.plain (.boolean false), rest)
  else if word = ['i', 'n', 'f'] ∨ word = ['n', 'a', 'n'] ∨ word.head?.any (fun c => c = '-' || c.isDigit) then
    if beginsDate word then (momentTail? false rest).map fun tail => (.moment (before tail text), tail)
    else match Parts.after? ':' rest with
      | some rest => (momentTail? true rest).map fun tail => (.moment (before tail text), tail)
      | none => (Number.number? word rest).map fun found => (.plain found.1, found.2)
  else none

mutual

/-- Reads an item. The fuel bounds the depth of the recursion. -/
def readUpTo? : (fuel : Nat) → List Char → Option (Item × List Char)
  | 0, _ => none
  | _ + 1, [] => none
  | fuel + 1, c :: rest =>
    if c = '"' ∨ c = '\'' then
      (Scan.string? c rest).map fun found => (.plain (.string found.2.1), found.2.2)
    else if c = '[' then (elementsUpTo? fuel rest).map fun found => (.list found.1, found.2)
    else if c = '{' then
      let rest := Scan.skipBlanks rest
      match Parts.after? '}' rest with
      | some rest => some (.inline [], rest)
      | none => (entriesUpTo? fuel [] rest).map fun found => (.inline found.1, found.2)
    else if c = '+' then do
      let (word, rest) ← Scan.word? rest
      (Number.number? word rest).map fun found => (.plain found.1, found.2)
    else do
      let (word, rest') ← Scan.word? (c :: rest)
      ofWord? word rest' (c :: rest)

/-- Reads the elements of a list up to its bracket, with commas between them and perhaps one at the end. -/
def elementsUpTo? : (fuel : Nat) → List Char → Option (List Item × List Char)
  | 0, _ => none
  | fuel + 1, text => do
    let text ← Scan.skipLines false text
    match Parts.after? ']' text with
    | some rest => some ([], rest)
    | none =>
      let (item, text) ← readUpTo? fuel text
      let text ← Scan.skipLines false text
      match Parts.after? ',' text with
      | some text => (elementsUpTo? fuel text).map fun found => (item :: found.1, found.2)
      | none => (Parts.after? ']' text).map fun rest => ([item], rest)

/-- Reads the entries of a table in braces, at least one of them and on one line, after those read before. -/
def entriesUpTo? : (fuel : Nat) → List (String × Item) → List Char → Option (List (String × Item) × List Char)
  | 0, _, _ => none
  | fuel + 1, entries, text => do
    let (keys, text) ← Scan.keys? text
    let text ← Parts.after? '=' text
    let (item, text) ← readUpTo? fuel (Scan.skipBlanks text)
    let entries ← insertAt? item keys entries
    let text := Scan.skipBlanks text
    match Parts.after? '}' text with
    | some rest => some (entries, rest)
    | none => entriesUpTo? fuel entries (Scan.skipBlanks (← Parts.after? ',' text))

end

/-- Reads an item. Each level of the recursion but every second one takes a character, which bounds its depth. -/
def read? (text : List Char) : Option (Item × List Char) := readUpTo? (2 * text.length + 2) text

end Item

/-- What the entries of a table come to. -/
inductive Gathered where
  | table (entries : Table)
  /-- The first key was the one by which a table stands for a date or time. -/
  | moment (moment : DateTime)

/-- The value that was gathered. -/
def Gathered.value : Gathered → Value
  | .table entries => .table entries
  | .moment m => .moment m

/-- The date or time for which a table stands that begins with the key of dates. -/
def Gathered.ofMoment? : Value → Option Gathered
  | .string text => (DateTime.ofText? text.toList).map .moment
  | _ => none

namespace Item

mutual

/-- The value that an item spells. A table must not hold a key twice. -/
def value? : Item → Option Value
  | .plain value => some value
  | .moment text => (DateTime.ofText? text).map .moment
  | .list items => (values? items).map .array
  | .inline entries => (gather? [] entries).map Gathered.value
  | .dotted entries => (gather? [] entries).map Gathered.value

/-- The values that items spell. -/
def values? : List Item → Option (List Value)
  | [] => some []
  | item :: rest => do
    let value ← value? item
    (values? rest).map (value :: ·)

/-- Adds entries to those of a table. What follows the key of dates at the beginning of a table is not looked at. -/
def gather? : (gathered : Table) → List (String × Item) → Option Gathered
  | gathered, [] => some (.table gathered)
  | gathered, (key, item) :: rest =>
    if gathered.isEmpty ∧ key = momentKey then (value? item).bind Gathered.ofMoment?
    else if gathered.contains key then none
    else do
      let value ← value? item
      gather? (gathered.insert key value) rest

end

/-- Adds entries to those of the document. Here a later entry replaces an earlier one with its key. -/
def overlay? : (gathered : Table) → List (String × Item) → Option Table
  | gathered, [] => some gathered
  | gathered, (key, item) :: rest => do
    let value ← value? item
    overlay? (gathered.insert key value) rest

end Item

end LedSwitch.Toml
