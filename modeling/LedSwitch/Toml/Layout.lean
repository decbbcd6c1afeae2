import LedSwitch.Decimal.Shortest
import LedSwitch.Toml.Scan
import LedSwitch.Toml.Value

/-!
The text of a table. Within a table plain values come first, then arrays that directly contain a table, then
tables, each group in the order of the keys. A table gets its header when its first plain value is written, or
at its end if it has no entries at all. An array of one element is written on one line, a longer one with an
element on each line; an array of tables is written as sections with double brackets.

The tables and arrays around the value at hand form a stack, which tells where a header, a separator or a blank
line is due. A table whose entries were already followed by a header takes no more plain values: then the table
cannot be written. An array that holds tables beside other values is written all the same, and its text is no
document.
-/

namespace LedSwitch.Toml.Layout

/-- Four hexadecimal digits, for characters below U+10000. -/
def fourDigits (n : Nat) : List Char :=
  let digits := (Nat.toDigits 16 n).map Char.toUpper
  List.replicate (4 - digits.length) '0' ++ digits

/-- A character between double quotes; a line feed stands for itself in a string of several lines. -/
def escape (multiline : Bool) (c : Char) : List Char :=
  if c = '\n' then if multiline then ['\n'] else ['\\', 'n']
  else if c = '\x08' then ['\\', 'b']
  else if c = '\t' then ['\\', 't']
  else if c = '\x0c' then ['\\', 'f']
  else if c = '\r' then ['\\', 'r']
  else if c = '"' then ['\\', '"']
  else if c = '\\' then ['\\', '\\']
  else if c < ' ' ∨ c = '\x7f' then '\\' :: 'u' :: fourDigits c.toNat
  else [c]

/-- A text between double quotes. -/
def escaped (text : List Char) : List Char := '"' :: text.flatMap (escape false) ++ ['"']

/-- A text between triple double quotes, beginning on a line of its own. -/
def escapedLines (text : List Char) : List Char :=
  ['"', '"', '"', '\n'] ++ text.flatMap (escape true) ++ ['"', '"', '"']

/-- Whether three apostrophes follow each other somewhere. -/
def hasTripleApostrophe : List Char → Bool
  | a :: b :: c :: rest => (a = '\'' && b = '\'' && c = '\'') || hasTripleApostrophe (b :: c :: rest)
  | _ => false

/-- Whether a text cannot stand between apostrophes: it would close them, or it holds controls. -/
def needsEscapes (text : List Char) : Bool :=
  hasTripleApostrophe text || text.getLast? = some '\'' ||
    text.any fun c => (c < ' ' && c ≠ '\t' && c ≠ '\n') || c = '\x7f'

/-- A string, between apostrophes if it can stand there. -/
def stringText (text : List Char) : List Char :=
  if needsEscapes text then if '\n' ∈ text then escapedLines text else escaped text
  else if '\n' ∈ text then ['\'', '\'', '\'', '\n'] ++ text ++ ['\'', '\'', '\'']
  else if '\'' ∈ text then ['\'', '\'', '\''] ++ text ++ ['\'', '\'', '\'']
  else '\'' :: text ++ ['\'']

/-- A key, bare if it is a word. -/
def keyText (key : String) : List Char :=
  if !key.toList.isEmpty && key.toList.all Scan.isWordChar then key.toList else escaped key.toList

/-- An integer in decimal. -/
def integerText (value : Int64) : List Char :=
  if value.toInt < 0 then '-' :: Nat.toDigits 10 value.toInt.natAbs else Nat.toDigits 10 value.toInt.natAbs

/-- How the elements of an array are written, as the first one decides. -/
inductive Style where
  | plain
  | tables
  deriving DecidableEq, Repr

/-- A table or array that is being written. It is fresh until its first entry is complete or, for a table, its
    first plain value is begun. -/
inductive Frame where
  /-- A table at its entry `key`; `headed` if a header was written for the entry or below it. -/
  | table (key : String) (fresh headed : Bool)
  | array (size : Nat) (fresh : Bool) (style : Option Style)
  deriving DecidableEq, Repr

/-- The tables and arrays around a value, the innermost first. -/
abbrev Stack := List Frame

namespace Stack

/-- The keys on the way to the value at hand. -/
def keys (stack : Stack) : List String :=
  (stack.filterMap fun
    | .table key _ _ => some key
    | .array .. => none).reverse

/-- The keys with dots between them. -/
def path (stack : Stack) : List Char := ['.'].intercalate (stack.keys.map keyText)

/-- Takes note that a header was written. -/
def marked (stack : Stack) : Stack :=
  stack.map fun
    | .table key fresh _ => .table key fresh true
    | frame => frame

/-- Takes note that an entry is complete. -/
def settled : Stack → Stack
  | [] => []
  | .table key _ headed :: outer => .table key false headed :: outer
  | .array size _ style :: outer => .array size false style :: outer

/-- The table at hand goes on to the entry `key`. -/
def atKey (key : String) : Stack → Stack
  | .table _ fresh headed :: outer => .table key fresh headed :: outer
  | stack => stack

/-- Takes note of how an element is written, if it is the first one of an array. -/
def styled (style : Style) : Stack → Stack
  | .array size fresh none :: outer => .array size fresh (some style) :: outer
  | stack => stack

/-- What ends a value: a line end if it is the value of a key. -/
def lineEnd : Stack → List Char
  | .table .. :: _ => ['\n']
  | _ => []

/-- The header of a table at this place, or of the next element of an array, after a blank line if something
    stands before it. -/
def headerLine : Stack → List Char
  | [] => []
  | .table key fresh headed :: outer =>
    (if fresh then [] else ['\n']) ++ '[' :: path (.table key fresh headed :: outer) ++ [']', '\n']
  | .array _ fresh _ :: outer =>
    let first := fresh && !outer.head?.any fun
      | .table _ fresh _ => !fresh
      | .array .. => false
    (if first then [] else ['\n']) ++ '[' :: '[' :: path outer ++ [']', ']', '\n']

/-- The headers of the array elements around a place of which nothing has been written. -/
def pendingHeaders : Stack → List Char
  | .table _ true _ :: .array size fresh style :: .table key fresh' headed :: outer =>
    (if fresh then pendingHeaders (.table key fresh' headed :: outer) else [])
      ++ headerLine (.array size fresh style :: .table key fresh' headed :: outer)
  | .table _ true _ :: outer => pendingHeaders outer
  | _ => []

/-- The header of a table at this place, with those that have to come before it. -/
def header : Stack → List Char
  | .array size true style :: outer => pendingHeaders outer ++ headerLine (.array size true style :: outer)
  | stack => pendingHeaders stack ++ headerLine stack

/-- What comes before a plain value: its key, with the header of its table if that is due, or the separator of
    an array, with what comes before the array if the value is its first element. -/
def lead? : Stack → Option (List Char × Stack)
  | [] => some ([], [])
  | .table key fresh headed :: outer =>
    if headed then none
    else if fresh then some (header outer ++ keyText key ++ [' ', '=', ' '], .table key false headed :: marked outer)
    else some (keyText key ++ [' ', '=', ' '], .table key false headed :: outer)
  | .array size fresh style :: outer => do
    let (text, outer) ← if fresh then lead? outer else some ([], outer)
    let separator :=
      if size ≤ 1 then if fresh then ['['] else [',', ' ']
      else (if fresh then ['[', '\n'] else [',', '\n']) ++ [' ', ' ', ' ', ' ']
    some (text ++ separator, .array size fresh style :: outer)

end Stack

/-- Writes a plain value at a place. -/
def plain? (text : List Char) (stack : Stack) : Option (List Char × Stack) := do
  let (lead, stack) ← Stack.lead? (stack.styled .plain)
  some (lead ++ text ++ stack.lineEnd, stack)

/-- Writes a table at a place: its entries, or its header if it has none. -/
def table? (entries : Stack → Option (List Char × Stack)) (stack : Stack) : Option (List Char × Stack) := do
  match ← entries (.table "" true false :: stack.styled .tables) with
  | (text, .table _ true _ :: stack) => some (text ++ Stack.header stack, Stack.marked stack)
  | (text, stack) => some (text, stack.tail)

/-- Writes an array at a place. Without elements it is a plain value. -/
def array? (elements : Stack → Option (List Char × Stack)) (size : Nat) (stack : Stack) :
    Option (List Char × Stack) := do
  match ← elements (.array size true none :: stack.styled .plain) with
  | (text, .array _ _ (some .tables) :: stack) => some (text, stack)
  | (text, .array _ _ (some .plain) :: stack) =>
    some (text ++ (if size ≤ 1 then [']'] else [',', '\n', ']']) ++ Stack.lineEnd stack, stack)
  | (text, stack) =>
    let (last, stack) ← plain? ['[', ']'] stack.tail
    some (text ++ last, stack)

/-- The group of a value among the entries of its table. -/
inductive Group where
  | plain
  /-- An array that directly contains a table. -/
  | arrayOfTables
  | table
  deriving DecidableEq, Repr

/-- Whether a value is written as a table. A date or time is. -/
def isTable : Value → Bool
  | .table _ | .moment _ => true
  | _ => false

/-- The group of a value. -/
def groupOf : Value → Group
  | .table _ | .moment _ => .table
  | .array elements => if elements.any isTable then .arrayOfTables else .plain
  | _ => .plain

mutual

/-- Writes a value at a place. A date or time is written as a table with its text as the only entry. -/
def value? : Value → Stack → Option (List Char × Stack)
  | .boolean true, stack => plain? ['t', 'r', 'u', 'e'] stack
  | .boolean false, stack => plain? ['f', 'a', 'l', 's', 'e'] stack
  | .integer value, stack => plain? (integerText value) stack
  | .float value, stack => plain? value.text stack
  | .string text, stack => plain? (stringText text.toList) stack
  | .moment moment, stack =>
    table? (fun stack => (plain? (stringText moment.text) (stack.atKey momentKey)).map fun done =>
      (done.1, done.2.settled)) stack
  | .array elements, stack => array? (elements? elements) elements.length stack
  | .table entries, stack =>
    table? (fun stack => do
      let (first, stack) ← entries? .plain entries stack
      let (second, stack) ← entries? .arrayOfTables entries stack
      let (third, stack) ← entries? .table entries stack
      some (first ++ second ++ third, stack)) stack

/-- Writes the elements of an array. -/
def elements? : List Value → Stack → Option (List Char × Stack)
  | [], stack => some ([], stack)
  | value :: rest, stack => do
    let (text, stack) ← value? value stack
    let (more, stack) ← elements? rest stack.settled
    some (text ++ more, stack)

/-- Writes the entries of a table that belong to a group. -/
def entries? (group : Group) : List (String × Value) → Stack → Option (List Char × Stack)
  | [], stack => some ([], stack)
  | (key, value) :: rest, stack =>
    if groupOf value = group then do
      let (text, stack) ← value? value (stack.atKey key)
      let (more, stack) ← entries? group rest stack.settled
      some (text ++ more, stack)
    else entries? group rest stack

end

end Layout

/-- The text of a document, unless a plain value would have to follow a header of its own table. -/
def Table.toText? (table : Table) : Option String :=
  (Layout.value? (.table table) []).map fun written => String.ofList written.1

end LedSwitch.Toml
