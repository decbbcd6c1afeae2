/-!
Sets of characters, built from ranges by union, intersection and complement, together with the named sets of
ASCII characters.
-/

namespace LedSwitch

/-- A set of characters. -/
inductive CharSet where
  | empty
  /-- The characters from `low` to `high`, both included. -/
  | range (low high : Char)
  | union (first second : CharSet)
  | inter (first second : CharSet)
  | compl (set : CharSet)
  /-- The characters of a set, each in both cases if it is an ASCII letter. -/
  | anyCase (set : CharSet)
  deriving DecidableEq, Repr

namespace CharSet

/-- Whether the character is in the set. -/
def holds : CharSet → Char → Bool
  | .empty, _ => false
  | .range low high, c => low ≤ c && c ≤ high
  | .union first second, c => first.holds c || second.holds c
  | .inter first second, c => first.holds c && second.holds c
  | .compl set, c => !set.holds c
  | .anyCase set, c => set.holds c || set.holds c.toLower || set.holds c.toUpper

/-- The set of one character. -/
def single (c : Char) : CharSet := .range c c

/-- What is in the first set and not in the second. -/
def diff (first second : CharSet) : CharSet := .inter first (.compl second)

/-- What is in one of the sets and not in both. -/
def symmDiff (first second : CharSet) : CharSet := .union (first.diff second) (second.diff first)

/-- What is in one of the sets at least. -/
def ofList (sets : List CharSet) : CharSet := sets.foldl .union .empty

/-- The sets between two characters each. -/
def ofRanges (ranges : List (Char × Char)) : CharSet := ofList (ranges.map fun range => .range range.1 range.2)

/-- Letters, digits and the low line, of which the words of ASCII text consist. -/
def asciiWord : CharSet := ofRanges [('0', '9'), ('A', 'Z'), ('_', '_'), ('a', 'z')]

/-- White space in ASCII text. -/
def asciiSpace : CharSet := ofRanges [('\t', '\r'), (' ', ' ')]

/-- The decimal digits. -/
def asciiDigit : CharSet := .range '0' '9'

/-- The named sets of ASCII characters. -/
def named : List (String × CharSet) :=
  [("alnum", ofRanges [('0', '9'), ('A', 'Z'), ('a', 'z')]),
    ("alpha", ofRanges [('A', 'Z'), ('a', 'z')]),
    ("ascii", .range '\x00' '\x7f'),
    ("blank", ofRanges [('\t', '\t'), (' ', ' ')]),
    ("cntrl", ofRanges [('\x00', '\x1f'), ('\x7f', '\x7f')]),
    ("digit", asciiDigit),
    ("graph", .range '!' '~'),
    ("lower", .range 'a' 'z'),
    ("print", .range ' ' '~'),
    ("punct", ofRanges [('!', '/'), (':', '@'), ('[', '\x60'), ('\x7b', '~')]),
    ("space", asciiSpace),
    ("upper", .range 'A' 'Z'),
    ("word", asciiWord),
    ("xdigit", ofRanges [('0', '9'), ('A', 'F'), ('a', 'f')])]

/-- How many ranges the set is built from. -/
def size : CharSet → Nat
  | .empty => 0
  | .range _ _ => 1
  | .union first second | .inter first second => first.size + second.size
  | .compl set | .anyCase set => set.size

/-- Whether the ranges of which the set is built, and so the set, lie in ASCII. -/
def isAscii : CharSet → Bool
  | .empty => true
  | .range _ high => high ≤ '\x7f'
  | .union first second => first.isAscii && second.isAscii
  | .inter first second => first.isAscii || second.isAscii
  | .compl _ => false
  | .anyCase set => set.isAscii

end CharSet

end LedSwitch
