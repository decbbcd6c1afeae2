import LedSwitch.Text.Unprintable

/-!
Quoted text: a text between double quotes on one line, from which the text can be told again. The quote, the
backslash, NUL, tab, line feed and carriage return are written as a backslash and one character; any other
unprintable character as its number in hexadecimal, `\u{…}`. An apostrophe stands as it is.
-/

namespace LedSwitch.Quoted

/-- The letter that follows the backslash in a two-character escape. -/
def shortEscape? (c : Char) : Option Char :=
  if c = '\x00' then some '0'
  else if c = '\t' then some 't'
  else if c = '\r' then some 'r'
  else if c = '\n' then some 'n'
  else if c = '"' then some '"'
  else if c = '\\' then some '\\'
  else none

/-- How one character is written between the quotes. -/
def escape (c : Char) : List Char :=
  match shortEscape? c with
  | some letter => ['\\', letter]
  | none =>
    if Unprintable.holds c then '\\' :: 'u' :: '\x7b' :: (Nat.toDigits 16 c.toNat ++ ['\x7d'])
    else [c]

/-- The text between double quotes. -/
def quote (text : String) : String :=
  String.ofList ('"' :: (text.toList.flatMap escape ++ ['"']))

end LedSwitch.Quoted
