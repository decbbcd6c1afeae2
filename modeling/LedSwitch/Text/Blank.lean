/-!
White space: the characters with the property White_Space of the Unicode character database, among them the line
separators and the spaces of fixed width. Characters without any width, such as U+200B and U+FEFF, are not blank.
-/

namespace LedSwitch.Blank

/-- Whether the character is white space. -/
def holds (c : Char) : Bool :=
  let n := c.toNat
  (0x9 ≤ n && n ≤ 0xD) || n = 0x20 || n = 0x85 || n = 0xA0 || n = 0x1680 || (0x2000 ≤ n && n ≤ 0x200A)
    || n = 0x2028 || n = 0x2029 || n = 0x202F || n = 0x205F || n = 0x3000

/-- The text without the white space at both ends. -/
def trim (text : List Char) : List Char := ((text.dropWhile holds).reverse.dropWhile holds).reverse

end LedSwitch.Blank
