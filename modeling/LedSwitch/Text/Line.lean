import LedSwitch.Text.Utf8

/-!
The first line of a byte sequence. Only the bytes up to and including the first line feed belong to it, and
only they have to be well-formed text; a line's text is what stands before its trailing line ends.
-/

namespace LedSwitch.Line

/-- The bytes up to and including the first line feed, or all of them if there is none. -/
def headBytes : List UInt8 → List UInt8
  | [] => []
  | b :: rest => if b = 10 then [b] else b :: headBytes rest

/-- Line feed and carriage return. -/
def isEnd (c : Char) : Bool := c = '\n' || c = '\r'

/-- The text without the line feeds and carriage returns at its end, however many there are. -/
def trimEnd (text : List Char) : List Char := (text.reverse.dropWhile isEnd).reverse

/-- What reading one line finds. -/
inductive First where
  /-- There are no bytes at all. -/
  | nothing
  /-- The first line is not well-formed text. -/
  | malformed
  /-- The first line without its end. -/
  | text (line : String)
  deriving DecidableEq, Repr

/-- Reads the first line. -/
def first (bytes : List UInt8) : First :=
  if bytes.isEmpty then .nothing
  else match Utf8.decodeChars (headBytes bytes) with
    | none => .malformed
    | some line => .text (String.ofList (trimEnd line))

@[simp] theorem first_nil : first [] = .nothing := rfl

/-- What follows the first line feed is no part of the first line. -/
theorem headBytes_append_of_mem {bytes : List UInt8} (h : 10 ∈ bytes) (more : List UInt8) :
    headBytes (bytes ++ more) = headBytes bytes := by
  induction bytes with
  | nil => simp at h
  | cons b rest ih =>
    by_cases hb : b = 10
    · simp [headBytes, hb]
    · have hrest : 10 ∈ rest := by
        rcases List.mem_cons.1 h with h | h
        · exact absurd h.symm hb
        · exact h
      simp [headBytes, hb, ih hrest]

end LedSwitch.Line
