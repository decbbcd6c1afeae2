import LedSwitch.Toml.Item

/-!
A TOML document as a list of sections: what stands before the first header, and then one section for each
header. The headers are not yet related to each other; `Assembly` does that.
-/

namespace LedSwitch.Toml

/-- A header with the entries below it. -/
structure Section where
  /-- The keys of the header; none for what stands before the first one. -/
  header : List String
  /-- The header stands in double brackets, so that it opens an element of an array. -/
  repeated : Bool
  body : List (String × Item)

namespace Section

/-- Reads a header after its first bracket, to the end of its line. -/
def ofHeader? (text : List Char) : Option (Section × List Char) := do
  let inner := Parts.after? '[' text
  let (keys, text) ← Scan.keys? (inner.getD text)
  let text ← Parts.after? ']' text
  let text ← if inner.isSome then Parts.after? ']' text else some text
  let text ← Scan.lineEnd? text
  some (⟨keys, inner.isSome, []⟩, text)

/-- The section with one more entry, read from a line. -/
def extend? (s : Section) (text : List Char) : Option (Section × List Char) := do
  let (keys, text) ← Scan.keys? text
  let text ← Parts.after? '=' text
  let (item, text) ← Item.read? (Scan.skipBlanks text)
  let text ← Scan.lineEnd? text
  let body ← Item.insertAt? item keys s.body
  some ({ s with body := body }, text)

/-- The section in front of others. Nothing before the first header is no section. -/
def consIfAny (s : Section) (rest : List Section) : List Section :=
  if s.header.isEmpty ∧ s.body.isEmpty then rest else s :: rest

/-- Reads on within a section. Each turn takes a header or an entry, the fuel bounds their number. -/
def readUpTo? : (fuel : Nat) → Section → List Char → Option (List Section)
  | 0, _, _ => none
  | fuel + 1, s, text => do
    let text ← Scan.skipLines false text
    match text with
    | [] => some (s.consIfAny [])
    | c :: rest =>
      if c = '[' then
        let (next, rest) ← ofHeader? rest
        (readUpTo? fuel next rest).map s.consIfAny
      else
        let (s, rest) ← s.extend? (c :: rest)
        readUpTo? fuel s rest

/-- Reads a document. A byte order mark at its beginning does not count. -/
def listOfText? (text : List Char) : Option (List Section) :=
  let text := Scan.unifyLines text
  let text := (Parts.after? '\ufeff' text).getD text
  readUpTo? (text.length + 1) ⟨[], false, []⟩ text

end Section

end LedSwitch.Toml
