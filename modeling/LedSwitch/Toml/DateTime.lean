import LedSwitch.Text.Parts

/-!
Dates and times of a TOML document: a date, a time of day, or both with or without an offset from UTC.
`DateTime.ofText?` reads one, `DateTime.text` writes it in its one canonical form.
-/

namespace LedSwitch.Toml

structure Date where
  year : Nat
  month : Nat
  day : Nat
  deriving DecidableEq, Repr

/-- A time of day. -/
structure Clock where
  hour : Nat
  minute : Nat
  second : Nat
  nanosecond : Nat
  deriving DecidableEq, Repr

/-- How far a clock is ahead of UTC. -/
inductive Offset where
  | utc
  /-- So many hours, with a sign, and minutes to be counted in the direction of the hours. -/
  | shifted (hours : Int) (minutes : Nat)
  deriving DecidableEq, Repr

inductive DateTime where
  | date (date : Date)
  | time (time : Clock)
  | full (date : Date) (time : Clock) (offset : Option Offset)
  deriving DecidableEq, Repr

namespace DateTime

/-- The number that exactly `count` digits spell, and what follows them. -/
def digits? : (count : Nat) → (value : Nat) → List Char → Option (Nat × List Char)
  | 0, value, rest => some (value, rest)
  | _ + 1, _, [] => none
  | count + 1, value, c :: rest =>
    if c.isDigit then digits? count (value * 10 + (c.toNat - '0'.toNat)) rest else none

/-- Reads a date; a month has up to thirty-one days, whichever it is. -/
def date? (text : List Char) : Option (Date × List Char) := do
  let (year, text) ← digits? 4 0 text
  let (month, text) ← digits? 2 0 (← Parts.after? '-' text)
  let (day, text) ← digits? 2 0 (← Parts.after? '-' text)
  if 1 ≤ month ∧ month ≤ 12 ∧ 1 ≤ day ∧ day ≤ 31 then some (⟨year, month, day⟩, text) else none

/-- Reads a fraction of a second, if there is one. Digits beyond the ninth do not count. -/
def fraction? (text : List Char) : Option (Nat × List Char) :=
  match Parts.after? '.' text with
  | none => some (0, text)
  | some text =>
    let digits := text.takeWhile Char.isDigit
    if digits.isEmpty then none
    else
      let nine := (digits ++ List.replicate 9 '0').take 9
      some (nine.foldl (fun value c => value * 10 + (c.toNat - '0'.toNat)) 0, text.dropWhile Char.isDigit)

/-- Reads a time of day. The hour twenty-four is allowed and the second sixty is not. -/
def clock? (text : List Char) : Option (Clock × List Char) := do
  let (hour, text) ← digits? 2 0 text
  let (minute, text) ← digits? 2 0 (← Parts.after? ':' text)
  let (second, text) ← digits? 2 0 (← Parts.after? ':' text)
  let (nanosecond, text) ← fraction? text
  if hour ≤ 24 ∧ minute ≤ 59 ∧ second ≤ 59 then some (⟨hour, minute, second, nanosecond⟩, text) else none

/-- Reads an offset, if there is one, up to the end of the text. -/
def offset? : List Char → Option (Option Offset)
  | [] => some none
  | sign :: text => do
    if sign = 'Z' ∨ sign = 'z' then
      if text.isEmpty then some (some .utc) else none
    else if sign = '+' ∨ sign = '-' then
      let (hours, text) ← digits? 2 0 text
      let (minutes, text) ← digits? 2 0 (← Parts.after? ':' text)
      if text.isEmpty then some (some (.shifted (if sign = '-' then -(hours : Int) else hours) minutes)) else none
    else none

/-- Reads a date, a time or both. A `T` or one space stands between them. -/
def ofText? (text : List Char) : Option DateTime :=
  if text[2]? = some ':' then do
    let (t, text) ← clock? text
    if text.isEmpty then some (.time t) else none
  else do
    let (d, text) ← date? text
    match text with
    | [] => some (.date d)
    | c :: text =>
      if c = 'T' ∨ c = 't' ∨ c = ' ' then do
        let (t, text) ← clock? text
        (offset? text).map (.full d t)
      else none

/-- A number with at least `width` digits. -/
def padded (width n : Nat) : List Char :=
  let digits := Nat.toDigits 10 n
  List.replicate (width - digits.length) '0' ++ digits

/-- The canonical text of a date. -/
def dateText (d : Date) : List Char := padded 4 d.year ++ '-' :: padded 2 d.month ++ '-' :: padded 2 d.day

/-- The canonical text of a time: a fraction only if there is one, and without zeros at its end. -/
def clockText (t : Clock) : List Char :=
  let fraction := ((padded 9 t.nanosecond).reverse.dropWhile (· = '0')).reverse
  padded 2 t.hour ++ ':' :: padded 2 t.minute ++ ':' :: padded 2 t.second
    ++ (if fraction.isEmpty then [] else '.' :: fraction)

/-- The canonical text of an offset. -/
def offsetText : Option Offset → List Char
  | none => []
  | some .utc => ['Z']
  | some (.shifted hours minutes) =>
    (if hours < 0 then '-' else '+') :: padded 2 hours.natAbs ++ ':' :: padded 2 minutes

/-- The canonical text. -/
def text : DateTime → List Char
  | .date d => dateText d
  | .time t => clockText t
  | .full d t offset => dateText d ++ 'T' :: clockText t ++ offsetText offset

end DateTime

end LedSwitch.Toml
