import LedSwitch.Toml.Document

/-!
The table that the sections of a document make together. A visit gathers one table: it goes through the sections
whose headers begin with the header of the table, in the order of the document. A section with just that header
gives its entries and is used up; a longer header gives the entry for its next key, which a visit of its own
gathers. Elements of an array are gathered each from the sections before the next element. Every step passes the
numbers of the sections that are used up.
-/

namespace LedSwitch.Toml

/-- A section and its number in the document. -/
abbrev Numbered := Section × Nat

namespace Assembly

/-- The table whose sections are visited. -/
structure Target where
  /-- The header of the table. -/
  header : List String
  /-- It is not the document itself, so a key stands for one value only and may be the key of dates. -/
  nested : Bool

/-- Adds the entries of a section to the table. -/
def Target.addBody? (target : Target) (gathered : Table) (body : List (String × Item)) : Option Gathered :=
  if target.nested then Item.gather? gathered body else (Item.overlay? gathered body).map .table

/-- Whether a value can be added at a key. What begins with the key of dates would have to be a string. -/
def Target.accepts (target : Target) (gathered : Table) (key : String) : Bool :=
  !target.nested || !(gathered.contains key || gathered.isEmpty && key = momentKey)

/-- Goes through sections and adds to a table. Two sections must not have one header unless both open elements
    of an array; `parent` is the section against which that is checked, the one with the shortest header so
    far. -/
def visit? (child : Numbered → List Nat → Option (Value × List Nat)) (target : Target) :
    (parent : Numbered) → (used : List Nat) → Table → List Numbered → Option (Gathered × List Nat)
  | _, used, gathered, [] => some (.table gathered, used)
  | parent, used, gathered, (s, number) :: rest =>
    if number ∈ used ∨ !target.header.isPrefixOf s.header then visit? child target parent used gathered rest
    else if number ≠ parent.2 ∧ s.header = parent.1.header then none
    else
      let parent := if s.header.length < parent.1.header.length then (s, number) else parent
      match s.header.drop target.header.length with
      | key :: _ =>
        if !target.accepts gathered key then none
        else do
          let (value, used) ← child (s, number) used
          visit? child target parent used (gathered.insert key value) rest
      | [] =>
        if s.repeated then none
        else match target.addBody? gathered s.body with
          | none => none
          | some (.moment moment) => some (.moment moment, number :: used)
          | some (.table gathered) => visit? child target parent (number :: used) gathered rest

/-- The elements of an array from the sections that open them; the sections of an element have numbers below that
    of the next one, or below `limit`. -/
def elements? (element : Numbered → (limit : Nat) → List Nat → Option (Value × List Nat)) (limit : Nat) :
    List Numbered → (used : List Nat) → Option (List Value × List Nat)
  | [], used => some ([], used)
  | s :: rest, used => do
    let (value, used) ← element s ((rest.head?.map (·.2)).getD limit) used
    let (values, used) ← elements? element limit rest used
    some (value :: values, used)

/-- The value below the first `depth + 1` keys of the header of a section: an array if its header ends there and
    opens an element, otherwise a table. Only sections with numbers below `limit` count. `levels` bounds how many
    more keys the headers have. -/
def value? (all : List Numbered) :
    (levels depth limit : Nat) → Numbered → (used : List Nat) → Option (Value × List Nat)
  | 0, _, _, _, _ => none
  | levels + 1, depth, limit, first, used =>
    let header := first.1.header.take (depth + 1)
    let gather (limit : Nat) (s : Numbered) (used : List Nat) (gathered : Table) : Option (Value × List Nat) :=
      (visit? (value? all levels (depth + 1) limit) ⟨header, true⟩ s used gathered
        (all.filter (·.2 < limit))).map fun found => (found.1.value, found.2)
    if first.1.repeated ∧ first.1.header.length = depth + 1 then
      let element (s : Numbered) (limit : Nat) (used : List Nat) : Option (Value × List Nat) :=
        if s.2 ∈ used then none
        else match Item.gather? [] s.1.body with
          | none => none
          | some (.moment moment) => some (.moment moment, s.2 :: used)
          | some (.table gathered) => gather limit s (s.2 :: used) gathered
      let opening := all.filter fun s =>
        first.2 ≤ s.2 ∧ s.2 < limit ∧ s.1.repeated ∧ s.1.header = first.1.header
      (elements? element limit opening used).map fun found => (.array found.1, found.2)
    else gather limit first used []

/-- The table of a document. -/
def table? (sections : List Section) : Option Table :=
  let all := sections.zipIdx
  match all with
  | [] => some []
  | first :: _ =>
    let levels := all.foldl (fun most s => max most s.1.header.length) 0
    match visit? (value? all levels 0 all.length) ⟨[], false⟩ first [] [] all with
    | some (.table entries, _) => some entries
    | _ => none

end Assembly

/-- Reads a document. -/
def Table.ofText? (text : String) : Option Table :=
  (Section.listOfText? text.toList).bind Assembly.table?

end LedSwitch.Toml
