import Mathlib.Tactic.Common
import LedSwitch.Proofs.Toml.Pieces

/-!
What is written for a value that is not plain, as pieces. A table has its own lines, then the pieces of its arrays
of tables, then those of its tables; `Layout.pieces` lists them for the place at which the value stands. Only flat
values come out as pieces: in any other value some array holds tables beside values that are none.
-/

namespace LedSwitch.Toml

namespace Value

mutual

/-- Whether each array in a value is plain, or begins with a table and holds only tables and such arrays. -/
def isFlat : Value → Bool
  | .array elements => arePlain elements || (elements.head?.any Layout.isTable && areElements elements)
  | .table entries => areFlat entries
  | _ => true

/-- Whether a value can stand in an array that begins with a table. -/
def isElement : Value → Bool
  | .moment _ => true
  | .table entries => areFlat entries
  | .array elements => elements.head?.any Layout.isTable && areElements elements
  | _ => false

/-- Whether values can all stand in an array that begins with a table. -/
def areElements : List Value → Bool
  | [] => true
  | value :: rest => value.isElement && areElements rest

/-- Whether the values of entries are all flat. -/
def areFlat : List (String × Value) → Bool
  | [] => true
  | (_, value) :: rest => value.isFlat && areFlat rest

end

theorem isFlat_of_isPlain {value : Value} (h : value.isPlain = true) : value.isFlat = true := by
  cases value with
  | array elements =>
    rw [isPlain] at h
    simp [isFlat, h]
  | moment _ | table _ => simp [isPlain] at h
  | _ => rfl

theorem not_isPlain_of_isTable {value : Value} (h : Layout.isTable value = true) : value.isPlain = false := by
  cases value <;> simp_all [Layout.isTable, isPlain]

theorem not_arePlain_of_any_isTable {values : List Value} (h : values.any Layout.isTable = true) :
    arePlain values = false := by
  induction values with
  | nil => simp at h
  | cons value rest ih =>
    simp only [List.any_cons, Bool.or_eq_true] at h
    rcases h with h | h
    · simp [arePlain, not_isPlain_of_isTable h]
    · simp [arePlain, ih h]

/-- A plain value belongs to the first group of its table. -/
theorem groupOf_of_isPlain {value : Value} (h : value.isPlain = true) : Layout.groupOf value = .plain := by
  cases value with
  | array elements =>
    by_cases hany : elements.any Layout.isTable = true
    · rw [isPlain, not_arePlain_of_any_isTable hany] at h
      cases h
    · simp [Layout.groupOf, hany]
  | moment _ | table _ => simp [isPlain] at h
  | _ => rfl

/-- A flat value of the first group is plain. -/
theorem isPlain_of_isFlat {value : Value} (h : value.isFlat = true) (hgroup : Layout.groupOf value = .plain) :
    value.isPlain = true := by
  cases value with
  | array elements =>
    rw [isFlat, Bool.or_eq_true, Bool.and_eq_true] at h
    rcases h with h | ⟨hhead, -⟩
    · simpa [isPlain] using h
    · have hany : elements.any Layout.isTable = true := by
        cases elements with
        | nil => simp at hhead
        | cons first rest => simp_all
      simp [Layout.groupOf, hany] at hgroup
  | moment _ | table _ => simp [Layout.groupOf] at hgroup
  | _ => rfl

end Value

namespace Layout

/-- Where a value stands whose pieces are asked for. -/
inductive Site where
  /-- At a key. -/
  | key
  /-- In an array at a key. -/
  | element
  /-- In an array within an array. -/
  | inner
  deriving DecidableEq, Repr

namespace Site

/-- Headers stand in double brackets. -/
def repeated : Site → Bool
  | .key => false
  | _ => true

/-- Where the elements stand of an array at this place. -/
def ofElements : Site → Site
  | .key => .element
  | _ => .inner

end Site

/-- Whether a group has an entry. -/
def hasGroup (group : Group) (entries : List (String × Value)) : Bool :=
  entries.any fun entry => groupOf entry.2 = group

theorem isEmpty_of_hasGroup {group : Group} {entries : List (String × Value)} (h : hasGroup group entries = true) :
    entries.isEmpty = false := by
  cases entries with
  | nil => simp [hasGroup] at h
  | cons => rfl

theorem eq_nil_of_not_hasGroup {entries : List (String × Value)} (h : ∀ group, ¬ hasGroup group entries = true) :
    entries = [] := by
  cases entries with
  | nil => rfl
  | cons first rest => exact absurd (by simp [hasGroup]) (h (groupOf first.2))

/-- Whether a table is written under a header of its own, as it has plain values or nothing at all. -/
def hasHeader (entries : List (String × Value)) : Bool :=
  entries.isEmpty || hasGroup .plain entries

/-- The header of a table. An element of an array at a key always has one. -/
def headerPieces (site : Site) (keys : List String) (entries : List (String × Value)) : List Piece :=
  if site = .element ∨ hasHeader entries then [.header site.repeated keys] else []

mutual

/-- The pieces of a value that is not plain. -/
def pieces (site : Site) (keys : List String) : Value → List Piece
  | .moment moment => [.header site.repeated keys, .line momentKey (.string (String.ofList moment.text))]
  | .table entries =>
    headerPieces site keys entries ++ (groupPieces .plain keys entries ++
      (groupPieces .arrayOfTables keys entries ++ groupPieces .table keys entries))
  | .array elements => elementPieces site.ofElements keys elements
  | _ => []

/-- The pieces of elements. -/
def elementPieces (site : Site) (keys : List String) : List Value → List Piece
  | [] => []
  | value :: rest => pieces site keys value ++ elementPieces site keys rest

/-- The pieces of the entries that belong to a group. -/
def groupPieces (group : Group) (keys : List String) : List (String × Value) → List Piece
  | [] => []
  | (key, value) :: rest =>
    if groupOf value = group then
      (if group = .plain then [.line key value] else pieces .key (keys ++ [key]) value) ++ groupPieces group keys rest
    else groupPieces group keys rest

end

/-- The pieces of an entry of a group. -/
def entryPieces (group : Group) (keys : List String) (key : String) (value : Value) : List Piece :=
  if group = .plain then [.line key value] else pieces .key (keys ++ [key]) value

theorem groupPieces_cons (group : Group) (keys : List String) (key : String) (value : Value)
    (rest : List (String × Value)) :
    groupPieces group keys ((key, value) :: rest) =
      if groupOf value = group then entryPieces group keys key value ++ groupPieces group keys rest
      else groupPieces group keys rest := by
  rw [groupPieces]
  rfl

theorem groupPieces_eq_nil {group : Group} {entries : List (String × Value)}
    (h : ∀ entry ∈ entries, groupOf entry.2 ≠ group) (keys : List String) : groupPieces group keys entries = [] := by
  induction entries with
  | nil => rw [groupPieces]
  | cons first rest ih =>
    rw [groupPieces_cons, if_neg (h first List.mem_cons_self), ih fun entry hentry => h entry (List.mem_cons_of_mem _ hentry)]

/-- The pieces of a document. -/
def documentPieces (table : Table) : List Piece :=
  groupPieces .plain [] table ++ (groupPieces .arrayOfTables [] table ++ groupPieces .table [] table)

end Layout

end LedSwitch.Toml
