import LedSwitch.Proofs.Toml.Mixed
import LedSwitch.Proofs.Toml.Sections

/-!
What is written for a table that is not flat is no document. An array in it that is neither plain nor an array of
tables is spelled as a list, in which no header can stand, or as sections, after which a comma or a closing bracket
cannot stand. `Layout.spelledOnlyIf_value?` and `Layout.spelledOnlyIf_entries?` are the induction, and
`Table.ofText?_eq_none` is what comes of it.
-/

namespace LedSwitch.Toml

/-- A text that is spelled, and then `p` holds, or that is no part of a document. -/
def SpelledOnlyIf (text : List Char) (p : Prop) : Prop :=
  Section.Broken text ∨ ((∃ pieces, Spells text pieces) ∧ p)

namespace SpelledOnlyIf

variable {text more : List Char} {p q : Prop}

theorem of_spells {pieces : List Piece} (h : Spells text pieces) (hp : p) : SpelledOnlyIf text p :=
  Or.inr ⟨⟨pieces, h⟩, hp⟩

theorem imp (h : SpelledOnlyIf text p) (hpq : p → q) : SpelledOnlyIf text q :=
  Or.imp id (And.imp id hpq) h

theorem append (h : SpelledOnlyIf text p) (hmore : SpelledOnlyIf more q) : SpelledOnlyIf (text ++ more) (p ∧ q) := by
  rcases h with hbroken | ⟨⟨pieces, htext⟩, hp⟩
  · exact Or.inl (hbroken.append more)
  rcases hmore with hbroken | ⟨⟨others, hmore⟩, hq⟩
  · exact Or.inl (hbroken.after htext)
  · exact of_spells (htext.append hmore) ⟨hp, hq⟩

/-- What cannot stand in a document cannot stand after something either. -/
theorem broken (h : SpelledOnlyIf text p) (hbroken : Section.Broken more) : Section.Broken (text ++ more) := by
  rcases h with htext | ⟨⟨pieces, htext⟩, -⟩
  · exact htext.append more
  · exact hbroken.after htext

end SpelledOnlyIf

namespace Value

theorem isFlat_of_isElement {value : Value} (h : value.isElement = true) : value.isFlat = true := by
  cases value with
  | array elements =>
    rw [isElement] at h
    rw [isFlat, h, Bool.or_true]
  | table entries => exact h
  | _ => rfl

theorem areFlat_iff {entries : List (String × Value)} :
    areFlat entries = true ↔ ∀ entry ∈ entries, entry.2.isFlat = true := by
  induction entries with
  | nil => simp [areFlat]
  | cons first rest ih =>
    obtain ⟨key, value⟩ := first
    simp [areFlat, ih]

end Value

namespace Layout

namespace Stack

/-- A place at which a table can stand: the document itself, or one that is below a key. -/
def Placed (stack : Stack) : Prop := stack = [] ∨ keys stack ≠ []

theorem Placed.of_bare {stack other : Stack} (h : Placed stack) (hbare : bare other = bare stack) : Placed other := by
  have hkeys : keys other = keys stack := by
    rw [← keys_bare, hbare, keys_bare]
  rcases h with rfl | h
  · exact Or.inl (List.map_eq_nil_iff.1 hbare)
  · exact Or.inr (hkeys ▸ h)

theorem Placed.styled {stack : Stack} (h : Placed stack) (style : Style) : Placed (stack.styled style) := by
  rcases h with rfl | h
  · exact Or.inl rfl
  · exact Or.inr (by rwa [keys_styled])

theorem Placed.spells_header {stack : Stack} (h : Placed stack) : ∃ pieces, Spells stack.header pieces := by
  rcases h with rfl | h
  · exact ⟨[], Spells.nil⟩
  · exact ⟨_, Stack.spells_header stack h⟩

/-- Before a plain entry of a table stands its key, and the header of the table if nothing is written of it. -/
theorem Placed.of_lead?_table {key : String} {fresh headed : Bool} {outer above : Stack} {lead : List Char}
    (hplace : Placed outer) (h : lead? (.table key fresh headed :: outer) = some (lead, above)) :
    ∃ header pieces, Spells header pieces ∧ lead = header ++ (keyText key ++ [' ', '=', ' ']) ∧
      above.lineEnd = ['\n'] := by
  rw [lead?] at h
  split_ifs at h
  · obtain ⟨rfl, rfl⟩ := Prod.mk.injEq .. ▸ Option.some.inj h
    obtain ⟨pieces, hpieces⟩ := hplace.spells_header
    exact ⟨_, pieces, hpieces, List.append_assoc .., rfl⟩
  · obtain ⟨rfl, rfl⟩ := Prod.mk.injEq .. ▸ Option.some.inj h
    exact ⟨[], [], Spells.nil, rfl, rfl⟩

end Stack

open Stack (Placed)

/-- An entry of a table whose value does not begin with a table. -/
theorem spelledOnlyIf_line {value : Value} (hopens : value.opensTable = false) {key : String} {fresh headed : Bool}
    {outer after : Stack} {text : List Char} (hplace : Placed outer)
    (h : value? value (.table key fresh headed :: outer) = some (text, after)) :
    SpelledOnlyIf text (value.isFlat = true) := by
  obtain ⟨lead, above, _, hlead, -⟩ := lead?_of_not_opensTable hopens h
  obtain ⟨header, pieces, hheader, rfl, hline⟩ := hplace.of_lead?_table hlead
  rcases isPlain_or_unread hopens h hlead with hplain | ⟨body, hbody, rfl⟩
  · have hwritten := value?_of_isPlain value hplain _ _ _ hlead
    obtain ⟨rfl, -⟩ := Prod.mk.injEq .. ▸ Option.some.inj (hwritten ▸ h)
    have htext := hheader.append (Spells.nil.line key hplain)
    exact .of_spells (by simpa [lineText, hline] using htext) (Value.isFlat_of_isPlain hplain)
  · have hbroken := (Section.broken_of_unread key hbody).after hheader
    exact Or.inl (by simpa using hbroken)

/-- A table is written from its entries. -/
theorem spelledOnlyIf_table {entries : List (String × Value)}
    (hentries : ∀ group key fresh headed outer after text, Placed outer →
      entries? group entries (.table key fresh headed :: outer) = some (text, after) →
      SpelledOnlyIf text (∀ entry ∈ entries, groupOf entry.2 = group → entry.2.isFlat = true))
    {stack after : Stack} {text : List Char} (hplace : Placed stack)
    (h : value? (.table entries) stack = some (text, after)) : SpelledOnlyIf text (Value.areFlat entries = true) := by
  obtain ⟨first, one, second, two, third, three, last, hfirst, hsecond, hthird, rfl, hlast⟩ := of_value?_table h
  have hplace := hplace.styled .tables
  obtain ⟨_, _, _, outside, rfl, hone⟩ := bare_entries? entries hfirst
  have houtside := hplace.of_bare hone
  obtain ⟨_, _, _, between, rfl, htwo⟩ := bare_entries? entries hsecond
  have hbetween := houtside.of_bare htwo
  obtain ⟨_, _, _, within, rfl, hthree⟩ := bare_entries? entries hthird
  have hend : SpelledOnlyIf last True := by
    rcases hlast with ⟨_, _, outer, heq, rfl, -⟩ | ⟨rfl, -⟩
    · obtain ⟨-, rfl⟩ := List.cons.inj heq
      obtain ⟨pieces, hpieces⟩ := (hbetween.of_bare hthree).spells_header
      exact .of_spells hpieces trivial
    · exact .of_spells Spells.nil trivial
  have hplain := hentries _ _ _ _ _ _ _ hplace hfirst
  have harrays := hentries _ _ _ _ _ _ _ houtside hsecond
  have htables := hentries _ _ _ _ _ _ _ hbetween hthird
  refine (hplain.append (harrays.append (htables.append hend))).imp ?_
  rintro ⟨hplain, harrays, htables, -⟩
  refine Value.areFlat_iff.2 fun entry hentry => ?_
  cases hgroup : groupOf entry.2 with
  | plain => exact hplain entry hentry hgroup
  | arrayOfTables => exact harrays entry hentry hgroup
  | table => exact htables entry hentry hgroup

mutual

/-- What is written for a value that begins with a table is part of a document only if the value can stand in an
    array of tables. -/
theorem spelledOnlyIf_value? : ∀ {value : Value}, value.opensTable = true → ∀ {stack after : Stack} {text : List Char},
    stack.keys ≠ [] → value? value stack = some (text, after) → SpelledOnlyIf text (value.isElement = true)
  | .moment moment, _, stack, _, _, hkeys, h => by
    obtain ⟨rfl, -⟩ := Prod.mk.injEq .. ▸ Option.some.inj (value?_moment moment stack ▸ h)
    have hheader := Stack.spells_header (stack.styled .tables) (by rwa [Stack.keys_styled])
    have hline := Spells.nil.line momentKey (show (Value.string (String.ofList moment.text)).isPlain = true from rfl)
    exact .of_spells (by simpa using hheader.append hline) rfl
  | .table entries, _, stack, _, _, hkeys, h =>
    spelledOnlyIf_table (fun _ _ _ _ _ _ _ => spelledOnlyIf_entries? entries) (Or.inr hkeys) h
  | .array [], hopens, _, _, _, _, _ => by simp [Value.opensTable] at hopens
  | .array (first :: rest), hopens, stack, _, _, hkeys, h => by
    rw [Value.opensTable] at hopens
    obtain ⟨_, between, _, done, last, hvalue, hmore, rfl, htables, hplain⟩ := of_value?_array h
    have hplace : (Stack.keys (.array (first :: rest).length true none :: stack.styled .plain)) ≠ [] := by
      rwa [Stack.keys_cons_array, Stack.keys_styled]
    have hfirst := spelledOnlyIf_value? hopens hplace hvalue
    have hbetween := bare_value? hvalue
    rw [Stack.styled_cons_none, Stack.bare_cons_array] at hbetween
    obtain ⟨_, inner, rfl, hinner⟩ := Stack.eq_array_of_bare hbetween
    have hinnerKeys : Stack.keys inner ≠ [] := by
      rwa [← Stack.keys_bare, hinner, Stack.keys_bare, Stack.keys_styled]
    have hrest := spelledOnlyIf_elements? rest hinnerKeys hmore
    obtain ⟨fresh, outer, rfl, -⟩ := Stack.eq_array_of_bare (bare_elements? rest hmore)
    cases htable : isTable first with
    | true =>
      obtain ⟨rfl, -⟩ := htables _ fresh outer (by rw [styleOf, if_pos htable])
      rw [List.append_nil]
      refine (hfirst.append hrest).imp fun ⟨hfirst, hrest⟩ => ?_
      simp [Value.isElement, Value.areElements, htable, hfirst, hrest]
    | false =>
      obtain ⟨-, c, tail, rfl, hc⟩ := hplain (first :: rest).length fresh outer (by simp [styleOf, htable])
      exact Or.inl (hfirst.broken (hrest.broken (Section.broken_of_start hc tail)))
  | .boolean _, hopens, _, _, _, _, _ | .integer _, hopens, _, _, _, _, _ | .float _, hopens, _, _, _, _, _
  | .string _, hopens, _, _, _, _, _ => by simp [Value.opensTable] at hopens

/-- What is written for the elements of an array after the first one, as long as that began with a table. -/
theorem spelledOnlyIf_elements? : ∀ (values : List Value) {size : Nat} {style : Style} {outer after : Stack}
    {text : List Char}, outer.keys ≠ [] →
    elements? values (.array size false (some style) :: outer) = some (text, after) →
    SpelledOnlyIf text (Value.areElements values = true)
  | [], _, _, _, _, _, _, h => by
    obtain ⟨rfl, -⟩ := Prod.mk.injEq .. ▸ Option.some.inj h
    exact .of_spells Spells.nil rfl
  | value :: rest, size, style, outer, after, text, hkeys, h => by
    obtain ⟨first, between, more, hvalue, hmore, rfl⟩ := of_elements?_cons h
    cases hopens : value.opensTable with
    | true =>
      have hfirst := spelledOnlyIf_value? hopens (by rwa [Stack.keys_cons_array]) hvalue
      have hbetween := bare_value? hvalue
      rw [Stack.styled_cons_array, Stack.bare_cons_array] at hbetween
      obtain ⟨_, inner, rfl, hinner⟩ := Stack.eq_array_of_bare hbetween
      have hinnerKeys : Stack.keys inner ≠ [] := by
        rwa [← Stack.keys_bare, hinner, Stack.keys_bare]
      have hrest := spelledOnlyIf_elements? rest hinnerKeys hmore
      refine (hfirst.append hrest).imp fun ⟨hfirst, hrest⟩ => ?_
      simp [Value.areElements, hfirst, hrest]
    | false =>
      obtain ⟨_, _, tail, hlead, rfl⟩ := lead?_of_not_opensTable hopens hvalue
      obtain ⟨gap, -, rfl, -⟩ := Stack.of_lead?_next hlead
      exact Or.inl (Section.broken_of_start (Or.inl rfl) _)

/-- What is written for the entries of a group is part of a document only if their values are flat. -/
theorem spelledOnlyIf_entries? {group : Group} : ∀ (entries : List (String × Value)) {key : String}
    {fresh headed : Bool} {outer after : Stack} {text : List Char}, Placed outer →
    entries? group entries (.table key fresh headed :: outer) = some (text, after) →
    SpelledOnlyIf text (∀ entry ∈ entries, groupOf entry.2 = group → entry.2.isFlat = true)
  | [], _, _, _, _, _, _, _, h => by
    obtain ⟨rfl, -⟩ := Prod.mk.injEq .. ▸ Option.some.inj h
    exact .of_spells Spells.nil (by simp)
  | (next, value) :: rest, key, fresh, headed, outer, after, text, hplace, h => by
    by_cases hgroup : groupOf value = group
    · obtain ⟨first, between, more, hvalue, hmore, rfl⟩ := of_entries?_cons hgroup h
      have hfirst : SpelledOnlyIf first (value.isFlat = true) := by
        cases hopens : value.opensTable with
        | true => exact (spelledOnlyIf_value? hopens (by simp [Stack.atKey]) hvalue).imp Value.isFlat_of_isElement
        | false => exact spelledOnlyIf_line hopens hplace hvalue
      have hbetween := bare_value? hvalue
      rw [Stack.atKey, Stack.styled_cons_table, Stack.bare_cons_table] at hbetween
      obtain ⟨_, _, inner, rfl, hinner⟩ := Stack.eq_table_of_bare hbetween
      have hrest := spelledOnlyIf_entries? rest (hplace.of_bare hinner) hmore
      refine (hfirst.append hrest).imp fun ⟨hfirst, hrest⟩ => ?_
      exact List.forall_mem_cons.2 ⟨fun _ => hfirst, hrest⟩
    · rw [entries?, if_neg hgroup] at h
      refine (spelledOnlyIf_entries? rest hplace h).imp fun hrest => ?_
      exact List.forall_mem_cons.2 ⟨fun heq => absurd heq hgroup, hrest⟩

end

end Layout

namespace Table

variable {table : Table} {text : String}

/-- What is written for a table that is not flat cannot be read. -/
theorem ofText?_eq_none (h : table.toText? = some text) (hmixed : Value.areFlat table = false) : ofText? text = none := by
  obtain ⟨⟨written, after⟩, hvalue, rfl⟩ := Option.map_eq_some_iff.1 h
  have hspelled := Layout.spelledOnlyIf_table (fun _ _ _ _ _ _ _ => Layout.spelledOnlyIf_entries? table) (Or.inl rfl) hvalue
  rcases hspelled with hbroken | ⟨-, hflat⟩
  · have hnone := hbroken [] (written.length + 1) ⟨[], false, []⟩
    rw [List.append_nil] at hnone
    rw [ofText?_of_clean (Layout.clean_value? _ _ _ hvalue), hnone]
    rfl
  · cases hmixed.symm.trans hflat

/-- What is written is read as the sections of the table are put together, and not at all unless the table is flat. -/
theorem ofText?_of_toText? (h : table.toText? = some text) :
    ofText? text = if Value.areFlat table then Assembly.table? (Layout.documentSections table) else none := by
  cases hflat : Value.areFlat table with
  | false => exact ofText?_eq_none h hflat
  | true =>
    obtain ⟨text', htext, hread⟩ := ofText?_toText? hflat
    obtain rfl := Option.some.inj (htext.symm.trans h)
    exact hread

end Table

end LedSwitch.Toml
