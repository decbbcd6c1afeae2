import LedSwitch.Proofs.Toml.Broken
import LedSwitch.Proofs.Toml.Printed

/-!
How a value is written that need not be flat. It begins with a bracket if a table stands first in it
(`Layout.startsBracket_value?`); otherwise it is plain, or a list that cannot be read as a table follows later in it
(`Layout.isPlain_or_unread`). Whatever is written, the keys and arrays around it stay (`Layout.bare_value?`).
-/

namespace LedSwitch.Toml

/-- Whether what is written first for a value is a header. -/
def Value.opensTable : Value → Bool
  | .moment _ | .table _ => true
  | .array (first :: _) => first.opensTable
  | _ => false

namespace Layout

section Inversion

variable {text : List Char} {stack after : Stack}

theorem of_plain? {written : List Char} (h : plain? written stack = some (text, after)) :
    ∃ lead, Stack.lead? (stack.styled .plain) = some (lead, after) ∧ text = lead ++ written ++ after.lineEnd := by
  simp only [plain?, Option.bind_eq_bind, Option.bind_eq_some_iff] at h
  obtain ⟨⟨lead, above⟩, hlead, h⟩ := h
  obtain ⟨rfl, rfl⟩ := Prod.mk.injEq .. ▸ Option.some.inj h
  exact ⟨lead, hlead, rfl⟩

/-- An element is written, and then those after it. -/
theorem of_elements?_cons {value : Value} {rest : List Value} (h : elements? (value :: rest) stack = some (text, after)) :
    ∃ first between more, value? value stack = some (first, between) ∧
      elements? rest between.settled = some (more, after) ∧ text = first ++ more := by
  simp only [elements?, Option.bind_eq_bind, Option.bind_eq_some_iff] at h
  obtain ⟨⟨first, between⟩, hfirst, ⟨more, last⟩, hmore, h⟩ := h
  obtain ⟨rfl, rfl⟩ := Prod.mk.injEq .. ▸ Option.some.inj h
  exact ⟨first, between, more, hfirst, hmore, rfl⟩

/-- An entry of the group is written, and then those after it. -/
theorem of_entries?_cons {group : Group} {key : String} {value : Value} {rest : List (String × Value)}
    (hgroup : groupOf value = group) (h : entries? group ((key, value) :: rest) stack = some (text, after)) :
    ∃ first between more, value? value (stack.atKey key) = some (first, between) ∧
      entries? group rest between.settled = some (more, after) ∧ text = first ++ more := by
  rw [entries?, if_pos hgroup] at h
  simp only [Option.bind_eq_bind, Option.bind_eq_some_iff] at h
  obtain ⟨⟨first, between⟩, hfirst, ⟨more, last⟩, hmore, h⟩ := h
  obtain ⟨rfl, rfl⟩ := Prod.mk.injEq .. ▸ Option.some.inj h
  exact ⟨first, between, more, hfirst, hmore, rfl⟩

/-- A table is written by its groups, and by its header if they left it fresh. -/
theorem of_value?_table {entries : List (String × Value)} (h : value? (.table entries) stack = some (text, after)) :
    ∃ first one second two third three last,
      entries? .plain entries (.table "" true false :: stack.styled .tables) = some (first, one) ∧
      entries? .arrayOfTables entries one = some (second, two) ∧ entries? .table entries two = some (third, three) ∧
      text = first ++ (second ++ (third ++ last)) ∧
      ((∃ key headed outer, three = .table key true headed :: outer ∧ last = Stack.header outer ∧ after = Stack.marked outer) ∨
        (last = [] ∧ after = three.tail ∧ ∀ key headed outer, three ≠ .table key true headed :: outer)) := by
  simp only [value?, table?, Option.bind_eq_bind, Option.bind_eq_some_iff] at h
  obtain ⟨written, ⟨⟨first, one⟩, hfirst, ⟨second, two⟩, hsecond, ⟨third, three⟩, hthird, hwritten⟩, h⟩ := h
  obtain rfl := Option.some.inj hwritten
  split at h
  · rename_i body key headed outer heq
    obtain ⟨rfl, rfl⟩ := Prod.mk.injEq .. ▸ heq
    obtain ⟨rfl, rfl⟩ := Prod.mk.injEq .. ▸ Option.some.inj h
    exact ⟨first, one, second, two, third, _, Stack.header outer, hfirst, hsecond, hthird, by simp,
      Or.inl ⟨key, headed, outer, rfl, rfl, rfl⟩⟩
  · rename_i body done hnot heq
    obtain ⟨rfl, rfl⟩ := Prod.mk.injEq .. ▸ heq
    obtain ⟨rfl, rfl⟩ := Prod.mk.injEq .. ▸ Option.some.inj h
    refine ⟨first, one, second, two, third, _, [], hfirst, hsecond, hthird, by simp, Or.inr ⟨rfl, rfl, ?_⟩⟩
    rintro key headed outer rfl
    exact hnot _ _ _ rfl

/-- An array is written by its elements, and by its bracket if the first one is not a table. -/
theorem of_value?_array {first : Value} {rest : List Value}
    (h : value? (.array (first :: rest)) stack = some (text, after)) :
    ∃ lead between more done last,
      value? first (.array (first :: rest).length true none :: stack.styled .plain) = some (lead, between) ∧
      elements? rest between.settled = some (more, done) ∧ text = lead ++ (more ++ last) ∧
      (∀ size fresh outer, done = .array size fresh (some .tables) :: outer → last = [] ∧ after = outer) ∧
      (∀ size fresh outer, done = .array size fresh (some .plain) :: outer →
        after = outer ∧ ∃ c tail, last = c :: tail ∧ (c = ',' ∨ c = ']')) := by
  rw [value?] at h
  simp only [array?, Option.bind_eq_bind, Option.bind_eq_some_iff] at h
  obtain ⟨⟨body, done⟩, hwritten, h⟩ := h
  obtain ⟨lead, between, more, hfirst, hmore, rfl⟩ := of_elements?_cons hwritten
  split at h
  · rename_i heq
    obtain ⟨rfl, rfl⟩ := Prod.mk.injEq .. ▸ heq
    obtain ⟨rfl, rfl⟩ := Prod.mk.injEq .. ▸ Option.some.inj h
    refine ⟨lead, between, more, _, [], hfirst, hmore, by simp, ?_, ?_⟩ <;> simp
  · rename_i heq
    obtain ⟨rfl, rfl⟩ := Prod.mk.injEq .. ▸ heq
    obtain ⟨rfl, rfl⟩ := Prod.mk.injEq .. ▸ Option.some.inj h
    refine ⟨lead, between, more, _, _, hfirst, hmore, by rw [List.append_assoc, List.append_assoc], ?_, ?_⟩
    · simp
    · rintro size fresh outer hdone
      simp only [List.cons.injEq] at hdone
      refine ⟨hdone.2, ?_⟩
      split_ifs
      · exact ⟨']', _, rfl, Or.inr rfl⟩
      · exact ⟨',', _, rfl, Or.inl rfl⟩
  · rename_i hnottables hnotplain heq
    obtain ⟨rfl, rfl⟩ := Prod.mk.injEq .. ▸ heq
    obtain ⟨⟨last, above⟩, -, h⟩ := Option.bind_eq_some_iff.1 h
    obtain ⟨rfl, rfl⟩ := Prod.mk.injEq .. ▸ Option.some.inj h
    refine ⟨lead, between, more, _, last, hfirst, hmore, by simp, ?_, ?_⟩
    · rintro size fresh outer rfl
      exact (hnottables _ _ _ rfl).elim
    · rintro size fresh outer rfl
      exact (hnotplain _ _ _ rfl).elim

end Inversion

theorem Stack.styled_ne_nil (style : Style) {stack : Stack} (hne : stack ≠ []) : stack.styled style ≠ [] := by
  unfold styled
  split
  · simp
  · exact hne

/-- Before the first element of an array stands the bracket of the array, after what comes before the array. -/
theorem Stack.of_lead?_first {size : Nat} {stack above : Stack} {lead : List Char}
    (h : lead? (styled .plain (.array size true none :: stack)) = some (lead, above)) :
    ∃ outer outside gap, lead? stack = some (outer, outside) ∧ Gap gap ∧ lead = outer ++ '[' :: gap ∧
      above = .array size true (some .plain) :: outside := by
  simp only [styled_cons_none, lead?, if_true, Option.bind_eq_bind, Option.bind_eq_some_iff] at h
  obtain ⟨⟨outer, outside⟩, houter, h⟩ := h
  obtain ⟨rfl, rfl⟩ := Prod.mk.injEq .. ▸ Option.some.inj h
  by_cases hsize : size ≤ 1
  · exact ⟨outer, outside, [], houter, by simp [Gap], by simp [hsize], rfl⟩
  · exact ⟨outer, outside, ['\n', ' ', ' ', ' ', ' '], houter, by simp [Gap], by simp [hsize], rfl⟩

/-- Before another element of an array stands a comma. -/
theorem Stack.of_lead?_next {size : Nat} {style : Option Style} {stack above : Stack} {lead : List Char}
    (h : lead? (.array size false style :: stack) = some (lead, above)) :
    ∃ gap, Gap gap ∧ lead = ',' :: gap ∧ above = .array size false style :: stack := by
  obtain ⟨rfl, rfl⟩ := Prod.mk.injEq .. ▸ Option.some.inj h
  by_cases hsize : size ≤ 1
  · exact ⟨[' '], by simp [Gap], by simp [hsize], rfl⟩
  · exact ⟨['\n', ' ', ' ', ' ', ' '], by simp [Gap], by simp [hsize], rfl⟩

/-- Where a value does not begin with a table, what is written for it begins as a plain value does. -/
theorem lead?_of_not_opensTable : ∀ {value : Value}, value.opensTable = false → ∀ {stack after : Stack}
    {text : List Char}, value? value stack = some (text, after) →
    ∃ lead above more, Stack.lead? (stack.styled .plain) = some (lead, above) ∧ text = lead ++ more
  | .boolean true, _, _, _, _, h | .boolean false, _, _, _, _, h | .integer _, _, _, _, _, h
  | .float _, _, _, _, _, h | .string _, _, _, _, _, h => by
    obtain ⟨lead, hlead, rfl⟩ := of_plain? h
    exact ⟨lead, _, _, hlead, List.append_assoc ..⟩
  | .array [], _, stack, after, text, h => by
    have hplain : plain? ['[', ']'] (stack.styled .plain) = some (text, after) := by
      simpa [value?, array?, elements?] using h
    obtain ⟨lead, hlead, rfl⟩ := of_plain? hplain
    rw [Stack.styled_styled] at hlead
    exact ⟨lead, _, _, hlead, List.append_assoc ..⟩
  | .array (first :: rest), hfirst, stack, after, text, h => by
    rw [Value.opensTable] at hfirst
    obtain ⟨_, _, _, _, _, hvalue, -, rfl, -⟩ := of_value?_array h
    obtain ⟨_, above, more, hlead, rfl⟩ := lead?_of_not_opensTable hfirst hvalue
    obtain ⟨outer, outside, gap, houter, -, rfl, -⟩ := Stack.of_lead?_first hlead
    rw [List.append_assoc, List.append_assoc]
    exact ⟨outer, outside, _, houter, rfl⟩
  | .moment _, hnot, _, _, _, _ | .table _, hnot, _, _, _, _ => by simp [Value.opensTable] at hnot

namespace Stack

theorem startsBracket_headerText (repeated : Bool) (keys : List String) : StartsBracket (headerText repeated keys) := by
  unfold headerText
  split_ifs <;> exact ⟨[], _, by simp, rfl⟩

theorem startsBracket_headerLine {stack : Stack} (hne : stack ≠ []) : StartsBracket (headerLine stack) := by
  match stack with
  | .table key fresh headed :: outer =>
    rw [headerLine_table]
    cases fresh with
    | true => simpa using startsBracket_headerText _ _
    | false => simpa using (startsBracket_headerText _ _).blank
  | .array size fresh style :: outer =>
    obtain ⟨blank, rfl | rfl, htext⟩ := headerLine_array size fresh style outer
    · simpa [htext] using startsBracket_headerText true (keys outer)
    · simpa [htext] using (startsBracket_headerText true (keys outer)).blank

theorem startsBracket_pendingHeaders (stack : Stack) :
    pendingHeaders stack = [] ∨ StartsBracket (pendingHeaders stack) := by
  fun_induction pendingHeaders stack with
  | case1 _ _ size fresh style key fresh' headed outer ih =>
    have hline := startsBracket_headerLine (show (Frame.array size fresh style :: .table key fresh' headed :: outer) ≠ [] by
      simp)
    cases fresh with
    | false => exact Or.inr hline
    | true =>
      rcases ih with hnil | hpending
      · exact Or.inr (by simpa [hnil] using hline)
      · exact Or.inr (hpending.append _)
  | case2 _ _ outer _ ih => exact ih
  | case3 => exact Or.inl rfl

/-- The header of a table begins with a bracket, whatever headers stand before it. -/
theorem startsBracket_header {stack : Stack} (hne : stack ≠ []) : StartsBracket (header stack) := by
  have happend : ∀ outer, StartsBracket (pendingHeaders outer ++ headerLine stack) := by
    intro outer
    rcases startsBracket_pendingHeaders outer with hnil | hpending
    · simpa [hnil] using startsBracket_headerLine hne
    · exact hpending.append _
  unfold header
  split <;> exact happend _

end Stack

mutual

/-- What is written for a value that begins with a table begins with a bracket. -/
theorem startsBracket_value? : ∀ {value : Value}, value.opensTable = true → ∀ {stack after : Stack} {text : List Char},
    stack ≠ [] → value? value stack = some (text, after) → StartsBracket text
  | .moment moment, _, stack, _, _, hne, h => by
    obtain ⟨rfl, -⟩ := Prod.mk.injEq .. ▸ Option.some.inj (value?_moment moment stack ▸ h)
    exact (Stack.startsBracket_header (Stack.styled_ne_nil .tables hne)).append _
  | .table entries, _, stack, _, _, hne, h => by
    have hne' := Stack.styled_ne_nil .tables hne
    obtain ⟨first, one, second, two, third, three, last, hfirst, hsecond, hthird, rfl, hlast⟩ := of_value?_table h
    rcases startsBracket_entries? entries hne' hfirst with hstarts | ⟨rfl, rfl⟩
    · exact hstarts.append _
    rcases startsBracket_entries? entries hne' hsecond with hstarts | ⟨rfl, rfl⟩
    · exact hstarts.append _
    rcases startsBracket_entries? entries hne' hthird with hstarts | ⟨rfl, rfl⟩
    · exact hstarts.append _
    rcases hlast with ⟨key, headed, outer, heq, rfl, -⟩ | ⟨-, -, hnot⟩
    · obtain ⟨-, rfl⟩ := List.cons.inj heq
      exact Stack.startsBracket_header hne'
    · exact (hnot _ _ _ rfl).elim
  | .array [], hopens, _, _, _, _, _ => by simp [Value.opensTable] at hopens
  | .array (first :: rest), hopens, stack, _, _, hne, h => by
    rw [Value.opensTable] at hopens
    obtain ⟨_, _, _, _, _, hvalue, -, rfl, -⟩ := of_value?_array h
    exact (startsBracket_value? hopens (List.cons_ne_nil _ _) hvalue).append _
  | .boolean _, hopens, _, _, _, _, _ | .integer _, hopens, _, _, _, _, _ | .float _, hopens, _, _, _, _, _
  | .string _, hopens, _, _, _, _, _ => by simp [Value.opensTable] at hopens

/-- What is written for the first entries of a table begins with a bracket, if anything is. -/
theorem startsBracket_entries? {group : Group} : ∀ (entries : List (String × Value)) {key : String} {headed : Bool}
    {outer after : Stack} {text : List Char}, outer ≠ [] →
    entries? group entries (.table key true headed :: outer) = some (text, after) →
    StartsBracket text ∨ (text = [] ∧ after = .table key true headed :: outer)
  | [], _, _, _, _, _, _, h => by
    obtain ⟨rfl, rfl⟩ := Prod.mk.injEq .. ▸ Option.some.inj h
    exact Or.inr ⟨rfl, rfl⟩
  | (next, value) :: rest, key, headed, outer, after, text, hne, h => by
    by_cases hgroup : groupOf value = group
    · obtain ⟨first, between, more, hvalue, -, rfl⟩ := of_entries?_cons hgroup h
      refine Or.inl (StartsBracket.append ?_ more)
      cases hopens : value.opensTable with
      | true => exact startsBracket_value? hopens (List.cons_ne_nil _ _) hvalue
      | false =>
        obtain ⟨lead, above, tail, hlead, rfl⟩ := lead?_of_not_opensTable hopens hvalue
        simp only [Stack.atKey, Stack.styled_cons_table, Stack.lead?, if_true] at hlead
        split_ifs at hlead
        obtain ⟨rfl, -⟩ := Prod.mk.injEq .. ▸ Option.some.inj hlead
        simpa using (Stack.startsBracket_header hne).append _
    · rw [entries?, if_neg hgroup] at h
      exact startsBracket_entries? rest hne h

end

mutual

/-- A value that does not begin with a table is plain, or it is written as a list that cannot be read. -/
theorem isPlain_or_unread : ∀ {value : Value}, value.opensTable = false → ∀ {stack after above : Stack}
    {text lead : List Char}, value? value stack = some (text, after) →
    Stack.lead? (stack.styled .plain) = some (lead, above) →
    value.isPlain = true ∨ ∃ body, Item.Unread ('[' :: body) ∧ text = lead ++ '[' :: body
  | .array (first :: rest), hopens, stack, after, above, text, lead, h, hlead => by
    rw [Value.opensTable] at hopens
    obtain ⟨_, between, more, _, last, hvalue, hmore, rfl, -⟩ := of_value?_array h
    obtain ⟨_, _, _, hfirst, -⟩ := lead?_of_not_opensTable hopens hvalue
    obtain ⟨outer, outside, gap, houter, hgap, rfl, rfl⟩ := Stack.of_lead?_first hfirst
    obtain ⟨rfl, rfl⟩ := Prod.mk.injEq .. ▸ Option.some.inj (houter ▸ hlead)
    rcases isPlain_or_unread hopens hvalue hfirst with hplain | ⟨body, hbody, rfl⟩
    · have hwritten := value?_of_isPlain first hplain _ _ _ hfirst
      obtain ⟨rfl, rfl⟩ := Prod.mk.injEq .. ▸ Option.some.inj (hwritten ▸ hvalue)
      cases hrest : Value.arePlain rest with
      | true => exact Or.inl (by simp [Value.isPlain, Value.arePlain, hplain, hrest])
      | false =>
        have hblocked := blocked_of_elements? hrest hmore
        refine Or.inr ⟨_, Item.unread_of_blocked hgap (Item.reads_plainText first hplain) (hblocked.append last), ?_⟩
        simp [Stack.lineEnd]
    · refine Or.inr ⟨_, Item.unread_of_first hgap (hbody.append (more ++ last)), ?_⟩
      simp
  | .boolean _, _, _, _, _, _, _, _, _ | .integer _, _, _, _, _, _, _, _, _ | .float _, _, _, _, _, _, _, _, _
  | .string _, _, _, _, _, _, _, _, _ | .array [], _, _, _, _, _, _, _, _ => Or.inl rfl
  | .moment _, hopens, _, _, _, _, _, _, _ | .table _, hopens, _, _, _, _, _, _, _ => by simp [Value.opensTable] at hopens

/-- If the elements of a list after the first one are not all plain, the list cannot go on with what is written for
    them. -/
theorem blocked_of_elements? : ∀ {values : List Value}, Value.arePlain values = false → ∀ {size : Nat}
    {outer after : Stack} {text : List Char},
    elements? values (.array size false (some .plain) :: outer) = some (text, after) → Item.Blocked text
  | [], hmixed, _, _, _, _, _ => by simp [Value.arePlain] at hmixed
  | value :: rest, hmixed, size, outer, after, text, h => by
    obtain ⟨first, between, more, hvalue, hmore, rfl⟩ := of_elements?_cons h
    cases hopens : value.opensTable with
    | true =>
      have hstarts := startsBracket_value? hopens (List.cons_ne_nil _ _) hvalue
      exact (Item.blocked_of_startsBracket hstarts).append more
    | false =>
      obtain ⟨_, _, _, hlead, -⟩ := lead?_of_not_opensTable hopens hvalue
      obtain ⟨gap, hgap, rfl, rfl⟩ := Stack.of_lead?_next hlead
      rcases isPlain_or_unread hopens hvalue hlead with hplain | ⟨body, hbody, rfl⟩
      · have hwritten := value?_of_isPlain value hplain _ _ _ hlead
        obtain ⟨rfl, rfl⟩ := Prod.mk.injEq .. ▸ Option.some.inj (hwritten ▸ hvalue)
        have hrest : Value.arePlain rest = false := by simpa [Value.arePlain, hplain] using hmixed
        have hblocked := (blocked_of_elements? hrest hmore).cons hgap (Item.reads_plainText value hplain)
        simpa [Stack.lineEnd] using hblocked
      · have hblocked := Item.blocked_of_unread hgap (hbody.append more)
        simpa using hblocked

end

namespace Stack

/-- The keys and the arrays of a stack, whatever was written there. -/
def bare (stack : Stack) : Stack :=
  stack.map fun
    | .table key _ _ => .table key false false
    | .array size _ style => .array size false style

@[simp] theorem bare_cons_table (key : String) (fresh headed : Bool) (outer : Stack) :
    bare (.table key fresh headed :: outer) = .table key false false :: bare outer := rfl

@[simp] theorem bare_cons_array (size : Nat) (fresh : Bool) (style : Option Style) (outer : Stack) :
    bare (.array size fresh style :: outer) = .array size false style :: bare outer := rfl

@[simp] theorem bare_marked (stack : Stack) : bare (marked stack) = bare stack := by
  induction stack with
  | nil => rfl
  | cons frame outer ih => cases frame <;> simp [ih]

theorem keys_bare (stack : Stack) : keys (bare stack) = keys stack := by
  induction stack with
  | nil => rfl
  | cons frame outer ih => cases frame <;> simp [ih]

theorem eq_array_of_bare {stack outer : Stack} {size : Nat} {style : Option Style}
    (h : bare stack = .array size false style :: outer) :
    ∃ fresh inner, stack = .array size fresh style :: inner ∧ bare inner = outer := by
  match stack with
  | [] | .table .. :: _ => simp [bare] at h
  | .array _ fresh _ :: inner =>
    rw [bare_cons_array] at h
    obtain ⟨hframe, houter⟩ := List.cons.inj h
    obtain ⟨rfl, -, rfl⟩ := Frame.array.inj hframe
    exact ⟨fresh, inner, rfl, houter⟩

theorem eq_table_of_bare {stack outer : Stack} {key : String} (h : bare stack = .table key false false :: outer) :
    ∃ fresh headed inner, stack = .table key fresh headed :: inner ∧ bare inner = outer := by
  match stack with
  | [] | .array .. :: _ => simp [bare] at h
  | .table _ fresh headed :: inner =>
    rw [bare_cons_table] at h
    obtain ⟨hframe, houter⟩ := List.cons.inj h
    obtain ⟨rfl, -, -⟩ := Frame.table.inj hframe
    exact ⟨fresh, headed, inner, rfl, houter⟩

/-- What comes before a plain value changes no key and no array. -/
theorem bare_lead? {stack above : Stack} {lead : List Char} (h : lead? stack = some (lead, above)) :
    bare above = bare stack := by
  induction stack generalizing lead above with
  | nil =>
    obtain ⟨-, rfl⟩ := Prod.mk.injEq .. ▸ Option.some.inj h
    rfl
  | cons frame outer ih =>
    cases frame with
    | table key fresh headed =>
      rw [lead?] at h
      split_ifs at h <;>
      · obtain ⟨-, rfl⟩ := Prod.mk.injEq .. ▸ Option.some.inj h
        simp
    | array size fresh style =>
      cases fresh with
      | false =>
        obtain ⟨-, rfl⟩ := Prod.mk.injEq .. ▸ Option.some.inj h
        rfl
      | true =>
        simp only [lead?, if_true, Option.bind_eq_bind, Option.bind_eq_some_iff] at h
        obtain ⟨⟨before, inner⟩, houter, h⟩ := h
        obtain ⟨-, rfl⟩ := Prod.mk.injEq .. ▸ Option.some.inj h
        simp [ih houter]

end Stack

/-- How the first element of an array has the array written. -/
def styleOf (value : Value) : Style := if isTable value then .tables else .plain

mutual

/-- A value that is written changes no key and no array around it. -/
theorem bare_value? : ∀ {value : Value} {stack after : Stack} {text : List Char},
    value? value stack = some (text, after) → after.bare = (stack.styled (styleOf value)).bare
  | .boolean true, _, _, _, h | .boolean false, _, _, _, h | .integer _, _, _, _, h | .float _, _, _, _, h
  | .string _, _, _, _, h => by
    obtain ⟨_, hlead, -⟩ := of_plain? h
    exact Stack.bare_lead? hlead
  | .moment moment, stack, _, _, h => by
    obtain ⟨-, rfl⟩ := Prod.mk.injEq .. ▸ Option.some.inj (value?_moment moment stack ▸ h)
    exact Stack.bare_marked _
  | .array [], stack, after, text, h => by
    have hplain : plain? ['[', ']'] (stack.styled .plain) = some (text, after) := by
      simpa [value?, array?, elements?] using h
    obtain ⟨_, hlead, -⟩ := of_plain? hplain
    rw [Stack.styled_styled] at hlead
    exact Stack.bare_lead? hlead
  | .array (first :: rest), stack, after, text, h => by
    obtain ⟨_, between, _, done, _, hvalue, hmore, -, htables, hplain⟩ := of_value?_array h
    have hbetween := bare_value? hvalue
    rw [Stack.styled_cons_none, Stack.bare_cons_array] at hbetween
    obtain ⟨_, inner, rfl, hinner⟩ := Stack.eq_array_of_bare hbetween
    have hdone := bare_elements? rest hmore
    rw [hinner] at hdone
    obtain ⟨fresh, last, rfl, hlast⟩ := Stack.eq_array_of_bare hdone
    cases hstyle : styleOf first with
    | tables =>
      obtain ⟨-, rfl⟩ := htables _ fresh last (by rw [hstyle])
      exact hlast
    | plain =>
      obtain ⟨rfl, -⟩ := hplain _ fresh last (by rw [hstyle])
      exact hlast
  | .table entries, stack, after, text, h => by
    obtain ⟨first, one, second, two, third, three, last, hfirst, hsecond, hthird, -, hlast⟩ := of_value?_table h
    obtain ⟨_, _, _, outside, rfl, hone⟩ := bare_entries? entries hfirst
    obtain ⟨_, _, _, between, rfl, htwo⟩ := bare_entries? entries hsecond
    obtain ⟨_, _, _, within, rfl, hthree⟩ := bare_entries? entries hthird
    have hwithin : Stack.bare within = (stack.styled .tables).bare := hthree.trans (htwo.trans hone)
    rcases hlast with ⟨_, _, outer, heq, -, rfl⟩ | ⟨-, rfl, -⟩
    · obtain ⟨-, rfl⟩ := List.cons.inj heq
      exact (Stack.bare_marked _).trans hwithin
    · exact hwithin

/-- Elements that are written after the first one change no key and no array around them. -/
theorem bare_elements? : ∀ (values : List Value) {size : Nat} {style : Style} {outer after : Stack} {text : List Char},
    elements? values (.array size false (some style) :: outer) = some (text, after) →
    after.bare = .array size false (some style) :: outer.bare
  | [], _, _, _, _, _, h => by
    obtain ⟨-, rfl⟩ := Prod.mk.injEq .. ▸ Option.some.inj h
    rfl
  | value :: rest, size, style, outer, after, text, h => by
    obtain ⟨_, between, _, hvalue, hmore, -⟩ := of_elements?_cons h
    have hbetween := bare_value? hvalue
    rw [Stack.styled_cons_array, Stack.bare_cons_array] at hbetween
    obtain ⟨_, inner, rfl, hinner⟩ := Stack.eq_array_of_bare hbetween
    rw [← hinner]
    exact bare_elements? rest hmore

/-- Entries that are written change no key and no array around their table. -/
theorem bare_entries? {group : Group} : ∀ (entries : List (String × Value)) {key : String} {fresh headed : Bool}
    {outer after : Stack} {text : List Char},
    entries? group entries (.table key fresh headed :: outer) = some (text, after) →
    ∃ key fresh headed inner, after = .table key fresh headed :: inner ∧ Stack.bare inner = outer.bare
  | [], key, fresh, headed, outer, _, _, h => by
    obtain ⟨-, rfl⟩ := Prod.mk.injEq .. ▸ Option.some.inj h
    exact ⟨key, fresh, headed, outer, rfl, rfl⟩
  | (next, value) :: rest, key, fresh, headed, outer, after, text, h => by
    by_cases hgroup : groupOf value = group
    · obtain ⟨_, between, _, hvalue, hmore, -⟩ := of_entries?_cons hgroup h
      have hbetween := bare_value? hvalue
      rw [Stack.atKey, Stack.styled_cons_table, Stack.bare_cons_table] at hbetween
      obtain ⟨_, _, inner, rfl, hinner⟩ := Stack.eq_table_of_bare hbetween
      obtain ⟨key, fresh, headed, last, rfl, hlast⟩ := bare_entries? rest hmore
      exact ⟨key, fresh, headed, last, rfl, hlast.trans hinner⟩
    · rw [entries?, if_neg hgroup] at h
      exact bare_entries? rest h

end

end Layout

end LedSwitch.Toml
