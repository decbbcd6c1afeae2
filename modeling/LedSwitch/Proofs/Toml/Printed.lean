import LedSwitch.Proofs.Toml.Clean
import LedSwitch.Proofs.Toml.Outline

/-!
What is written for a flat value: its pieces, after the headers that are due at its place. `Layout.Stack.due` says
which those are, and `Layout.written_of_isFlat` states the rule, for which every frame of the stack counts only by
its key and by whether it is fresh.
-/

namespace LedSwitch.Toml.Layout

namespace Stack

@[simp] theorem marked_cons_table (key : String) (fresh headed : Bool) (outer : Stack) :
    marked (.table key fresh headed :: outer) = .table key fresh true :: marked outer := rfl

@[simp] theorem marked_cons_array (size : Nat) (fresh : Bool) (style : Option Style) (outer : Stack) :
    marked (.array size fresh style :: outer) = .array size fresh style :: marked outer := rfl

@[simp] theorem marked_marked (stack : Stack) : marked (marked stack) = marked stack := by
  induction stack with
  | nil => rfl
  | cons frame outer ih => cases frame <;> simp [ih]

@[simp] theorem keys_cons_table (key : String) (fresh headed : Bool) (outer : Stack) :
    keys (.table key fresh headed :: outer) = keys outer ++ [key] := by
  simp [keys]

@[simp] theorem keys_cons_array (size : Nat) (fresh : Bool) (style : Option Style) (outer : Stack) :
    keys (.array size fresh style :: outer) = keys outer := by
  simp [keys]

@[simp] theorem keys_marked (stack : Stack) : keys (marked stack) = keys stack := by
  induction stack with
  | nil => rfl
  | cons frame outer ih => cases frame <;> simp [ih]

/-- The headers of the array elements around a place that have to be written before anything else there. -/
def due : Stack → List Piece
  | .table _ true _ :: .array _ fresh _ :: .table key fresh' headed :: outer =>
    (if fresh then due (.table key fresh' headed :: outer) else []) ++ [.header true (keys outer ++ [key])]
  | .table _ true _ :: outer => due outer
  | _ => []

@[simp] theorem due_settled (key : String) (headed : Bool) (outer : Stack) :
    due (.table key false headed :: outer) = [] := by
  rw [due] <;> simp

@[simp] theorem due_array (size : Nat) (fresh : Bool) (style : Option Style) (outer : Stack) :
    due (.array size fresh style :: outer) = [] := by
  rw [due] <;> simp

theorem spells_headerLine_table (key : String) (fresh headed : Bool) (outer : Stack) :
    Spells (headerLine (.table key fresh headed :: outer)) [.header false (keys outer ++ [key])] := by
  rw [headerLine_table, keys_cons_table]
  cases fresh with
  | false => exact (Spells.headerLine false (by simp)).blank
  | true => exact Spells.headerLine false (by simp)

theorem spells_headerLine_array (size : Nat) (fresh : Bool) (style : Option Style) (outer : Stack)
    (hkeys : keys outer ≠ []) :
    Spells (headerLine (.array size fresh style :: outer)) [.header true (keys outer)] := by
  obtain ⟨blank, rfl | rfl, htext⟩ := headerLine_array size fresh style outer
  · simpa [htext] using Spells.headerLine true hkeys
  · simpa [htext] using (Spells.headerLine true hkeys).blank

/-- The headers of the elements that are due are written as such. -/
theorem spells_pendingHeaders : ∀ stack : Stack, Spells (pendingHeaders stack) (due stack)
  | [] => by simpa [pendingHeaders, due] using Spells.nil
  | .array .. :: _ => by simpa [pendingHeaders] using Spells.nil
  | .table _ false _ :: _ => by simpa [pendingHeaders] using Spells.nil
  | [.table _ true _] => by simpa [pendingHeaders, due] using Spells.nil
  | .table _ true _ :: .table key fresh headed :: outer => by
    have hrest := spells_pendingHeaders (.table key fresh headed :: outer)
    simpa [pendingHeaders, due] using hrest
  | [.table _ true _, .array ..] => by simpa [pendingHeaders, due] using Spells.nil
  | .table _ true _ :: .array .. :: .array .. :: outer => by simpa [pendingHeaders, due] using Spells.nil
  | .table _ true _ :: .array size fresh style :: .table key fresh' headed :: outer => by
    have hrest := spells_pendingHeaders (.table key fresh' headed :: outer)
    have hline := spells_headerLine_array size fresh style (.table key fresh' headed :: outer) (by simp)
    rw [keys_cons_table] at hline
    cases fresh with
    | false => simpa [pendingHeaders, due] using hline
    | true => simpa [pendingHeaders, due] using hrest.append hline

/-- Where a value stands that is written at this place. -/
def site : Stack → Site
  | .array .. :: .table .. :: _ => .element
  | .array .. :: _ => .inner
  | _ => .key

/-- The headers that have to be written before those of a value at this place. -/
def dueBefore : Stack → List Piece
  | .array _ true _ :: outer => due outer
  | .array _ false _ :: _ => []
  | stack => due stack

@[simp] theorem dueBefore_cons_array (size : Nat) (fresh : Bool) (style : Option Style) (outer : Stack) :
    dueBefore (.array size fresh style :: outer) = if fresh then due outer else [] := by
  cases fresh <;> rfl

/-- Where an array stands decides where its elements stand. -/
theorem site_cons_array (size : Nat) (fresh : Bool) (style : Option Style) {outer : Stack} (hne : outer ≠ []) :
    site (.array size fresh style :: outer) = (site outer).ofElements := by
  match outer with
  | .table .. :: _ | [.array ..] | .array .. :: .table .. :: _ | .array .. :: .array .. :: _ => rfl

theorem site_marked (stack : Stack) : site (marked stack) = site stack := by
  match stack with
  | [] | .table .. :: _ | [.array ..] | .array .. :: .table .. :: _ | .array .. :: .array .. :: _ => rfl

/-- The header of a table at a place comes after those that are due. -/
theorem spells_header (stack : Stack) (hkeys : keys stack ≠ []) :
    Spells (header stack) (dueBefore stack ++ [.header (site stack).repeated (keys stack)]) := by
  match stack with
  | .table key fresh headed :: outer =>
    have hdue := spells_pendingHeaders (.table key fresh headed :: outer)
    simpa [header, dueBefore, site, Site.repeated] using hdue.append (spells_headerLine_table key fresh headed outer)
  | .array size fresh style :: outer =>
    have hrepeated : (site (.array size fresh style :: outer)).repeated = true := by
      cases outer with
      | nil => rfl
      | cons frame _ => cases frame <;> rfl
    rw [keys_cons_array] at hkeys
    have hline := spells_headerLine_array size fresh style _ hkeys
    cases fresh with
    | false => simpa [header, pendingHeaders, dueBefore, hrepeated] using hline
    | true => simpa [header, dueBefore, hrepeated] using (spells_pendingHeaders outer).append hline

/-- What is due at an entry of a table of which nothing is written: the header of the table too, if it is an
    element of an array at a key. -/
theorem due_fresh (key : String) (headed : Bool) (stack : Stack) :
    due (.table key true headed :: stack) =
      dueBefore stack ++ if site stack = .element then [.header true (keys stack)] else [] := by
  match stack with
  | [] => simp [due, dueBefore, site]
  | .table .. :: _ => simp [due, dueBefore, site]
  | [.array _ fresh _] => cases fresh <;> simp [due, dueBefore, site]
  | .array _ fresh _ :: .array .. :: _ => cases fresh <;> simp [due, dueBefore, site]
  | .array _ fresh _ :: .table .. :: _ => cases fresh <;> simp [due, dueBefore, site]

/-- A place with a style for its array, and with its headers written, has the same headers due. -/
theorem dueBefore_styled (style : Style) (stack : Stack) : dueBefore (styled style stack) = dueBefore stack := by
  unfold styled
  split
  · rename_i fresh _
    cases fresh <;> rfl
  · rfl

theorem site_styled (style : Style) (stack : Stack) : site (styled style stack) = site stack := by
  unfold styled
  split
  · unfold site
    split <;> simp_all
  · rfl

@[simp] theorem styled_cons_table (style : Style) (key : String) (fresh headed : Bool) (outer : Stack) :
    styled style (.table key fresh headed :: outer) = .table key fresh headed :: outer := rfl

@[simp] theorem styled_cons_array (style other : Style) (size : Nat) (fresh : Bool) (outer : Stack) :
    styled style (.array size fresh (some other) :: outer) = .array size fresh (some other) :: outer := rfl

@[simp] theorem styled_cons_none (style : Style) (size : Nat) (fresh : Bool) (outer : Stack) :
    styled style (.array size fresh none :: outer) = .array size fresh (some style) :: outer := rfl

theorem styled_styled (style : Style) (stack : Stack) : styled style (styled style stack) = styled style stack := by
  match stack with
  | [] | .table .. :: _ | .array _ _ none :: _ | .array _ _ (some _) :: _ => rfl

theorem keys_styled (style : Style) (stack : Stack) : keys (styled style stack) = keys stack := by
  unfold styled
  split <;> simp

end Stack

/-- The elements of a plain array after the first one, with what closes the array. -/
theorem elements?_plain {size : Nat} (hsize : 1 < size) (outer : Stack) {values : List Value}
    (hvalues : ∀ value ∈ values, ∀ stack lead after, Stack.lead? (stack.styled .plain) = some (lead, after) →
      value? value stack = some (lead ++ plainText value ++ after.lineEnd, after)) :
    ∃ text, elements? values (.array size false (some .plain) :: outer) =
        some (text, .array size false (some .plain) :: outer) ∧ text ++ [','] = ',' :: elementLines values := by
  induction values with
  | nil => exact ⟨[], rfl, rfl⟩
  | cons value rest ih =>
    obtain ⟨text, htext, hlines⟩ := ih fun other hother => hvalues other (List.mem_cons_of_mem _ hother)
    have hvalue := hvalues value List.mem_cons_self (.array size false (some .plain) :: outer)
      ([',', '\n'] ++ [' ', ' ', ' ', ' ']) (.array size false (some .plain) :: outer)
      (by simp [Stack.styled, Stack.lead?, Nat.not_le.2 hsize])
    refine ⟨[',', '\n'] ++ [' ', ' ', ' ', ' '] ++ plainText value ++ text, ?_, ?_⟩
    · rw [elements?, hvalue]
      simp [Stack.settled, Stack.lineEnd, htext]
    · simp [elementLines, hlines]

/-- Before the first element of an array stands what comes before the array. -/
theorem Stack.lead?_first {outer after : Stack} {lead : List Char} (h : lead? outer = some (lead, after)) (size : Nat) :
    lead? (styled .plain (.array size true none :: outer)) =
      some (lead ++ (if size ≤ 1 then ['['] else ['[', '\n'] ++ [' ', ' ', ' ', ' ']),
        .array size true (some .plain) :: after) := by
  rw [styled, lead?]
  simp [h]

mutual

/-- A plain value is written by its text wherever a plain value can be written. -/
theorem value?_of_isPlain : ∀ value : Value, value.isPlain = true → ∀ (stack : Stack) (lead : List Char)
    (after : Stack), Stack.lead? (stack.styled .plain) = some (lead, after) →
    value? value stack = some (lead ++ plainText value ++ after.lineEnd, after)
  | .boolean true, _, _, _, _, hlead | .boolean false, _, _, _, _, hlead | .integer _, _, _, _, _, hlead
  | .float _, _, _, _, _, hlead | .string _, _, _, _, _, hlead => by
    simp [value?, plain?, hlead, plainText]
  | .array [], _, stack, lead, after, hlead => by
    simp [value?, array?, elements?, plain?, Stack.styled_styled, hlead, plainText]
  | .array [value], h, stack, lead, after, hlead => by
    have hplain : value.isPlain = true := by simpa [Value.isPlain, Value.arePlain] using h
    have hvalue := value?_of_isPlain value hplain (.array 1 true none :: stack.styled .plain) _ _
      (Stack.lead?_first hlead 1)
    simp [value?, array?, elements?, hvalue, Stack.settled, Stack.lineEnd, plainText]
  | .array (first :: second :: others), h, stack, lead, after, hlead => by
    simp only [Value.isPlain, Value.arePlain, Bool.and_eq_true] at h
    have hfirst := value?_of_isPlain first h.1
      (.array (second :: others).length.succ true none :: stack.styled .plain) _ _ (Stack.lead?_first hlead _)
    obtain ⟨text, htext, hlines⟩ := elements?_plain (show 1 < (second :: others).length.succ by simp) after
      (values?_of_arePlain (second :: others) (by simpa [Value.arePlain] using h.2))
    have hclose : text ++ [',', '\n', ']'] = ',' :: elementLines (second :: others) ++ ['\n', ']'] := by
      rw [← hlines]
      simp
    rw [value?, array?, elements?, List.length_cons, hfirst]
    simp only [Option.bind_eq_bind, Option.bind_some, Stack.settled, htext]
    simp [plainText, elementLines, Stack.lineEnd, hclose]
  | .moment _, h, _, _, _, _ | .table _, h, _, _, _, _ => by simp [Value.isPlain] at h

/-- Plain values are written by their texts wherever plain values can be written. -/
theorem values?_of_arePlain : ∀ values : List Value, Value.arePlain values = true → ∀ value ∈ values,
    ∀ (stack : Stack) (lead : List Char) (after : Stack), Stack.lead? (stack.styled .plain) = some (lead, after) →
    value? value stack = some (lead ++ plainText value ++ after.lineEnd, after)
  | [], _, _, hmem => by simp at hmem
  | first :: rest, h, value, hmem => by
    simp only [Value.arePlain, Bool.and_eq_true] at h
    rcases List.mem_cons.1 hmem with heq | hmem
    · rw [heq]
      exact value?_of_isPlain first h.1
    · exact values?_of_arePlain rest h.2 value hmem

end

namespace Stack

/-- The place of an entry of a table that is written at the place `stack`. Once something of the table is written,
    the headers around it are in place. -/
def AtEntry (stack : Stack) (fresh headed : Bool) (entry : Stack) : Prop :=
  ∃ key, entry = .table key fresh headed :: if fresh then stack else stack.marked

end Stack

/-- What stands before the first entry of a table: its header, spelled by `own`, if the entry is plain, and
    otherwise only what is due there. -/
def beforeFirst (group : Group) (own : List Piece) (stack : Stack) : List Piece :=
  if group = .plain then own else Stack.due (.table "" true false :: stack)

/-- An entry of a group is written as its pieces. -/
def EntryWritten (group : Group) (key : String) (value : Value) : Prop :=
  ∀ (stack : Stack) (own : List Piece), Spells stack.header own →
    ∀ fresh headed, (group = .plain → headed = false) →
    ∃ text fresh', value? value (.table key fresh headed :: if fresh then stack else stack.marked) =
        some (text, .table key fresh' (group ≠ .plain) :: stack.marked) ∧
      Spells text ((if fresh then beforeFirst group own stack else []) ++ entryPieces group stack.keys key value)

/-- The entries of a group are written as their pieces. -/
def GroupWritten (group : Group) (entries : List (String × Value)) : Prop :=
  ∀ (stack : Stack) (own : List Piece), Spells stack.header own →
    ∀ fresh headed entry, stack.AtEntry fresh headed entry → (group = .plain → headed = false) →
    ∃ text after, entries? group entries entry = some (text, after) ∧
      if hasGroup group entries then
        stack.AtEntry false (group ≠ .plain) after ∧
          Spells text ((if fresh then beforeFirst group own stack else []) ++ groupPieces group stack.keys entries)
      else text = [] ∧ after = entry

/-- If each entry of a group is written as its pieces, so is the group. -/
theorem groupWritten_of_entries {group : Group} {entries : List (String × Value)}
    (h : ∀ entry ∈ entries, groupOf entry.2 = group → EntryWritten group entry.1 entry.2) :
    GroupWritten group entries := by
  induction entries with
  | nil =>
    intro stack own _ fresh headed entry _ _
    exact ⟨[], entry, rfl, rfl, rfl⟩
  | cons first rest ih =>
    obtain ⟨key, value⟩ := first
    have hrest := ih fun entry hentry => h entry (List.mem_cons_of_mem _ hentry)
    intro stack own hown fresh headed entry hentry hheaded
    by_cases hgroup : groupOf value = group
    · obtain ⟨old, rfl⟩ := hentry
      obtain ⟨text, fresh', hvalue, htext⟩ := h (key, value) List.mem_cons_self hgroup stack own hown fresh headed hheaded
      have hnext : stack.AtEntry false (group ≠ .plain) (.table key false (group ≠ .plain) :: stack.marked) := ⟨key, rfl⟩
      obtain ⟨more, after, hmore, hafter⟩ := hrest stack own hown false _ _ hnext (by simp)
      have hrun : entries? group ((key, value) :: rest) (.table old fresh headed :: if fresh then stack else stack.marked) =
          some (text ++ more, after) := by
        rw [entries?, if_pos hgroup, Stack.atKey, hvalue]
        simp only [Option.bind_eq_bind, Option.bind_some, Stack.settled, hmore]
      have hany : hasGroup group ((key, value) :: rest) = true := by simp [hasGroup, hgroup]
      refine ⟨text ++ more, after, hrun, ?_⟩
      rw [if_pos hany, groupPieces_cons, if_pos hgroup, ← List.append_assoc]
      by_cases hmember : hasGroup group rest = true
      · rw [if_pos hmember] at hafter
        exact ⟨hafter.1, htext.append (by simpa using hafter.2)⟩
      · rw [if_neg hmember] at hafter
        obtain ⟨rfl, rfl⟩ := hafter
        have hnone : groupPieces group stack.keys rest = [] :=
          groupPieces_eq_nil (by simpa [hasGroup] using hmember) stack.keys
        exact ⟨hnext, htext.append (by simpa [hnone] using Spells.nil)⟩
    · obtain ⟨text, after, hrun, hafter⟩ := hrest stack own hown fresh headed entry hentry hheaded
      have hany : hasGroup group ((key, value) :: rest) = hasGroup group rest := by simp [hasGroup, hgroup]
      refine ⟨text, after, ?_, ?_⟩
      · rw [entries?, if_neg hgroup, hrun]
      · rwa [hany, groupPieces_cons, if_neg hgroup]

/-- A plain entry is written as its line. -/
theorem entryWritten_plain (key : String) {value : Value} (hplain : value.isPlain = true) :
    EntryWritten .plain key value := by
  intro stack own hown fresh headed hheaded
  obtain rfl : headed = false := hheaded rfl
  have hline := Spells.nil.line key hplain
  cases fresh with
  | true =>
    have hvalue := value?_of_isPlain value hplain (.table key true false :: stack)
      (stack.header ++ keyText key ++ [' ', '=', ' ']) (.table key false false :: stack.marked) rfl
    refine ⟨_, false, hvalue, ?_⟩
    simpa [beforeFirst, entryPieces, lineText, Stack.lineEnd] using hown.append hline
  | false =>
    have hvalue := value?_of_isPlain value hplain (.table key false false :: stack.marked)
      (keyText key ++ [' ', '=', ' ']) (.table key false false :: stack.marked) rfl
    refine ⟨_, false, hvalue, ?_⟩
    simpa [beforeFirst, entryPieces, lineText, Stack.lineEnd] using hline

/-- A value is written as its pieces at a place. -/
def Written (value : Value) (stack : Stack) : Prop :=
  ∃ text, value? value stack = some (text, (stack.styled .tables).marked) ∧
    Spells text (stack.dueBefore ++ pieces stack.site stack.keys value)

/-- An entry that is no line is written as the pieces of its value. -/
theorem entryWritten_of_written {group : Group} (hgroup : group ≠ .plain) {key : String} {value : Value}
    (h : ∀ fresh headed outer, Written value (.table key fresh headed :: outer)) : EntryWritten group key value := by
  intro stack own _ fresh headed _
  obtain ⟨text, hvalue, htext⟩ := h fresh headed (if fresh then stack else stack.marked)
  refine ⟨text, fresh, ?_, ?_⟩
  · cases fresh <;> simpa [Stack.styled, hgroup] using hvalue
  · have hdue := Stack.due_fresh key headed stack
    cases fresh with
    | true => simpa [Stack.dueBefore, Stack.site, entryPieces, beforeFirst, hgroup, hdue, Stack.due_fresh] using htext
    | false => simpa [Stack.dueBefore, Stack.site, entryPieces, beforeFirst, hgroup] using htext

/-- Where something of the table is written, a group adds just its pieces. -/
theorem GroupWritten.settled {group : Group} {entries : List (String × Value)} (h : GroupWritten group entries)
    {stack entry : Stack} {own : List Piece} (hown : Spells stack.header own) {headed : Bool}
    (hentry : stack.AtEntry false headed entry) (hheaded : group = .plain → headed = false) :
    ∃ text after headed', entries? group entries entry = some (text, after) ∧ stack.AtEntry false headed' after ∧
      Spells text (groupPieces group stack.keys entries) := by
  obtain ⟨text, after, hrun, hafter⟩ := h stack own hown false headed entry hentry hheaded
  by_cases hany : hasGroup group entries = true
  · rw [if_pos hany] at hafter
    exact ⟨text, after, _, hrun, hafter.1, by simpa using hafter.2⟩
  · rw [if_neg hany] at hafter
    obtain ⟨rfl, rfl⟩ := hafter
    refine ⟨[], after, headed, hrun, hentry, ?_⟩
    rw [groupPieces_eq_nil (by simpa [hasGroup] using hany)]
    exact Spells.nil

section

variable {entries : List (String × Value)} {first second third : List Char} {stack place one two outer : Stack}
  {key : String} {headed : Bool}

/-- A table of which something was written ends with its last group. -/
theorem value?_table_settled (hplace : stack.styled .tables = place)
    (hfirst : entries? .plain entries (.table "" true false :: place) = some (first, one))
    (hsecond : entries? .arrayOfTables entries one = some (second, two))
    (hthird : entries? .table entries two = some (third, .table key false headed :: outer)) :
    value? (.table entries) stack = some (first ++ second ++ third, outer) := by
  simp [value?, table?, hplace, hfirst, hsecond, hthird]

/-- A table of which nothing was written ends with its header. -/
theorem value?_table_fresh (hplace : stack.styled .tables = place)
    (hfirst : entries? .plain entries (.table "" true false :: place) = some (first, one))
    (hsecond : entries? .arrayOfTables entries one = some (second, two))
    (hthird : entries? .table entries two = some (third, .table key true headed :: outer)) :
    value? (.table entries) stack = some (first ++ second ++ third ++ outer.header, outer.marked) := by
  simp [value?, table?, hplace, hfirst, hsecond, hthird]

end

/-- The entries of a table are written group by group, before them the header of the table or what is due. -/
theorem value?_table {entries : List (String × Value)} (hgroups : ∀ group, GroupWritten group entries) {stack : Stack}
    {own : List Piece} (hown : Spells (stack.styled .tables).header own) :
    ∃ text, value? (.table entries) stack = some (text, (stack.styled .tables).marked) ∧
      Spells text ((if hasHeader entries then own else Stack.due (.table "" true false :: stack.styled .tables)) ++
        (groupPieces .plain stack.keys entries ++ (groupPieces .arrayOfTables stack.keys entries ++
          groupPieces .table stack.keys entries))) := by
  rw [← Stack.keys_styled .tables stack]
  generalize hplace : stack.styled .tables = place at hown ⊢
  have hstart : place.AtEntry true false (.table "" true false :: place) := ⟨"", rfl⟩
  obtain ⟨first, one, hfirst, hone⟩ := hgroups .plain place own hown true false _ hstart fun _ => rfl
  by_cases hplain : hasGroup .plain entries = true
  · rw [if_pos hplain] at hone
    obtain ⟨second, two, headed, hsecond, htwo, hspelled⟩ := (hgroups .arrayOfTables).settled hown hone.1 (by simp)
    obtain ⟨third, three, headed', hthird, ⟨key, rfl⟩, hspelled'⟩ := (hgroups .table).settled hown htwo (by simp)
    have hheader : hasHeader entries = true := by
      rw [hasHeader, hplain, Bool.or_true]
    refine ⟨_, value?_table_settled hplace hfirst hsecond hthird, ?_⟩
    have htext := (hone.2.append hspelled).append hspelled'
    simpa [beforeFirst, hheader] using htext
  · rw [if_neg hplain] at hone
    obtain ⟨rfl, rfl⟩ := hone
    have hnoplain : groupPieces .plain place.keys entries = [] := groupPieces_eq_nil (by simpa [hasGroup] using hplain) _
    obtain ⟨second, two, hsecond, htwo⟩ := hgroups .arrayOfTables place own hown true false _ hstart (by simp)
    by_cases harrays : hasGroup .arrayOfTables entries = true
    · rw [if_pos harrays] at htwo
      obtain ⟨third, three, headed', hthird, ⟨key, rfl⟩, hspelled'⟩ := (hgroups .table).settled hown htwo.1 (by simp)
      have hheader : hasHeader entries = false := by
        simp [hasHeader, hplain, isEmpty_of_hasGroup harrays]
      refine ⟨_, value?_table_settled hplace hfirst hsecond hthird, ?_⟩
      have htext := htwo.2.append hspelled'
      simpa [beforeFirst, hheader, hnoplain] using htext
    · rw [if_neg harrays] at htwo
      obtain ⟨rfl, rfl⟩ := htwo
      have hnoarrays : groupPieces .arrayOfTables place.keys entries = [] :=
        groupPieces_eq_nil (by simpa [hasGroup] using harrays) _
      obtain ⟨third, three, hthird, hthree⟩ := hgroups .table place own hown true false _ hstart (by simp)
      by_cases htables : hasGroup .table entries = true
      · rw [if_pos htables] at hthree
        obtain ⟨⟨key, rfl⟩, hspelled⟩ := hthree
        have hheader : hasHeader entries = false := by
          simp [hasHeader, hplain, isEmpty_of_hasGroup htables]
        refine ⟨_, value?_table_settled hplace hfirst hsecond hthird, ?_⟩
        simpa [beforeFirst, hheader, hnoplain, hnoarrays] using hspelled
      · rw [if_neg htables] at hthree
        obtain ⟨rfl, rfl⟩ := hthree
        have hnone : ∀ group, ¬ hasGroup group entries = true := by
          intro group
          cases group with
          | plain => exact hplain
          | arrayOfTables => exact harrays
          | table => exact htables
        obtain rfl := eq_nil_of_not_hasGroup hnone
        refine ⟨_, value?_table_fresh hplace hfirst hsecond hthird, ?_⟩
        simpa [hasHeader, groupPieces] using hown

/-- A table whose entries are written as their pieces is itself. -/
theorem written_table {entries : List (String × Value)} (hgroups : ∀ group, GroupWritten group entries) {stack : Stack}
    (hkeys : stack.keys ≠ []) : Written (.table entries) stack := by
  have hown := Stack.spells_header (stack.styled .tables) (by rwa [Stack.keys_styled])
  obtain ⟨text, hvalue, htext⟩ := value?_table hgroups hown
  refine ⟨text, hvalue, ?_⟩
  rw [Stack.due_fresh, Stack.dueBefore_styled, Stack.site_styled, Stack.keys_styled] at htext
  rw [pieces, headerPieces]
  by_cases hheader : hasHeader entries = true
  · simpa [hheader] using htext
  · by_cases hsite : stack.site = .element
    · simpa [hheader, hsite, Site.repeated] using htext
    · simpa [hheader, hsite] using htext

/-- A date or time is written by its header and its line. -/
theorem value?_moment (moment : DateTime) (stack : Stack) :
    value? (.moment moment) stack = some ((stack.styled .tables).header ++
      lineText momentKey (.string (String.ofList moment.text)), (stack.styled .tables).marked) := by
  simp [value?, table?, plain?, Stack.atKey, Stack.lead?, Stack.settled, lineText, plainText, Stack.lineEnd]

/-- A date or time is written as its header and its line. -/
theorem written_moment (moment : DateTime) {stack : Stack} (hkeys : stack.keys ≠ []) : Written (.moment moment) stack := by
  have hown := Stack.spells_header (stack.styled .tables) (by rwa [Stack.keys_styled])
  rw [Stack.dueBefore_styled, Stack.site_styled, Stack.keys_styled] at hown
  have hline := Spells.nil.line momentKey (show (Value.string (String.ofList moment.text)).isPlain = true from rfl)
  exact ⟨_, value?_moment moment stack, by simpa [pieces] using hown.append hline⟩

/-- The elements of an array after the first one are written as their pieces. -/
theorem elements?_written {size : Nat} {outer : Stack} (hmarked : outer.marked = outer) {values : List Value}
    (h : ∀ value ∈ values, Written value (.array size false (some .tables) :: outer)) :
    ∃ text, elements? values (.array size false (some .tables) :: outer) =
        some (text, .array size false (some .tables) :: outer) ∧
      Spells text (elementPieces (Stack.site (.array size false (some .tables) :: outer)) outer.keys values) := by
  induction values with
  | nil => exact ⟨[], rfl, by simpa [elementPieces] using Spells.nil⟩
  | cons value rest ih =>
    obtain ⟨text, hvalue, htext⟩ := h value List.mem_cons_self
    obtain ⟨more, hmore, hspelled⟩ := ih fun other hother => h other (List.mem_cons_of_mem _ hother)
    rw [Stack.styled_cons_array, Stack.marked_cons_array, hmarked] at hvalue
    refine ⟨text ++ more, ?_, ?_⟩
    · simp [elements?, hvalue, Stack.settled, hmore]
    · simpa [elementPieces, Stack.dueBefore] using htext.append hspelled

/-- An array that begins with a table, and whose elements are written as their pieces, is itself. -/
theorem written_array {first : Value} {rest : List Value} {stack : Stack} (hne : stack ≠ [])
    (hstyled : ∀ style, stack.styled style = stack) (hdue : stack.dueBefore = stack.due)
    (hfirst : Written first (.array (first :: rest).length true none :: stack))
    (hrest : ∀ value ∈ rest, Written value (.array (first :: rest).length false (some .tables) :: stack.marked)) :
    Written (.array (first :: rest)) stack := by
  obtain ⟨text, hvalue, htext⟩ := hfirst
  obtain ⟨more, hmore, hspelled⟩ := elements?_written stack.marked_marked hrest
  have hne' : stack.marked ≠ [] := by simpa [Stack.marked] using hne
  refine ⟨text ++ more, ?_, ?_⟩
  · rw [hstyled, value?, array?, hstyled, elements?, hvalue]
    simp only [Option.bind_eq_bind, Option.bind_some, Stack.styled_cons_none, Stack.marked_cons_array, Stack.settled,
      hmore]
  · rw [Stack.site_cons_array _ _ _ hne] at htext
    rw [Stack.site_cons_array _ _ _ hne', Stack.site_marked] at hspelled
    rw [hdue]
    simpa [pieces, elementPieces] using htext.append hspelled

mutual

/-- A flat value that is not plain is written as its pieces at a key. -/
theorem written_of_isFlat : ∀ value : Value, value.isFlat = true → groupOf value ≠ .plain →
    ∀ (key : String) (fresh headed : Bool) (outer : Stack), Written value (.table key fresh headed :: outer)
  | .moment moment, _, _, key, fresh, headed, outer => written_moment moment (by simp)
  | .table entries, h, _, key, fresh, headed, outer =>
    written_table (fun group => groupWritten_of_entries (entryWritten_of_areFlat entries h group)) (by simp)
  | .array [], _, hgroup, _, _, _, _ => by simp [groupOf] at hgroup
  | .array (first :: rest), h, hgroup, key, fresh, headed, outer => by
    have hplain : Value.arePlain (first :: rest) = false := by
      rw [Bool.eq_false_iff]
      intro hplain
      exact hgroup (Value.groupOf_of_isPlain (by rwa [Value.isPlain]))
    simp only [Value.isFlat, hplain, Bool.false_or, List.head?_cons, Option.any_some, Bool.and_eq_true,
      Value.areElements] at h
    refine written_array (by simp) (fun _ => rfl) rfl ?_ ?_
    · exact written_of_isElement first h.2.1 _ _ _ _ (by simp) (Or.inl h.1)
    · exact fun value hvalue => written_of_areElements rest h.2.2 value hvalue _ _ _ _ (by simp) (Or.inr ⟨rfl, rfl⟩)
  | .boolean _, _, hgroup, _, _, _, _ | .integer _, _, hgroup, _, _, _, _ | .float _, _, hgroup, _, _, _, _
  | .string _, _, hgroup, _, _, _, _ => by simp [groupOf] at hgroup

/-- An element of an array of tables is written as its pieces; the first one has to be a table. -/
theorem written_of_isElement : ∀ value : Value, value.isElement = true →
    ∀ (size : Nat) (fresh : Bool) (style : Option Style) (outer : Stack), outer.keys ≠ [] →
    isTable value = true ∨ (fresh = false ∧ style = some .tables) → Written value (.array size fresh style :: outer)
  | .moment moment, _, _, _, _, _, hkeys, _ => written_moment moment (by simpa using hkeys)
  | .table entries, h, _, _, _, _, hkeys, _ =>
    written_table (fun group => groupWritten_of_entries (entryWritten_of_areFlat entries h group)) (by simpa using hkeys)
  | .array [], h, _, _, _, _, _, _ => by simp [Value.isElement] at h
  | .array (first :: rest), h, size, fresh, style, outer, hkeys, hplace => by
    obtain ⟨rfl, rfl⟩ : fresh = false ∧ style = some .tables := by simpa [isTable] using hplace
    simp only [Value.isElement, List.head?_cons, Option.any_some, Bool.and_eq_true, Value.areElements] at h
    refine written_array (by simp) (fun _ => rfl) (by simp) ?_ ?_
    · exact written_of_isElement first h.2.1 _ _ _ _ (by simpa using hkeys) (Or.inl h.1)
    · exact fun value hvalue =>
        written_of_areElements rest h.2.2 value hvalue _ _ _ _ (by simpa using hkeys) (Or.inr ⟨rfl, rfl⟩)
  | .boolean _, h, _, _, _, _, _, _ | .integer _, h, _, _, _, _, _, _ | .float _, h, _, _, _, _, _, _
  | .string _, h, _, _, _, _, _, _ => by simp [Value.isElement] at h

/-- Elements of an array of tables are written as their pieces. -/
theorem written_of_areElements : ∀ values : List Value, Value.areElements values = true → ∀ value ∈ values,
    ∀ (size : Nat) (fresh : Bool) (style : Option Style) (outer : Stack), outer.keys ≠ [] →
    isTable value = true ∨ (fresh = false ∧ style = some .tables) → Written value (.array size fresh style :: outer)
  | [], _, _, hmem => by simp at hmem
  | first :: rest, h, value, hmem => by
    simp only [Value.areElements, Bool.and_eq_true] at h
    rcases List.mem_cons.1 hmem with heq | hmem
    · rw [heq]
      exact written_of_isElement first h.1
    · exact written_of_areElements rest h.2 value hmem

/-- Entries with flat values are written as their pieces. -/
theorem entryWritten_of_areFlat : ∀ entries : List (String × Value), Value.areFlat entries = true → ∀ group,
    ∀ entry ∈ entries, groupOf entry.2 = group → EntryWritten group entry.1 entry.2
  | [], _, _, _, hmem => by simp at hmem
  | (key, value) :: rest, h, group, entry, hmem => by
    simp only [Value.areFlat, Bool.and_eq_true] at h
    rcases List.mem_cons.1 hmem with heq | hmem
    · rw [heq]
      intro hgroup
      by_cases hplain : group = .plain
      · rw [hplain] at hgroup ⊢
        exact entryWritten_plain key (Value.isPlain_of_isFlat h.1 hgroup)
      · exact entryWritten_of_written hplain (written_of_isFlat value h.1 (hgroup ▸ hplain) key)
    · exact entryWritten_of_areFlat rest h.2 group entry hmem

end

/-- A document with flat values is written as its pieces. -/
theorem value?_document {table : Table} (h : Value.areFlat table = true) :
    ∃ text, value? (.table table) [] = some (text, []) ∧ Spells text (documentPieces table) := by
  have hgroups := fun group => groupWritten_of_entries (entryWritten_of_areFlat table h group)
  obtain ⟨text, hvalue, htext⟩ := value?_table hgroups (show Spells (Stack.styled .tables []).header [] by
    simpa [Stack.styled, Stack.header, Stack.pendingHeaders, Stack.headerLine] using Spells.nil)
  refine ⟨text, hvalue, ?_⟩
  rw [Stack.due_fresh] at htext
  simpa [documentPieces, Stack.styled, Stack.dueBefore, Stack.site, Stack.due, Stack.keys] using htext

end LedSwitch.Toml.Layout
