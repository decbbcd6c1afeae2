import LedSwitch.Proofs.Toml.Pieces

/-!
Texts that are no document, whatever follows them: no item can be read from them (`Item.Unread`), a list cannot go
on with them after an element (`Item.Blocked`), or no section can (`Section.Broken`).
-/

namespace LedSwitch.Toml

/-- White space between the elements of a list. -/
def Gap (gap : List Char) : Prop := ∀ c ∈ gap, c = ' ' ∨ c = '\n'

theorem Gap.skipLines {gap : List Char} (h : Gap gap) (text : List Char) :
    Scan.skipLines false (gap ++ text) = Scan.skipLines false text := by
  induction gap with
  | nil => rfl
  | cons c gap ih =>
    have hskip : (Scan.isBlank c || c = '\n') = true := by
      rcases h c List.mem_cons_self with rfl | rfl <;> rfl
    rw [List.cons_append, Scan.skipLines, if_pos hskip]
    exact ih fun d hd => h d (List.mem_cons_of_mem _ hd)

theorem EndsValue.append {text : List Char} (h : EndsValue text) (more : List Char) : EndsValue (text ++ more) := by
  obtain ⟨c, tail, rfl, hc⟩ := h
  exact ⟨c, tail ++ more, rfl, hc⟩

/-- A text that begins with a bracket, after blank lines. -/
def StartsBracket (text : List Char) : Prop := ∃ blank tail, (∀ c ∈ blank, c = '\n') ∧ text = blank ++ '[' :: tail

namespace StartsBracket

variable {text : List Char}

theorem append (h : StartsBracket text) (more : List Char) : StartsBracket (text ++ more) := by
  obtain ⟨blank, tail, hblank, rfl⟩ := h
  exact ⟨blank, tail ++ more, hblank, by simp⟩

theorem blank (h : StartsBracket text) : StartsBracket ('\n' :: text) := by
  obtain ⟨blank, tail, hblank, rfl⟩ := h
  exact ⟨'\n' :: blank, tail, List.forall_mem_cons.2 ⟨rfl, hblank⟩, rfl⟩

theorem endsValue (h : StartsBracket text) : EndsValue text := by
  obtain ⟨blank, tail, hblank, rfl⟩ := h
  cases blank with
  | nil => exact ⟨'[', tail, rfl, by simp⟩
  | cons c blank =>
    obtain ⟨rfl, -⟩ := List.forall_mem_cons.1 hblank
    exact ⟨'\n', blank ++ '[' :: tail, rfl, by simp⟩

theorem skipLines (h : StartsBracket text) : ∃ tail, Scan.skipLines false text = some ('[' :: tail) := by
  obtain ⟨blank, tail, hblank, rfl⟩ := h
  refine ⟨tail, ?_⟩
  rw [Gap.skipLines fun c hc => Or.inr (hblank c hc)]
  exact Scan.skipLines_of_start rfl (by decide) (by decide) tail

end StartsBracket

namespace Item

/-- Reads on in a list after one of its elements. -/
def moreUpTo? (fuel : Nat) (text : List Char) : Option (List Item × List Char) := do
  let text ← Scan.skipLines false text
  match Parts.after? ',' text with
  | some text => elementsUpTo? fuel text
  | none => (Parts.after? ']' text).map fun rest => ([], rest)

/-- The elements of a list are an element and those after it. -/
theorem elementsUpTo?_gap {gap text : List Char} (hgap : Gap gap) (htext : Scan.skipLines false text = some text)
    (hbracket : Parts.after? ']' text = none) (fuel : Nat) :
    elementsUpTo? (fuel + 1) (gap ++ text) = (readUpTo? fuel text).bind fun found =>
      (moreUpTo? fuel found.2).map fun more => (found.1 :: more.1, more.2) := by
  rw [elementsUpTo?, hgap.skipLines, htext]
  simp only [Option.bind_eq_bind, Option.bind_some, hbracket]
  refine Option.bind_congr fun found _ => ?_
  obtain ⟨item, rest⟩ := found
  simp only [moreUpTo?]
  cases Scan.skipLines false rest with
  | none => rfl
  | some rest =>
    simp only [Option.bind_some]
    cases hcomma : Parts.after? ',' rest <;> simp [hcomma, Function.comp_def]

/-- A text that is no item, whatever follows it. -/
def Unread (text : List Char) : Prop :=
  ∀ more fuel, 2 * (text ++ more).length ≤ fuel → readUpTo? fuel (text ++ more) = none

/-- A text with which no list can go on after an element, whatever follows it. -/
structure Blocked (text : List Char) : Prop where
  endsValue : EndsValue text
  unread : ∀ more fuel, 2 * (text ++ more).length + 1 ≤ fuel → moreUpTo? fuel (text ++ more) = none

theorem Unread.append {text : List Char} (h : Unread text) (more : List Char) : Unread (text ++ more) := by
  intro rest fuel hfuel
  rw [List.append_assoc] at hfuel ⊢
  exact h (more ++ rest) fuel hfuel

theorem Blocked.append {text : List Char} (h : Blocked text) (more : List Char) : Blocked (text ++ more) := by
  refine ⟨h.endsValue.append more, fun rest fuel hfuel => ?_⟩
  rw [List.append_assoc] at hfuel ⊢
  exact h.unread (more ++ rest) fuel hfuel

/-- What begins with a bracket is what elements are read from. -/
theorem elementsUpTo?_bracket {gap : List Char} (hgap : Gap gap) (fuel : Nat) (text : List Char) :
    elementsUpTo? (fuel + 1) (gap ++ '[' :: text) = (readUpTo? fuel ('[' :: text)).bind fun found =>
      (moreUpTo? fuel found.2).map fun more => (found.1 :: more.1, more.2) :=
  elementsUpTo?_gap hgap (Scan.skipLines_of_start rfl (by decide) (by decide) text)
    (Parts.after?_of_head?_ne (by simp)) fuel

theorem elementsUpTo?_reads {gap text : List Char} {item : Item} (hgap : Gap gap) (h : Reads text item)
    {rest : List Char} (hrest : EndsValue rest) {fuel : Nat} (hfuel : 2 * text.length ≤ fuel) :
    elementsUpTo? (fuel + 1) (gap ++ (text ++ rest)) =
      (moreUpTo? fuel rest).map fun more => (item :: more.1, more.2) := by
  obtain ⟨hskip, hbracket⟩ := h.skipLines rest
  rw [elementsUpTo?_gap hgap hskip hbracket, h rest hrest fuel hfuel, Option.bind_some]

theorem moreUpTo?_comma (fuel : Nat) (text : List Char) : moreUpTo? fuel (',' :: text) = elementsUpTo? fuel text := by
  have hskip : Scan.skipLines false (',' :: text) = some (',' :: text) :=
    Scan.skipLines_of_start rfl (by decide) (by decide) text
  simp [moreUpTo?, hskip, Parts.after?_cons_self]

section

variable {gap body text rest : List Char} {item : Item}

/-- A list is unread if its first element is. -/
theorem unread_of_first (hgap : Gap gap) (h : Unread ('[' :: body)) : Unread ('[' :: (gap ++ '[' :: body)) := by
  intro more fuel hfuel
  simp only [List.cons_append, List.append_assoc, List.length_cons, List.length_append] at hfuel
  obtain ⟨fuel, rfl⟩ : ∃ n, fuel = n + 2 := ⟨fuel - 2, by omega⟩
  have hnone := h more fuel (by simp only [List.cons_append, List.length_cons, List.length_append]; omega)
  rw [List.cons_append] at hnone
  simp [readUpTo?, elementsUpTo?_bracket hgap, hnone]

/-- A list is unread if it cannot go on after its first element. -/
theorem unread_of_blocked (hgap : Gap gap) (htext : Reads text item) (h : Blocked rest) :
    Unread ('[' :: (gap ++ (text ++ rest))) := by
  intro more fuel hfuel
  simp only [List.cons_append, List.append_assoc, List.length_cons, List.length_append] at hfuel
  obtain ⟨fuel, rfl⟩ : ∃ n, fuel = n + 2 := ⟨fuel - 2, by omega⟩
  have hpos : 0 < text.length := by
    obtain ⟨c, tail, rfl, -⟩ := htext.start
    simp
  have hnone := h.unread more fuel (by simp only [List.length_append]; omega)
  simp [readUpTo?, elementsUpTo?_reads hgap htext (h.endsValue.append more) (show 2 * text.length ≤ fuel by omega), hnone]

/-- A list is blocked if the next element is unread. -/
theorem blocked_of_unread (hgap : Gap gap) (h : Unread ('[' :: body)) : Blocked (',' :: (gap ++ '[' :: body)) := by
  refine ⟨⟨',', _, rfl, by simp⟩, fun more fuel hfuel => ?_⟩
  simp only [List.cons_append, List.append_assoc, List.length_cons, List.length_append] at hfuel
  obtain ⟨fuel, rfl⟩ : ∃ n, fuel = n + 1 := ⟨fuel - 1, by omega⟩
  have hnone := h more fuel (by simp only [List.cons_append, List.length_cons, List.length_append]; omega)
  rw [List.cons_append] at hnone
  simp [moreUpTo?_comma, elementsUpTo?_bracket hgap, hnone]

/-- A list is blocked if it is after the next element. -/
theorem Blocked.cons (h : Blocked rest) (hgap : Gap gap) (htext : Reads text item) :
    Blocked (',' :: (gap ++ (text ++ rest))) := by
  refine ⟨⟨',', _, rfl, by simp⟩, fun more fuel hfuel => ?_⟩
  simp only [List.cons_append, List.append_assoc, List.length_cons, List.length_append] at hfuel
  obtain ⟨fuel, rfl⟩ : ∃ n, fuel = n + 1 := ⟨fuel - 1, by omega⟩
  have hnone := h.unread more fuel (by simp only [List.length_append]; omega)
  simp [moreUpTo?_comma, elementsUpTo?_reads hgap htext (h.endsValue.append more) (show 2 * text.length ≤ fuel by omega),
    hnone]

/-- A list is blocked by an opening bracket without a comma. -/
theorem blocked_of_startsBracket (h : StartsBracket text) : Blocked text := by
  refine ⟨h.endsValue, fun more fuel _ => ?_⟩
  obtain ⟨tail, hskip⟩ := (h.append more).skipLines
  have hcomma : Parts.after? ',' ('[' :: tail) = none := Parts.after?_of_head?_ne (by simp)
  have hclose : Parts.after? ']' ('[' :: tail) = none := Parts.after?_of_head?_ne (by simp)
  simp [moreUpTo?, hskip, hcomma, hclose]

end

end Item

namespace Section

/-- A text that is no part of a document, whatever section it would belong to and whatever follows. -/
def Broken (text : List Char) : Prop := ∀ more fuel s, readUpTo? fuel s (text ++ more) = none

variable {text bad : List Char}

theorem Broken.append (h : Broken text) (more : List Char) : Broken (text ++ more) := by
  intro rest fuel s
  rw [List.append_assoc]
  exact h (more ++ rest) fuel s

/-- What can be read before it does not mend a text. -/
theorem Broken.after {pieces : List Piece} (hbad : Broken bad) (h : Spells text pieces) : Broken (text ++ bad) := by
  intro more fuel s
  induction h generalizing fuel s with
  | nil => exact hbad more fuel s
  | blank _ ih =>
    rw [List.cons_append, List.cons_append, readUpTo?_blank]
    exact ih fuel s
  | header repeated hkeys _ ih =>
    cases fuel with
    | zero => rfl
    | succ fuel =>
      rw [List.append_assoc, List.append_assoc, readUpTo?_headerText _ s repeated hkeys, ← List.append_assoc, ih, Option.map_none]
  | line key hvalue _ ih =>
    cases fuel with
    | zero => rfl
    | succ fuel =>
      rw [List.append_assoc, List.append_assoc, readUpTo?_lineText _ s key hvalue, ← List.append_assoc, ih]

/-- A line must not begin with a comma or with a closing bracket. -/
theorem broken_of_start {c : Char} (hc : c = ',' ∨ c = ']') (text : List Char) : Broken (c :: text) := by
  intro more fuel s
  cases fuel with
  | zero => rfl
  | succ fuel =>
    rcases hc with rfl | rfl <;>
    simp [readUpTo?, Scan.skipLines, Scan.isBlank, extend?, Scan.keys?, Scan.keysUpTo?, Scan.skipBlanks, Scan.key?,
      Scan.word?, Scan.isWordChar]

/-- A line with a value that is unread. -/
theorem broken_of_unread (key : String) {body : List Char} (h : Item.Unread ('[' :: body)) :
    Broken (Layout.keyText key ++ ' ' :: '=' :: ' ' :: '[' :: body) := by
  intro more fuel s
  cases fuel with
  | zero => rfl
  | succ fuel =>
    have hskip : Scan.skipBlanks (' ' :: '[' :: (body ++ more)) = '[' :: (body ++ more) := by
      simp [Scan.skipBlanks, Scan.isBlank]
    have hitem : Item.read? ('[' :: (body ++ more)) = none := h more _ (by simp)
    rw [List.append_assoc, readUpTo?_keyText, extend?, List.cons_append, List.cons_append, keys?_line]
    simp [Parts.after?_cons_self, hskip, hitem]

end Section

end LedSwitch.Toml
