import Mathlib.Tactic.Common
import LedSwitch.Proofs.Toml.Pieces

/-!
A written document reaches its reader as it is: it holds no carriage return that would be taken for a part of a
line end, and it does not begin with a byte order mark.
-/

namespace LedSwitch.Toml

/-- A text without carriage returns that does not begin with a byte order mark. -/
def Clean (text : List Char) : Prop := '\r' ∉ text ∧ text.head? ≠ some '\ufeff'

namespace Clean

theorem nil : Clean [] := ⟨by simp, by simp⟩

theorem append {text more : List Char} (h : Clean text) (hmore : Clean more) : Clean (text ++ more) := by
  refine ⟨by simp [h.1, hmore.1], ?_⟩
  cases text with
  | nil => exact hmore.2
  | cons c rest => simpa using h.2

theorem cons {c : Char} {text : List Char} (hreturn : c ≠ '\r') (hmark : c ≠ '\ufeff') (h : '\r' ∉ text) :
    Clean (c :: text) :=
  ⟨by simpa [Ne.symm hreturn] using h, by simpa using hmark⟩

/-- The characters of words and a few more are clean wherever they stand. -/
theorem of_forall {text : List Char} (h : ∀ c ∈ text, c ≠ '\r' ∧ c ≠ '\ufeff') : Clean text := by
  refine ⟨fun hmem => (h _ hmem).1 rfl, fun hhead => (h _ (List.mem_of_mem_head? hhead)).2 rfl⟩

theorem unifyLines {text : List Char} (h : '\r' ∉ text) : Scan.unifyLines text = text := by
  induction text with
  | nil => rfl
  | cons c rest ih =>
    simp only [List.mem_cons, not_or] at h
    simp [Scan.unifyLines, Ne.symm h.1, ih h.2]

end Clean

namespace Layout

theorem ne_of_isWordChar {c : Char} (h : Scan.isWordChar c = true) : c ≠ '\r' ∧ c ≠ '\ufeff' := by
  constructor <;> rintro rfl <;> simp [Scan.isWordChar] at h

theorem ne_of_isDigit {c : Char} (h : c.isDigit = true) : c ≠ '\r' ∧ c ≠ '\ufeff' := by
  constructor <;> rintro rfl <;> simp at h

theorem return_notMem_escape (multiline : Bool) (c : Char) : '\r' ∉ escape multiline c := by
  have hfour : ∀ n < 128, '\r' ∉ fourDigits n := by decide +kernel
  unfold escape
  split_ifs with hline hmulti hback htab hfeed hreturn hquote hslash hcontrol
  all_goals try simp
  · refine hfour _ ?_
    rcases hcontrol with h | rfl
    · have : c.toNat < 32 := h
      omega
    · decide
  · exact Ne.symm hreturn

theorem clean_stringText (text : List Char) : Clean (stringText text) := by
  unfold stringText
  by_cases hescapes : needsEscapes text = true
  · simp only [hescapes, if_true, escapedLines, escaped]
    split_ifs <;> refine Clean.cons (by decide) (by decide) ?_ <;> simp [return_notMem_escape]
  · have hreturn : '\r' ∉ text := by
      intro hmem
      simp only [needsEscapes, Bool.not_eq_true, Bool.or_eq_false_iff, List.any_eq_false] at hescapes
      have hcontrol := hescapes.2 '\r' hmem
      simp at hcontrol
    simp only [hescapes, Bool.false_eq_true, if_false]
    split_ifs <;> refine Clean.cons (by decide) (by decide) ?_ <;> simp [hreturn]

theorem clean_keyText (key : String) : Clean (keyText key) := by
  unfold keyText
  split_ifs with hbare
  · simp only [Bool.and_eq_true, List.all_eq_true] at hbare
    exact Clean.of_forall fun c hc => ne_of_isWordChar (hbare.2 c hc)
  · exact Clean.cons (by decide) (by decide) (by simp [return_notMem_escape])

theorem clean_toDigits (n : Nat) : ∀ c ∈ Nat.toDigits 10 n, c ≠ '\r' ∧ c ≠ '\ufeff' :=
  fun _ hc => ne_of_isDigit (Number.isDigit_of_mem_toDigits hc)

theorem clean_integerText (value : Int64) : Clean (integerText value) := by
  unfold integerText
  split_ifs
  · exact Clean.cons (by decide) (by decide) fun h => (clean_toDigits _ _ h).1 rfl
  · exact Clean.of_forall (clean_toDigits _)

theorem clean_positional (digits : Nat) (exponent : Int) :
    ∀ c ∈ Binary64.positional digits exponent, c ≠ '\r' ∧ c ≠ '\ufeff' := by
  have hzero : ∀ n, ∀ c ∈ List.replicate n '0', c ≠ '\r' ∧ c ≠ '\ufeff' := by
    intro n c hc
    rw [List.eq_of_mem_replicate hc]
    decide
  unfold Binary64.positional
  split_ifs with hwhole
  · intro c hc
    simp only [List.mem_append, List.mem_cons, List.not_mem_nil, or_false] at hc
    rcases hc with (hc | hc) | rfl | rfl
    · exact clean_toDigits _ c hc
    · exact hzero _ c hc
    · decide
    · decide
  · intro c hc
    have hpadded : ∀ x ∈ List.replicate ((-exponent).toNat + 1 - (Nat.toDigits 10 digits).length) '0' ++
        Nat.toDigits 10 digits, x ≠ '\r' ∧ x ≠ '\ufeff' := by
      intro x hx
      exact (List.mem_append.1 hx).elim (hzero _ x) (clean_toDigits _ x)
    rcases List.mem_append.1 hc with hc | hc
    · exact hpadded c (List.mem_of_mem_take hc)
    · rcases List.mem_cons.1 hc with rfl | hc
      · decide
      · exact hpadded c (List.mem_of_mem_drop hc)

theorem clean_floatText (x : Binary64) : Clean x.text := by
  have hsign : Clean (if x.isNegative then ['-'] else []) := by
    split_ifs <;> simp [Clean]
  unfold Binary64.text
  simp only
  split_ifs
  all_goals first
    | exact Clean.append (by simp [Clean]) (Clean.of_forall (clean_positional _ _))
    | simp [Clean]

theorem return_notMem_dotted (keys : List String) : '\r' ∉ dotted keys := by
  induction keys with
  | nil => simp [dotted]
  | cons key keys ih =>
    cases keys with
    | nil => simpa [dotted] using (clean_keyText key).1
    | cons next keys =>
      have htext : dotted (key :: next :: keys) = keyText key ++ '.' :: dotted (next :: keys) := by
        simp [dotted, List.intercalate]
      rw [htext]
      simpa [(clean_keyText key).1] using ih

theorem clean_headerText (repeated : Bool) (keys : List String) : Clean (headerText repeated keys) := by
  have hdotted := return_notMem_dotted keys
  unfold headerText
  split_ifs <;> exact Clean.cons (by decide) (by decide) (by simp [hdotted])

namespace Stack

/-- The line that a header takes, after a blank line or without one. -/
theorem headerLine_table (key : String) (fresh headed : Bool) (outer : Stack) :
    headerLine (.table key fresh headed :: outer) =
      (if fresh then [] else ['\n']) ++ headerText false (keys (.table key fresh headed :: outer)) := by
  simp [headerLine, headerText, path, dotted]

/-- The line that the header of an element takes, after a blank line or without one. -/
theorem headerLine_array (size : Nat) (fresh : Bool) (style : Option Style) (outer : Stack) :
    ∃ blank, (blank = [] ∨ blank = ['\n']) ∧
      headerLine (.array size fresh style :: outer) = blank ++ headerText true (keys outer) := by
  match fresh, outer with
  | false, _ | true, .table _ false _ :: _ => exact ⟨['\n'], Or.inr rfl, by simp [headerLine, headerText, path, dotted]⟩
  | true, [] | true, .array .. :: _ | true, .table _ true _ :: _ =>
    exact ⟨[], Or.inl rfl, by simp [headerLine, headerText, path, dotted]⟩

theorem clean_blank {blank : List Char} (h : blank = [] ∨ blank = ['\n']) : Clean blank := by
  rcases h with rfl | rfl <;> simp [Clean]

theorem clean_headerLine (stack : Stack) : Clean (headerLine stack) := by
  match stack with
  | [] => exact Clean.nil
  | .table key fresh headed :: outer =>
    rw [headerLine_table]
    exact Clean.append (by split_ifs <;> simp [Clean]) (clean_headerText _ _)
  | .array size fresh style :: outer =>
    obtain ⟨blank, hblank, htext⟩ := headerLine_array size fresh style outer
    rw [htext]
    exact Clean.append (clean_blank hblank) (clean_headerText _ _)

theorem clean_pendingHeaders (stack : Stack) : Clean (pendingHeaders stack) := by
  fun_induction pendingHeaders stack with
  | case1 _ _ size fresh style key fresh' headed outer ih =>
    refine Clean.append ?_ (clean_headerLine _)
    split_ifs
    · exact ih
    · exact Clean.nil
  | case2 _ _ outer _ ih => exact ih
  | case3 => exact Clean.nil

theorem clean_header (stack : Stack) : Clean (header stack) := by
  unfold header
  split <;> exact Clean.append (clean_pendingHeaders _) (clean_headerLine _)

theorem clean_lead? {stack after : Stack} {text : List Char} (h : lead? stack = some (text, after)) : Clean text := by
  induction stack generalizing text after with
  | nil =>
    obtain ⟨rfl, -⟩ : [] = text ∧ [] = after := by simpa [lead?] using h
    exact Clean.nil
  | cons frame outer ih =>
    cases frame with
    | table key fresh headed =>
      have hequals : Clean (keyText key ++ [' ', '=', ' ']) := (clean_keyText key).append (by simp [Clean])
      rw [lead?] at h
      split_ifs at h
      · obtain ⟨rfl, -⟩ := Prod.mk.injEq .. ▸ Option.some.inj h
        rw [List.append_assoc]
        exact (clean_header outer).append hequals
      · obtain ⟨rfl, -⟩ := Prod.mk.injEq .. ▸ Option.some.inj h
        exact hequals
    | array size fresh style =>
      have hseparator : Clean (if size ≤ 1 then if fresh then ['['] else [',', ' ']
          else (if fresh then ['[', '\n'] else [',', '\n']) ++ [' ', ' ', ' ', ' ']) := by
        split_ifs <;> simp [Clean]
      cases fresh with
      | false =>
        obtain ⟨rfl, -⟩ := Prod.mk.injEq .. ▸ Option.some.inj h
        exact hseparator
      | true =>
        simp only [lead?, if_true, Option.bind_eq_bind, Option.bind_eq_some_iff] at h
        obtain ⟨⟨lead, above⟩, hlead, h⟩ := h
        obtain ⟨rfl, -⟩ := Prod.mk.injEq .. ▸ Option.some.inj h
        exact (ih hlead).append (by split_ifs <;> simp [Clean])

end Stack

theorem clean_plain? {text : List Char} (htext : Clean text) {stack : Stack} {done : List Char × Stack}
    (h : plain? text stack = some done) : Clean done.1 := by
  simp only [plain?, Option.bind_eq_bind, Option.bind_eq_some_iff] at h
  obtain ⟨⟨lead, after⟩, hlead, h⟩ := h
  obtain rfl := Option.some.inj h
  refine ((Stack.clean_lead? hlead).append htext).append ?_
  unfold Stack.lineEnd
  split <;> simp [Clean]

theorem clean_table? {entries : Stack → Option (List Char × Stack)}
    (hentries : ∀ stack done, entries stack = some done → Clean done.1) {stack : Stack} {done : List Char × Stack}
    (h : table? entries stack = some done) : Clean done.1 := by
  simp only [table?, Option.bind_eq_bind, Option.bind_eq_some_iff] at h
  obtain ⟨written, hwritten, h⟩ := h
  have hclean := hentries _ _ hwritten
  split at h
  · obtain rfl := Option.some.inj h
    exact hclean.append (Stack.clean_header _)
  · obtain rfl := Option.some.inj h
    exact hclean

theorem clean_array? {elements : Stack → Option (List Char × Stack)}
    (helements : ∀ stack done, elements stack = some done → Clean done.1) {size : Nat} {stack : Stack}
    {done : List Char × Stack} (h : array? elements size stack = some done) : Clean done.1 := by
  simp only [array?, Option.bind_eq_bind, Option.bind_eq_some_iff] at h
  obtain ⟨written, hwritten, h⟩ := h
  have hclean := helements _ _ hwritten
  split at h
  · obtain rfl := Option.some.inj h
    exact hclean
  · obtain rfl := Option.some.inj h
    refine (hclean.append ?_).append ?_
    · split_ifs <;> simp [Clean]
    · unfold Stack.lineEnd
      split <;> simp [Clean]
  · obtain ⟨last, hlast, h⟩ := Option.bind_eq_some_iff.1 h
    obtain rfl := Option.some.inj h
    exact hclean.append (clean_plain? (by simp [Clean]) hlast)

mutual

/-- Whatever is written is clean. -/
theorem clean_value? : ∀ (value : Value) (stack : Stack) (done : List Char × Stack),
    value? value stack = some done → Clean done.1
  | .boolean true, _, _, h | .boolean false, _, _, h => clean_plain? (by simp [Clean]) h
  | .integer value, _, _, h => clean_plain? (clean_integerText value) h
  | .float value, _, _, h => clean_plain? (clean_floatText value) h
  | .string text, _, _, h => clean_plain? (clean_stringText text.toList) h
  | .moment moment, _, _, h => by
    rw [value?] at h
    refine clean_table? (fun stack done hdone => ?_) h
    obtain ⟨written, hwritten, rfl⟩ := Option.map_eq_some_iff.1 hdone
    have hclean := clean_plain? (clean_stringText moment.text) hwritten
    exact hclean
  | .array elements, _, _, h => clean_array? (fun stack done => clean_elements? elements stack done) h
  | .table entries, _, _, h => by
    rw [value?] at h
    refine clean_table? (fun stack done hdone => ?_) h
    simp only [Option.bind_eq_bind, Option.bind_eq_some_iff] at hdone
    obtain ⟨first, hfirst, second, hsecond, third, hthird, hdone⟩ := hdone
    obtain rfl := Option.some.inj hdone
    exact ((clean_entries? .plain entries _ _ hfirst).append (clean_entries? .arrayOfTables entries _ _ hsecond)).append
      (clean_entries? .table entries _ _ hthird)

theorem clean_elements? : ∀ (values : List Value) (stack : Stack) (done : List Char × Stack),
    elements? values stack = some done → Clean done.1
  | [], _, _, h => by
    obtain rfl := Option.some.inj h
    exact Clean.nil
  | value :: rest, _, _, h => by
    simp only [elements?, Option.bind_eq_bind, Option.bind_eq_some_iff] at h
    obtain ⟨first, hfirst, more, hmore, h⟩ := h
    obtain rfl := Option.some.inj h
    exact (clean_value? value _ _ hfirst).append (clean_elements? rest _ _ hmore)

theorem clean_entries? (group : Group) : ∀ (entries : List (String × Value)) (stack : Stack)
    (done : List Char × Stack), entries? group entries stack = some done → Clean done.1
  | [], _, _, h => by
    obtain rfl := Option.some.inj h
    exact Clean.nil
  | (key, value) :: rest, stack, done, h => by
    rw [entries?] at h
    split_ifs at h
    · simp only [Option.bind_eq_bind, Option.bind_eq_some_iff] at h
      obtain ⟨first, hfirst, more, hmore, h⟩ := h
      obtain rfl := Option.some.inj h
      exact (clean_value? value _ _ hfirst).append (clean_entries? group rest _ _ hmore)
    · exact clean_entries? group rest stack done h

end

end Layout

end LedSwitch.Toml
