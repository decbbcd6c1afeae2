import Mathlib.Data.List.Forall2
import Mathlib.Data.List.Nodup
import Mathlib.Tactic.Common
import LedSwitch.Journal.Filter
import LedSwitch.Proofs.Text.Parts

/-!
Settings for the selection of records: lists of entries, each a threshold for all sources or for those whose names begin
with a target. Reading the text of a list finds its entries (`Filter.Lists.ofSetting_eq`), without a warning
(`Filter.Lists.warnings_eq_nil`).
-/

namespace LedSwitch

namespace Blank

/-- There is nothing but white space around a text. -/
def Around (text whole : List Char) : Prop :=
  ∃ before after, (∀ c ∈ before, holds c = true) ∧ (∀ c ∈ after, holds c = true) ∧ whole = before ++ text ++ after

theorem dropWhile_append {before text : List Char} (hbefore : ∀ c ∈ before, holds c = true)
    (htext : ∀ c ∈ text.head?, holds c = false) : (before ++ text).dropWhile holds = text := by
  rw [List.dropWhile_append_of_pos hbefore]
  cases text with
  | nil => rfl
  | cons c rest => rw [List.dropWhile_cons_of_neg (by simp [htext c rfl])]

/-- Trimming leaves the text within the white space. -/
theorem trim_of_around {text whole : List Char} (h : Around text whole) (hsome : text ≠ [])
    (hfirst : ∀ c ∈ text.head?, holds c = false) (hlast : ∀ c ∈ text.getLast?, holds c = false) :
    trim whole = text := by
  obtain ⟨before, after, hbefore, hafter, rfl⟩ := h
  have hfront : (before ++ text ++ after).dropWhile holds = text ++ after := by
    rw [List.append_assoc]
    apply dropWhile_append hbefore
    rwa [List.head?_append_of_ne_nil _ hsome]
  rw [trim, hfront, List.reverse_append, dropWhile_append, List.reverse_reverse]
  · simpa using hafter
  · rwa [List.head?_reverse]

end Blank

/-- The words for the finest level that is shown. -/
inductive Threshold where
  | off
  | error
  | warn
  | info
  | debug
  | trace
  deriving DecidableEq, Repr

namespace Threshold

def name : Threshold → String
  | off => "off"
  | error => "error"
  | warn => "warn"
  | info => "info"
  | debug => "debug"
  | trace => "trace"

/-- The place in the order of seriousness. Nothing is as serious as `off`, and no record as fine as `trace`. -/
def rank : Threshold → Nat
  | off => 0
  | error => 1
  | warn => 2
  | info => 3
  | debug => 4
  | trace => 5

/-- The finest level of the records that are shown. -/
def finest : Threshold → Option Level
  | off => none
  | error => some .error
  | warn => some .warn
  | info => some .info
  | debug | trace => some .debug

theorem rank_le_iff (level : Level) (threshold : Threshold) :
    level.rank ≤ threshold.rank ↔ ∃ finest ∈ threshold.finest, level.rank ≤ finest.rank := by
  cases level <;> cases threshold <;> decide

/-- A word for a threshold has the letters of its name, small or capital. -/
def Spells (word : List Char) (threshold : Threshold) : Prop := word.map Char.toLower = threshold.name.toList

instance (word : List Char) (threshold : Threshold) : Decidable (threshold.Spells word) :=
  inferInstanceAs (Decidable (_ = _))

variable {word : List Char} {threshold : Threshold}

theorem level?_of_spells (h : threshold.Spells word) : Filter.level? word = some threshold.finest := by
  rw [Filter.level?, h, String.ofList_toList]
  cases threshold <;> decide

/-- Only letters stand in a word for a threshold. -/
theorem isAlpha_of_spells (h : threshold.Spells word) : ∀ c ∈ word, c.isAlpha = true := by
  intro c hc
  have hlower : c.toLower.isLower = true := by
    have hname : threshold.name.toList.all Char.isLower = true := by cases threshold <;> decide
    exact List.all_eq_true.1 hname _ (h ▸ List.mem_map_of_mem hc)
  apply Bool.or_eq_true_iff.2
  by_cases hupper : c.val ≥ 'A'.val ∧ c.val ≤ 'Z'.val
  · exact Or.inl (decide_eq_true hupper)
  · have hsame : c.toLower = c := dif_neg hupper
    exact Or.inr (hsame ▸ hlower)

theorem ne_nil_of_spells (h : threshold.Spells word) : word ≠ [] := by
  rintro rfl
  cases threshold <;> cases h

end Threshold

/-- No letter is white space. -/
theorem Blank.holds_of_isAlpha {c : Char} (h : c.isAlpha = true) : holds c = false := by
  have hletter : 65 ≤ c.toNat ∧ c.toNat ≤ 90 ∨ 97 ≤ c.toNat ∧ c.toNat ≤ 122 := by
    obtain hupper | hlower := Bool.or_eq_true_iff.1 h
    · obtain ⟨hfirst, hlast⟩ : c.val ≥ 'A'.val ∧ c.val ≤ 'Z'.val := of_decide_eq_true hupper
      exact Or.inl ⟨UInt32.le_iff_toNat_le.1 hfirst, UInt32.le_iff_toNat_le.1 hlast⟩
    · obtain ⟨hfirst, hlast⟩ := Bool.and_eq_true_iff.1 hlower
      exact Or.inr ⟨UInt32.le_iff_toNat_le.1 (of_decide_eq_true hfirst),
        UInt32.le_iff_toNat_le.1 (of_decide_eq_true hlast)⟩
  simp only [holds, Bool.or_eq_false_iff, Bool.and_eq_false_iff, decide_eq_false_iff_not]
  omega

/-- What a rule says: where a source's name has to begin, and the finest level that is shown of it. -/
def Rule.sense (rule : Rule) : String × Option Level := (rule.beginning, rule.finest)

namespace Filter

/-- A threshold for the sources whose names begin with the target, which all of them do if that is empty. -/
structure Entry where
  target : String
  threshold : Threshold
  deriving DecidableEq, Repr

namespace Entry

/-- What an entry says, in the terms of rules. -/
def sense (entry : Entry) : String × Option Level := (entry.target, entry.threshold.finest)

/-- The characters that separate entries, the target from the threshold, and a list from a pattern. -/
def separators : List Char := [',', '=', '/']

/-- The ways to write an entry: a threshold alone, or behind a target. White space around the entry and before the
    threshold does not count, so it is no part of the beginning of a target. -/
inductive Spells : List Char → Entry → Prop where
  | bare {word text : List Char} {threshold : Threshold} (hword : threshold.Spells word)
      (htext : Blank.Around word text) : Spells text ⟨"", threshold⟩
  | targeted {target between word text : List Char} {threshold : Threshold} (htarget : ∀ c ∈ target, c ∉ separators)
      (hstart : ∀ c ∈ target.head?, Blank.holds c = false) (hbetween : ∀ c ∈ between, Blank.holds c = true)
      (hword : threshold.Spells word) (htext : Blank.Around (target ++ '=' :: (between ++ word)) text) :
      Spells text ⟨String.ofList target, threshold⟩

theorem notMem_separators_of_holds {c : Char} (h : Blank.holds c = true) : c ∉ separators := by
  intro hc
  simp only [separators, List.mem_cons, List.not_mem_nil, or_false] at hc
  obtain rfl | rfl | rfl := hc <;> cases h

theorem notMem_separators_of_isAlpha {c : Char} (h : c.isAlpha = true) : c ∉ separators := by
  intro hc
  simp only [separators, List.mem_cons, List.not_mem_nil, or_false] at hc
  obtain rfl | rfl | rfl := hc <;> cases h

/-- A separator stands only where the entry itself has it. -/
theorem notMem_of_around {inner text : List Char} {separator : Char} (hseparator : separator ∈ separators)
    (h : Blank.Around inner text) (hinner : separator ∉ inner) : separator ∉ text := by
  obtain ⟨before, after, hbefore, hafter, rfl⟩ := h
  simp only [List.mem_append, not_or]
  exact ⟨⟨fun hc => notMem_separators_of_holds (hbefore _ hc) hseparator, hinner⟩,
    fun hc => notMem_separators_of_holds (hafter _ hc) hseparator⟩

variable {word : List Char} {threshold : Threshold}

theorem notMem_word (hword : threshold.Spells word) {separator : Char} (hseparator : separator ∈ separators) :
    separator ∉ word :=
  fun hc => notMem_separators_of_isAlpha (Threshold.isAlpha_of_spells hword _ hc) hseparator

theorem notMem_value {between : List Char} (hbetween : ∀ c ∈ between, Blank.holds c = true)
    (hword : threshold.Spells word) {separator : Char} (hseparator : separator ∈ separators) :
    separator ∉ between ++ word := by
  rw [List.mem_append, not_or]
  exact ⟨fun hc => notMem_separators_of_holds (hbetween _ hc) hseparator, notMem_word hword hseparator⟩

/-- Neither a comma nor a slash stands in an entry. -/
theorem Spells.notMem {text : List Char} {entry : Entry} (h : Spells text entry) {separator : Char}
    (hseparator : separator = ',' ∨ separator = '/') : separator ∉ text := by
  have hmem : separator ∈ separators := by obtain rfl | rfl := hseparator <;> decide
  cases h with
  | bare hword htext => exact notMem_of_around hmem htext (notMem_word hword hmem)
  | targeted htarget _ hbetween hword htext =>
    apply notMem_of_around hmem htext
    rw [List.mem_append, List.mem_cons, not_or, not_or]
    refine ⟨fun hc => htarget _ hc hmem, ?_, notMem_value hbetween hword hmem⟩
    obtain rfl | rfl := hseparator <;> decide

theorem first_word (hword : threshold.Spells word) : ∀ c ∈ word.head?, Blank.holds c = false :=
  fun c hc => Blank.holds_of_isAlpha (Threshold.isAlpha_of_spells hword c (List.mem_of_mem_head? hc))

theorem last_word (hword : threshold.Spells word) : ∀ c ∈ word.getLast?, Blank.holds c = false :=
  fun c hc => Blank.holds_of_isAlpha (Threshold.isAlpha_of_spells hword c (List.mem_of_getLast? hc))

/-- A word for a threshold, alone or behind white space, is read as that. -/
theorem trim_value {between : List Char} (hbetween : ∀ c ∈ between, Blank.holds c = true)
    (hword : threshold.Spells word) : Blank.trim (between ++ word) = word :=
  Blank.trim_of_around ⟨between, [], hbetween, by simp, by simp⟩ (Threshold.ne_nil_of_spells hword)
    (first_word hword) (last_word hword)

/-- An entry is read as a rule that says the same. -/
theorem Spells.ruleOf_trim {text : List Char} {entry : Entry} (h : Spells text entry) : Blank.trim text ≠ [] ∧
    ∃ rule, Filter.ruleOf (Blank.trim text) = .ok rule ∧ rule.sense = entry.sense := by
  cases h with
  | @bare word _ threshold hword htext =>
    have hsome := Threshold.ne_nil_of_spells hword
    have hequals : '=' ∉ word := notMem_word hword (by decide)
    rw [Blank.trim_of_around htext hsome (first_word hword) (last_word hword), Filter.ruleOf,
      Parts.split_of_notMem hequals]
    simp only [Threshold.level?_of_spells hword]
    exact ⟨hsome, _, rfl, rfl⟩
  | @targeted target between word _ threshold htarget hstart hbetween hword htext =>
    have hword' := Threshold.ne_nil_of_spells hword
    have hequals : '=' ∉ target := fun hc => htarget _ hc (by decide)
    have hvalue : '=' ∉ between ++ word := notMem_value hbetween hword (by decide)
    have hsome : target ++ '=' :: (between ++ word) ≠ [] := by simp
    rw [Blank.trim_of_around htext hsome, Filter.ruleOf, Parts.split_append hequals, Parts.split_of_notMem hvalue]
    · simp only [trim_value hbetween hword, if_neg hword', Threshold.level?_of_spells hword]
      exact ⟨hsome, _, rfl, rfl⟩
    · cases target with
      | nil => simp [Blank.holds]
      | cons c rest => exact hstart
    · have hend : target ++ '=' :: (between ++ word) = target ++ '=' :: between ++ word := by simp
      rw [hend, List.getLast?_append_of_ne_nil _ hword']
      exact last_word hword

end Entry

/-- The settings that are lists of entries: one or more of them with commas between. Without a setting, everything down
    to the level of debugging is shown. -/
inductive Lists : Option String → List Entry → Prop where
  | unset : Lists none [⟨"", .debug⟩]
  | listed {texts : List (List Char)} {entries : List Entry} (hsome : texts ≠ [])
      (htexts : List.Forall₂ Entry.Spells texts entries) : Lists (some (String.ofList (List.intercalate [','] texts))) entries

variable {setting : Option String} {entries : List Entry} {texts : List (List Char)}

theorem exists_of_mem_texts (h : List.Forall₂ Entry.Spells texts entries) :
    ∀ text ∈ texts, ∃ entry, Entry.Spells text entry := by
  intro text htext
  induction h with
  | nil => cases htext
  | cons hfirst _ ih =>
    obtain rfl | hrest := List.mem_cons.1 htext
    · exact ⟨_, hfirst⟩
    · exact ih hrest

/-- The text of a list has no pattern, and is divided into its entries. -/
theorem parts?_of_spells (hsome : texts ≠ []) (h : List.Forall₂ Entry.Spells texts entries) :
    parts? (String.ofList (List.intercalate [','] texts)) = some (List.intercalate [','] texts, none) ∧
      Filter.entries (List.intercalate [','] texts) = texts.map Blank.trim := by
  have hspells := exists_of_mem_texts h
  have hslash : '/' ∉ List.intercalate [','] texts := by
    apply Parts.notMem_intercalate (by decide)
    intro text htext
    obtain ⟨entry, hentry⟩ := hspells text htext
    exact hentry.notMem (Or.inr rfl)
  have hcommas : Parts.split ',' (List.intercalate [','] texts) = texts := by
    apply Parts.split_intercalate hsome
    intro text htext
    obtain ⟨entry, hentry⟩ := hspells text htext
    exact hentry.notMem (Or.inl rfl)
  refine ⟨?_, ?_⟩
  · rw [parts?, String.toList_ofList, Parts.split_of_notMem hslash]
  · rw [Filter.entries, hcommas, List.filter_eq_self]
    intro text htext
    obtain ⟨whole, hwhole, rfl⟩ := List.mem_map.1 htext
    obtain ⟨entry, hentry⟩ := hspells whole hwhole
    simpa using hentry.ruleOf_trim.1

/-- The entries of a list are read as rules that say the same. -/
theorem sense_of_spells (h : List.Forall₂ Entry.Spells texts entries) :
    ((texts.map Blank.trim).filterMap fun text => (ruleOf text).toOption).map Rule.sense = entries.map Entry.sense := by
  induction h with
  | nil => rfl
  | cons hfirst _ ih =>
    obtain ⟨-, rule, hrule, hsense⟩ := hfirst.ruleOf_trim
    have hread : (ruleOf (Blank.trim _)).toOption = some rule := congrArg Except.toOption hrule
    simp only [List.map_cons, List.filterMap_cons, hread, ih, hsense]

/-- A list is read without a warning. -/
theorem Lists.warnings_eq_nil (h : Lists setting entries) : warnings setting = [] := by
  cases h with
  | unset => rfl
  | listed hsome htexts =>
    obtain ⟨hparts, hentries⟩ := parts?_of_spells hsome htexts
    rw [warnings, hparts]
    simp only [hentries, Option.toList_none, List.filterMap_nil, List.append_nil, List.filterMap_eq_nil_iff]
    intro text htext
    obtain ⟨whole, hwhole, rfl⟩ := List.mem_map.1 htext
    obtain ⟨entry, hentry⟩ := exists_of_mem_texts htexts whole hwhole
    obtain ⟨-, rule, hrule, -⟩ := hentry.ruleOf_trim
    rw [hrule, warning?]

theorem insert_of_notMem {rules : List Rule} {rule : Rule} (h : rule.target ∉ rules.map Rule.target) :
    insert rules rule = rules ++ [rule] := by
  induction rules with
  | nil => rfl
  | cons first rest ih =>
    rw [List.map_cons, List.mem_cons, not_or] at h
    rw [insert, if_neg (Ne.symm h.1), ih h.2, List.cons_append]

/-- Rules with different targets are kept as they come. -/
theorem foldl_insert {rules more : List Rule} (h : ((rules ++ more).map Rule.target).Nodup) :
    more.foldl insert rules = rules ++ more := by
  induction more generalizing rules with
  | nil => rw [List.append_nil, List.foldl_nil]
  | cons rule more ih =>
    rw [List.append_cons] at h ⊢
    have hnew : rule.target ∉ rules.map Rule.target := by
      rw [List.map_append, List.map_append, List.map_singleton] at h
      exact fun hmem => (List.nodup_append.1 (List.nodup_append.1 h).1).2.2 _ hmem _ (List.mem_singleton_self _) rfl
    rw [List.foldl_cons, insert_of_notMem hnew, ih h]

/-- A list whose entries have different targets stands for the rules that say the same, and for no pattern. -/
theorem Lists.ofSetting_eq (h : Lists setting entries) (hdistinct : (entries.map Entry.target).Nodup) :
    (ofSetting setting).rules.map Rule.sense = entries.map Entry.sense ∧ (ofSetting setting).pattern = none := by
  cases h with
  | unset => exact ⟨rfl, rfl⟩
  | @listed texts _ hsome htexts =>
    obtain ⟨hparts, hentries⟩ := parts?_of_spells hsome htexts
    have hsense := sense_of_spells htexts
    generalize hread : ((texts.map Blank.trim).filterMap fun text => (ruleOf text).toOption) = rules at hsense
    have hbeginnings : rules.map Rule.beginning = entries.map Entry.target := by
      have hfirst := congrArg (List.map Prod.fst) hsense
      rwa [List.map_map, List.map_map] at hfirst
    have htargets : (rules.map Rule.target).Nodup := by
      apply List.Nodup.of_map fun target => target.getD ""
      rw [List.map_map]
      exact hbeginnings ▸ hdistinct
    have hrules : rulesOf (List.intercalate [','] texts) = rules := by
      have hne : rules ≠ [] := by
        rintro rfl
        cases htexts with
        | nil => exact hsome rfl
        | cons => cases hbeginnings
      rw [rulesOf, hentries, hread, @foldl_insert [] rules htargets, List.nil_append]
      cases rules with
      | nil => exact absurd rfl hne
      | cons => rfl
    rw [ofSetting, ofText, hparts]
    exact ⟨(congrArg (List.map Rule.sense) hrules).trans hsense, rfl⟩

end Filter

end LedSwitch
