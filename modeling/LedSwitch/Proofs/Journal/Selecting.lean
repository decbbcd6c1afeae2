import LedSwitch.Proofs.Journal.Settings

/-!
Which records a list of entries lets pass: those that the entry with the longest target that fits admits
(`Filter.Passes`). A filter admits what the entries of its setting let pass, in whatever order they are listed
(`Filter.Lists.admits_iff`).
-/

namespace LedSwitch

/-- The name of a source begins with a text. -/
def Source.BeginsWith (source : Source) (text : String) : Prop := text.toList <+: source.label.toList

instance (source : Source) (text : String) : Decidable (source.BeginsWith text) :=
  inferInstanceAs (Decidable (text.toList <+: source.label.toList))

/-- Two beginnings of one name with the same length are the same. -/
theorem Source.BeginsWith.unique {source : Source} {text other : String} (h : source.BeginsWith text)
    (hother : source.BeginsWith other) (hlength : text.length = other.length) : text = other := by
  apply String.toList_injective
  have hsame : text.toList.length = other.toList.length := by rwa [String.length_toList, String.length_toList]
  exact (List.prefix_of_prefix_length_le h hother (Nat.le_of_eq hsame)).eq_of_length hsame

namespace Filter

/-- The records that pass a list of entries. The entry counts whose target is the longest one with which the name of the
    record's source begins; without such an entry a record does not pass. -/
def Passes (entries : List Entry) (record : Record) : Prop :=
  ∃ entry ∈ entries, record.source.BeginsWith entry.target ∧
    (∀ other ∈ entries, record.source.BeginsWith other.target → other.target.length ≤ entry.target.length) ∧
    record.level.rank ≤ entry.threshold.rank

instance (entries : List Entry) (record : Record) : Decidable (Passes entries record) :=
  inferInstanceAs (Decidable (∃ entry ∈ entries, _ ∧ (∀ other ∈ entries, _) ∧ _))

/-- Of the best rule so far and another one, the one that counts more. -/
def longer (source : Source) (best : Option Rule) (rule : Rule) : Option Rule :=
  if source.BeginsWith rule.beginning ∧ ∀ b ∈ best, b.beginning.length ≤ rule.beginning.length then some rule else best

theorem ruleFor_eq (filter : Filter) (source : Source) :
    filter.ruleFor source = filter.rules.foldl (longer source) none := by
  rw [ruleFor]
  congr 1
  funext best rule
  apply if_congr _ rfl rfl
  rw [List.isPrefixOf_iff_prefix]
  cases best <;> simp [Source.BeginsWith]

section

variable {source : Source} {best : Option Rule} {rule first : Rule}

theorem of_longer (h : longer source best first = some rule) :
    (rule = first ∧ source.BeginsWith rule.beginning) ∨ best = some rule := by
  rw [longer] at h
  split_ifs at h with hfits
  · obtain rfl := Option.some.inj h
    exact Or.inl ⟨rfl, hfits.1⟩
  · exact Or.inr h

theorem le_longer (h : (rule = first ∧ source.BeginsWith rule.beginning) ∨ best = some rule) :
    ∃ found, longer source best first = some found ∧ rule.beginning.length ≤ found.beginning.length := by
  rw [longer]
  split_ifs with hfits
  · refine ⟨first, rfl, ?_⟩
    obtain ⟨rfl, -⟩ | hbest := h
    · exact Nat.le_refl _
    · exact hfits.2 rule hbest
  · obtain ⟨rfl, hbegins⟩ | hbest := h
    · rw [not_and] at hfits
      have hbetter : ∃ found ∈ best, rule.beginning.length < found.beginning.length := by
        simpa using hfits hbegins
      obtain ⟨found, hfound, hlonger⟩ := hbetter
      exact ⟨found, hfound, Nat.le_of_lt hlonger⟩
    · exact ⟨rule, hbest, Nat.le_refl _⟩

end

/-- The rule that counts is one whose target fits, or the best one so far, and none of these is longer. -/
theorem foldl_longer (rules : List Rule) (source : Source) (best : Option Rule) :
    (∀ rule, rules.foldl (longer source) best = some rule →
      (rule ∈ rules ∧ source.BeginsWith rule.beginning) ∨ best = some rule) ∧
      ∀ rule, (rule ∈ rules ∧ source.BeginsWith rule.beginning) ∨ best = some rule →
        ∃ found, rules.foldl (longer source) best = some found ∧ rule.beginning.length ≤ found.beginning.length := by
  induction rules generalizing best with
  | nil =>
    refine ⟨fun rule => Or.inr, fun rule hrule => ?_⟩
    obtain ⟨⟨⟩, -⟩ | hbest := hrule
    exact ⟨rule, hbest, Nat.le_refl _⟩
  | cons first rest ih =>
    obtain ⟨hfound, hlongest⟩ := ih (longer source best first)
    rw [List.foldl_cons]
    constructor
    · intro rule hrule
      obtain ⟨hmem, hbegins⟩ | hlonger := hfound rule hrule
      · exact Or.inl ⟨List.mem_cons_of_mem _ hmem, hbegins⟩
      · exact (of_longer hlonger).imp_left fun ⟨heq, hbegins⟩ => ⟨heq ▸ List.mem_cons_self, hbegins⟩
    · intro rule hrule
      by_cases hrest : rule ∈ rest ∧ source.BeginsWith rule.beginning
      · exact hlongest rule (Or.inl hrest)
      · have hfirst : (rule = first ∧ source.BeginsWith rule.beginning) ∨ best = some rule :=
          hrule.imp_left fun ⟨hmem, hbegins⟩ =>
            ⟨(List.mem_cons.1 hmem).resolve_right fun hmem => hrest ⟨hmem, hbegins⟩, hbegins⟩
        obtain ⟨better, hbetter, hle⟩ := le_longer hfirst
        obtain ⟨found, hcounts, hle'⟩ := hlongest better (Or.inr hbetter)
        exact ⟨found, hcounts, Nat.le_trans hle hle'⟩

variable {filter : Filter} {source : Source}

/-- If the rules have different targets, the longest of those that fit is the one that counts. -/
theorem ruleFor_eq_some_iff (hdistinct : (filter.rules.map Rule.beginning).Nodup) {rule : Rule} :
    filter.ruleFor source = some rule ↔ rule ∈ filter.rules ∧ source.BeginsWith rule.beginning ∧
      ∀ other ∈ filter.rules, source.BeginsWith other.beginning → other.beginning.length ≤ rule.beginning.length := by
  obtain ⟨hfound, hlongest⟩ := foldl_longer filter.rules source none
  rw [ruleFor_eq]
  constructor
  · intro hrule
    obtain ⟨hmem, hbegins⟩ := (hfound rule hrule).resolve_right (by simp)
    refine ⟨hmem, hbegins, fun other hother hbegins' => ?_⟩
    obtain ⟨found, hcounts, hle⟩ := hlongest other (Or.inl ⟨hother, hbegins'⟩)
    rwa [Option.some.inj (hrule.symm.trans hcounts)]
  · rintro ⟨hmem, hbegins, hmost⟩
    obtain ⟨found, hcounts, hle⟩ := hlongest rule (Or.inl ⟨hmem, hbegins⟩)
    obtain ⟨hmem', hbegins'⟩ := (hfound found hcounts).resolve_right (by simp)
    have hsame := hbegins.unique hbegins' (Nat.le_antisymm hle (hmost found hmem' hbegins'))
    rw [hcounts, List.inj_on_of_nodup_map hdistinct hmem hmem' hsame]

theorem admitsLevel_iff {level : Level} : filter.admitsLevel level source = true ↔
    ∃ rule, filter.ruleFor source = some rule ∧ ∃ finest ∈ rule.finest, level.rank ≤ finest.rank := by
  rw [admitsLevel]
  cases filter.ruleFor source with
  | none => simp
  | some rule =>
    obtain ⟨target, finest⟩ := rule
    cases finest <;> simp

/-- What a setting shows is what its entries let pass, if they have different targets. -/
theorem Lists.admits_iff {setting : Option String} {entries : List Entry} (h : Lists setting entries)
    (hdistinct : (entries.map Entry.target).Nodup) (record : Record) :
    (ofSetting setting).admits record = true ↔ Passes entries record := by
  obtain ⟨hsense, hpattern⟩ := h.ofSetting_eq hdistinct
  have hbeginnings : (ofSetting setting).rules.map Rule.beginning = entries.map Entry.target := by
    have hfirst := congrArg (List.map Prod.fst) hsense
    rwa [List.map_map, List.map_map] at hfirst
  rw [admits, hpattern, Option.all_none, Bool.and_true, admitsLevel_iff]
  simp only [ruleFor_eq_some_iff (hbeginnings ▸ hdistinct), Passes, Threshold.rank_le_iff]
  -- Both sides speak of what rules and entries say, and that is the same.
  have hchosen := iff_of_eq (congrArg (fun senses : List (String × Option Level) =>
    ∃ sense ∈ senses, record.source.BeginsWith sense.1 ∧
      (∀ other ∈ senses, record.source.BeginsWith other.1 → other.1.length ≤ sense.1.length) ∧
      ∃ finest ∈ sense.2, record.level.rank ≤ finest.rank) hsense)
  simpa [Rule.sense, Entry.sense, and_assoc] using hchosen

end Filter

end LedSwitch
