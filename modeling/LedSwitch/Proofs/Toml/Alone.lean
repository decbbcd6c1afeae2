import Mathlib.Tactic.Common
import LedSwitch.Toml.Assembly

/-!
Blocks of sections that a visit takes and nothing else. Before such a block, what belongs to the keys in question is
used up, and after it nothing belongs to them (`Assembly.Alone`). A block stands alone in parts, too, each of them
once those before it are used up.
-/

namespace LedSwitch.Toml.Assembly

section

variable {child : Numbered → List Nat → Option (Value × List Nat)} {target : Target}

/-- Sections that are used up, or that have another header, are passed over. -/
theorem visit?_skip {parent : Numbered} {used : List Nat} {gathered : Table} {skipped : List Numbered}
    (rest : List Numbered) (h : ∀ s ∈ skipped, s.2 ∈ used ∨ ¬ target.header <+: s.1.header) :
    visit? child target parent used gathered (skipped ++ rest) = visit? child target parent used gathered rest := by
  induction skipped with
  | nil => rfl
  | cons s skipped ih =>
    have hskip : s.2 ∈ used ∨ (!target.header.isPrefixOf s.1.header) = true := by
      rw [Bool.not_eq_true', Bool.eq_false_iff, ne_eq, List.isPrefixOf_iff_prefix]
      exact h s List.mem_cons_self
    rw [List.cons_append, visit?, if_pos hskip]
    exact ih fun other hother => h other (List.mem_cons_of_mem _ hother)

theorem visit?_skipped {parent : Numbered} {used : List Nat} {gathered : Table} {skipped : List Numbered}
    (h : ∀ s ∈ skipped, s.2 ∈ used ∨ ¬ target.header <+: s.1.header) :
    visit? child target parent used gathered skipped = some (.table gathered, used) := by
  rw [← List.append_nil skipped]
  exact visit?_skip [] h

/-- The section against which headers are checked after another one. -/
def shorter (parent s : Numbered) : Numbered := if s.1.header.length < parent.1.header.length then s else parent

theorem shorter_eq_or (parent s : Numbered) : shorter parent s = parent ∨ shorter parent s = s := by
  unfold shorter
  split_ifs
  · exact Or.inr rfl
  · exact Or.inl rfl

/-- A section with a longer header gives the entry for its next key. -/
theorem visit?_child {parent s : Numbered} {used used' : List Nat} {gathered : Table} {key : String}
    {keys : List String} {value : Value} (hunused : s.2 ∉ used) (hheader : s.1.header = target.header ++ key :: keys)
    (hparent : s.2 = parent.2 ∨ s.1.header ≠ parent.1.header) (haccepts : target.accepts gathered key = true)
    (hchild : child s used = some (value, used')) (rest : List Numbered) :
    visit? child target parent used gathered (s :: rest) =
      visit? child target (shorter parent s) used' (gathered.insert key value) rest := by
  have hfront : target.header.isPrefixOf s.1.header = true := by
    rw [List.isPrefixOf_iff_prefix, hheader]
    exact List.prefix_append _ _
  have hdouble : ¬ (s.2 ≠ parent.2 ∧ s.1.header = parent.1.header) := by
    rintro ⟨hnumber, heq⟩
    exact hparent.elim hnumber fun hne => hne heq
  have hdrop : s.1.header.drop target.header.length = key :: keys := by rw [hheader, List.drop_left]
  rw [visit?, if_neg (by simp [hunused, hfront]), if_neg hdouble]
  simp [hdrop, haccepts, hchild, shorter]

/-- The section of the table itself adds its lines. -/
theorem visit?_own {s : Numbered} {used : List Nat} {gathered more : Table} (hunused : s.2 ∉ used)
    (hheader : s.1.header = target.header) (hrepeated : s.1.repeated = false)
    (hbody : target.addBody? gathered s.1.body = some (.table more)) (rest : List Numbered) :
    visit? child target s used gathered (s :: rest) = visit? child target s (s.2 :: used) more rest := by
  have hfront : target.header.isPrefixOf s.1.header = true :=
    List.isPrefixOf_iff_prefix.2 (hheader ▸ List.prefix_rfl)
  have hdrop : s.1.header.drop target.header.length = [] := by rw [hheader, List.drop_length]
  rw [visit?, if_neg (by simp [hunused, hfront]), if_neg (by simp)]
  simp [hdrop, hrepeated, hbody]

/-- The section of a date or time decides the visit. -/
theorem visit?_moment {s : Numbered} {used : List Nat} {gathered : Table} {moment : DateTime} (hunused : s.2 ∉ used)
    (hheader : s.1.header = target.header) (hrepeated : s.1.repeated = false)
    (hbody : target.addBody? gathered s.1.body = some (.moment moment)) (rest : List Numbered) :
    visit? child target s used gathered (s :: rest) = some (.moment moment, s.2 :: used) := by
  have hfront : target.header.isPrefixOf s.1.header = true :=
    List.isPrefixOf_iff_prefix.2 (hheader ▸ List.prefix_rfl)
  have hdrop : s.1.header.drop target.header.length = [] := by rw [hheader, List.drop_length]
  rw [visit?, if_neg (by simp [hunused, hfront]), if_neg (by simp)]
  simp [hdrop, hrepeated, hbody]

end

/-- The section against which headers are checked that are to come below the keys: that of the table itself, the next
    one, or one of an entry before. -/
def Checked (keys : List String) (coming : List String) (next : List Numbered) (parent : Numbered) : Prop :=
  parent.1.header = keys ∨ next.head? = some parent ∨ ∃ key, key ∉ coming ∧ keys ++ [key] <+: parent.1.header

namespace Checked

variable {keys coming : List String} {key : String} {s parent : Numbered} {rest : List Numbered}

/-- The next section is checked against itself or has another header. -/
theorem ne (h : Checked keys (key :: coming) (s :: rest) parent) (hkey : keys ++ [key] <+: s.1.header) :
    s.2 = parent.2 ∨ s.1.header ≠ parent.1.header := by
  rcases h with h | h | ⟨other, hother, h⟩
  · refine Or.inr fun heq => ?_
    have hlength := hkey.length_le
    rw [heq, h, List.length_append, List.length_singleton] at hlength
    omega
  · exact Or.inl (congrArg Prod.snd (Option.some.inj h))
  · refine Or.inr fun heq => ?_
    rw [← heq] at h
    have hkeys := (List.prefix_of_prefix_length_le h hkey (by simp)).eq_of_length (by simp)
    exact hother (by simp [List.singleton_inj.1 (List.append_cancel_left hkeys)])

/-- After the sections of an entry the headers are checked against one of them or one before. -/
theorem shorter (h : Checked keys (key :: coming) (s :: rest) parent) (hkey : keys ++ [key] <+: s.1.header)
    (hnew : key ∉ coming) (next : List Numbered) : Checked keys coming next (shorter parent s) := by
  have hown : Checked keys coming next s := Or.inr (Or.inr ⟨key, hnew, hkey⟩)
  rcases shorter_eq_or parent s with heq | heq
  · rw [heq]
    rcases h with h | h | ⟨other, hother, h⟩
    · exact Or.inl h
    · exact Option.some.inj h ▸ hown
    · exact Or.inr (Or.inr ⟨other, fun hmem => hother (List.mem_cons_of_mem _ hmem), h⟩)
  · rwa [heq]

end Checked

/-- The sections of a block stand alone: those before it that belong to `keys` are used up, and below the limit
    none after it belongs there. -/
structure Alone (all : List Section) (keys : List String) (before block after : List Section) (limit : Nat)
    (used : List Nat) : Prop where
  split : all = before ++ (block ++ after)
  ends : before.length + block.length ≤ limit
  used_before : ∀ s n, (s, n) ∈ before.zipIdx → keys <+: s.header → n ∈ used
  none_after : ∀ s n, (s, n) ∈ after.zipIdx (before.length + block.length) → n < limit → ¬ keys <+: s.header
  unused : ∀ n, before.length ≤ n → n < before.length + block.length → n ∉ used

/-- What is used up after a block of so many sections, from the number `first` on. -/
def UsesUp (used used' : List Nat) (first count : Nat) : Prop :=
  ∀ n, n ∈ used' ↔ n ∈ used ∨ (first ≤ n ∧ n < first + count)

theorem UsesUp.nil (used : List Nat) (first : Nat) : UsesUp used used first 0 :=
  fun n => ⟨Or.inl, fun h => h.elim id fun h => by omega⟩

theorem UsesUp.single (used : List Nat) (first : Nat) : UsesUp used (first :: used) first 1 := by
  intro n
  rw [List.mem_cons]
  constructor
  · rintro (rfl | hmem)
    · exact Or.inr (by omega)
    · exact Or.inl hmem
  · rintro (hmem | hn)
    · exact Or.inr hmem
    · exact Or.inl (by omega)

theorem UsesUp.append {used used' used'' : List Nat} {first count count' : Nat} (h : UsesUp used used' first count)
    (h' : UsesUp used' used'' (first + count) count') : UsesUp used used'' first (count + count') := by
  intro n
  rw [h' n, h n]
  constructor
  · rintro ((hmem | hn) | hn)
    · exact Or.inl hmem
    · exact Or.inr (by omega)
    · exact Or.inr (by omega)
  · rintro (hmem | hn)
    · exact Or.inl (Or.inl hmem)
    · by_cases hlow : n < first + count
      · exact Or.inl (Or.inr (by omega))
      · exact Or.inr (by omega)

/-- A visit takes all the sections of an entry with the first one, if its value uses them up. -/
theorem visit?_block {child : Numbered → List Nat → Option (Value × List Nat)} {target : Target} {parent : Numbered}
    {used used' : List Nat} {gathered : Table} {key : String} {keys : List String} {value : Value} {first : Section}
    {block : List Section} {start : Nat} (hunused : start ∉ used) (hheader : first.header = target.header ++ key :: keys)
    (hparent : start = parent.2 ∨ first.header ≠ parent.1.header) (haccepts : target.accepts gathered key = true)
    (hchild : child (first, start) used = some (value, used')) (hused : UsesUp used used' start (first :: block).length)
    (rest : List Numbered) :
    visit? child target parent used gathered ((first :: block).zipIdx start ++ rest) =
      visit? child target (shorter parent (first, start)) used' (gathered.insert key value) rest := by
  have hskips : ∀ s ∈ block.zipIdx (start + 1), s.2 ∈ used' ∨ ¬ target.header <+: s.1.header := by
    rintro ⟨s, n⟩ hs
    have hn := List.mem_zipIdx hs
    refine Or.inl ((hused n).2 (Or.inr ?_))
    rw [List.length_cons]
    omega
  rw [List.zipIdx_cons, List.cons_append, visit?_child hunused hheader hparent haccepts hchild, visit?_skip _ hskips]

namespace Alone

variable {all before block block' after : List Section} {keys : List String} {limit : Nat} {used used' : List Nat}

/-- The sections below the limit, with their numbers. -/
theorem filter_zipIdx (h : Alone all keys before block after limit used) :
    all.zipIdx.filter (·.2 < limit) = before.zipIdx ++ (block.zipIdx before.length ++
      (after.zipIdx (before.length + block.length)).filter (·.2 < limit)) := by
  have hall : ∀ (sections : List Section) (first : Nat), first + sections.length ≤ limit →
      (sections.zipIdx first).filter (·.2 < limit) = sections.zipIdx first := by
    intro sections first hbound
    rw [List.filter_eq_self]
    rintro ⟨s, n⟩ hmem
    have hn := (List.mem_zipIdx hmem).2.1
    simp
    omega
  rw [h.split, List.zipIdx_append, List.zipIdx_append, List.filter_append, List.filter_append,
    hall _ _ (by have := h.ends; omega), hall _ _ (by have := h.ends; omega), Nat.zero_add]

/-- What stands before a block is passed over. -/
theorem skips_before (h : Alone all keys before block after limit used) :
    ∀ s ∈ before.zipIdx, s.2 ∈ used ∨ ¬ keys <+: s.1.header := by
  rintro ⟨s, n⟩ hs
  by_cases hfront : keys <+: s.header
  · exact Or.inl (h.used_before s n hs hfront)
  · exact Or.inr hfront

/-- What stands after a block is passed over. -/
theorem skips_after (h : Alone all keys before block after limit used) :
    ∀ s ∈ (after.zipIdx (before.length + block.length)).filter (·.2 < limit), s.2 ∈ used ∨ ¬ keys <+: s.1.header := by
  intro s hs
  rw [List.mem_filter] at hs
  exact Or.inr (h.none_after s.1 s.2 hs.1 (by simpa using hs.2))

/-- The first part of a block stands alone if the second one belongs elsewhere. -/
theorem left (h : Alone all keys before (block ++ block') after limit used) {keys' : List String}
    (hkeys : keys <+: keys') (hother : ∀ s ∈ block', ¬ keys' <+: s.header) :
    Alone all keys' before block (block' ++ after) limit used := by
  refine ⟨by rw [h.split, List.append_assoc], ?_, ?_, ?_, ?_⟩
  · have hends := h.ends
    rw [List.length_append] at hends
    omega
  · exact fun s n hmem hfront => h.used_before s n hmem (hkeys.trans hfront)
  · intro s n hmem hn hfront
    rw [List.zipIdx_append, List.mem_append] at hmem
    rcases hmem with hmem | hmem
    · exact hother s (List.fst_mem_of_mem_zipIdx hmem) hfront
    · refine h.none_after s n ?_ hn (hkeys.trans hfront)
      rwa [List.length_append, ← Nat.add_assoc]
  · intro n hlow hhigh
    refine h.unused n hlow ?_
    rw [List.length_append]
    omega

/-- The first part of a block stands alone below the second one. -/
theorem below (h : Alone all keys before (block ++ block') after limit used) {limit' : Nat}
    (hlimit : (block' = [] ∧ limit' = limit) ∨ limit' = before.length + block.length) :
    Alone all keys before block (block' ++ after) limit' used := by
  have hends := h.ends
  rw [List.length_append] at hends
  refine ⟨by rw [h.split, List.append_assoc], ?_, h.used_before, ?_, ?_⟩
  · rcases hlimit with ⟨rfl, rfl⟩ | rfl
    · simpa using hends
    · exact Nat.le_refl _
  · intro s n hmem hn
    rcases hlimit with ⟨rfl, rfl⟩ | rfl
    · refine h.none_after s n ?_ hn
      simpa using hmem
    · have hlow := (List.mem_zipIdx hmem).1
      omega
  · intro n hlow hhigh
    refine h.unused n hlow ?_
    rw [List.length_append]
    omega

/-- The second part of a block stands alone after the first one is used up. -/
theorem right (h : Alone all keys before (block ++ block') after limit used)
    (hused : UsesUp used used' before.length block.length) :
    Alone all keys (before ++ block) block' after limit used' := by
  refine ⟨by rw [h.split, List.append_assoc, List.append_assoc], ?_, ?_, ?_, ?_⟩
  · have hends := h.ends
    rw [List.length_append] at hends ⊢
    omega
  · intro s n hmem hfront
    rw [List.zipIdx_append, List.mem_append] at hmem
    rcases hmem with hmem | hmem
    · exact (hused n).2 (Or.inl (h.used_before s n hmem hfront))
    · have hn := List.mem_zipIdx hmem
      exact (hused n).2 (Or.inr (by omega))
  · intro s n hmem
    refine h.none_after s n ?_
    rwa [List.length_append, ← Nat.add_assoc, ← List.length_append]
  · intro n hlow hhigh hmem
    rw [List.length_append] at hlow hhigh
    rcases (hused n).1 hmem with hmem | hmem
    · exact h.unused n (by omega) (by rw [List.length_append]; omega) hmem
    · omega

/-- What is below the first section of a block, once that one is used up. -/
theorem tail {own : Section} (h : Alone all keys before (own :: block) after limit used) :
    Alone all keys (before ++ [own]) block after limit (before.length :: used) :=
  right (show Alone all keys before ([own] ++ block) after limit used from h) (UsesUp.single used before.length)

end Alone

end LedSwitch.Toml.Assembly
