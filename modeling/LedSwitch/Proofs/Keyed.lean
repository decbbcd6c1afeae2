import Mathlib.Data.List.Nodup
import Mathlib.Data.List.Perm.Basic
import LedSwitch.Keyed

/-!
Association lists are determined by their entries. `Keyed.insertAll_eq_of_perm` states that whatever is inserted in
any order, the result is the one list that has the entries in the order of their keys; `Keyed.Ordered.eq_of_get?`, that
no more than the look-ups tell such a list from others.
-/

namespace LedSwitch.Keyed

variable {α : Type}

theorem get?_eq_none_iff {key : String} {entries : Keyed α} : get? key entries = none ↔ key ∉ entries.map (·.1) := by
  induction entries with
  | nil => simp
  | cons entry rest ih =>
    obtain ⟨k, value⟩ := entry
    by_cases hk : k = key
    · simp [get?, hk]
    · simp [get?, hk, ih, Ne.symm hk]

theorem contains_eq_false_iff {key : String} {entries : Keyed α} :
    contains key entries = false ↔ key ∉ entries.map (·.1) := by
  rw [contains, Option.isSome_eq_false_iff, Option.isNone_iff_eq_none, get?_eq_none_iff]

/-- An entry is found at its key if that stands only once. -/
theorem get?_of_mem {entries : Keyed α} (hnodup : (entries.map (·.1)).Nodup) {entry : String × α}
    (hentry : entry ∈ entries) : get? entry.1 entries = some entry.2 := by
  induction entries with
  | nil => simp at hentry
  | cons first rest ih =>
    obtain ⟨k, value⟩ := first
    rw [List.map_cons, List.nodup_cons] at hnodup
    rcases List.mem_cons.1 hentry with rfl | hentry
    · rw [get?, if_pos rfl]
    · have hne : k ≠ entry.1 := fun heq => hnodup.1 (List.mem_map.2 ⟨entry, hentry, heq.symm⟩)
      rw [get?, if_neg hne]
      exact ih hnodup.2 hentry

theorem mem_insert_self (key : String) (value : α) (entries : Keyed α) : (key, value) ∈ insert key value entries := by
  induction entries with
  | nil => exact List.mem_singleton_self _
  | cons first rest ih =>
    obtain ⟨k, old⟩ := first
    rw [insert]
    split_ifs with hk
    · exact hk ▸ List.mem_cons_self
    · exact List.mem_cons_self
    · exact List.mem_cons_of_mem _ ih

/-- Insertion keeps the entries with other keys. -/
theorem mem_insert_of_ne {key : String} (value : α) {entries : Keyed α} {entry : String × α} (hentry : entry ∈ entries)
    (hne : entry.1 ≠ key) : entry ∈ insert key value entries := by
  induction entries with
  | nil => simp at hentry
  | cons first rest ih =>
    obtain ⟨k, old⟩ := first
    rw [insert]
    split_ifs with hk
    · rcases List.mem_cons.1 hentry with rfl | hentry
      · exact absurd hk hne
      · exact List.mem_cons_of_mem _ hentry
    · exact List.mem_cons_of_mem _ hentry
    · rcases List.mem_cons.1 hentry with rfl | hentry
      · exact List.mem_cons_self
      · exact List.mem_cons_of_mem _ (ih hentry)

/-- A new key is inserted beside the others. -/
theorem insert_perm {key : String} {entries : Keyed α} (h : key ∉ entries.map (·.1)) (value : α) :
    (insert key value entries).Perm ((key, value) :: entries) := by
  induction entries with
  | nil => rfl
  | cons entry rest ih =>
    obtain ⟨k, old⟩ := entry
    simp only [List.map_cons, List.mem_cons, not_or] at h
    rw [insert, if_neg (Ne.symm h.1)]
    split_ifs
    · rfl
    · exact ((ih h.2).cons (k, old)).trans (List.Perm.swap _ _ _)

/-- A new key is inserted where it keeps the keys apart. -/
theorem nodup_insert {key : String} {value : α} {entries rest : Keyed α}
    (h : ((entries ++ (key, value) :: rest).map (·.1)).Nodup) (value' : α) :
    key ∉ entries.map (·.1) ∧ ((insert key value' entries ++ rest).map (·.1)).Nodup := by
  have hmoved : ((entries ++ (key, value) :: rest).map (·.1)).Perm (key :: (entries ++ rest).map (·.1)) := by
    simp [List.perm_middle]
  have hnodup := hmoved.nodup_iff.1 h
  have hnew : key ∉ entries.map (·.1) := fun hmem =>
    (List.nodup_cons.1 hnodup).1 (by simpa using Or.inl (by simpa using hmem))
  refine ⟨hnew, ?_⟩
  rw [(((insert_perm hnew value').append_right rest).map _).nodup_iff]
  simpa using hnodup

/-- Inserting pairs one after the other. -/
def insertAll (entries : Keyed α) (pairs : List (String × α)) : Keyed α :=
  pairs.foldl (fun entries pair => insert pair.1 pair.2 entries) entries

theorem insertAll_cons (entries : Keyed α) (pair : String × α) (rest : List (String × α)) :
    insertAll entries (pair :: rest) = insertAll (insert pair.1 pair.2 entries) rest := rfl

theorem insertAll_append (entries : Keyed α) (pairs more : List (String × α)) :
    insertAll entries (pairs ++ more) = insertAll (insertAll entries pairs) more := List.foldl_append

/-- A look-up finds what was inserted last at its key, or else what was there. -/
theorem get?_insertAll (key : String) (entries : Keyed α) (pairs : List (String × α)) :
    get? key (insertAll entries pairs) =
      ((pairs.reverse.find? (·.1 = key)).map (·.2)).or (get? key entries) := by
  induction pairs generalizing entries with
  | nil => rfl
  | cons pair rest ih =>
    rw [insertAll_cons, ih, get?_insert, List.reverse_cons, List.find?_append]
    by_cases hkey : pair.1 = key
    · simp [hkey]
    · simp [hkey]

theorem get?_ofPairs (key : String) (pairs : List (String × α)) :
    get? key (ofPairs pairs) = (pairs.reverse.find? (·.1 = key)).map (·.2) := by
  have hlook := get?_insertAll key [] pairs
  rwa [get?_nil, Option.or_none] at hlook

theorem get?_ofPairs_single (key other : String) (value : α) :
    get? other (ofPairs [(key, value)]) = if key = other then some value else none :=
  get?_insert key other value []

/-- Of pairs with one key the later ones count. -/
theorem get?_ofPairs_append (key : String) (pairs more : List (String × α)) :
    get? key (ofPairs (pairs ++ more)) = (get? key (ofPairs more)).or (get? key (ofPairs pairs)) := by
  rw [get?_ofPairs, get?_ofPairs, get?_ofPairs, List.reverse_append, List.find?_append, Option.map_or]

theorem insertAll_perm {entries : Keyed α} {pairs : List (String × α)}
    (h : ((entries ++ pairs).map (·.1)).Nodup) : (insertAll entries pairs).Perm (entries ++ pairs) := by
  induction pairs generalizing entries with
  | nil => simp [insertAll]
  | cons pair rest ih =>
    obtain ⟨hnew, hnodup⟩ := nodup_insert h pair.2
    have hinsert := (insert_perm hnew pair.2).append_right rest
    exact ((ih hnodup).trans hinsert).trans List.perm_middle.symm

theorem insertAll_ordered {entries : Keyed α} (h : Ordered entries) (pairs : List (String × α)) :
    Ordered (insertAll entries pairs) := by
  induction pairs generalizing entries with
  | nil => exact h
  | cons pair rest ih => exact ih (insert_ordered pair.1 pair.2 h)

/-- Of entries in two orders only one has the keys in order. -/
theorem Ordered.eq_of_perm {entries others : Keyed α} (h : Ordered entries) (hothers : Ordered others)
    (hperm : entries.Perm others) : entries = others :=
  hperm.eq_of_pairwise (fun a _ _ _ hab hba => absurd (String.lt_trans hab hba) (String.lt_irrefl a.1)) h hothers

theorem Ordered.nodup {entries : Keyed α} (h : Ordered entries) : (entries.map (·.1)).Nodup := by
  rw [List.Nodup, List.pairwise_map]
  refine h.imp fun {a b} hlt heq => ?_
  rw [heq] at hlt
  exact String.lt_irrefl _ hlt

/-- Insertion replaces the entry at its key, and the others were there before. -/
theorem Ordered.mem_insert {key : String} {value : α} {entries : Keyed α} (h : Ordered entries) {entry : String × α}
    (hentry : entry ∈ insert key value entries) : entry = (key, value) ∨ (entry ∈ entries ∧ entry.1 ≠ key) := by
  by_cases hkey : entry.1 = key
  · have hget := get?_of_mem (insert_ordered key value h).nodup hentry
    rw [hkey, get?_insert, if_pos rfl] at hget
    exact Or.inl (Prod.ext hkey (Option.some.inj hget).symm)
  · exact Or.inr ⟨(Keyed.mem_insert hentry).resolve_left fun heq => hkey (by rw [heq]), hkey⟩

/-- Entries that are inserted in any order end up in the order of their keys. -/
theorem insertAll_eq_of_perm {pairs : List (String × α)} {entries : Keyed α} (h : Ordered entries)
    (hperm : pairs.Perm entries) : insertAll [] pairs = entries := by
  have hnodup : ((([] : Keyed α) ++ pairs).map (·.1)).Nodup := (hperm.map _).nodup_iff.2 h.nodup
  exact (insertAll_ordered List.Pairwise.nil pairs).eq_of_perm h ((insertAll_perm hnodup).trans hperm)

theorem mem_of_get? {key : String} {value : α} {entries : Keyed α} (h : get? key entries = some value) :
    (key, value) ∈ entries := by
  induction entries with
  | nil => cases h
  | cons first rest ih =>
    obtain ⟨k, old⟩ := first
    by_cases hk : k = key
    · rw [get?, if_pos hk] at h
      rw [hk, Option.some.inj h]
      exact List.mem_cons_self
    · rw [get?, if_neg hk] at h
      exact List.mem_cons_of_mem _ (ih h)

/-- Where every look-up finds the same, the entries are the same. -/
theorem Ordered.eq_of_get? {entries others : Keyed α} (h : Ordered entries) (hothers : Ordered others)
    (hget : ∀ key, get? key entries = get? key others) : entries = others := by
  have hsubset {entries others : Keyed α} (h : Ordered entries) (hget : ∀ key, get? key entries = get? key others)
      {entry : String × α} (hentry : entry ∈ entries) : entry ∈ others :=
    mem_of_get? ((hget entry.1).symm.trans (get?_of_mem h.nodup hentry))
  have hnodup : entries.Nodup := h.nodup.of_map _
  have hnodup' : others.Nodup := hothers.nodup.of_map _
  refine h.eq_of_perm hothers ((List.perm_ext_iff_of_nodup hnodup hnodup').2 fun entry => ?_)
  exact ⟨hsubset h hget, hsubset hothers fun key => (hget key).symm⟩

theorem insert_cons_of_lt {key k : String} (h : key < k) (value old : α) (rest : Keyed α) :
    insert key value ((k, old) :: rest) = (key, value) :: (k, old) :: rest := by
  have hne : k ≠ key := fun heq => String.lt_irrefl key (heq ▸ h)
  rw [insert, if_neg hne, if_pos h]

theorem insert_cons_of_gt {key k : String} (h : k < key) (value old : α) (rest : Keyed α) :
    insert key value ((k, old) :: rest) = (k, old) :: insert key value rest := by
  have hne : k ≠ key := fun heq => String.lt_irrefl key (heq ▸ h)
  rw [insert, if_neg hne, if_neg fun hlt => String.lt_irrefl key (String.lt_trans hlt h)]

theorem lt_or_gt_of_ne {key other : String} (h : key ≠ other) : key < other ∨ other < key := by
  by_contra hnot
  rw [not_or] at hnot
  exact h (String.le_antisymm (String.not_lt.1 hnot.2) (String.not_lt.1 hnot.1))

private theorem insert_comm_of_lt {key other : String} (hlt : key < other) (value value' : α) (entries : Keyed α) :
    insert key value (insert other value' entries) = insert other value' (insert key value entries) := by
  induction entries with
  | nil =>
    rw [insert, insert, insert_cons_of_lt hlt, insert_cons_of_gt hlt, insert]
  | cons first rest ih =>
    obtain ⟨k, old⟩ := first
    by_cases hk : k = key
    · subst hk
      rw [insert_cons_of_gt hlt, insert, if_pos rfl, insert, if_pos rfl, insert_cons_of_gt hlt]
    rcases lt_or_gt_of_ne hk with hbefore | hafter
    · have hbefore' := String.lt_trans hbefore hlt
      rw [insert_cons_of_gt hbefore', insert_cons_of_gt hbefore, insert_cons_of_gt hbefore,
        insert_cons_of_gt hbefore', ih]
    · -- Both are behind `key`: the entry that was there, and the one that came before it or in its place.
      have hinserted : insert key value (insert other value' ((k, old) :: rest)) =
          (key, value) :: insert other value' ((k, old) :: rest) := by
        rw [insert]
        split_ifs
        · exact insert_cons_of_lt hlt _ _ _
        · exact insert_cons_of_lt hlt _ _ _
        · exact insert_cons_of_lt hafter _ _ _
      rw [hinserted, insert_cons_of_lt hafter, insert_cons_of_gt hlt]

/-- Insertions at two keys come to the same in both orders. -/
theorem insert_comm {key other : String} (hne : key ≠ other) (value value' : α) (entries : Keyed α) :
    insert key value (insert other value' entries) = insert other value' (insert key value entries) := by
  rcases lt_or_gt_of_ne hne with hlt | hgt
  · exact insert_comm_of_lt hlt value value' entries
  · exact (insert_comm_of_lt hgt value' value entries).symm

/-- Of pairs with different keys the order does not matter. -/
theorem insertAll_comm {pairs others : List (String × α)} (hnodup : (pairs.map (·.1)).Nodup) (hperm : pairs.Perm others)
    (entries : Keyed α) : insertAll entries pairs = insertAll entries others := by
  refine hperm.foldl_eq' (fun pair hpair other hother entries => ?_) entries
  by_cases heq : pair = other
  · rw [heq]
  · have hne : pair.1 ≠ other.1 := fun hkey => heq (List.inj_on_of_nodup_map hnodup hpair hother hkey)
    exact (insert_comm hne pair.2 other.2 entries).symm

end LedSwitch.Keyed
