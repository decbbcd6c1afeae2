/-!
Association lists in the order of their keys. A key stands at most once, and the order is that of the
keys' Unicode text, which is also the order of their UTF-8 bytes. `Keyed.Ordered` states both;
`Keyed.insert_ordered` says that insertion keeps them, and `Keyed.get?_insert` what a look-up finds afterwards.
-/

namespace LedSwitch

/-- Entries by key. Lists built by `Keyed.insert` from the empty one are in the order of their keys. -/
abbrev Keyed (α : Type) := List (String × α)

namespace Keyed

variable {α : Type}

/-- The value that stands at `key`. -/
def get? (key : String) : Keyed α → Option α
  | [] => none
  | (k, value) :: rest => if k = key then some value else get? key rest

/-- Puts `value` at `key`, in place of what stood there. -/
def insert (key : String) (value : α) : Keyed α → Keyed α
  | [] => [(key, value)]
  | (k, old) :: rest =>
    if k = key then (key, value) :: rest
    else if key < k then (key, value) :: (k, old) :: rest
    else (k, old) :: insert key value rest

/-- Whether some value stands at `key`. -/
def contains (key : String) (entries : Keyed α) : Bool := (get? key entries).isSome

/-- The entries of a list of pairs, of which a later one replaces an earlier one with the same key. -/
def ofPairs (pairs : List (String × α)) : Keyed α :=
  pairs.foldl (fun entries pair => insert pair.1 pair.2 entries) []

/-- Each key is less than every later one. -/
def Ordered (entries : Keyed α) : Prop := entries.Pairwise fun a b => a.1 < b.1

@[simp] theorem get?_nil (key : String) : get? key ([] : Keyed α) = none := rfl

/-- A look-up finds the new value at its key and elsewhere what was there. -/
theorem get?_insert (key other : String) (value : α) (entries : Keyed α) :
    get? other (insert key value entries) = if key = other then some value else get? other entries := by
  induction entries with
  | nil => simp [insert, get?]
  | cons entry rest ih =>
    obtain ⟨k, old⟩ := entry
    by_cases hk : k = key
    · subst hk
      by_cases ho : k = other <;> simp [insert, get?, ho]
    · by_cases hlt : key < k
      · simp only [insert, hk, hlt, if_false, if_true]
        rfl
      · by_cases ho : k = other
        · have hne : ¬ key = other := fun h => hk (ho.trans h.symm)
          subst ho
          simp only [insert, get?, hk, hlt, hne, if_false, if_true]
        · simp only [insert, get?, hk, hlt, ho, ih, if_false]

theorem mem_insert {key : String} {value : α} {entries : Keyed α} {entry : String × α}
    (h : entry ∈ insert key value entries) : entry = (key, value) ∨ entry ∈ entries := by
  induction entries with
  | nil => simpa [insert] using h
  | cons first rest ih =>
    obtain ⟨k, old⟩ := first
    by_cases hk : k = key
    · simp only [insert, hk, if_true, List.mem_cons] at h
      exact h.imp_right (List.mem_cons_of_mem _)
    · by_cases hlt : key < k
      · simpa [insert, hk, hlt] using h
      · simp only [insert, hk, hlt, if_false, List.mem_cons] at h
        rcases h with h | h
        · exact Or.inr (h ▸ List.mem_cons_self)
        · exact (ih h).imp_right (List.mem_cons_of_mem _)

/-- Insertion keeps the order of the keys. -/
theorem insert_ordered (key : String) (value : α) {entries : Keyed α} (h : Ordered entries) :
    Ordered (insert key value entries) := by
  unfold Ordered at h ⊢
  induction entries with
  | nil => simp [insert]
  | cons first rest ih =>
    obtain ⟨k, old⟩ := first
    obtain ⟨hfirst, hrest⟩ := List.pairwise_cons.1 h
    by_cases hk : k = key
    · subst hk
      simp only [insert, if_true, List.pairwise_cons]
      exact ⟨hfirst, hrest⟩
    · by_cases hlt : key < k
      · simp only [insert, hk, hlt, if_false, if_true, List.pairwise_cons]
        refine ⟨fun entry hentry => ?_, hfirst, hrest⟩
        rcases List.mem_cons.1 hentry with rfl | hentry
        · exact hlt
        · exact String.lt_trans hlt (hfirst entry hentry)
      · simp only [insert, hk, hlt, if_false, List.pairwise_cons]
        refine ⟨fun entry hentry => ?_, ih hrest⟩
        rcases mem_insert hentry with rfl | hentry
        · rcases Classical.em (k < key) with hk' | hk'
          · exact hk'
          · exact absurd (String.le_antisymm (String.not_lt.1 hlt) (String.not_lt.1 hk')) hk
        · exact hfirst entry hentry

end Keyed

end LedSwitch
