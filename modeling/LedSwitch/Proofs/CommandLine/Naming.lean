import Mathlib.Data.List.Chain
import LedSwitch.Proofs.CommandLine.Checking

/-!
Which command the arguments of an accepted call name: the one whose word stands among them and is not the value of an
option, or none, and then the state is shown (`CommandLine.names_of_accepted`).
-/

namespace LedSwitch.CommandLine

variable {place : Place} {argument : String} {arguments : List String} {progress after : Progress}

/-- A word that could name a command stands behind an option, whose value it is. -/
def Behind (previous word : String) : Prop :=
  (commands.lookup word).isSome = true → previous.toList.head? = some '-'

/-- No argument names a command. The first one stands behind nothing. -/
def Unnamed (arguments : List String) : Prop := List.IsChain Behind ("" :: arguments)

/-- The command that is named by arguments. Without one, the state is shown. -/
inductive Names : List String → Command → Prop where
  | nothing {arguments : List String} (hunnamed : Unnamed arguments) : Names arguments .show
  | show {before : List String} (after : List String) (hunnamed : Unnamed before) :
      Names (before ++ "show" :: after) .show
  | restore {before : List String} (after : List String) (hunnamed : Unnamed before) :
      Names (before ++ "restore" :: after) .restore
  | set {before after : List String} {checked : Bool} (hunnamed : Unnamed before)
      (hstate : (if checked then "on" else "off") ∈ after) : Names (before ++ "set" :: after) (.set checked)

theorem state_give (option : Valued) (attached : Option (List Char)) :
    (progress.give option attached).given.state = progress.given.state := by
  cases attached <;> cases option <;> rfl

theorem state_of_readShort {letters : List Char} (h : readShort place letters progress = .ok after) :
    after.given.state = progress.given.state := by
  fun_induction readShort place letters progress with
  | case1 progress => rw [Except.ok.inj h]
  | case2 | case3 => rw [← Except.ok.inj h, state_give]
  | case4 progress rest _ _ ih => exact ih h
  | case5 | case6 | case7 => cases h

theorem state_of_readLong {text : List Char} (h : readLong place text progress = .ok after) :
    after.given.state = progress.given.state := by
  rw [readLong] at h
  split at h
  · rw [← Except.ok.inj h, state_give]
  split at h
  · rw [← Except.ok.inj h, state_give]
  split_ifs at h
  · obtain rfl := Except.ok.inj h
    rfl
  · cases h

theorem state_of_readWord (h : readWord place argument progress = .ok after) : after.given.state = [argument] := by
  rw [readWord] at h
  split_ifs at h
  · rw [← Except.ok.inj h]
  · cases h
  · cases h

/-- The state to be set is a word that is neither an option nor the value of one. -/
theorem state_of_readArgument (h : readArgument place argument progress = .ok after) :
    after.given.state = progress.given.state ∨ after.given.state = [argument] := by
  rw [readArgument] at h
  split_ifs at h with hliteral hhyphens
  · exact Or.inr (state_of_readWord h)
  · exact Or.inl (by rw [← Except.ok.inj h])
  split at h
  · exact Or.inl (state_of_readLong h)
  · exact Or.inl (state_of_readShort h)
  split at h
  · rename_i option _
    refine Or.inl ?_
    rw [← Except.ok.inj h]
    cases option <;> rfl
  · exact Or.inr (state_of_readWord h)

theorem state_of_readPlace {found : Option (Place × List String)}
    (h : readPlace place arguments progress = .ok (after, found)) :
    after.given.state = progress.given.state ∨ ∃ word ∈ arguments, after.given.state = [word] := by
  induction arguments generalizing progress with
  | nil => exact Or.inl (by rw [(Prod.mk.inj (Except.ok.inj h)).1])
  | cons argument rest ih =>
    rw [readPlace] at h
    split at h
    · cases h
    split at h
    · exact Or.inl (by rw [(Prod.mk.inj (Except.ok.inj h)).1])
    cases hread : readArgument place argument progress with
    | error verdict =>
      rw [hread] at h
      cases h
    | ok next =>
      rw [hread] at h
      rcases ih h with hstate | ⟨word, hword, hstate⟩
      · rw [hstate]
        exact (state_of_readArgument hread).imp_right fun hnext => ⟨argument, List.mem_cons_self, hnext⟩
      · exact Or.inr ⟨word, List.mem_cons_of_mem _ hword, hstate⟩

theorem of_bind {α β : Type} {value : α} {first : Except Verdict β} {next : β → Except Verdict α}
    (h : first >>= next = .ok value) : ∃ answer, first = .ok answer ∧ next answer = .ok value := by
  cases first with
  | error verdict => cases h
  | ok answer => exact ⟨answer, rfl, h⟩

/-- Only what passed is finished, and then the state, if it is there, is one of its two words. -/
theorem of_finish {order : CheckOrder} {given : Given} (h : progress.finish place order = .ok given) :
    given = progress.given ∧ (place = .set → progress.given.state ≠ []) ∧
      ∀ word ∈ progress.given.state.head?, word = "on" ∨ word = "off" := by
  obtain ⟨hnone, hgiven⟩ := finish_eq_ok.1 h
  obtain ⟨hstate, -, hparameters⟩ := fault?_eq_none.1 hnone
  refine ⟨hgiven, hstate, fun word hword => ?_⟩
  have hfault := hparameters .state
  obtain ⟨rest, hcons⟩ := List.head?_eq_some_iff.1 hword
  rw [Given.fault?, hcons] at hfault
  simpa [or_iff_not_imp_left] using hfault

theorem readWord_top (word : String) : readWord .top word progress ≠ .ok after := by
  rw [readWord, if_neg (by simp)]
  split_ifs <;> simp [refuse]

/-- An option that waits for its value was the argument before. -/
theorem hyphen_of_readArgument (h : readArgument .top argument progress = .ok after)
    (hpending : after.pending.isSome = true) : argument.toList.head? = some '-' := by
  rw [readArgument] at h
  split_ifs at h with hliteral hhyphens
  · exact absurd h (readWord_top argument)
  · rw [hhyphens]
    rfl
  split at h
  · rename_i htext
    rw [htext]
    rfl
  · rename_i htext
    rw [htext]
    rfl
  split at h
  · obtain rfl := Except.ok.inj h
    cases hpending
  · exact absurd h (readWord_top argument)

/-- A place before a command ends at the word for it. -/
theorem of_readPlace_top {previous : String} {found : Option (Place × List String)}
    (hprevious : progress.pending.isSome = true → previous.toList.head? = some '-')
    (h : readPlace .top arguments progress = .ok (after, found)) :
    (found = none ∧ List.IsChain Behind (previous :: arguments)) ∨ ∃ before word place rest,
      found = some (place, rest) ∧ (word, place) ∈ commands ∧ arguments = before ++ word :: rest ∧
      List.IsChain Behind (previous :: before) := by
  induction arguments generalizing progress previous with
  | nil =>
    obtain ⟨-, rfl⟩ := Prod.mk.inj (Except.ok.inj h)
    exact Or.inl ⟨rfl, .singleton previous⟩
  | cons argument rest ih =>
    rw [readPlace] at h
    split at h
    · cases h
    cases hword : (if Place.top = Place.top ∧ (!progress.literal) = true ∧ progress.pending.isNone = true then
        commands.lookup argument else none) with
    | some place =>
      rw [hword] at h
      obtain ⟨-, rfl⟩ := Prod.mk.inj (Except.ok.inj h)
      split_ifs at hword
      obtain ⟨_, _, hcommands, -⟩ := List.lookup_eq_some_iff.1 hword
      exact Or.inr ⟨[], argument, place, rest, rfl, hcommands ▸ by simp, rfl, .singleton previous⟩
    | none =>
      rw [hword] at h
      cases hread : readArgument .top argument progress with
      | error verdict =>
        rw [hread] at h
        cases h
      | ok next =>
        rw [hread] at h
        have hbehind : Behind previous argument := by
          intro hcommand
          cases hpending : progress.pending with
          | some option => exact hprevious (by rw [hpending]; rfl)
          | none =>
            cases hliteral : progress.literal with
            | true =>
              rw [readArgument, if_pos hliteral] at hread
              exact absurd hread (readWord_top argument)
            | false =>
              rw [if_pos (by simp [hpending, hliteral])] at hword
              rw [hword] at hcommand
              cases hcommand
        obtain ⟨hnone, hchain⟩ | ⟨before, word, place, others, hfound, hmem, rfl, hchain⟩ :=
          ih (hyphen_of_readArgument hread) h
        · exact Or.inl ⟨hnone, .cons_cons hbehind hchain⟩
        · exact Or.inr ⟨argument :: before, word, place, others, hfound, hmem, rfl, .cons_cons hbehind hchain⟩

/-- An accepted call does what its arguments name. -/
theorem names_of_accepted {order : Place → CheckOrder} {invocation : Invocation}
    (h : Invocation.ofArguments order arguments = .ok invocation) : Names arguments invocation.command := by
  rw [Invocation.ofArguments] at h
  obtain ⟨⟨top, found⟩, hread, hcommand⟩ := of_bind h
  have hfirst : ({} : Progress).pending.isSome = true → "".toList.head? = some '-' := by simp
  obtain ⟨rfl, hunnamed⟩ | ⟨before, word, place, rest, rfl, hword, rfl, hunnamed⟩ := of_readPlace_top hfirst hread
  · obtain ⟨given, -, hinvocation⟩ := of_bind hcommand
    obtain rfl := Except.ok.inj hinvocation
    exact .nothing hunnamed
  · obtain ⟨⟨inner, _⟩, hinner, hplace⟩ := of_bind hcommand
    obtain ⟨given, hgiven, htop⟩ := of_bind hplace
    obtain ⟨_, -, hinvocation⟩ := of_bind htop
    obtain rfl := Except.ok.inj hinvocation
    simp only [commands, List.mem_cons, Prod.mk.injEq, List.not_mem_nil, or_false] at hword
    obtain ⟨rfl, rfl⟩ | ⟨rfl, rfl⟩ | ⟨rfl, rfl⟩ := hword
    · exact .restore rest hunnamed
    · obtain ⟨rfl, hstate, hvalue⟩ := of_finish hgiven
      obtain hnone | ⟨word, hword, hstate⟩ := state_of_readPlace hinner
      · exact absurd hnone (hstate rfl)
      · rw [hstate] at hvalue
        apply Names.set hunnamed
        obtain rfl | rfl := hvalue word rfl <;> simpa [hstate] using hword
    · exact .show rest hunnamed

end LedSwitch.CommandLine
