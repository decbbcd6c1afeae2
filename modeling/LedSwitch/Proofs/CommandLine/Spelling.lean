import Mathlib.Tactic.Common
import LedSwitch.CommandLine.Arguments

/-!
The ways to write options: by name or by letter, the value in the same word or in the next, and letters together behind
one hyphen. However options are written, a place has them when it has read the words (`readPlace_of_spells`).
-/

namespace LedSwitch.CommandLine

/-- An option as it is given once. -/
inductive Occurrence where
  | valued (option : Valued) (value : String)
  | logStd
  deriving DecidableEq, Repr

/-- The name of an option behind two hyphens. -/
def Valued.name : Valued → String
  | node => "node"
  | preferences => "prefs"

/-- The letter of an option behind one hyphen. -/
def Valued.letter : Valued → Char
  | node => 'n'
  | preferences => 'p'

/-- A value that may stand anywhere behind its option. With a hyphen at its beginning it would be an option itself, and
    equals signs there are no part of a value. -/
@[mk_iff]
structure Plain (value : String) : Prop where
  ne_empty : value ≠ ""
  not_hyphen : value.toList.head? ≠ some '-'
  not_equals : value.toList.head? ≠ some '='

instance (value : String) : Decidable (Plain value) := decidable_of_iff _ (plain_iff value).symm

/-- Letters behind one hyphen and the words that belong to them. The last letter may be that of an option, with its
    value attached or in the next word. -/
inductive Cluster : List Occurrence → List Char → List String → Prop where
  | logStd : Cluster [.logStd] ['l'] []
  | next (option : Valued) {value : String} (hplain : Plain value) :
      Cluster [.valued option value] [option.letter] [value]
  | joined (option : Valued) {value : String} (hplain : Plain value) :
      Cluster [.valued option value] (option.letter :: value.toList) []
  | equals (option : Valued) {value : String} (hplain : Plain value) :
      Cluster [.valued option value] (option.letter :: '=' :: value.toList) []
  | more {given : List Occurrence} {letters : List Char} {words : List String} (hrest : Cluster given letters words) :
      Cluster (.logStd :: given) ('l' :: letters) words

/-- The ways to write options in words. -/
inductive Spells : List Occurrence → List String → Prop where
  | nil : Spells [] []
  | logStd {given : List Occurrence} {words : List String} (hrest : Spells given words) :
      Spells (.logStd :: given) ("--logStd" :: words)
  | next (option : Valued) {value : String} {given : List Occurrence} {words : List String} (hplain : Plain value)
      (hrest : Spells given words) : Spells (.valued option value :: given) (("--" ++ option.name) :: value :: words)
  | equals (option : Valued) {value : String} {given : List Occurrence} {words : List String} (hplain : Plain value)
      (hrest : Spells given words) :
      Spells (.valued option value :: given) (("--" ++ option.name ++ "=" ++ value) :: words)
  | cluster {first given : List Occurrence} {letters : List Char} {others words : List String}
      (hfirst : Cluster first letters others) (hrest : Spells given words) :
      Spells (first ++ given) (String.ofList ('-' :: letters) :: (others ++ words))

def Occurrence.parameter : Occurrence → Parameter
  | valued option _ => .valued option
  | logStd => .logStd

/-- The value, if it is one of the option. -/
def Occurrence.value? (option : Valued) : Occurrence → Option String
  | valued other value => if other = option then some value else none
  | logStd => none

/-- How often an option is given. -/
def times (parameter : Parameter) (given : List Occurrence) : Nat :=
  (given.map Occurrence.parameter).count parameter

/-- The values that are given of an option, in order. -/
def values (option : Valued) (given : List Occurrence) : List String :=
  given.filterMap (Occurrence.value? option)

/-- The record of options that are given at a place, and of the words for a state there. -/
def summary (given : List Occurrence) (state : List String) : Given where
  node := ⟨times (.valued .node) given, values .node given⟩
  preferences := ⟨times (.valued .preferences) given, values .preferences given⟩
  logStd := times .logStd given
  state := state

/-- How far a place has come when it has read all words for options. -/
def Progress.having (given : List Occurrence) (state : List String) : Progress := ⟨summary given state, none, false⟩

variable {place : Place} {argument value : String} {progress following : Progress} {option : Valued}
  {given more : List Occurrence} {state rest words : List String} {letters : List Char}

theorem Plain.exists_cons (h : Plain value) : ∃ c text, value.toList = c :: text ∧ c ≠ '-' ∧ c ≠ '=' := by
  cases htext : value.toList with
  | nil => exact absurd (String.toList_eq_nil_iff.1 htext) h.ne_empty
  | cons c text => exact ⟨c, text, rfl, by simpa [htext] using h.not_hyphen, by simpa [htext] using h.not_equals⟩

/-- No equals sign is taken from a value. -/
theorem Plain.dropWhile (h : Plain value) : value.toList.dropWhile (· = '=') = value.toList := by
  obtain ⟨c, text, htext, -, hequals⟩ := h.exists_cons
  simp [htext, hequals]

theorem Cluster.plain (h : Cluster given letters words) (hmem : .valued option value ∈ given) : Plain value := by
  induction h with
  | logStd => simp at hmem
  | next _ hplain | joined _ hplain | equals _ hplain =>
    obtain ⟨-, rfl⟩ := Occurrence.valued.inj (List.mem_singleton.1 hmem)
    exact hplain
  | more _ ih => exact ih (by simpa using hmem)

/-- Every value that is written in words is plain. -/
theorem Spells.plain (h : Spells given words) (hmem : .valued option value ∈ given) : Plain value := by
  induction h with
  | nil => cases hmem
  | logStd _ ih => exact ih (by simpa using hmem)
  | next _ hplain _ ih | equals _ hplain _ ih =>
    obtain hfirst | hrest := List.mem_cons.1 hmem
    · obtain ⟨-, rfl⟩ := Occurrence.valued.inj hfirst
      exact hplain
    · exact ih hrest
  | cluster hfirst _ ih => exact (List.mem_append.1 hmem).elim hfirst.plain ih

theorem mem_values : value ∈ values option given ↔ .valued option value ∈ given := by
  rw [values, List.mem_filterMap]
  constructor
  · rintro ⟨occurrence, hmem, hvalue⟩
    cases occurrence with
    | logStd => cases hvalue
    | valued other text =>
      rw [Occurrence.value?] at hvalue
      split_ifs at hvalue with hother
      obtain rfl := Option.some.inj hvalue
      rwa [← hother]
  · intro hmem
    exact ⟨.valued option value, hmem, by simp [Occurrence.value?]⟩

theorem summary_valued (option : Valued) (value : String) : summary (given ++ [.valued option value]) state =
    ((summary given state).addValue value option).count option := by
  cases option <;>
    simp [summary, times, values, Given.addValue, Given.count, Occurrence.parameter, Occurrence.value?]

theorem having_logStd : (Progress.having given state).giveLogStd = .having (given ++ [.logStd]) state := by
  simp [Progress.having, Progress.giveLogStd, summary, times, values, Occurrence.parameter, Occurrence.value?]

/-- With its value attached, an option is given at once. -/
theorem give_attached {text : List Char} (h : text.dropWhile (· = '=') = value.toList) :
    (Progress.having given state).give option (some text) = .having (given ++ [.valued option value]) state := by
  rw [Progress.give, h, String.ofList_toList, Progress.having, Progress.having, summary_valued]

/-- A word that begins with a hyphen is no command. -/
theorem readPlace_of_readArgument (hhyphen : argument.toList.head? = some '-')
    (hread : readArgument place argument progress = .ok following) :
    readPlace place (argument :: rest) progress = readPlace place rest following := by
  have hcommand : ∀ word ∈ commandWords, argument ≠ word := by
    have hwords : ∀ word ∈ commandWords, word.toList.head? ≠ some '-' := by decide
    rintro word hword rfl
    exact hwords argument hword hhyphen
  have hhelp : argument ≠ "help" := hcommand "help" List.mem_cons_self
  have hlookup : commands.lookup argument = none := by
    rw [List.lookup_eq_none_iff]
    intro command hmem
    rw [bne_iff_ne]
    exact hcommand command.1 (List.mem_cons_of_mem _ (List.mem_map_of_mem hmem))
  simp [readPlace, hhelp, hlookup, hread]

/-- The word behind an option is its value, also if it could name a command. -/
theorem readPlace_value (hplain : Plain value) :
    readPlace place (value :: rest) ((Progress.having given state).give option none) =
      readPlace place rest (.having (given ++ [.valued option value]) state) := by
  obtain ⟨c, text, htext, hhyphen, -⟩ := hplain.exists_cons
  have hvalue : value ≠ "--" := by
    rintro rfl
    exact hplain.not_hyphen rfl
  have hread : readArgument place value ((Progress.having given state).give option none) =
      .ok (.having (given ++ [.valued option value]) state) := by
    rw [readArgument, if_neg (by simp [Progress.give, Progress.having]), if_neg hvalue, htext]
    -- Without a hyphen in front, only the last case is left, in which the option waits for its value.
    split
    · rename_i hchars
      exact absurd (List.cons.inj hchars).1 hhyphen
    · rename_i hchars
      exact absurd (List.cons.inj hchars).1 hhyphen
    · rw [Progress.having, Progress.having, summary_valued]
      cases option <;> rfl
  rw [readPlace, if_neg (by simp [Progress.give]), if_neg (by simp [Progress.give])]
  simp only [hread]

theorem readShort_attached (option : Valued) {text : List Char} (hsome : text ≠ [])
    (htext : text.dropWhile (· = '=') = value.toList) :
    readShort place (option.letter :: text) (.having given state) =
      .ok (.having (given ++ [.valued option value]) state) := by
  have hattached : (if text.isEmpty = true then none else some text) = some text := by simp [hsome]
  rw [readShort, hattached]
  cases option <;> simp [Valued.letter, give_attached htext]

/-- When the letters are read, there may be a value to come. -/
theorem readShort_of_cluster (h : Cluster more letters words) (place : Place) (given : List Occurrence)
    (state rest : List String) : ∃ following, readShort place letters (.having given state) = .ok following ∧
    readPlace place (words ++ rest) following = readPlace place rest (.having (given ++ more) state) := by
  induction h generalizing given with
  | logStd => exact ⟨_, rfl, by rw [having_logStd, List.nil_append]⟩
  | next option hplain =>
    refine ⟨(Progress.having given state).give option none, ?_, readPlace_value hplain⟩
    cases option <;> rfl
  | joined option hplain =>
    obtain ⟨c, text, htext, -⟩ := hplain.exists_cons
    exact ⟨_, readShort_attached option (by simp [htext]) hplain.dropWhile, rfl⟩
  | equals option hplain =>
    refine ⟨_, readShort_attached option (by simp) ?_, rfl⟩
    rw [List.dropWhile_cons_of_pos (by simp), hplain.dropWhile]
  | @more _ letters words _ ih =>
    obtain ⟨following, hread, hplace⟩ := ih (given ++ [.logStd])
    refine ⟨following, ?_, by rw [hplace, List.append_assoc, List.singleton_append]⟩
    rw [readShort]
    simp [having_logStd, hread]

/-- A word of letters behind one hyphen is no long name. -/
theorem readArgument_cluster (h : Cluster more letters words) :
    readArgument place (String.ofList ('-' :: letters)) (.having given state) =
      readShort place letters (.having given state) := by
  obtain ⟨c, others, rfl, hc⟩ : ∃ c others, letters = c :: others ∧ c ≠ '-' := by
    cases h with
    | logStd | more => exact ⟨_, _, rfl, by decide⟩
    | next option | joined option | equals option => exact ⟨_, _, rfl, by cases option <;> decide⟩
  have hhyphens : String.ofList ('-' :: c :: others) ≠ "--" := by
    intro heq
    have htext := congrArg String.toList heq
    simp [hc] at htext
  rw [readArgument, if_neg (by simp [Progress.having]), if_neg hhyphens, String.toList_ofList]
  split
  · rename_i hchars
    exact absurd (List.cons.inj (List.cons.inj hchars).2).1 hc
  · rename_i hchars
    rw [(List.cons.inj hchars).2]
  · rename_i hletters
    exact absurd rfl (hletters c others)

/-- A value behind an equals sign belongs to the name before it. -/
theorem readArgument_equals (option : Valued) (hplain : Plain value) :
    readArgument place ("--" ++ option.name ++ "=" ++ value) (.having given state) =
      .ok (.having (given ++ [.valued option value]) state) := by
  have hchars : ("--" ++ option.name ++ "=" ++ value).toList =
      '-' :: '-' :: (option.name.toList ++ '=' :: value.toList) := by simp
  have hword : "--" ++ option.name ++ "=" ++ value ≠ "--" := by
    intro heq
    rw [heq] at hchars
    simp at hchars
  have hattached : (Progress.having given state).give option (some value.toList) =
      .having (given ++ [.valued option value]) state := give_attached hplain.dropWhile
  rw [readArgument, if_neg (by simp [Progress.having]), if_neg hword, hchars]
  cases option <;> simp [readLong, Valued.name, hattached]

/-- However options are written, a place has them when it has read the words. -/
theorem readPlace_of_spells (h : Spells more words) (place : Place) (rest : List String) :
    readPlace place (words ++ rest) (.having given state) = readPlace place rest (.having (given ++ more) state) := by
  -- What was read before is arbitrary, since each word adds its options at the end of that.
  induction h generalizing given with
  | nil => rw [List.nil_append, List.append_nil]
  | @logStd more words _ ih =>
    have hread : readArgument place "--logStd" (.having given state) = .ok (.having (given ++ [.logStd]) state) := by
      rw [← having_logStd]
      rfl
    rw [List.cons_append, readPlace_of_readArgument rfl hread, ih, List.append_assoc, List.singleton_append]
  | @next option value more words hplain _ ih =>
    have hread : readArgument place ("--" ++ option.name) (.having given state) =
        .ok ((Progress.having given state).give option none) := by
      cases option <;> rfl
    rw [List.cons_append, List.cons_append, readPlace_of_readArgument (by cases option <;> rfl) hread,
      readPlace_value hplain, ih, List.append_assoc, List.singleton_append]
  | @equals option value more words hplain _ ih =>
    have hhyphen : ("--" ++ option.name ++ "=" ++ value).toList.head? = some '-' := by simp
    rw [List.cons_append, readPlace_of_readArgument hhyphen (readArgument_equals option hplain), ih, List.append_assoc,
      List.singleton_append]
  | @cluster first more letters others words hfirst _ ih =>
    obtain ⟨following, hread, hplace⟩ := readShort_of_cluster hfirst place given state (words ++ rest)
    have hhyphen : (String.ofList ('-' :: letters)).toList.head? = some '-' := by simp
    rw [List.cons_append, readPlace_of_readArgument hhyphen ((readArgument_cluster hfirst).trans hread),
      List.append_assoc, hplace, ih, List.append_assoc]

end LedSwitch.CommandLine
