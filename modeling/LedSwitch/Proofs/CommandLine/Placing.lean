import LedSwitch.Proofs.CommandLine.Refusing
import LedSwitch.Proofs.CommandLine.Spelling

/-!
Options before a command and after it. How options are written, and in which order, does not matter, and where they
stand only in that a value after the command counts for more than one before it: a call does what it does with its
options written out in one way (`execute_of_written`).
-/

namespace LedSwitch.CommandLine

/-- The word for a state to be set. -/
def stateWord (checked : Bool) : String := if checked then "on" else "off"

/-- The words for a command, without the options after it. -/
def commandLine : Option Command → List String
  | none => []
  | some .restore => ["restore"]
  | some (.set checked) => ["set", stateWord checked]
  | some .show => ["show"]

/-- The arguments that write a command or none, options before it and options after it. -/
inductive Written : Option Command → List Occurrence → List Occurrence → List String → Prop where
  | nothing {before : List Occurrence} {words : List String} (hbefore : Spells before words) :
      Written none before [] words
  | restore {before after : List Occurrence} {words rest : List String} (hbefore : Spells before words)
      (hafter : Spells after rest) : Written (some .restore) before after (words ++ "restore" :: rest)
  | set (checked : Bool) {before early late : List Occurrence} {words first rest : List String}
      (hbefore : Spells before words) (hearly : Spells early first) (hlate : Spells late rest) :
      Written (some (.set checked)) before (early ++ late) (words ++ "set" :: (first ++ stateWord checked :: rest))
  | show {before after : List Occurrence} {words rest : List String} (hbefore : Spells before words)
      (hafter : Spells after rest) : Written (some .show) before after (words ++ "show" :: rest)

/-- Every option is given at most once. -/
def Once (given : List Occurrence) : Prop := ∀ parameter, times parameter given ≤ 1

/-- The first option, in the order of the checks, that is given more than once. -/
def firstRepeated (order : CheckOrder) (given : List Occurrence) : Option Parameter :=
  order.parameters.find? fun parameter => 1 < times parameter given

/-- The place of the options after a command. Without a command there are none. -/
def placeAfter : Option Command → Place
  | some .restore => .restore
  | some (.set _) => .set
  | some .show | none => .show

/-- What is taken for an option that is not given. -/
def Valued.default : Valued → String
  | node => Control.defaultNode
  | preferences => defaultPreferences

/-- The value that counts: one after the command, or else one before it, or else the default. -/
def chosen (option : Valued) (before after : List Occurrence) : String :=
  ((values option after).head?.or (values option before).head?).getD option.default

/-- The arguments for a call with its options written out in one way, all of them before the command. -/
def canonical (node preferences : String) (form : Option Command) : List String :=
  ["-l", "--node", node, "--prefs", preferences] ++ commandLine form

variable {place : Place} {option : Valued} {parameter : Parameter} {form : Option Command} {order : CheckOrder}
  {given before after : List Occurrence} {state words rest : List String}

theorem length_values : (values option given).length = times (.valued option) given := by
  rw [values, List.length_filterMap_eq_countP, times, List.count, List.countP_map]
  apply List.countP_congr
  intro occurrence _
  cases occurrence <;> simp [Occurrence.value?, Occurrence.parameter]

theorem times_logStd_pos : 0 < times .logStd given ↔ .logStd ∈ given := by
  rw [times, List.count_pos_iff, List.mem_map]
  constructor
  · rintro ⟨occurrence, hmem, hlogStd⟩
    cases occurrence with
    | logStd => exact hmem
    | valued => cases hlogStd
  · intro hmem
    exact ⟨.logStd, hmem, rfl⟩

theorem firstRepeated_eq_none : firstRepeated order given = none ↔ Once given := by
  rw [firstRepeated, List.find?_eq_none]
  exact ⟨fun h parameter => by simpa using h parameter (order.mem_parameters parameter),
    fun h parameter _ => by simpa using h parameter⟩

instance (given : List Occurrence) : Decidable (Once given) :=
  decidable_of_iff (firstRepeated .declared given = none) firstRepeated_eq_none

/-- The words for a state that may be there at the end of a place. -/
inductive StateRead : Place → List String → Prop where
  | due (checked : Bool) : StateRead .set [stateWord checked]
  | none {place : Place} (hplace : place ≠ .set) : StateRead place []

/-- The state is not given as an option. -/
theorem times_state : times .state given = 0 := by
  rw [times, List.count_eq_zero, List.mem_map]
  rintro ⟨occurrence, -, hoccurrence⟩
  cases occurrence <;> cases hoccurrence

/-- At the end of a place nothing is wrong with a parameter but that it is given more than once. -/
theorem fault?_summary (hstate : StateRead place state) (parameter : Parameter) :
    (summary given state).fault? parameter =
      if 1 < times parameter given then some (.repeated parameter) else none := by
  cases parameter with
  | valued option =>
    have hoccurrences : (summary given state).occurrences option =
        ⟨times (.valued option) given, values option given⟩ := by cases option <;> rfl
    have hsome : ¬(times (.valued option) given > 0 ∧ (values option given).isEmpty = true) := by
      rw [← length_values, List.isEmpty_iff]
      rintro ⟨hpos, hnone⟩
      simp [hnone] at hpos
    rw [Given.fault?, hoccurrences]
    simp only [if_neg hsome, gt_iff_lt]
  | logStd => rfl
  | state =>
    rw [if_neg (by simp [times_state])]
    cases hstate with
    | due checked => cases checked <;> simp [Given.fault?, summary, stateWord]
    | none => rfl

theorem findSome?_summary (hstate : StateRead place state) (order : CheckOrder) :
    order.parameters.findSome? (summary given state).fault? = (firstRepeated order given).map .repeated := by
  have hfault : (summary given state).fault? =
      Option.map Complaint.repeated ∘ Option.guard fun parameter => decide (1 < times parameter given) := by
    funext parameter
    rw [fault?_summary hstate, Function.comp_apply, Option.guard]
    by_cases hmore : 1 < times parameter given <;> simp [hmore]
  rw [firstRepeated, List.find?_eq_findSome?_guard, List.map_findSome?, hfault]

theorem finish_having (hstate : StateRead place state) (order : CheckOrder) :
    (Progress.having given state).finish place order =
      match firstRepeated order given with
      | none => .ok (summary given state)
      | some parameter => refuse (.repeated parameter) := by
  have hmissing : ¬(place = .set ∧ (summary given state).state.isEmpty = true) := by
    cases hstate with
    | due => simp [summary]
    | none hplace => simp [hplace]
  have hfault : (Progress.having given state).fault? place order = (firstRepeated order given).map .repeated :=
    (if_neg hmissing).trans (findSome?_summary hstate order)
  rw [Progress.finish, hfault]
  cases firstRepeated order given <;> rfl

theorem readPlace_start (h : Spells given words) (place : Place) (rest : List String) :
    readPlace place (words ++ rest) {} = readPlace place rest (.having given []) :=
  @readPlace_of_spells [] given [] words h place rest

theorem readPlace_options (h : Spells given words) (place : Place) :
    readPlace place words {} = .ok (.having given [], none) :=
  calc readPlace place words {} = readPlace place (words ++ []) {} := by rw [List.append_nil]
    _ = readPlace place [] (.having given []) := readPlace_start h place []

/-- The word for a command ends the place before it. -/
theorem readPlace_command (h : Spells given words) {word : String} (hword : (word, place) ∈ commands) :
    readPlace .top (words ++ word :: rest) {} = .ok (.having given [], some (place, rest)) := by
  rw [readPlace_start h]
  simp only [commands, List.mem_cons, Prod.mk.injEq, List.not_mem_nil, or_false] at hword
  obtain ⟨rfl, rfl⟩ | ⟨rfl, rfl⟩ | ⟨rfl, rfl⟩ := hword <;> rfl

/-- The state may stand anywhere among the options. -/
theorem readPlace_state (hearly : Spells before words) (hlate : Spells after rest) (checked : Bool) :
    readPlace .set (words ++ stateWord checked :: rest) {} =
      .ok (.having (before ++ after) [stateWord checked], none) :=
  calc readPlace .set (words ++ stateWord checked :: rest) {} =
        readPlace .set (stateWord checked :: rest) (.having before []) := readPlace_start hearly .set _
    _ = readPlace .set (rest ++ []) (.having before [stateWord checked]) := by
      rw [List.append_nil]
      cases checked <;> rfl
    _ = readPlace .set [] (.having (before ++ after) [stateWord checked]) := readPlace_of_spells hlate .set []

theorem invocation_summary (command : Command) (state state' : List String) :
    invocation command (summary before state) (summary after state') =
      ⟨chosen .node before after, chosen .preferences before after, decide (.logStd ∈ before ++ after), command⟩ := by
  have hlog : (decide ((summary before state).logStd > 0) || decide ((summary after state').logStd > 0)) =
      decide (.logStd ∈ before ++ after) := by
    rw [Bool.eq_iff_iff]
    simp [summary, times_logStd_pos]
  rw [invocation, hlog]
  rfl

/-- The places are checked one after the other, the one after the command first. -/
theorem ofArguments_of_readPlace (htop : readPlace .top words {} = .ok (.having before [], some (place, rest)))
    (hinner : readPlace place rest {} = .ok (.having after state, none)) (hstate : StateRead place state)
    (order : Place → CheckOrder) : Invocation.ofArguments order words =
      match (firstRepeated (order place) after).or (firstRepeated (order .top) before) with
      | some parameter => refuse (.repeated parameter)
      | none => .ok ⟨chosen .node before after, chosen .preferences before after, decide (.logStd ∈ before ++ after),
          place.command (summary after state)⟩ := by
  have htopState : StateRead .top [] := .none (by decide)
  rw [Invocation.ofArguments, htop]
  simp only [bind, Except.bind, hinner, finish_having hstate, finish_having htopState]
  cases firstRepeated (order place) after with
  | some parameter => rfl
  | none =>
    cases firstRepeated (order .top) before with
    | some parameter => rfl
    | none =>
      simp only [invocation_summary]
      rfl

theorem ofArguments_of_written (h : Written form before after words) (order : Place → CheckOrder) :
    Invocation.ofArguments order words =
      match (firstRepeated (order (placeAfter form)) after).or (firstRepeated (order .top) before) with
      | some parameter => refuse (.repeated parameter)
      | none => .ok ⟨chosen .node before after, chosen .preferences before after, decide (.logStd ∈ before ++ after),
          form.getD .show⟩ := by
  cases h with
  | nothing hbefore =>
    have htopState : StateRead .top [] := .none (by decide)
    have hafter : firstRepeated (order (placeAfter none)) [] = none := firstRepeated_eq_none.2 fun _ => Nat.zero_le 1
    rw [Invocation.ofArguments, readPlace_options hbefore, hafter, Option.none_or]
    simp only [bind, Except.bind, finish_having htopState]
    cases firstRepeated (order .top) before with
    | some parameter => rfl
    | none => exact congrArg Except.ok (@invocation_summary before [] .show [] [])
  | restore hbefore hafter =>
    have hword : ("restore", Place.restore) ∈ commands := by decide
    exact ofArguments_of_readPlace (readPlace_command hbefore hword) (readPlace_options hafter .restore)
      (.none (by decide)) order
  | set checked hbefore hearly hlate =>
    have hword : ("set", Place.set) ∈ commands := by decide
    have hstate := readPlace_state hearly hlate checked
    rw [ofArguments_of_readPlace (readPlace_command hbefore hword) hstate (.due checked)]
    cases checked <;> rfl
  | «show» hbefore hafter =>
    have hword : ("show", Place.show) ∈ commands := by decide
    exact ofArguments_of_readPlace (readPlace_command hbefore hword) (readPlace_options hafter .show)
      (.none (by decide)) order

/-- Every value that is written before or after a command is plain. -/
theorem Written.plain (h : Written form before after words) {value : String}
    (hmem : .valued option value ∈ before ∨ .valued option value ∈ after) : Plain value := by
  cases h with
  | nothing hbefore => exact hmem.elim hbefore.plain (by simp)
  | restore hbefore hafter | «show» hbefore hafter => exact hmem.elim hbefore.plain hafter.plain
  | set _ hbefore hearly hlate =>
    exact hmem.elim hbefore.plain fun hafter => (List.mem_append.1 hafter).elim hearly.plain hlate.plain

theorem Valued.plain_default (option : Valued) : Plain option.default := by
  cases option <;> decide

theorem Written.plain_chosen (h : Written form before after words) (option : Valued) :
    Plain (chosen option before after) := by
  rw [chosen]
  cases hafter : (values option after).head? with
  | some value => exact h.plain (Or.inr (mem_values.1 (List.mem_of_head? hafter)))
  | none =>
    cases hbefore : (values option before).head? with
    | some value => exact h.plain (Or.inl (mem_values.1 (List.mem_of_head? hbefore)))
    | none => exact option.plain_default

theorem written_canonical {node preferences : String} (hnode : Plain node) (hpreferences : Plain preferences)
    (form : Option Command) : Written form [.logStd, .valued .node node, .valued .preferences preferences] []
      (canonical node preferences form) := by
  have hbefore : Spells [.logStd, .valued .node node, .valued .preferences preferences]
      ["-l", "--node", node, "--prefs", preferences] :=
    .cluster .logStd (.next .node hnode (.next .preferences hpreferences .nil))
  match form with
  | none => exact .nothing hbefore
  | some .restore => exact .restore hbefore .nil
  | some (.set checked) => exact .set checked hbefore .nil .nil
  | some .show => exact .show hbefore .nil

/-- The options written out in one way are taken as they stand there. -/
theorem ofArguments_canonical {node preferences : String} (hnode : Plain node) (hpreferences : Plain preferences)
    (form : Option Command) (order : Place → CheckOrder) : Invocation.ofArguments order
      (canonical node preferences form) = .ok ⟨node, preferences, true, form.getD .show⟩ := by
  have hbefore : Once [.logStd, .valued .node node, .valued .preferences preferences] := by
    intro parameter
    cases parameter with
    | valued option => cases option <;> simp [times, Occurrence.parameter]
    | logStd | state => simp [times, Occurrence.parameter]
  have hafter : Once [] := fun _ => Nat.zero_le 1
  rw [ofArguments_of_written (written_canonical hnode hpreferences form), firstRepeated_eq_none.2 hbefore,
    firstRepeated_eq_none.2 hafter]
  rfl

theorem complaint_repeated (parameter : Parameter) : (Verdict.rejected (.repeated parameter)).outcome =
    ⟨1, [], some (Complaint.repeated parameter).message⟩ := by
  have husage : Unbroken parameter.usage := by
    cases parameter with
    | valued option => cases option <;> decide
    | logStd | state => decide
  have hopening : Unbroken "error: The argument '" := by decide
  have hrest : Unbroken "' was provided more than once, but cannot be used multiple times" := by decide
  have hmessage : Unbroken (Complaint.repeated parameter).message := (hopening.append husage).append hrest
  rw [Verdict.outcome, lines_of_unbroken hmessage]
  rfl

/-- It does not matter how options are written and in which order, nor where, but for a value after the command, which
    counts for more than one before it: with every option given at most once at a place, and the log going to the
    standard output, a call is accepted and does what it does with its options written out in one way. With an option
    given more than once at a place, it is refused. -/
theorem execute_of_written (h : Written form before after words) (setting : Option String) (disk : FileSystem)
    (surroundings : Surroundings) :
    (Once before → Once after → .logStd ∈ before ++ after →
      Invocation.ofArguments surroundings.order words =
        .ok ⟨chosen .node before after, chosen .preferences before after, true, form.getD .show⟩ ∧
      execute words setting disk surroundings =
        execute (canonical (chosen .node before after) (chosen .preferences before after) form) setting disk
          surroundings) ∧
      (¬(Once before ∧ Once after) → ∃ parameter,
        (firstRepeated (surroundings.order (placeAfter form)) after).or
          (firstRepeated (surroundings.order .top) before) = some parameter ∧
        execute words setting disk surroundings = (⟨1, [], some (Complaint.repeated parameter).message⟩, disk)) := by
  have hread := ofArguments_of_written h surroundings.order
  refine ⟨fun hbefore hafter hlog => ?_, fun hrepeated => ?_⟩
  · rw [firstRepeated_eq_none.2 hbefore, firstRepeated_eq_none.2 hafter, decide_eq_true hlog] at hread
    refine ⟨hread, ?_⟩
    have hcanonical := ofArguments_canonical (h.plain_chosen .node) (h.plain_chosen .preferences) form
    rw [execute, execute, callOn, callOn, hread, hcanonical]
    rfl
  · cases hfirst : (firstRepeated (surroundings.order (placeAfter form)) after).or
        (firstRepeated (surroundings.order .top) before) with
    | none =>
      obtain ⟨hafter, hbefore⟩ := Option.or_eq_none_iff.1 hfirst
      exact absurd ⟨firstRepeated_eq_none.1 hbefore, firstRepeated_eq_none.1 hafter⟩ hrepeated
    | some parameter =>
      rw [hfirst] at hread
      refine ⟨parameter, rfl, ?_⟩
      rw [execute_of_error hread, complaint_repeated]

/-- Values after the command count, though they could name commands and states. A node given twice before the command
    is refused. -/
theorem execute_of_written_set :
    let words := ["-p", "show", "-lnvalue", "set", "--prefs=restore", "off", "-n", "on"]
    let before := [.valued .preferences "show", .logStd, .valued .node "value"]
    let after := [.valued .preferences "restore", .valued .node "on"]
    let disk : FileSystem := ⟨[(["on"], .file [0x31])], []⟩
    Written (some (.set false)) before after words ∧ Once before ∧ Once after ∧
      Invocation.ofArguments (fun _ => .declared) words = .ok ⟨"on", "restore", true, .set false⟩ ∧
      execute words none disk = execute ["-l", "--node", "on", "--prefs", "restore", "set", "off"] none disk ∧
      execute ["-nvalue", "--node=on", "restore"] none disk = (⟨1, [], some
        "error: The argument '--node <node>' was provided more than once, but cannot be used multiple times"⟩, disk) := by
  intro words before after disk
  have hlate : Spells [.valued .node "on"] ["-n", "on"] := .cluster (.next .node (by decide)) .nil
  have hearly : Spells [.valued .preferences "restore"] ["--prefs=restore"] := .equals .preferences (by decide) .nil
  have hbefore : Spells before ["-p", "show", "-lnvalue"] :=
    .cluster (.next .preferences (by decide)) (.cluster (.more (.joined .node (by decide))) .nil)
  have hwords : Written (some (.set false)) before after words := .set false hbefore hearly hlate
  have honce : Once before ∧ Once after := by decide
  obtain ⟨hread, hexecute⟩ := (execute_of_written hwords none disk {}).1 honce.1 honce.2 (by decide)
  have htwice : Spells [.valued .node "value", .valued .node "on"] ["-nvalue", "--node=on"] :=
    .cluster (.joined .node (by decide)) (.equals .node (by decide) .nil)
  obtain ⟨parameter, hfirst, hrefused⟩ := (execute_of_written (.restore htwice .nil) none disk {}).2 (by decide)
  obtain rfl := Option.some.inj hfirst
  exact ⟨hwords, honce.1, honce.2, hread, hexecute, hrefused⟩

end LedSwitch.CommandLine
