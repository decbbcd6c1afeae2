import LedSwitch.Proofs.CommandLine.Composition
import LedSwitch.Proofs.CommandLine.Refusing
import LedSwitch.Proofs.Journal.Selecting

/-!
The setting for the log selects what a user sees of the records, and does nothing else
(`CommandLine.execute_filtered`). What is printed for the user is seen under every setting.
-/

namespace LedSwitch

/-- The event is a line for the user and not a record. -/
def Event.isPrinted : Event → Bool
  | .printed _ => true
  | .logged _ => false

/-- An event is left if it is printed, or if its record passes the entries. -/
def Filter.leaves (entries : List Entry) : Event → Bool
  | .printed _ => true
  | .logged record => decide (Passes entries record)

namespace CommandLine

/-- The events of an accepted call that its user sees under a setting, in order. -/
def seen (systemLog : Except String Unit) (invocation : Invocation) (setting : Option String) (disk : FileSystem) :
    List Event :=
  (World.run ⟨disk, []⟩ (run systemLog invocation)).2.events.filter fun event =>
    (visible? invocation (Filter.ofSetting setting) event).isSome

variable {systemLog : Except String Unit} {invocation : Invocation} {setting : Option String}
  {entries : List Filter.Entry}

theorem shown_of_visible? {filter : Filter} {event : Event} {text : String}
    (h : visible? invocation filter event = some text) : shown event = lines text := by
  cases event with
  | printed line =>
    obtain rfl := Option.some.inj h
    rfl
  | logged record =>
    rw [visible?, Filter.show?] at h
    split_ifs at h
    obtain rfl := Option.some.inj h
    rfl

/-- The lines on the standard output are those by which the events are seen. -/
theorem flatMap_lines_filterMap (filter : Filter) (events : List Event) :
    (events.filterMap (visible? invocation filter)).flatMap lines =
      (events.filter fun event => (visible? invocation filter event).isSome).flatMap shown := by
  induction events with
  | nil => rfl
  | cons event rest ih =>
    cases hvisible : visible? invocation filter event with
    | none => simp [hvisible, ih]
    | some text => simp [hvisible, ih, shown_of_visible? hvisible]

theorem output_of_ok {arguments : List String} {surroundings : Surroundings}
    (h : Invocation.ofArguments surroundings.order arguments = .ok invocation) (setting : Option String)
    (disk : FileSystem) : (execute arguments setting disk surroundings).1.output =
      (seen surroundings.systemLog invocation setting disk).flatMap shown := by
  rw [execute_of_ok h, seen, ← flatMap_lines_filterMap]
  rfl

/-- Everything that is printed is seen. -/
theorem filter_isPrinted_seen (systemLog : Except String Unit) (invocation : Invocation) (setting : Option String)
    (disk : FileSystem) : (seen systemLog invocation setting disk).filter Event.isPrinted =
      (World.run ⟨disk, []⟩ (run systemLog invocation)).2.events.filter Event.isPrinted := by
  rw [seen, List.filter_filter]
  apply List.filter_congr
  intro event _
  cases event <;> rfl

/-- What is seen under a list of entries with different targets is what they leave of everything. -/
theorem seen_of_lists (h : Filter.Lists setting entries) (hdistinct : (entries.map Filter.Entry.target).Nodup)
    (systemLog : Except String Unit) (invocation : Invocation) (disk : FileSystem) :
    seen systemLog invocation setting disk =
      (seen systemLog invocation none disk).filter (Filter.leaves entries) := by
  rw [seen, seen, List.filter_filter]
  apply List.filter_congr
  intro event _
  cases event with
  | printed line => rfl
  | logged record =>
    have hadmits : (Filter.ofSetting setting).admits record = decide (Filter.Passes entries record) :=
      Bool.eq_iff_iff.2 ((h.admits_iff hdistinct record).trans decide_eq_true_iff.symm)
    have heverything : (Filter.ofSetting none).admits record = true := Filter.admits_everything record
    cases hlog : invocation.logToOutput <;>
      cases hpasses : decide (Filter.Passes entries record) <;>
        simp [visible?, Filter.show?, Filter.leaves, hadmits, heverything, hlog, hpasses]

/-- How a call ends and what it does to the files is the same under all settings that are lists of entries, and so are
    the lines for the user. An accepted call shows, under a list of entries with different targets, just those of the
    records and lines of a call without a setting that the entries leave, in the same order. -/
theorem execute_filtered (arguments : List String) (disk : FileSystem) (surroundings : Surroundings)
    {setting setting' : Option String} {entries entries' : List Filter.Entry} (h : Filter.Lists setting entries)
    (h' : Filter.Lists setting' entries') :
    (execute arguments setting disk surroundings).1.status = (execute arguments setting' disk surroundings).1.status ∧
      (execute arguments setting disk surroundings).1.complaint =
        (execute arguments setting' disk surroundings).1.complaint ∧
      (execute arguments setting disk surroundings).2 = (execute arguments setting' disk surroundings).2 ∧
      (∀ verdict, Invocation.ofArguments surroundings.order arguments = .error verdict →
        (execute arguments setting disk surroundings).1.output =
          (execute arguments setting' disk surroundings).1.output) ∧
      ∀ invocation, Invocation.ofArguments surroundings.order arguments = .ok invocation →
        (∀ other, (execute arguments other disk surroundings).1.output =
          (seen surroundings.systemLog invocation other disk).flatMap shown) ∧
        (seen surroundings.systemLog invocation setting disk).filter Event.isPrinted =
          (seen surroundings.systemLog invocation setting' disk).filter Event.isPrinted ∧
        ((entries.map Filter.Entry.target).Nodup → seen surroundings.systemLog invocation setting disk =
          (seen surroundings.systemLog invocation none disk).filter (Filter.leaves entries)) := by
  cases harguments : Invocation.ofArguments surroundings.order arguments with
  | error verdict =>
    rw [execute_of_error harguments, execute_of_error harguments]
    exact ⟨rfl, rfl, rfl, fun _ _ => rfl, fun invocation hok => by cases hok⟩
  | ok invocation =>
    have hwarnings : warnings invocation setting = warnings invocation setting' := by
      rw [warnings, warnings, h.warnings_eq_nil, h'.warnings_eq_nil]
    refine ⟨?_, ?_, ?_, fun verdict herror => (by cases herror), fun accepted haccepted => ?_⟩
    · rw [execute_of_ok harguments, execute_of_ok harguments]
      rfl
    · rw [execute_of_ok harguments, execute_of_ok harguments]
      simp only [outcome, hwarnings]
    · rw [execute_of_ok harguments, execute_of_ok harguments]
    · obtain rfl := Except.ok.inj haccepted
      refine ⟨fun other => output_of_ok harguments other disk, ?_, fun hdistinct => seen_of_lists h hdistinct _ _ disk⟩
      rw [filter_isPrinted_seen, filter_isPrinted_seen]

/-- Two of the four records of a click are left, one by the longer target. -/
theorem execute_filtered_targeted :
    let arguments := ["-l", "-n", "n", "-p", "p", "set", "on"]
    let disk : FileSystem := ⟨[(["n"], .file [0x31])], []⟩
    let setting := some "WARN, chargingled::prefs= trace"
    let entries : List Filter.Entry := [⟨"", .warn⟩, ⟨"chargingled::prefs", .trace⟩]
    Filter.Lists setting entries ∧ (entries.map Filter.Entry.target).Nodup ∧
      (execute arguments setting disk).1.output = ["[WARN  chargingled::settings] key: charging_led",
        "[INFO  chargingled::prefs] saved preferences to p"] ∧
      (execute arguments setting disk).2 = (execute arguments none disk).2 := by
  intro arguments disk setting entries
  have hsetting : setting = some (String.ofList (List.intercalate [','] ["WARN".toList,
      " chargingled::prefs= trace".toList])) := by decide
  have hwarn : Filter.Entry.Spells "WARN".toList ⟨"", .warn⟩ := by
    have hword : Threshold.warn.Spells "WARN".toList := by decide
    exact .bare hword ⟨[], [], by simp, by simp, by simp⟩
  have hprefs : Filter.Entry.Spells " chargingled::prefs= trace".toList ⟨"chargingled::prefs", .trace⟩ := by
    have hword : Threshold.trace.Spells "trace".toList := by decide
    have htarget : ∀ c ∈ "chargingled::prefs".toList, c ∉ Filter.Entry.separators := by simp [Filter.Entry.separators]
    have hstart : ∀ c ∈ "chargingled::prefs".toList.head?, Blank.holds c = false := by simp [Blank.holds]
    have hblank : ∀ c ∈ [' '], Blank.holds c = true := by simp [Blank.holds]
    exact .targeted htarget hstart hblank hword ⟨[' '], [], hblank, by simp, by decide⟩
  have hlists : Filter.Lists setting entries := hsetting ▸ .listed (by simp) (.cons hwarn (.cons hprefs .nil))
  have hdistinct : (entries.map Filter.Entry.target).Nodup := by decide
  have haccepted : Invocation.ofArguments (fun _ => .declared) arguments = .ok ⟨"n", "p", true, .set true⟩ := by
    decide +kernel
  obtain ⟨-, -, hdisk, -, hshown⟩ := execute_filtered arguments disk {} hlists .unset
  obtain ⟨houtput, -, hseen⟩ := hshown _ haccepted
  refine ⟨hlists, hdistinct, ?_, hdisk⟩
  rw [houtput, hseen hdistinct]
  decide +kernel

end CommandLine

end LedSwitch
