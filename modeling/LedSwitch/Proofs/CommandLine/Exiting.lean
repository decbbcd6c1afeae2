import LedSwitch.Proofs.CommandLine.Ending
import LedSwitch.Proofs.CommandLine.Refusing

/-!
How a call of the program ends. The exit status and the line on the standard error output come from the arguments and
the setting for the log, never from the files (`exit_of_call`): an accepted call ends well whatever becomes of its reads
and writes, as long as they come to an end, and a refused one says so in one line and does nothing else (`call_exit`).
-/

namespace LedSwitch.CommandLine

variable {arguments : List String} {setting : Option String} {disk : FileSystem} {surroundings : Surroundings}

/-- If the arguments make up an invocation, its log goes to the standard output. -/
def LogsToOutput (arguments : List String) : Prop :=
  ∀ invocation, Asks arguments invocation → invocation.logToOutput = true

/-- Something that the arguments ask for has to be read and has no end. -/
def ReadsEndless (arguments : List String) (disk : FileSystem) : Prop :=
  ∃ invocation, Asks arguments invocation ∧ invocation.isEndless disk = true

/-- The exit status and the line on the standard error output, by what the arguments are read as. -/
def exitOf (setting : Option String) : Except Verdict Invocation → Nat × Option String
  | .error verdict => (verdict.outcome.status, verdict.outcome.complaint)
  | .ok invocation => (0, ((warnings invocation setting).flatMap lines).head?)

theorem Concur.status_exitOf {answer answer' : Except Verdict Invocation} (h : Concur answer answer')
    (setting : Option String) : (exitOf setting answer).1 = (exitOf setting answer').1 := by
  cases h with
  | same | refused => rfl

/-- No read or write of a call that ends shows in how it ends. -/
theorem exit_of_call (hlog : LogsToOutput arguments) {outcome : Outcome} {left : FileSystem}
    (h : call arguments setting disk surroundings = some (outcome, left)) :
    (outcome.status, outcome.complaint) = exitOf setting (Invocation.ofArguments surroundings.order arguments) := by
  cases harguments : Invocation.ofArguments surroundings.order arguments with
  | error verdict =>
    rw [call, callOn_of_error harguments] at h
    obtain ⟨rfl, -⟩ := Prod.mk.inj (Option.some.inj h)
    rfl
  | ok invocation =>
    have houtput := hlog invocation (asks_of_ok harguments)
    rw [call_of_ok harguments houtput, execute_of_ok harguments, run_run disk houtput] at h
    split_ifs at h
    obtain ⟨rfl, -⟩ := Prod.mk.inj (Option.some.inj h)
    simp only [outcome, exitStatus, failureMessages, List.append_nil, exitOf]

/-- Only reading what has no end keeps a call from its end. -/
theorem call_eq_none_iff (hlog : LogsToOutput arguments) :
    call arguments setting disk surroundings = none ↔ ReadsEndless arguments disk := by
  cases harguments : Invocation.ofArguments surroundings.order arguments with
  | error verdict =>
    rw [call, callOn_of_error harguments]
    constructor
    · intro hnone
      cases hnone
    · rintro ⟨invocation, hasks, -⟩
      rw [hasks] at harguments
      cases harguments
  | ok invocation =>
    have hasks := asks_of_ok harguments
    rw [call_of_ok harguments (hlog invocation hasks)]
    have hendless : ReadsEndless arguments disk ↔ invocation.isEndless disk = true := by
      constructor
      · rintro ⟨other, hother, h⟩
        rw [hother] at harguments
        rwa [← Except.ok.inj harguments]
      · exact fun h => ⟨invocation, hasks, h⟩
    rw [hendless]
    split_ifs with h <;> simp [h]

theorem exitOf_of_accepted (haccepted : Accepted arguments) (setting : Option String) (order : Place → CheckOrder) :
    (exitOf setting (Invocation.ofArguments order arguments)).1 = 0 ∧ (Filter.warnings setting = [] →
      (exitOf setting (Invocation.ofArguments order arguments)).2 = none) := by
  cases harguments : Invocation.ofArguments order arguments with
  | ok invocation =>
    refine ⟨rfl, fun hsetting => ?_⟩
    rw [exitOf, warnings, hsetting]
    split_ifs <;> rfl
  | error verdict =>
    cases verdict with
    | help | version => exact ⟨rfl, fun _ => rfl⟩
    | rejected complaint => exact absurd harguments (haccepted order complaint)

/-- How a call with its log on the standard output ends does not depend on the files. If it is accepted, it comes to an
    end unless something has to be read that has none, and then it ends well, with nothing on the standard error output
    if the setting for the log can be read. If it is refused, it always ends, fails with an error, prints nothing and
    touches no file. So of two calls with the same arguments that come to an end, on whatever files, both have the same
    status, and both say the same, unless they are refused for several faults at one place and check it in different
    orders. -/
theorem call_exit (arguments : List String) (setting : Option String) (hlog : LogsToOutput arguments) :
    (Accepted arguments → ∀ disk surroundings,
      (call arguments setting disk surroundings = none ↔ ReadsEndless arguments disk) ∧
      ∀ outcome left, call arguments setting disk surroundings = some (outcome, left) →
        outcome.status = 0 ∧ (Filter.warnings setting = [] → outcome.complaint = none)) ∧
    (¬Accepted arguments → ∀ surroundings, ∃ text, ∀ disk,
      call arguments setting disk surroundings = some (⟨1, [], some ("error: " ++ text)⟩, disk)) ∧
    ∀ disk disk' surroundings surroundings' outcome outcome' left left',
      call arguments setting disk surroundings = some (outcome, left) →
      call arguments setting disk' surroundings' = some (outcome', left') →
      outcome.status = outcome'.status ∧
        (Accepted arguments ∨ Unambiguous arguments ∨ surroundings.order = surroundings'.order →
          outcome.complaint = outcome'.complaint) := by
  refine ⟨fun haccepted disk surroundings => ⟨call_eq_none_iff hlog, fun outcome left hcall => ?_⟩,
    fun hrefused surroundings => ?_,
    fun disk disk' surroundings surroundings' outcome outcome' left left' hcall hcall' => ?_⟩
  · have hexit := exitOf_of_accepted haccepted setting surroundings.order
    rwa [← exit_of_call hlog hcall] at hexit
  · obtain ⟨text, htext⟩ := callOn_of_refused Option hrefused surroundings
    exact ⟨text, htext setting⟩
  · have hexit := exit_of_call hlog hcall
    have hexit' := exit_of_call hlog hcall'
    have hstatus := (concur_ofArguments surroundings.order surroundings'.order arguments).status_exitOf setting
    rw [← hexit, ← hexit'] at hstatus
    refine ⟨hstatus, fun hsame => ?_⟩
    have hread : Invocation.ofArguments surroundings.order arguments =
        Invocation.ofArguments surroundings'.order arguments := by
      obtain haccepted | hsingle | horder := hsame
      · exact ofArguments_of_accepted haccepted _ _
      · exact ofArguments_of_unambiguous hsingle _ _
      · rw [horder]
    rw [hread, ← hexit'] at hexit
    exact congrArg Prod.snd hexit

/-- On one disk both writes work. On the other neither does, for there is a directory where the preferences should be,
    and no space behind the node. The single fault of the refused arguments is named in every order of the checks. -/
theorem call_exit_broken :
    let accepted := ["-l", "-n", "n", "-p", "p", "set", "on"]
    let refused := ["-l", "-n", "n", "-p", "p", "set", "blink"]
    let sound : FileSystem := ⟨[(["n"], .file [0x31])], []⟩
    let broken : FileSystem := ⟨[(["n"], .device .full), (["p"], .directory)], []⟩
    (∀ disk ∈ [sound, broken], ∃ outcome left, call accepted none disk {} = some (outcome, left) ∧
      outcome.status = 0 ∧ outcome.complaint = none) ∧
      ∃ text, (∀ disk ∈ [sound, broken],
        call refused none disk {} = some (⟨1, [], some ("error: " ++ text)⟩, disk)) ∧
        ∀ surroundings outcome left, call refused none broken surroundings = some (outcome, left) →
          outcome.complaint = some ("error: " ++ text) := by
  intro accepted refused sound broken
  have hread : Invocation.ofArguments (fun _ => .declared) accepted = .ok ⟨"n", "p", true, .set true⟩ := by
    decide +kernel
  have hbad : Invocation.ofArguments (fun _ => .declared) refused = refuse (.badState "blink") := by decide +kernel
  have hasks (invocation : Invocation) (h : Asks accepted invocation) : invocation = ⟨"n", "p", true, .set true⟩ :=
    Except.ok.inj ((h _).symm.trans hread)
  have hlog : LogsToOutput accepted := fun invocation h => by rw [hasks invocation h]
  have haccepted : Accepted accepted := fun order complaint h => by
    rw [asks_of_ok hread order] at h
    cases h
  have hlog' : LogsToOutput refused := fun invocation h => by
    rw [h] at hbad
    cases hbad
  have hfinite : ∀ disk ∈ [sound, broken], Invocation.isEndless ⟨"n", "p", true, .set true⟩ disk ≠ true := by
    decide +kernel
  constructor
  · intro disk hdisk
    obtain ⟨hends, hexit⟩ := (call_exit accepted none hlog).1 haccepted disk {}
    obtain ⟨⟨outcome, left⟩, hcall⟩ := Option.ne_none_iff_exists'.1 fun hnone => by
      obtain ⟨invocation, h, hendless⟩ := hends.1 hnone
      rw [hasks invocation h] at hendless
      exact hfinite disk hdisk hendless
    obtain ⟨hstatus, hquiet⟩ := hexit outcome left hcall
    exact ⟨outcome, left, hcall, hstatus, hquiet rfl⟩
  · obtain ⟨-, hrefused, hsame⟩ := call_exit refused none hlog'
    obtain ⟨text, htext⟩ := hrefused (fun h => h _ _ hbad) {}
    have hsingle : Unambiguous refused := by decide +kernel
    refine ⟨text, fun disk _ => htext disk, fun surroundings outcome left hcall => ?_⟩
    exact ((hsame _ _ _ _ _ _ _ _ (htext sound) hcall).2 (Or.inr (Or.inl hsingle))).symm

end LedSwitch.CommandLine
