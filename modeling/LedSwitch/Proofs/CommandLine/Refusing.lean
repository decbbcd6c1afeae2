import LedSwitch.CommandLine.Run
import LedSwitch.Proofs.CommandLine.Checking

/-!
What a user sees of a call that is refused: one line, which begins as an error does, and nothing else. No machine is
used for it (`callOn_of_refused`).
-/

namespace LedSwitch

/-- The first part of a text ends before the first separator. -/
theorem Parts.head?_split (separator : Char) (text : List Char) :
    (split separator text).head? = some (text.takeWhile (· ≠ separator)) := by
  induction text with
  | nil => rfl
  | cons c rest ih =>
    rw [split]
    split_ifs with hc
    · simp [hc]
    · cases hrest : split separator rest with
      | nil =>
        rw [hrest] at ih
        cases ih
      | cons first others =>
        rw [hrest] at ih
        simp [hc, Option.some.inj ih]

namespace CommandLine

/-- A line keeps what it begins with, if that does not end in a carriage return. -/
theorem prefix_dropReturn {start line : List Char} (hbegins : start <+: line) (hend : start.getLast? ≠ some '\r') :
    start <+: dropReturn line := by
  obtain ⟨rest, rfl⟩ := hbegins
  rw [dropReturn]
  rcases List.eq_nil_or_concat rest with rfl | ⟨others, last, rfl⟩
  · rw [← List.head?_reverse] at hend
    rw [List.append_nil]
    cases hreverse : start.reverse with
    | nil => exact List.prefix_refl _
    | cons last _ =>
      have hlast : last ≠ '\r' := by simpa [hreverse] using hend
      simp [Parts.after?, hlast]
  · have hreverse : (start ++ others.concat last).reverse = last :: (start ++ others).reverse := by simp
    rw [hreverse, Parts.after?]
    split_ifs
    · simp
    · simp

/-- The first line of a text begins as the text does, up to the end of the line. -/
theorem head?_lines {text : String} {start : List Char} (hbegins : start <+: text.toList) (hplain : '\n' ∉ start)
    (hend : start.getLast? ≠ some '\r') : ∃ rest, (lines text).head? = some (String.ofList (start ++ rest)) := by
  obtain ⟨others, hothers⟩ := hbegins
  have hfirst : start <+: text.toList.takeWhile (· ≠ '\n') := by
    rw [← hothers, List.takeWhile_append_of_pos]
    · exact List.prefix_append _ _
    · intro c hc
      simpa using fun hlast : c = '\n' => hplain (hlast ▸ hc)
  obtain ⟨rest, hrest⟩ := prefix_dropReturn hfirst hend
  exact ⟨rest, by rw [lines, List.head?_map, Parts.head?_split, hrest]; rfl⟩

/-- There is no line end in the text. -/
def Unbroken (text : String) : Prop := '\n' ∉ text.toList ∧ '\r' ∉ text.toList

instance (text : String) : Decidable (Unbroken text) := inferInstanceAs (Decidable (_ ∧ _))

theorem Unbroken.append {text text' : String} (h : Unbroken text) (h' : Unbroken text') : Unbroken (text ++ text') := by
  rw [Unbroken, String.toList_append, List.mem_append, List.mem_append, not_or, not_or]
  exact ⟨⟨h.1, h'.1⟩, h.2, h'.2⟩

/-- A text without line ends is one line. -/
theorem lines_of_unbroken {text : String} (h : Unbroken text) : lines text = [text] := by
  have hlast : Parts.after? '\r' text.toList.reverse = none := by
    cases hreverse : text.toList.reverse with
    | nil => rfl
    | cons c rest =>
      rw [Parts.after?, if_neg]
      rintro rfl
      exact h.2 (List.mem_reverse.1 (hreverse ▸ List.mem_cons_self))
  rw [lines, Parts.split_of_notMem h.1, List.map_singleton, dropReturn, hlast]
  simp

theorem prefix_toList_append {start : List Char} {text : String} (h : start <+: text.toList) (rest : String) :
    start <+: (text ++ rest).toList := by
  rw [String.toList_append]
  exact h.trans (List.prefix_append _ _)

/-- Every message about a complaint begins as an error. -/
theorem error_prefix_message (complaint : Complaint) : "error: ".toList <+: complaint.message.toList := by
  cases complaint with
  | badState value =>
    have hopening : "error: ".toList <+: "error: '".toList := by decide
    exact prefix_toList_append (prefix_toList_append (prefix_toList_append (prefix_toList_append hopening _) _) _) _
  | missingState => exact ⟨"The following required arguments were not provided:".toList, by decide⟩
  | unexpected argument =>
    have hopening : "error: ".toList <+: "error: Found argument '".toList := by decide
    exact prefix_toList_append (prefix_toList_append hopening _) _
  | missingValue parameter | repeated parameter =>
    have hopening : "error: ".toList <+: "error: The argument '".toList := by decide
    exact prefix_toList_append (prefix_toList_append hopening _) _
  | unknownCommand word =>
    have hopening : "error: ".toList <+: "error: The subcommand '".toList := by decide
    exact prefix_toList_append (prefix_toList_append hopening _) _

theorem complaint_rejected (complaint : Complaint) :
    ∃ text, (Verdict.rejected complaint).outcome.complaint = some ("error: " ++ text) := by
  obtain ⟨rest, hrest⟩ := head?_lines (error_prefix_message complaint) (by simp) (by simp)
  refine ⟨String.ofList rest, hrest.trans ?_⟩
  rw [String.ofList_append, String.ofList_toList]

section

variable {arguments : List String} {surroundings : Surroundings} {verdict : Verdict}

/-- A call that ends at once does so on every machine. -/
theorem callOn_of_error {m : Type → Type} [Monad m] [Machine (StateT World m)]
    (h : Invocation.ofArguments surroundings.order arguments = .error verdict) (setting : Option String)
    (disk : FileSystem) : callOn m arguments setting disk surroundings = pure (verdict.outcome, disk) := by
  rw [callOn, h]

theorem execute_of_error (h : Invocation.ofArguments surroundings.order arguments = .error verdict)
    (setting : Option String) (disk : FileSystem) :
    execute arguments setting disk surroundings = (verdict.outcome, disk) := by
  rw [execute, callOn_of_error h]
  rfl

/-- What a refused call says is settled before the files and the setting for the log are looked at. -/
theorem callOn_of_refused (m : Type → Type) [Monad m] [Machine (StateT World m)] (h : ¬Accepted arguments)
    (surroundings : Surroundings) : ∃ text, ∀ setting disk,
      callOn m arguments setting disk surroundings = pure (⟨1, [], some ("error: " ++ text)⟩, disk) := by
  obtain ⟨complaint, hcomplaint⟩ := refused_of_not_accepted h surroundings.order
  obtain ⟨text, htext⟩ := complaint_rejected complaint
  refine ⟨text, fun setting disk => ?_⟩
  rw [callOn_of_error hcomplaint, ← htext]
  rfl

end

end CommandLine

end LedSwitch
