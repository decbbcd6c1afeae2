import Mathlib.Tactic.Common
import LedSwitch.CommandLine.Arguments

/-!
The checks of the arguments. In which order the parameters of a place are checked does not matter for what is accepted,
but only for which of several faults is named (`concur_ofArguments`); where no place has more than one fault, it does
not matter at all (`ofArguments_of_unambiguous`).
-/

namespace LedSwitch.CommandLine

variable {α β : Type} {place : Place} {progress : Progress} {given : Given} {arguments : List String}

/-- Two answers that are the same, or two refusals. -/
inductive Concur : Except Verdict α → Except Verdict α → Prop where
  | same (answer : Except Verdict α) : Concur answer answer
  | refused (complaint complaint' : Complaint) : Concur (refuse complaint) (refuse complaint')

namespace Concur

variable {answer answer' : Except Verdict α}

theorem bind {next next' : α → Except Verdict β} (h : Concur answer answer')
    (hnext : ∀ value, Concur (next value) (next' value)) : Concur (answer >>= next) (answer' >>= next') := by
  cases h with
  | refused complaint complaint' => exact .refused complaint complaint'
  | same =>
    cases answer with
    | error verdict => exact .same _
    | ok value => exact hnext value

theorem ok_iff (h : Concur answer answer') (value : α) : answer = .ok value ↔ answer' = .ok value := by
  cases h with
  | same => exact Iff.rfl
  | refused => exact ⟨nofun, nofun⟩

theorem eq_of_ne (h : Concur answer answer') (hanswer : ∀ complaint, answer ≠ refuse complaint) : answer = answer' := by
  cases h with
  | same => rfl
  | refused complaint => exact absurd rfl (hanswer complaint)

theorem refused_iff (h : Concur answer answer') :
    (∃ complaint, answer = refuse complaint) ↔ ∃ complaint, answer' = refuse complaint := by
  cases h with
  | same => exact Iff.rfl
  | refused complaint complaint' => exact ⟨fun _ => ⟨complaint', rfl⟩, fun _ => ⟨complaint, rfl⟩⟩

end Concur

theorem CheckOrder.mem_parameters (order : CheckOrder) (parameter : Parameter) : parameter ∈ order.parameters := by
  rw [order.perm.mem_iff]
  cases parameter with
  | valued option => cases option <;> decide
  | logStd | state => decide

/-- A place has no fault just if it has none of each kind. The order of the checks is not among the conditions. -/
theorem fault?_eq_none {order : CheckOrder} : progress.fault? place order = none ↔
    (place = .set → progress.given.state ≠ []) ∧ progress.unanswered? = none ∧
      ∀ parameter, progress.given.fault? parameter = none := by
  rw [Progress.fault?]
  split_ifs with hmissing
  · simpa using fun hstate => absurd (List.isEmpty_iff.1 hmissing.2) (hstate hmissing.1)
  · have hstate : place = .set → progress.given.state ≠ [] := by simpa using hmissing
    cases progress.unanswered? with
    | some option => simp
    | none => simpa [order.mem_parameters] using fun _ => hstate

theorem finish_eq_ok {order : CheckOrder} : progress.finish place order = .ok given ↔
    progress.fault? place order = none ∧ given = progress.given := by
  rw [Progress.finish]
  cases progress.fault? place order with
  | none => simp [eq_comm]
  | some complaint => simp [refuse]

theorem concur_finish (order order' : CheckOrder) :
    Concur (progress.finish place order) (progress.finish place order') := by
  rw [Progress.finish, Progress.finish]
  cases hfault : progress.fault? place order with
  | none =>
    rw [fault?_eq_none.2 (fault?_eq_none.1 hfault)]
    exact .same _
  | some complaint =>
    cases hfault' : progress.fault? place order' with
    | none => simp [fault?_eq_none.2 (fault?_eq_none.1 hfault')] at hfault
    | some complaint' => exact .refused complaint complaint'

/-- What is accepted, and as what, does not depend on the order of the checks. -/
theorem concur_ofArguments (order order' : Place → CheckOrder) (arguments : List String) :
    Concur (Invocation.ofArguments order arguments) (Invocation.ofArguments order' arguments) := by
  apply (Concur.same (readPlace .top arguments {})).bind
  rintro ⟨top, _ | ⟨place, rest⟩⟩
  · exact (concur_finish _ _).bind fun given => .same _
  · apply (Concur.same (readPlace place rest {})).bind
    rintro ⟨inner, _⟩
    exact (concur_finish _ _).bind fun after => (concur_finish _ _).bind fun before => .same _

/-- What is wrong with the parameters of a place. -/
def Given.faults (given : Given) : List Complaint := Parameter.all.filterMap given.fault?

/-- A single fault is found in every order. -/
theorem findSome?_of_single (h : given.faults.length ≤ 1) (order : CheckOrder) :
    order.parameters.findSome? given.fault? = given.faults.head? := by
  have hperm : (order.parameters.filterMap given.fault?).Perm given.faults := order.perm.filterMap _
  rw [← List.head?_filterMap]
  obtain hnone | ⟨complaint, hone⟩ : given.faults = [] ∨ ∃ complaint, given.faults = [complaint] := by
    rwa [← List.length_eq_zero_iff, ← List.length_eq_one_iff, ← Nat.le_one_iff_eq_zero_or_eq_one]
  · rw [hnone, List.perm_nil] at hperm
    rw [hperm, hnone]
  · rw [hone, List.perm_singleton] at hperm
    rw [hperm, hone]

theorem finish_of_single (h : progress.given.faults.length ≤ 1) (order order' : CheckOrder) :
    progress.finish place order = progress.finish place order' := by
  rw [Progress.finish, Progress.finish, Progress.fault?, Progress.fault?, findSome?_of_single h, findSome?_of_single h]

/-- What is given at the places of arguments, as far as they can be read. -/
def places (arguments : List String) : List Given :=
  match readPlace .top arguments {} with
  | .error _ => []
  | .ok (top, none) => [top.given]
  | .ok (top, some (place, rest)) =>
    match readPlace place rest {} with
    | .error _ => [top.given]
    | .ok (inner, _) => [top.given, inner.given]

/-- No place has more than one parameter with a fault. -/
def Unambiguous (arguments : List String) : Prop := ∀ given ∈ places arguments, given.faults.length ≤ 1

instance (arguments : List String) : Decidable (Unambiguous arguments) := inferInstanceAs (Decidable (∀ _ ∈ _, _))

theorem ofArguments_of_unambiguous (h : Unambiguous arguments) (order order' : Place → CheckOrder) :
    Invocation.ofArguments order arguments = Invocation.ofArguments order' arguments := by
  rw [Invocation.ofArguments, Invocation.ofArguments]
  rw [Unambiguous, places] at h
  cases htop : readPlace .top arguments {} with
  | error verdict => rfl
  | ok read =>
    obtain ⟨top, _ | ⟨place, rest⟩⟩ := read
    · have hbefore : top.given.faults.length ≤ 1 := by simpa [htop] using h
      simp only [bind, Except.bind, finish_of_single hbefore (order .top) (order' .top)]
    · simp only [bind, Except.bind]
      cases hinner : readPlace place rest {} with
      | error verdict => rfl
      | ok read =>
        obtain ⟨hbefore, hafter⟩ : top.given.faults.length ≤ 1 ∧ read.1.given.faults.length ≤ 1 := by
          simpa [htop, hinner] using h
        simp only [finish_of_single hafter (order place) (order' place),
          finish_of_single hbefore (order .top) (order' .top)]

/-- With two faults at one place, each of them may be the one that is named. -/
example : Invocation.ofArguments (fun _ => .declared) ["-nx", "-ny", "-ll"] = refuse (.repeated (.valued .node)) ∧
    Invocation.ofArguments (fun _ => ⟨Parameter.all.reverse, List.reverse_perm _⟩) ["-nx", "-ny", "-ll"] =
      refuse (.repeated .logStd) := by
  decide +kernel

/-- The arguments make up an invocation, in whatever order they are checked. -/
def Asks (arguments : List String) (invocation : Invocation) : Prop :=
  ∀ order, Invocation.ofArguments order arguments = .ok invocation

theorem asks_of_ok {order : Place → CheckOrder} {invocation : Invocation}
    (h : Invocation.ofArguments order arguments = .ok invocation) : Asks arguments invocation :=
  fun order' => ((concur_ofArguments order order' arguments).ok_iff invocation).1 h

/-- Arguments that are not refused, whatever the order of the checks. What they ask for may be help or the version. -/
def Accepted (arguments : List String) : Prop :=
  ∀ order complaint, Invocation.ofArguments order arguments ≠ refuse complaint

theorem ofArguments_of_accepted (h : Accepted arguments) (order order' : Place → CheckOrder) :
    Invocation.ofArguments order arguments = Invocation.ofArguments order' arguments :=
  (concur_ofArguments order order' arguments).eq_of_ne (h order)

/-- What is refused in one order of the checks is refused in every order. -/
theorem refused_of_not_accepted (h : ¬Accepted arguments) (order : Place → CheckOrder) :
    ∃ complaint, Invocation.ofArguments order arguments = refuse complaint := by
  obtain ⟨order', hrefused⟩ : ∃ order', ∃ complaint, Invocation.ofArguments order' arguments = refuse complaint := by
    simpa [Accepted] using h
  exact (concur_ofArguments order' order arguments).refused_iff.1 hrefused

end LedSwitch.CommandLine
