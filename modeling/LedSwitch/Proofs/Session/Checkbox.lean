import Mathlib.Data.List.Induction
import LedSwitch.Proofs.Session.Basic

/-!
What a checkbox of a session shows. It shows what its store holds, whatever happened before; its node, and whether it
reacts, are fixed when it is made; and what it shows is the last press on it that counted (`Session.shows_run`).
-/

namespace LedSwitch

/-- What a checkbox that reacts shows after an act, if that is a press meant for it. -/
def Act.checked? : Act → Option Bool
  | .press pressed => if pressed.name = Control.key then some pressed.checked else none
  | _ => none

/-- What a checkbox that reacts shows after some acts, if one of them is a press meant for it. -/
def lastChecked? (acts : List Act) : Option Bool := (acts.filterMap Act.checked?).getLast?

theorem lastChecked?_cons (act : Act) (acts : List Act) :
    lastChecked? (act :: acts) = (lastChecked? acts).or act.checked? := by
  rw [lastChecked?, List.filterMap_cons]
  cases act.checked? with
  | none => exact Option.or_none.symm
  | some checked =>
    rw [lastChecked?]
    cases List.filterMap Act.checked? acts <;> simp [List.getLast?_cons]

namespace Holder

/-- A checkbox, if that is what is held, shows what its store holds. -/
def ShowsStored : Holder → Prop
  | .free _ => True
  | .bound control => control.isChecked = Control.stored control.store

/-- Every act leaves a checkbox showing what its store holds, whatever comes of saving and of telling the node. -/
theorem ShowsStored.act {holder : Holder} (h : holder.ShowsStored) (act : Act) (world : World) :
    (world.run (holder.act act)).1.ShowsStored := by
  cases holder with
  | free store =>
    cases act with
    | mount node =>
      rw [run_mount]
      rfl
    | _ => trivial
  | bound control =>
    cases act with
    | press press =>
      obtain ⟨after, world', hrun, hpressed⟩ := run_press control press world
      rw [hrun]
      cases hpressed with
      | inert => exact h
      | applied _ _ hsaved _ => exact ((Control.getBool_of_save hsaved _ _).trans (if_pos rfl)).symm
    | release => trivial
    | _ => exact h

theorem Course.showsStored {first last : Holder} {acts : List Act} {sets : List (String × Bool)}
    (h : Course first acts sets last) (hfirst : first.ShowsStored) : last.ShowsStored :=
  h.preserves (fun world _ hshows => hshows.act _ world) (fun _ _ => trivial) hfirst

/-- An act on a checkbox, unless it takes the store out, changes neither the node nor whether the checkbox reacts. What
    it shows is what a press meant for it says, if it reacts. -/
theorem act_bound (control : Control) {act : Act} (hact : act ≠ .release) (world : World) :
    ∃ after, (world.run ((bound control).act act)).1 = .bound after ∧ after.node = control.node ∧
      after.isEnabled = control.isEnabled ∧
      after.isChecked = (if control.isEnabled then act.checked? else none).getD control.isChecked := by
  cases act with
  | press press =>
    obtain ⟨after, world', hrun, hpressed⟩ := run_press control press world
    refine ⟨after, congrArg Prod.fst hrun, ?_⟩
    cases hpressed with
    | inert hinert _ =>
      refine ⟨rfl, rfl, ?_⟩
      rcases hinert with hname | hdisabled
      · simp [Act.checked?, hname]
      · simp [hdisabled]
    | applied hname henabled _ _ => exact ⟨rfl, rfl, by simp [Act.checked?, hname, henabled]⟩
  | release => exact absurd rfl hact
  | _ => exact ⟨control, rfl, rfl, rfl, by cases control.isEnabled <;> rfl⟩

/-- A checkbox from which the store is not taken keeps its node and whether it reacts, and shows what the last press
    meant for it said, if it reacts. -/
theorem Course.bound {control : Control} {last : Holder} {acts : List Act} {sets : List (String × Bool)}
    (h : Course (.bound control) acts sets last) (hrelease : .release ∉ acts) :
    ∃ shown, last = .bound shown ∧ shown.node = control.node ∧ shown.isEnabled = control.isEnabled ∧
      shown.isChecked = (if control.isEnabled then lastChecked? acts else none).getD control.isChecked := by
  generalize hfirst : Holder.bound control = first at h
  induction h generalizing control with
  | nil => exact ⟨control, hfirst.symm, rfl, rfl, by cases control.isEnabled <;> rfl⟩
  | cons world _ ih =>
    subst hfirst
    rw [List.mem_cons, not_or] at hrelease
    obtain ⟨after, hafter, hnode, henabled, hchecked⟩ := act_bound control (Ne.symm hrelease.1) world
    obtain ⟨shown, hshown, hnode', henabled', hchecked'⟩ := ih hrelease.2 hafter.symm
    refine ⟨shown, hshown, hnode'.trans hnode, henabled'.trans henabled, ?_⟩
    -- What a later press says counts more than what this act says.
    rw [hchecked', henabled, hchecked, lastChecked?_cons]
    split_ifs
    · rw [Option.getD_or]
    · rfl

end Holder

namespace Session

variable {ι : Type} [DecidableEq ι]

theorem actsOn_append (slot : ι) (moves more : List (Move ι)) :
    actsOn slot (moves ++ more) = actsOn slot moves ++ actsOn slot more := List.filterMap_append

/-- A checkbox in a slot that held a store by itself was made at some moment, and its store was not taken out since. -/
theorem exists_mount {session : Session ι} {slot : ι} {store : Store} {moves : List (Move ι)} {control : Control}
    (hfree : session.holders slot = .free store) (h : (session.run moves).holders slot = .bound control) :
    ∃ before node after held, moves = before ++ .on slot (.mount node) :: after ∧
      (session.run before).holders slot = .free held ∧ .release ∉ actsOn slot after := by
  -- From the last move backwards: the first one that finds no checkbox is the one that made it.
  induction moves using List.reverseRecOn generalizing control with
  | nil => cases hfree.symm.trans h
  | append_singleton moves move ih =>
    rw [run_append] at h
    change ((session.run moves).step move).holders slot = _ at h
    cases hmove : move.actOn? slot with
    | none =>
      rw [holders_step_of_elsewhere hmove] at h
      obtain ⟨before, node, after, held, rfl, hheld, hrelease⟩ := ih h
      refine ⟨before, node, after ++ [move], held, by simp, hheld, ?_⟩
      rwa [actsOn_append, actsOn, actsOn, List.filterMap_cons, hmove, List.filterMap_nil, List.append_nil]
    | some act =>
      obtain rfl : move = .on slot act := Move.eq_on_of_actOn? hmove
      rw [holders_step_on] at h
      cases hheld : (session.run moves).holders slot with
      | free held =>
        rw [hheld] at h
        cases act with
        | mount node => exact ⟨moves, node, [], held, rfl, hheld, by simp [actsOn]⟩
        | _ => cases h
      | bound shown =>
        rw [hheld] at h
        obtain ⟨before, node, after, held, rfl, hheld, hrelease⟩ := ih hheld
        refine ⟨before, node, after ++ [.on slot act], held, by simp, hheld, ?_⟩
        rw [actsOn_append, List.mem_append, not_or]
        refine ⟨hrelease, ?_⟩
        rw [actsOn, List.filterMap_cons, hmove, List.filterMap_nil, List.mem_singleton]
        rintro rfl
        cases h

/-- A press on a checkbox that does not react changes no store, no checkbox and no file. -/
theorem step_press_of_disabled {session : Session ι} {slot : ι} {control : Control}
    (hcontrol : session.holders slot = .bound control) (hdisabled : control.isEnabled = false) (press : Press) :
    (session.step (.on slot (.press press))).holders = session.holders ∧
      (session.step (.on slot (.press press))).world.disk = session.world.disk := by
  obtain ⟨after, world', hrun, hpressed⟩ := Holder.run_press control press session.world
  rw [step, hcontrol, hrun]
  cases hpressed with
  | inert _ hdisk => exact ⟨(Function.update_eq_self_iff).2 hcontrol.symm, hdisk⟩
  | applied _ henabled => simp [hdisabled] at henabled

/-- A checkbox shows what its store holds, at any time. Its node, and whether it reacts, were fixed when it was made;
    if it reacts, it shows what the last press meant for it said, and what was stored in the beginning if there was
    none. If it does not, then no press changes anything. -/
theorem shows_run {session : Session ι} {slot : ι} {store : Store} {moves : List (Move ι)} {control : Control}
    (hfree : session.holders slot = .free store) (hcontrol : (session.run moves).holders slot = .bound control) :
    control.isChecked = Control.stored control.store ∧
      (∃ before node after held, moves = before ++ .on slot (.mount node) :: after ∧
        (session.run before).holders slot = .free held ∧ .release ∉ actsOn slot after ∧ control.node = node ∧
        control.isEnabled = (session.run before).world.disk.isPresent node ∧
        control.isChecked =
          (if control.isEnabled then lastChecked? (actsOn slot after) else none).getD (Control.stored held)) ∧
      (control.isEnabled = false → ∀ press,
        let pressed := (session.run moves).step (.on slot (.press press))
        pressed.holders = (session.run moves).holders ∧ pressed.world.disk = (session.run moves).world.disk) := by
  have hshows := (session.course_run slot moves).showsStored (by rw [hfree]; trivial)
  rw [hcontrol] at hshows
  refine ⟨hshows, ?_, fun hdisabled => step_press_of_disabled hcontrol hdisabled⟩
  obtain ⟨before, node, after, held, rfl, hheld, hrelease⟩ := exists_mount hfree hcontrol
  have hcourse := ((session.run before).step (.on slot (.mount node))).course_run slot after
  rw [run_append, run_cons] at hcontrol
  rw [holders_step_on, hheld, Holder.run_mount, hcontrol] at hcourse
  obtain ⟨_, hshown, hnode, henabled, hchecked⟩ := hcourse.bound hrelease
  cases hshown
  exact ⟨before, node, after, held, rfl, hheld, hrelease, hnode, henabled, henabled ▸ hchecked⟩

/-- A checkbox whose node was missing stays inert when the node appears. -/
theorem shows_run_missing :
    let session : Session Unit := ⟨fun _ => .free (.memory [(Control.key, true)]), ⟨⟨[], []⟩, []⟩⟩
    let final := session.run [.on () (.mount "n"), .others ⟨[(["n"], .file [])], []⟩, .on () (.press (.toggle false))]
    ∃ control, final.holders () = .bound control ∧ control.isChecked = Control.stored control.store ∧
      ∀ press, (final.step (.on () (.press press))).world.disk = final.world.disk := by
  intro session final
  have hcontrol : final.holders () = .bound ⟨.memory [(Control.key, true)], "n", false, true⟩ := rfl
  obtain ⟨hshows, -, hinert⟩ := shows_run rfl hcontrol
  exact ⟨_, hcontrol, hshows, fun press => (hinert rfl press).2⟩

end Session

end LedSwitch
