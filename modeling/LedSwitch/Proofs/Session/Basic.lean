import Mathlib.Data.List.Induction
import Mathlib.Logic.Function.Basic
import LedSwitch.Proofs.Control.Pressing

/-!
Sessions: any number of stores and checkboxes on one machine, whose files others may change at any time. A slot holds
a store by itself or in a checkbox. What becomes of it depends on what is done with it and on nothing else but the
machines on which that happens (`Session.course_run`); so laws about a slot are proved for its `Holder.Course`.
-/

namespace LedSwitch

/-- A store, by itself or in a checkbox. -/
inductive Holder where
  | free (store : Store)
  | bound (control : Control)

/-- What can be done with a store or a checkbox. -/
inductive Act where
  /-- Opens the store of a file, in place of this one. -/
  | load (path : String)
  /-- Sets a truth value in the store. -/
  | set (key : String) (value : Bool)
  /-- Makes a checkbox with the store. -/
  | mount (node : String)
  | press (press : Press)
  /-- Takes the store out of the checkbox again. -/
  | release
  /-- Tells a node the value that is stored, as after a restart. -/
  | restore (node : String)

namespace Holder

/-- The store that is held. -/
def store : Holder → Store
  | .free store => store
  | .bound control => control.store

/-- Does what an act says. One that does not fit, such as a press where there is no checkbox, does nothing. -/
def act {m : Type → Type} [Monad m] [Machine m] : Holder → Act → m Holder
  | .free _, .load path => return .free (.file (← FileStore.load path))
  | .free store, .set key value => return .free (← store.setBool key value).2
  | .free store, .mount node => return .bound (← Control.new store node)
  | .bound control, .press press => return .bound (← control.press press).2
  | .bound control, .release => return .free control.store
  | holder, .restore node => do
    let _ ← Control.restore holder.store node
    return holder
  | holder, _ => return holder

theorem run_set (store : Store) (key : String) (value : Bool) (world : World) :
    world.run ((free store).act (.set key value)) =
      (free (world.run (store.setBool key value)).1.2, (world.run (store.setBool key value)).2) := rfl

theorem run_mount (store : Store) (node : String) (world : World) :
    (world.run ((free store).act (.mount node))).1 =
      bound ⟨store, node, world.disk.isPresent node, Control.stored store⟩ :=
  congrArg bound (Control.run_new store node world).1

theorem run_press (control : Control) (press : Press) (world : World) :
    ∃ after world', world.run ((bound control).act (.press press)) = (bound after, world') ∧
      control.Pressed press world after world' := by
  obtain ⟨after, world', hrun, hpressed⟩ := control.run_press press world
  exact ⟨after, world', by rw [act, World.run_bind, hrun, World.run_pure], hpressed⟩

/-- The truth value that an act sets in the store, with its key. A press does so if it is meant for the checkbox and
    that reacts. -/
def sets? : Holder → Act → Option (String × Bool)
  | .free _, .set key value => some (key, value)
  | .bound control, .press press =>
    if press.name = Control.key ∧ control.isEnabled then some (Control.key, press.checked) else none
  | _, _ => none

/-- What a slot goes through when acts are done one after the other, each on a machine in any state: in the end it
    holds something, and the truth values that were set stand in their order. -/
inductive Course : Holder → List Act → List (String × Bool) → Holder → Prop where
  | nil (holder : Holder) : Course holder [] [] holder
  | cons {holder last : Holder} {act : Act} {acts : List Act} {sets : List (String × Bool)} (world : World) :
      Course (world.run (holder.act act)).1 acts sets last →
      Course holder (act :: acts) ((holder.sets? act).toList ++ sets) last

end Holder

/-- What every act keeps, of those that are done, holds in the end if it does in the beginning. -/
theorem Holder.Course.preserves {p : Holder → Prop} {q : Act → Prop}
    (hact : ∀ {holder act} (world : World), q act → p holder → p (world.run (holder.act act)).1)
    {first last : Holder} {acts : List Act} {sets : List (String × Bool)} (h : Course first acts sets last)
    (hacts : ∀ act ∈ acts, q act) (hfirst : p first) : p last := by
  induction h with
  | nil => exact hfirst
  | cons world _ ih =>
    rw [List.forall_mem_cons] at hacts
    exact ih hacts.2 (hact world hacts.1 hfirst)

/-- What happens in a session: an act on what a slot holds, or others leave the files in any other state. -/
inductive Move (ι : Type) where
  | on (slot : ι) (act : Act)
  | others (disk : FileSystem)

/-- Stores and checkboxes on one machine. -/
structure Session (ι : Type) where
  holders : ι → Holder
  world : World

section

variable {ι : Type} [DecidableEq ι]

/-- The act on a slot that a move is. -/
def Move.actOn? (slot : ι) : Move ι → Option Act
  | .on other act => if other = slot then some act else none
  | .others _ => none

theorem Move.eq_on_of_actOn? {slot : ι} {move : Move ι} {act : Act} (h : move.actOn? slot = some act) :
    move = .on slot act := by
  cases move with
  | others disk => cases h
  | on other act' =>
    rw [actOn?] at h
    split_ifs at h with hslot
    rw [hslot, Option.some.inj h]

/-- The acts on a slot. -/
def actsOn (slot : ι) (moves : List (Move ι)) : List Act := moves.filterMap (Move.actOn? slot)

namespace Session

/-- What a session comes to by a move. -/
def step (session : Session ι) : Move ι → Session ι
  | .on slot act =>
    let (holder, world) := session.world.run ((session.holders slot).act act)
    ⟨Function.update session.holders slot holder, world⟩
  | .others disk => ⟨session.holders, { session.world with disk := disk }⟩

/-- What a session comes to by some moves. -/
def run (session : Session ι) (moves : List (Move ι)) : Session ι := moves.foldl step session

/-- The truth values that moves set in the store of a slot. -/
def setsOn (slot : ι) : Session ι → List (Move ι) → List (String × Bool)
  | _, [] => []
  | session, move :: rest =>
    ((move.actOn? slot).bind (session.holders slot).sets?).toList ++ setsOn slot (session.step move) rest

theorem run_append (session : Session ι) (moves more : List (Move ι)) :
    session.run (moves ++ more) = (session.run moves).run more := List.foldl_append

theorem run_cons (session : Session ι) (move : Move ι) (rest : List (Move ι)) :
    session.run (move :: rest) = (session.step move).run rest := rfl

theorem holders_step_on (session : Session ι) (slot : ι) (act : Act) :
    (session.step (.on slot act)).holders slot = (session.world.run ((session.holders slot).act act)).1 :=
  Function.update_self slot _ _

/-- All other moves leave a slot as it is. -/
theorem holders_step_of_elsewhere {session : Session ι} {slot : ι} {move : Move ι} (h : move.actOn? slot = none) :
    (session.step move).holders slot = session.holders slot := by
  cases move with
  | others disk => rfl
  | on other act =>
    have hne : slot ≠ other := by
      rintro rfl
      simp [Move.actOn?] at h
    exact Function.update_of_ne hne _ _

/-- What is true of all that is held stays so if it is true of what an act leaves. -/
theorem forall_holders_step {session : Session ι} {p : Holder → Prop} {slot : ι} {act : Act}
    (hholders : ∀ slot, p (session.holders slot)) (hact : p (session.world.run ((session.holders slot).act act)).1)
    (other : ι) : p ((session.step (.on slot act)).holders other) := by
  by_cases hother : other = slot
  · rw [hother, holders_step_on]
    exact hact
  · rw [holders_step_of_elsewhere (by simp [Move.actOn?, Ne.symm hother])]
    exact hholders other

/-- What becomes of a slot in a session is a course of the acts on it. -/
theorem course_run (session : Session ι) (slot : ι) (moves : List (Move ι)) :
    (session.holders slot).Course (actsOn slot moves) (session.setsOn slot moves)
      ((session.run moves).holders slot) := by
  induction moves generalizing session with
  | nil => exact .nil _
  | cons move rest ih =>
    have hrest := ih (session.step move)
    rw [actsOn, List.filterMap_cons, setsOn, run_cons]
    cases hmove : move.actOn? slot with
    | none =>
      rw [holders_step_of_elsewhere hmove] at hrest
      exact hrest
    | some act =>
      obtain rfl : move = .on slot act := Move.eq_on_of_actOn? hmove
      rw [holders_step_on] at hrest
      exact .cons session.world hrest

/-- What the moves of a run leave for a record, in their order. -/
def trail {α : Type} (mark? : Session ι → Move ι → Option α) : Session ι → List (Move ι) → List α
  | _, [] => []
  | session, move :: rest => (mark? session move).toList ++ trail mark? (session.step move) rest

variable {α : Type} {mark? : Session ι → Move ι → Option α} {session : Session ι} {moves : List (Move ι)}

theorem trail_append (session : Session ι) (moves more : List (Move ι)) :
    trail mark? session (moves ++ more) = trail mark? session moves ++ trail mark? (session.run moves) more := by
  induction moves generalizing session with
  | nil => rfl
  | cons move rest ih => rw [List.cons_append, trail, ih, trail, List.append_assoc, run_cons]

/-- What ties the last mark of a run to its state at any time, if every move keeps it. -/
theorem run_last {p : Option α → Session ι → Prop} (hfirst : p none session)
    (hstep : ∀ {last before move}, before ++ [move] <+: moves → p last (session.run before) →
      p ((mark? (session.run before) move).or last) ((session.run before).step move)) :
    p (trail mark? session moves).getLast? (session.run moves) := by
  induction moves using List.reverseRecOn with
  | nil => exact hfirst
  | append_singleton before move ih =>
    have hbefore := ih fun hstart => hstep (hstart.trans (List.prefix_append before [move]))
    have hlast := hstep (List.prefix_refl _) hbefore
    have hmark : (mark? (session.run before) move).toList.getLast? = mark? (session.run before) move := by
      cases mark? (session.run before) move <;> rfl
    rw [trail_append, trail, trail, List.append_nil, List.getLast?_append, hmark, run_append]
    exact hlast

end Session

end

end LedSwitch
