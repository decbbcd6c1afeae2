import LedSwitch.Proofs.Session.Checkbox

/-!
What the stores of a session answer. A slot answers what was set last, and before that what it answered in the
beginning (`Holder.Course.getBool_eq`). Slots that were alike in the beginning stay so as long as the same is done with
them, whatever others do to the files and whatever comes of saving (`Holder.Course.alike`). So a store with a file
cannot be told from one in memory that holds the same truth values, nor can their checkboxes (`Session.alike_run`).
-/

namespace LedSwitch

namespace Holder

/-- A store keeps its answers through an act, but for the truth value that the act sets. -/
theorem getBool_act {holder : Holder} {act : Act} (hload : ∀ path, act ≠ .load path) (world : World) (key : String)
    (default : Bool) : (world.run (holder.act act)).1.store.getBool key default =
      ((Keyed.ofPairs (holder.sets? act).toList).get? key).getD (holder.store.getBool key default) := by
  cases holder with
  | free store =>
    cases act with
    | load path => exact absurd rfl (hload path)
    | set name value =>
      rw [run_set]
      rw [sets?, Option.toList_some, Keyed.get?_ofPairs_single]
      refine (Store.getBool_setBool store name value world key default).trans ?_
      split_ifs <;> rfl
    | mount node =>
      rw [run_mount]
      rfl
    | _ => rfl
  | bound control =>
    cases act with
    | press press =>
      obtain ⟨after, world', hrun, hpressed⟩ := run_press control press world
      rw [hrun]
      cases hpressed with
      | inert hinert _ =>
        rw [sets?, if_neg (not_and_or.2 (hinert.imp_right (by simp)))]
        rfl
      | applied hname henabled hsaved _ =>
        rw [sets?, if_pos ⟨hname, henabled⟩, Option.toList_some, Keyed.get?_ofPairs_single]
        refine (Control.getBool_of_save hsaved key default).trans ?_
        split_ifs <;> rfl
    | _ => rfl

/-- A slot answers what was set last at a key, or else what it answered in the beginning. -/
theorem Course.getBool_eq {first last : Holder} {acts : List Act} {sets : List (String × Bool)}
    (h : Course first acts sets last) (hload : ∀ path, .load path ∉ acts) (key : String) (default : Bool) :
    last.store.getBool key default =
      ((Keyed.ofPairs sets).get? key).getD (first.store.getBool key default) := by
  induction h with
  | nil => rfl
  | cons world _ ih =>
    have hfirst := fun path heq => hload path (List.mem_cons.2 (Or.inl heq))
    rw [ih fun path hmem => hload path (List.mem_cons_of_mem _ hmem),
      getBool_act (fun path heq => hfirst path heq.symm), Keyed.get?_ofPairs_append, Option.getD_or]

end Holder

/-- Two checkboxes that cannot be told apart by what they show and what their stores answer. -/
structure Control.Alike (control other : Control) : Prop where
  store : control.store.Alike other.store
  node : control.node = other.node
  isEnabled : control.isEnabled = other.isEnabled
  isChecked : control.isChecked = other.isChecked

/-- Presses on checkboxes that are alike leave them alike, whatever comes of saving. -/
theorem Control.Alike.press {control other : Control} (h : control.Alike other) (press : Press)
    (world world' : World) : (world.run (control.press press)).1.2.Alike (world'.run (other.press press)).1.2 := by
  obtain ⟨after, last, hrun, hpressed⟩ := control.run_press press world
  obtain ⟨after', last', hrun', hpressed'⟩ := other.run_press press world'
  rw [hrun, hrun']
  cases hpressed with
  | inert hinert _ =>
    cases hpressed' with
    | inert => exact h
    | applied hname henabled => simp [hname, h.isEnabled, henabled] at hinert
  | applied hname henabled hsaved _ =>
    cases hpressed' with
    | inert hinert => simp [hname, ← h.isEnabled, henabled] at hinert
    | applied _ _ hsaved' _ =>
      refine ⟨fun key default => ?_, h.node, h.isEnabled, rfl⟩
      rw [getBool_of_save hsaved, getBool_of_save hsaved', h.store key default]

/-- The acts of which it depends on the files what a slot holds afterwards. -/
def Act.Looks : Act → Prop
  | .load _ | .mount _ => True
  | _ => False

namespace Holder

/-- Two slots that cannot be told apart. -/
inductive Alike : Holder → Holder → Prop where
  | free {store other : Store} (h : store.Alike other) : Alike (.free store) (.free other)
  | bound {control other : Control} (h : control.Alike other) : Alike (.bound control) (.bound other)

/-- Slots that are alike stay so when the same is done with both, on whatever machines. -/
theorem Alike.act {holder other : Holder} (h : holder.Alike other) {act : Act} (hact : ¬act.Looks)
    (world world' : World) : (world.run (holder.act act)).1.Alike (world'.run (other.act act)).1 := by
  cases h with
  | free h =>
    cases act with
    | load | mount => exact absurd trivial hact
    | set key value => exact .free (h.setBool key value world world')
    | _ => exact .free h
  | bound h =>
    cases act with
    | load | mount => exact absurd trivial hact
    | press press => exact .bound (h.press press world world')
    | release => exact .free h.store
    | _ => exact .bound h

/-- Checkboxes that are made with stores that are alike are alike, if their node is there for both or for neither. A
    checkbox that was made before stays as it is. -/
theorem Alike.mount {holder other : Holder} (h : holder.Alike other) {node : String} {world world' : World}
    (hnode : world.disk.isPresent node = world'.disk.isPresent node) :
    ∃ control control', (world.run (holder.act (.mount node))).1 = .bound control ∧
      (world'.run (other.act (.mount node))).1 = .bound control' ∧ control.Alike control' := by
  cases h with
  | free h => exact ⟨_, _, run_mount .., run_mount .., ⟨h, rfl, hnode, h Control.key false⟩⟩
  | bound h => exact ⟨_, _, rfl, rfl, h⟩

theorem Alike.store {holder other : Holder} (h : holder.Alike other) : holder.store.Alike other.store := by
  cases h with
  | free h => exact h
  | bound h => exact h.store

/-- Slots that are alike in the beginning are so in the end, if the same was done with both. -/
theorem Course.alike {first other last last' : Holder} {acts : List Act} {sets sets' : List (String × Bool)}
    (h : Course first acts sets last) (h' : Course other acts sets' last') (halike : first.Alike other)
    (hacts : ∀ act ∈ acts, ¬act.Looks) : last.Alike last' := by
  induction h generalizing other sets' with
  | nil =>
    cases h'
    exact halike
  | cons world _ ih =>
    cases h' with
    | cons world' h' =>
      exact ih h' (halike.act (hacts _ List.mem_cons_self) world world') fun act hact =>
        hacts act (List.mem_cons_of_mem _ hact)

end Holder

namespace Session

variable {ι : Type} [DecidableEq ι]

theorem holders_alike {session session' : Session ι} {slot : ι} {moves moves' : List (Move ι)}
    (halike : (session.holders slot).Alike (session'.holders slot)) (hsame : actsOn slot moves = actsOn slot moves')
    (hacts : ∀ act ∈ actsOn slot moves, ¬act.Looks) :
    ((session.run moves).holders slot).Alike ((session'.run moves').holders slot) :=
  (session.course_run slot moves).alike (hsame ▸ session'.course_run slot moves') halike hacts

/-- A store that was loaded from a file answers like one in memory that began with the truth values of the file, as
    long as the same is done with both, whatever comes of saving and whatever others do to the files. Checkboxes that
    are made with the two stores while the files are the same, and pressed alike, then show the same. -/
theorem alike_run {world : World} {path : String} {store : FileStore} {slot : ι} {session session' : Session ι}
    {moves moves' : List (Move ι)} (hload : (world.run (FileStore.load path)).1 = store)
    (hfile : session.holders slot = .free (.file store))
    (hmemory : session'.holders slot = .free (.memory (world.disk.booleans path)))
    (hsame : actsOn slot moves = actsOn slot moves')
    (hsets : ∀ act ∈ actsOn slot moves, ∃ key value, act = .set key value) :
    let after := session.run moves
    let after' := session'.run moves'
    (∀ key default, (after.holders slot).store.getBool key default = (after'.holders slot).store.getBool key default) ∧
      ∀ node presses presses', after.world.disk = after'.world.disk → actsOn slot presses = actsOn slot presses' →
        (∀ act ∈ actsOn slot presses, ∃ press, act = .press press) → ∃ control control',
          ((after.step (.on slot (.mount node))).run presses).holders slot = .bound control ∧
          ((after'.step (.on slot (.mount node))).run presses').holders slot = .bound control' ∧
          control.isEnabled = control'.isEnabled ∧ control.isChecked = control'.isChecked ∧
          ∀ key default, control.store.getBool key default = control'.store.getBool key default := by
  have hbefore : (session.holders slot).Alike (session'.holders slot) := by
    rw [hfile, hmemory, ← hload]
    exact .free (Store.alike_booleans path world)
  have hafter := holders_alike hbefore hsame fun act hact => by
    obtain ⟨key, value, rfl⟩ := hsets act hact
    exact id
  refine ⟨hafter.store, fun node presses presses' hdisk hpresses hmeant => ?_⟩
  -- From where the checkboxes are made on, only presses are done with them, which do not depend on the files.
  have hmeant' : ∀ act ∈ actsOn slot presses, ¬act.Looks ∧ act ≠ .release := by
    intro act hact
    obtain ⟨press, rfl⟩ := hmeant act hact
    exact ⟨id, by simp⟩
  have hrelease : .release ∉ actsOn slot presses := fun hact => (hmeant' _ hact).2 rfl
  obtain ⟨made, made', hmade, hmade', halike⟩ := hafter.mount (congrArg (·.isPresent node) hdisk)
  rw [← holders_step_on] at hmade hmade'
  have hcourse := course_run ((session.run moves).step (.on slot (.mount node))) slot presses
  have hcourse' := course_run ((session'.run moves').step (.on slot (.mount node))) slot presses'
  rw [hmade] at hcourse
  rw [hmade', ← hpresses] at hcourse'
  obtain ⟨control, hcontrol, -⟩ := hcourse.bound hrelease
  obtain ⟨control', hcontrol', -⟩ := hcourse'.bound hrelease
  have hpressed := hcourse.alike hcourse' (.bound halike) fun act hact => (hmeant' act hact).1
  rw [hcontrol, hcontrol'] at hpressed
  cases hpressed with
  | bound h => exact ⟨control, control', hcontrol, hcontrol', h.isEnabled, h.isChecked, h.store⟩

/-- An entry of another type is replaced, and the checkboxes show the same although one file was removed. -/
theorem alike_run_replaced :
    let world : World := ⟨⟨[(["p"], .file (Utf8.encode "a = 1\n")), (["n"], .file [0x31])], []⟩, []⟩
    let session : Session Unit := ⟨fun _ => .free (.file (world.run (FileStore.load "p")).1), world⟩
    let session' : Session Unit := ⟨fun _ => .free (.memory (world.disk.booleans "p")), world⟩
    let moves : List (Move Unit) := [.on () (.set "a" true), .others world.disk]
    let presses : List (Move Unit) := [.others ⟨[], []⟩, .on () (.press (.toggle true))]
    ((session.run moves).holders ()).store.getBool "a" false =
        ((session'.run moves).holders ()).store.getBool "a" false ∧
      ∃ control control',
        (((session.run moves).step (.on () (.mount "n"))).run presses).holders () = .bound control ∧
        (((session'.run moves).step (.on () (.mount "n"))).run [.on () (.press (.toggle true))]).holders () =
          .bound control' ∧ control.isChecked = control'.isChecked := by
  intro world session session' moves presses
  have hfile : session.holders () = .free (.file (world.run (FileStore.load "p")).1) := rfl
  have hmemory : session'.holders () = .free (.memory (world.disk.booleans "p")) := rfl
  have hsets : ∀ act ∈ actsOn () moves, ∃ key value, act = .set key value := by
    simp [moves, actsOn, Move.actOn?]
  have hpresses : ∀ act ∈ actsOn () presses, ∃ press, act = .press press := by
    simp [presses, actsOn, Move.actOn?]
  have hdisk : (session.run moves).world.disk = world.disk := rfl
  have hdisk' : (session'.run moves).world.disk = world.disk := rfl
  obtain ⟨hanswers, hshows⟩ := alike_run rfl hfile hmemory (Eq.refl (actsOn () moves)) hsets
  obtain ⟨control, control', hcontrol, hcontrol', -, hchecked, -⟩ :=
    hshows "n" presses [.on () (.press (.toggle true))] (hdisk.trans hdisk'.symm) rfl hpresses
  exact ⟨hanswers "a" false, control, control', hcontrol, hcontrol', hchecked⟩

end Session

end LedSwitch
