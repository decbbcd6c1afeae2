import LedSwitch.Proofs.Control.Rebooting
import LedSwitch.Proofs.Session.Basic

/-!
What a node holds while any number of checkboxes and stores are used in any order. Saving a store neither moves the
node's file nor writes to it (`FileStore.Saves.resolve_of_apart`), and whoever tells the node a value replaces all of
its contents. So the node carries the signal for the value that it was told last (`Session.signal_run`).
-/

namespace LedSwitch

open FileSystem

variable {world world' : World} {node : String} {location : Location} {bytes : List UInt8}

/-- A file to which the path of a store does not lead keeps its place and its bytes when the store is saved. -/
theorem FileStore.Saves.resolve_of_apart {store : FileStore} {outcome : Except Failure Unit}
    (h : Saves store world outcome world') (hlook : world.disk.resolve .look node = .ok ⟨location, some (.file bytes)⟩)
    (hapart : ¬world'.disk.FileAt store.path location) :
    world'.disk.resolve .look node = .ok ⟨location, some (.file bytes)⟩ := by
  have hgrown : ∀ {disk}, Grows world.disk disk → disk.resolve .look node = .ok ⟨location, some (.file bytes)⟩ :=
    fun hgrows => resolve_of_keeps hgrows.keeps hgrows.home hlook
  cases h with
  | damaged | unserializable => exact hlook
  | unprepared _ _ _ hprepared | unwritten _ _ hprepared _ => exact hgrown (grows_of_prepared hprepared)
  | @written text prepared _ _ _ hprepared hwritten =>
    have hprepared := hgrown (grows_of_prepared hprepared)
    obtain ⟨place, hplace, ⟨hfound, hput⟩ | ⟨-, hsame⟩⟩ := overwrite_eq_ok hwritten
    · -- The file that was written is found by the path of the store, so it is another one.
      have hne : location ≠ place.location := by
        rintro rfl
        exact hapart ⟨_, hput ▸ resolve_look_of_put hplace hfound _⟩
      rw [hput, resolve_put hplace hfound hprepared, Place.rewritten_of_ne hne]
    · rwa [hsame]

/-- Setting a value moves no file, and writes to none but that of the store. -/
theorem Store.resolve_of_setBool {store changed : Store} {key : String} {value : Bool} {outcome : Except Failure Unit}
    (h : world.run (store.setBool key value) = ((outcome, changed), world'))
    (hlook : world.disk.resolve .look node = .ok ⟨location, some (.file bytes)⟩)
    (hapart : ∀ saved, changed = .file saved → ¬world'.disk.FileAt saved.path location) :
    world'.disk.resolve .look node = .ok ⟨location, some (.file bytes)⟩ := by
  cases store with
  | memory values =>
    obtain ⟨-, rfl⟩ := Prod.mk.inj h
    exact hlook
  | file store =>
    obtain ⟨hsaves, rfl⟩ := saves_of_setBool h
    exact hsaves.resolve_of_apart hlook (hapart _ rfl)

namespace Holder

/-- The value that a node is told by an act: by a press that is meant for the checkbox, the one that the box then
    shows, and when the node is restored, the one that is stored. -/
def tells? : Holder → Act → Option Bool
  | .bound _, .press press => if press.name = Control.key then some press.checked else none
  | holder, .restore _ => some (Control.stored holder.store)
  | _, _ => none

/-- A checkbox, if that is what is held, belongs to the node and reacts. -/
def BoundTo (node : String) : Holder → Prop
  | .free _ => True
  | .bound control => control.node = node ∧ control.isEnabled = true

end Holder

/-- An act that concerns no other node. -/
def Act.Concerns (node : String) : Act → Prop
  | .mount other | .restore other => other = node
  | _ => True

/-- The contents of a node that was told a value, or nothing since it held `first`. -/
def Signal.held (first : List UInt8) : Option Bool → List UInt8
  | none => first
  | some checked => [if checked then 0x30 else 0x31]

theorem Signal.held_or (first : List UInt8) (told last : Option Bool) :
    held (held first last) told = held first (told.or last) := by
  cases told <;> rfl

namespace Holder

/-- A press leaves the node with its signal, if it is meant for the checkbox, and else as it was. -/
theorem resolve_of_pressed {control after : Control} {press : Press} (hcontrol : BoundTo node (.bound control))
    (h : control.Pressed press world after world')
    (hlook : world.disk.resolve .look node = .ok ⟨location, some (.file bytes)⟩)
    (hapart : ∀ saved, after.store = .file saved → ¬world'.disk.FileAt saved.path location) :
    BoundTo node (.bound after) ∧ world'.disk.resolve .look node =
      .ok ⟨location, some (.file (Signal.held bytes (tells? (.bound control) (.press press))))⟩ := by
  obtain ⟨hnode, henabled⟩ := hcontrol
  cases h with
  | inert hinert hdisk =>
    have hname : press.name ≠ Control.key := hinert.resolve_right (by simp [henabled])
    refine ⟨⟨hnode, henabled⟩, ?_⟩
    rw [tells?, if_neg hname, hdisk]
    exact hlook
  | @applied outcome store saved _ hname _ hsaved hdisk =>
    refine ⟨⟨hnode, henabled⟩, ?_⟩
    rw [tells?, if_pos hname]
    -- The press is noted first, which touches no file; then the store is set, and last the node is told.
    rw [Control.save, World.run_bind] at hsaved
    have hkept := Store.resolve_of_setBool hsaved hlook fun kept hstore hfile =>
      hapart kept hstore (hdisk ▸ hfile.overwritten control.node press.signal)
    rw [hnode, overwritten_of_ok (overwrite_of_file hkept press.signal false)] at hdisk
    rw [hdisk, resolve_put_file (get?_of_resolve hkept (by simp)).2 hkept, Place.rewritten_file, Press.signal,
      Signal.encode_text_ofChecked]
    rfl

/-- An act leaves the node with the signal for the value that it was told, and else as it was. -/
theorem resolve_act {holder : Holder} {act : Act} (hholder : holder.BoundTo node) (hact : act.Concerns node)
    (hlook : world.disk.resolve .look node = .ok ⟨location, some (.file bytes)⟩)
    (hapart : ∀ saved, (world.run (holder.act act)).1.store = .file saved →
      ¬(world.run (holder.act act)).2.disk.FileAt saved.path location) :
    (world.run (holder.act act)).1.BoundTo node ∧ (world.run (holder.act act)).2.disk.resolve .look node =
      .ok ⟨location, some (.file (Signal.held bytes (holder.tells? act)))⟩ := by
  have hrestore : ∀ store, (world.run (Control.restore store node)).2.disk.resolve .look node =
      .ok ⟨location, some (.file (Signal.held bytes (some (Control.stored store))))⟩ := by
    intro store
    rw [(Control.run_restore store hlook).2, resolve_put_file (get?_of_resolve hlook (by simp)).2 hlook,
      Place.rewritten_file, Signal.encode_text_ofChecked]
    rfl
  cases holder with
  | free store =>
    cases act with
    | load path =>
      refine ⟨trivial, ?_⟩
      change (world.run (FileStore.load path)).2.disk.resolve .look node = _
      rw [(FileStore.run_load path world).2]
      exact hlook
    | set key value => exact ⟨trivial, Store.resolve_of_setBool rfl hlook hapart⟩
    | mount other =>
      obtain rfl : other = node := hact
      rw [run_mount]
      refine ⟨⟨rfl, isPresent_of_resolve hlook⟩, ?_⟩
      change (world.run (Control.new store other)).2.disk.resolve .look other = _
      rw [(Control.run_new store other world).2]
      exact hlook
    | restore other =>
      obtain rfl : other = node := hact
      exact ⟨trivial, hrestore store⟩
    | press | release => exact ⟨trivial, hlook⟩
  | bound control =>
    cases act with
    | press press =>
      obtain ⟨after, world', hrun, hpressed⟩ := run_press control press world
      rw [hrun] at hapart ⊢
      exact resolve_of_pressed hholder hpressed hlook hapart
    | restore other =>
      obtain rfl : other = node := hact
      exact ⟨hholder, hrestore control.store⟩
    | release => exact ⟨trivial, hlook⟩
    | load | set | mount => exact ⟨hholder, hlook⟩

end Holder

namespace Session

variable {ι : Type} [DecidableEq ι]

/-- The value that a node is told by a move. -/
def tells? (session : Session ι) : Move ι → Option Bool
  | .on slot act => (session.holders slot).tells? act
  | .others _ => none

/-- The values that the node was told, in their order. -/
def told (session : Session ι) (moves : List (Move ι)) : List Bool := trail tells? session moves

/-- A node that is there carries, after each move, the signal for the value that it was told last, in whatever order
    checkboxes of the node are pressed, stores are opened and set, and the node is restored, and whatever comes of
    saving. No store may be that of the node's own file at any time. -/
theorem signal_run {session : Session ι} {node : String} {location : Location} {bytes : List UInt8}
    {moves done : List (Move ι)}
    (hnode : session.world.disk.resolve .look node = .ok ⟨location, some (.file bytes)⟩)
    (hbound : ∀ slot, (session.holders slot).BoundTo node)
    (hmoves : ∀ move ∈ moves, ∃ slot act, move = .on slot act ∧ act.Concerns node)
    (hapart : ∀ before, before <+: moves → ∀ slot store, ((session.run before).holders slot).store = .file store →
      ¬(session.run before).world.disk.FileAt store.path location) (hdone : done <+: moves) :
    (session.run done).world.disk.resolve .look node = .ok ⟨location, some (.file
      (match (session.told done).getLast? with
        | none => bytes
        | some checked => [if checked then 0x30 else 0x31]))⟩ := by
  let Carries (last : Option Bool) (session : Session ι) : Prop := (∀ slot, (session.holders slot).BoundTo node) ∧
    session.world.disk.resolve .look node = .ok ⟨location, some (.file (Signal.held bytes last))⟩
  have hcarries : Carries (session.told done).getLast? (session.run done) := by
    apply run_last (p := Carries) ⟨hbound, hnode⟩
    rintro last before move hstart ⟨hholders, hlook⟩
    have hbefore := hstart.trans hdone
    obtain ⟨slot, act, rfl, hact⟩ := hmoves move (hbefore.subset (by simp))
    have happart := hapart _ hbefore slot
    rw [run_append] at happart
    change ∀ store, (((session.run before).step (.on slot act)).holders slot).store = .file store → _ at happart
    rw [holders_step_on] at happart
    obtain ⟨hholder, htold⟩ := Holder.resolve_act (hholders slot) hact hlook happart
    rw [Signal.held_or] at htold
    exact ⟨forall_holders_step hholders hholder, htold⟩
  obtain ⟨-, hlook⟩ := hcarries
  rw [hlook]
  cases (session.told done).getLast? <;> rfl

/-- A checkbox that cannot save what it is set to still tells the node, and so does another store after it. -/
theorem signal_run_restored :
    let session : Session Bool := ⟨fun slot => .free (if slot then .memory [("charging_led", true)] else
      .file ⟨"p", [], true⟩), ⟨⟨[(["n"], .file [0x78, 0x0a])], []⟩, []⟩⟩
    let pressed := [.on false (.mount "n"), .on false (.press (.toggle false))]
    (session.run pressed).world.disk.resolve .look "n" = .ok ⟨["n"], some (.file [0x31])⟩ ∧
      (session.run (pressed ++ [.on true (.restore "n")])).world.disk.resolve .look "n" =
        .ok ⟨["n"], some (.file [0x30])⟩ := by
  intro session pressed
  have hbound : ∀ slot, (session.holders slot).BoundTo "n" := fun slot => trivial
  have hmoves : ∀ move ∈ pressed ++ [.on true (.restore "n")], ∃ slot act, move = .on slot act ∧ act.Concerns "n" := by
    simp [pressed, Act.Concerns]
  have hapart : ∀ before, before <+: pressed ++ [.on true (.restore "n")] → ∀ slot store,
      ((session.run before).holders slot).store = .file store →
      ¬(session.run before).world.disk.FileAt store.path ["n"] := by
    intro before hbefore slot store hstore ⟨bytes, hlook⟩
    simp only [pressed, List.cons_append, List.nil_append, List.prefix_cons_iff, List.prefix_nil] at hbefore
    cases slot with
    | true => obtain rfl | ⟨_, rfl, rfl | ⟨_, rfl, rfl | ⟨_, rfl, rfl⟩⟩⟩ := hbefore <;> cases hstore
    | false =>
      have hplace : store.path = "p" ∧ (session.run before).world.disk.resolve .look "p" = .error .noEntry := by
        obtain rfl | ⟨_, rfl, rfl | ⟨_, rfl, rfl | ⟨_, rfl, rfl⟩⟩⟩ := hbefore <;> cases hstore <;>
          exact ⟨rfl, by decide +kernel⟩
      rw [hplace.1, hplace.2] at hlook
      cases hlook
  exact ⟨signal_run rfl hbound hmoves hapart (List.prefix_append _ _),
    signal_run rfl hbound hmoves hapart (List.prefix_refl _)⟩

end Session

end LedSwitch
