import LedSwitch.Proofs.Control.Pressing

/-!
The switch survives a restart. What the last press stored is read again afterwards, whatever the node holds by then,
and told to the node (`Control.restore_reset`).
-/

namespace LedSwitch

open FileSystem

namespace FileSystem

variable {fs : FileSystem} {path : String}

theorem preferences_of_text {location : Location} {text : String} {table : Toml.Table}
    (hlook : fs.resolve .look path = .ok ⟨location, some (.file (Utf8.encode text))⟩)
    (htable : Toml.Table.ofText? text = some table) : fs.preferences path = .ok table := by
  obtain ⟨found, hfound, hpreferences⟩ | ⟨hnone, -⟩ :=
    preferences_of_read (isPresent_of_resolve hlook) (read_of_resolve hlook)
  · rw [Utf8.decode_encode, Option.bind_some, htable] at hfound
    rwa [Option.some.inj hfound]
  · rw [Utf8.decode_encode, Option.bind_some, htable] at hnone
    cases hnone

end FileSystem

/-- A file stays where it is when a store is saved. -/
theorem FileStore.Saves.fileAt {store : FileStore} {world world' : World} {outcome : Except Failure Unit}
    {path : String} {location : Location} (h : Saves store world outcome world')
    (hfile : world.disk.FileAt path location) : world'.disk.FileAt path location := by
  cases h with
  | damaged | unserializable => exact hfile
  | unprepared _ _ _ hprepared | unwritten _ _ hprepared _ => exact hfile.of_grows (grows_of_prepared hprepared)
  | written _ _ hprepared hwritten =>
    exact overwritten_of_ok hwritten ▸ (hfile.of_grows (grows_of_prepared hprepared)).overwritten store.path _

theorem FileStore.Saves.resolve {store : FileStore} {world world' : World} (h : Saves store world (.ok ()) world')
    (hdevice : world'.disk.isDevice store.path = false) : ∃ text place, store.contents.toText? = some text ∧
      world'.disk.resolve .look store.path = .ok ⟨place, some (.file (Utf8.encode text))⟩ := by
  obtain ⟨text, htext, -, hread⟩ := read_of_saves h hdevice
  obtain ⟨place, hplace⟩ := resolve_of_read hread hdevice
  exact ⟨text, place, htext, hplace⟩

namespace Control

section

variable {m : Type → Type} [Monad m] [Machine m]

/-- Makes the checkbox with the preferences of a file. -/
def ofFile (path node : String) : m Control := do
  new (.file (← FileStore.load path)) node

/-- Tells the node the value that is stored in a file. -/
def restoreFromFile (path node : String) : m (Except Failure Bool) := do
  restore (.file (← FileStore.load path)) node

end

variable {control shown : Control} {press : Press} {world world' : World} {path node : String} {location : Location}

/-- A checkbox that reacts and holds the truth values of a file, fit to be saved. -/
structure Ready (path node : String) (control : Control) : Prop where
  node : control.node = node
  isEnabled : control.isEnabled = true
  store : ∃ table : Toml.Table, control.store = .file ⟨path, table, false⟩ ∧ table.Booleans ∧ Keyed.Ordered table

/-- What a press on a ready checkbox saves is a table of truth values again. -/
theorem Ready.save {saved : World} {outcome : Except Failure Unit} {store : Store} (h : Ready path node control)
    (hsaved : world.run (control.save press) = ((outcome, store), saved)) :
    ∃ table : Toml.Table, store = .file ⟨path, table, false⟩ ∧ table.Booleans ∧ Keyed.Ordered table ∧
      ∃ noted, noted.disk = world.disk ∧ FileStore.Saves ⟨path, table, false⟩ noted outcome saved := by
  obtain ⟨table, hstore, hbooleans, hordered⟩ := h.store
  rw [Control.save, World.run_bind, hstore] at hsaved
  obtain ⟨hsaves, rfl⟩ := Store.saves_of_setBool hsaved
  exact ⟨_, rfl, hbooleans.insert key press.checked, Keyed.insert_ordered key _ hordered,
    (world.run (log .warn .control ("key: " ++ press.name))).2, rfl, hsaves⟩

/-- A press leaves a checkbox ready, and every file where it is. -/
theorem Ready.pressed (h : Ready path node control) (hpressed : Pressed control press world shown world') :
    Ready path node shown ∧
      ∀ {other location}, world.disk.FileAt other location → world'.disk.FileAt other location := by
  cases hpressed with
  | inert _ hdisk => exact ⟨h, fun hfile => hdisk ▸ hfile⟩
  | applied _ _ hsaved hdisk =>
    obtain ⟨table, rfl, hbooleans, hordered, noted, hnoted, hsaves⟩ := h.save hsaved
    refine ⟨⟨h.node, h.isEnabled, table, rfl, hbooleans, hordered⟩, fun hfile => ?_⟩
    rw [hdisk]
    exact (hsaves.fileAt (hnoted ▸ hfile)).overwritten control.node press.signal

theorem Ready.pressEach {presses : List Press} (h : Ready path node control)
    (hpresses : world.run (control.pressEach presses) = (shown, world')) :
    Ready path node shown ∧
      ∀ {other location}, world.disk.FileAt other location → world'.disk.FileAt other location := by
  induction presses generalizing control world with
  | nil =>
    obtain ⟨rfl, rfl⟩ := Prod.mk.inj hpresses
    exact ⟨h, id⟩
  | cons press rest ih =>
    rw [Control.pressEach, World.run_bind] at hpresses
    obtain ⟨hready, hfiles⟩ := h.pressed (pressed_press control press world)
    obtain ⟨hready', hfiles'⟩ := ih hready hpresses
    exact ⟨hready', fun hfile => hfiles' (hfiles hfile)⟩

theorem disk_pressEach_of_others (control : Control) {others : List Press}
    (hothers : ∀ other ∈ others, other.name ≠ key) (world : World) : (world.run (control.pressEach others)).2.disk = world.disk := by
  induction others generalizing control world with
  | nil => rfl
  | cons other rest ih =>
    have hrest := fun control => ih control fun next hnext => hothers next (List.mem_cons_of_mem _ hnext)
    rw [pressEach, World.run_bind, hrest]
    obtain ⟨after, world', hrun, hpressed⟩ := control.run_press other world
    rw [hrun]
    cases hpressed with
    | inert _ hdisk => exact hdisk
    | applied hname => exact absurd hname (hothers other List.mem_cons_self)

/-- A checkbox that is made with the preferences of a file shows what is stored there. Making it changes no file. -/
theorem run_ofFile (path node : String) (world : World) :
    (world.run (ofFile path node)).1 = ⟨.file (world.run (FileStore.load path)).1, node, world.disk.isPresent node,
        stored (.file (world.run (FileStore.load path)).1)⟩ ∧
      (world.run (ofFile path node)).2.disk = world.disk := by
  obtain ⟨-, hdisk⟩ := FileStore.run_load path world
  obtain ⟨hnew, hsame⟩ := run_new (.file (world.run (FileStore.load path)).1) node (world.run (FileStore.load path)).2
  rw [hdisk] at hnew hsame
  rw [ofFile, World.run_bind]
  exact ⟨hnew, hsame⟩

theorem run_restore {old : List UInt8} (store : Store)
    (hnode : world.disk.resolve .look node = .ok ⟨location, some (.file old)⟩) :
    (world.run (restore store node)).1 = .ok true ∧
      (world.run (restore store node)).2.disk =
        world.disk.put location (.file (Utf8.encode (Signal.ofChecked (stored store)).text)) := by
  have hwritten := overwrite_of_file hnode (Utf8.encode (Signal.ofChecked (stored store)).text) false
  rw [run_restore_eq, if_pos (isPresent_of_resolve hnode), Node.writeSignal, Node.writeText, Node.run_write_eq, hwritten]
  exact ⟨rfl, rfl⟩

theorem ready_ofFile (hfile : world.disk.HoldsBooleans path) (hnode : world.disk.FileAt node location) :
    Ready path node (world.run (ofFile path node)).1 := by
  obtain ⟨table, hpreferences, hbooleans⟩ := hfile.preferences
  obtain ⟨bytes, hlook⟩ := hnode
  have hordered : Keyed.Ordered table := (everywhere_of_preferences Toml.parsed_keysOrdered hpreferences).self
  rw [(run_ofFile path node world).1, (FileStore.run_load path world).1, hpreferences]
  exact ⟨rfl, isPresent_of_resolve hlook, table, rfl, hbooleans, hordered⟩

/-- The preferences are in a file other than the node, and the value for the checkbox is among them. -/
structure Settled (path node : String) (location : Location) (checked : Bool) (fs : FileSystem) : Prop where
  node : fs.FileAt node location
  stored : ∃ table, stored (.file ⟨path, table, false⟩) = checked ∧ ∃ place text, place ≠ location ∧
    fs.resolve .look path = .ok ⟨place, some (.file (Utf8.encode text))⟩ ∧ Toml.Table.ofText? text = some table

namespace Settled

variable {checked : Bool} {fs : FileSystem}

/-- Whatever the node holds, the preferences stay. -/
theorem put (h : Settled path node location checked fs) (bytes : List UInt8) :
    Settled path node location checked (fs.put location (.file bytes)) ∧
      (fs.put location (.file bytes)).resolve .look node = .ok ⟨location, some (.file bytes)⟩ := by
  obtain ⟨⟨old, hnode⟩, table, hstored, place, text, hne, hlook, htable⟩ := h
  have hfile := (get?_of_resolve hnode (by simp)).2
  have hnode' := resolve_put_file hfile hnode bytes
  have hlook' := resolve_put_file hfile hlook bytes
  rw [Place.rewritten_file] at hnode'
  rw [Place.rewritten_of_ne hne] at hlook'
  exact ⟨⟨⟨bytes, hnode'⟩, table, hstored, place, text, hne, hlook', htable⟩, hnode'⟩

theorem stored_load (h : Settled path node location checked world.disk) :
    Control.stored (.file (world.run (FileStore.load path)).1) = checked := by
  obtain ⟨-, table, hstored, place, text, -, hlook, htable⟩ := h
  rwa [(FileStore.run_load path world).1, preferences_of_text hlook htable]

theorem isChecked_ofFile (h : Settled path node location checked world.disk) :
    (world.run (ofFile path node)).1.isChecked = checked := by
  rw [(run_ofFile path node world).1]
  exact h.stored_load

/-- The node is told the value, and no other file is touched. -/
theorem run_restoreFromFile (h : Settled path node location checked world.disk) :
    (world.run (restoreFromFile path node)).1 = .ok true ∧
      (world.run (restoreFromFile path node)).2.disk =
        world.disk.put location (.file [if checked then 0x30 else 0x31]) := by
  obtain ⟨old, hnode⟩ := h.node
  obtain ⟨-, hdisk⟩ := FileStore.run_load path world
  rw [← hdisk] at hnode
  have hrestored := run_restore (.file (world.run (FileStore.load path)).1) hnode
  rw [h.stored_load, hdisk, Signal.encode_text_ofChecked] at hrestored
  rw [restoreFromFile, World.run_bind]
  exact hrestored

end Settled

/-- A press that was saved leaves its value in the file of the preferences, if that is not the node. -/
theorem settled_of_pressed (hready : Ready path node control) (hnode : world.disk.FileAt node location)
    (hpressed : Pressed control press world shown world') (hname : press.name = key)
    (hsaved : (world.run (control.save press)).1.1 = .ok ()) (hdevice : world'.disk.isDevice path = false)
    (hapart : ¬world'.disk.FileAt path location) : Settled path node location press.checked world'.disk := by
  cases hpressed with
  | inert hinert => simp [hname, hready.isEnabled] at hinert
  | @applied outcome store saved _ _ _ hsave hdisk =>
    rw [hsave] at hsaved
    obtain rfl : outcome = .ok () := hsaved
    obtain ⟨table, rfl, hbooleans, hordered, noted, hnoted, hsaves⟩ := hready.save hsave
    obtain ⟨old, hlook⟩ := hsaves.fileAt (hnoted ▸ hnode)
    rw [hready.node] at hdisk
    -- Telling the node moves no file, so the two paths led apart before, when the preferences were saved.
    have hbefore : ¬saved.disk.FileAt path location := fun hfile =>
      hapart (hdisk ▸ hfile.overwritten node press.signal)
    rw [overwritten_of_ok (overwrite_of_file hlook press.signal false)] at hdisk
    rw [hdisk] at hdevice ⊢
    obtain ⟨text, place, htext, hplace⟩ :=
      hsaves.resolve (isDevice_of_put_file (get?_of_resolve hlook (by simp)).2 hdevice)
    obtain ⟨text', htext', htable⟩ := hbooleans.ofText?_toText? hordered
    obtain rfl : text = text' := Option.some.inj (htext.symm.trans htext')
    have hne : place ≠ location := by
      rintro rfl
      exact hbefore ⟨_, hplace⟩
    have hstored : Control.stored (.file ⟨path, table, false⟩) = press.checked :=
      (getBool_of_save hsave key false).trans (if_pos rfl)
    have hsettled : Settled path node location press.checked saved.disk :=
      ⟨⟨old, hlook⟩, table, hstored, place, text, hne, hplace, htable⟩
    exact (hsettled.put press.signal).1

/-- After a restart, when the node may hold anything, it is told the value of the last press that was meant for the
    checkbox and was saved, and no other file is touched. A checkbox that is made anew shows that value. Before the
    presses the preferences are missing or hold truth values only, and in the end they lead neither to a device nor to
    the node. -/
theorem restore_reset {opened before after reboot : World} {pressed : Control} {reset : List UInt8}
    {presses others : List Press} (hfile : world.disk.HoldsBooleans path) (hnode : world.disk.FileAt node location)
    (hopened : world.run (ofFile path node) = (control, opened))
    (hbefore : opened.run (control.pressEach presses) = (shown, before))
    (hafter : before.run (shown.pressEach (press :: others)) = (pressed, after)) (hname : press.name = key)
    (hothers : ∀ other ∈ others, other.name ≠ key) (hsaved : (before.run (shown.save press)).1.1 = .ok ())
    (hdevice : after.disk.isDevice path = false) (hapart : ¬after.disk.FileAt path location)
    (hreboot : reboot.disk = after.disk.put location (.file reset)) :
    let restored := reboot.run (restoreFromFile path node)
    restored.1 = .ok true ∧ restored.2.disk.read node = .ok [if press.checked then 0x30 else 0x31] ∧
      (∀ other, other ≠ location → restored.2.disk.get? other = reboot.disk.get? other) ∧
      (reboot.run (ofFile path node)).1.isChecked = press.checked ∧
      (restored.2.run (ofFile path node)).1.isChecked = press.checked := by
  have hready := ready_ofFile hfile hnode
  have hdisk := (run_ofFile path node world).2
  rw [hopened] at hready hdisk
  obtain ⟨hready', hfiles⟩ := hready.pressEach hbefore
  -- The presses that follow the last one that counts are without effect, so its end is the end of all.
  have hpressed := shown.pressed_press press before
  rw [pressEach, World.run_bind] at hafter
  have hrest := disk_pressEach_of_others (before.run (shown.press press)).1.2 hothers (before.run (shown.press press)).2
  rw [hafter] at hrest
  rw [hrest] at hdevice hapart hreboot
  have hsettled := settled_of_pressed hready' (hfiles (hdisk ▸ hnode)) hpressed hname hsaved hdevice hapart
  -- The reset and the restored node are both other contents of the node, which leave the value where it is.
  obtain ⟨hreset, hresetNode⟩ := hsettled.put reset
  rw [← hreboot] at hreset hresetNode
  obtain ⟨hrestored, hrestoredDisk⟩ := hreset.run_restoreFromFile
  obtain ⟨hagain, hagainNode⟩ := hreset.put [if press.checked then 0x30 else 0x31]
  rw [← hrestoredDisk] at hagain hagainNode
  refine ⟨hrestored, ?_, fun other hother => ?_, hreset.isChecked_ofFile, hagain.isChecked_ofFile⟩
  · exact read_of_resolve hagainNode
  · rw [hrestoredDisk, get?_put _ _ _ (get?_of_resolve hresetNode (by simp)).1, if_neg hother.symm]

/-- A file that was missing is made by the first press, and the second one counts, although the node was reset. -/
theorem restore_reset_missing :
    let opened := (World.mk ⟨[(["n"], .file [0x31])], []⟩ []).run (ofFile "p" "n")
    let before := opened.2.run (opened.1.pressEach [.toggle false])
    let after := before.2.run (before.1.pressEach [.click "charging_led" true, .click "vibration" false])
    let restored := World.run ⟨after.2.disk.put ["n"] (.file [0x78, 0x0a]), []⟩ (restoreFromFile "p" "n")
    restored.1 = .ok true ∧ restored.2.disk.read "n" = .ok [0x30] ∧
      (restored.2.run (ofFile "p" "n")).1.isChecked = true := by
  have hrun : ∀ (world : World) (opened before after : Control × World), world.disk.HoldsBooleans "p" →
      world.disk.FileAt "n" ["n"] → world.run (ofFile "p" "n") = opened →
      opened.2.run (opened.1.pressEach [.toggle false]) = before →
      before.2.run (before.1.pressEach [.click "charging_led" true, .click "vibration" false]) = after →
      (before.2.run (before.1.save (.click "charging_led" true))).1.1 = .ok () →
      after.2.disk.isDevice "p" = false →
      (after.2.disk.resolve .look "p").toOption.map Place.location = some ["p"] →
      let restored := World.run ⟨after.2.disk.put ["n"] (.file [0x78, 0x0a]), []⟩ (restoreFromFile "p" "n")
      restored.1 = .ok true ∧ restored.2.disk.read "n" = .ok [0x30] ∧
        (restored.2.run (ofFile "p" "n")).1.isChecked = true := by
    rintro world ⟨control, opened⟩ ⟨shown, before⟩ ⟨pressed, after⟩ hfile hnode hopened hbefore hafter hsaved hdevice
      hplace
    have hapart : ¬after.disk.FileAt "p" ["n"] := by
      rintro ⟨bytes, hlook⟩
      simp [hlook, Except.toOption] at hplace
    have hreboot : (World.mk (after.disk.put ["n"] (.file [0x78, 0x0a])) []).disk =
        after.disk.put ["n"] (.file [0x78, 0x0a]) := rfl
    obtain ⟨hrestored, hread, -, -, hchecked⟩ := restore_reset hfile hnode hopened hbefore hafter rfl
      (by simp [Press.name, key]) hsaved hdevice hapart hreboot
    exact ⟨hrestored, hread, hchecked⟩
  exact hrun _ _ _ _ (Or.inl rfl) ⟨[0x31], rfl⟩ rfl rfl rfl rfl (by decide +kernel) (by decide +kernel)

end Control

end LedSwitch
