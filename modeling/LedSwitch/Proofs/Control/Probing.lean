import LedSwitch.Proofs.Control.Failing

/-!
Looking for a node and writing to it go the same way. `Node.Writes` has one case for each way in which a write can end.
A node that is present is written over, and one that is missing is made, as the only new entry
(`Operation.perform_of_probed`); restoring a node writes only where looking found it.
-/

namespace LedSwitch

open FileSystem

namespace FileSystem

variable {fs fs' : FileSystem} {path : String} {location : Location} {bytes : List UInt8}

theorem isPresent_iff : fs.isPresent path = true ↔ ∃ place, fs.resolve .look path = .ok place := by
  rw [isPresent]
  cases fs.resolve .look path with
  | error cause => simp [Except.toBool]
  | ok place => simp [Except.toBool]

/-- A path whose last name is free leads nowhere. -/
theorem isPresent_of_free (hcreate : fs.resolve .create path = .ok ⟨location, none⟩) : fs.isPresent path = false := by
  rw [← Bool.not_eq_true, isPresent_iff]
  rintro ⟨place, hlook⟩
  rw [resolve_eq_ok_iff] at hlook hcreate
  exact hcreate.2.not_look_of_free rfl place hlook.2

/-- Nothing is there or missing that was not so before. -/
def SamePlaces (fs fs' : FileSystem) : Prop := ∀ location, fs'.get? location = none ↔ fs.get? location = none

/-- A tree has one entry more than before, a file, and is the same elsewhere. -/
structure AddsFile (fs fs' : FileSystem) (location : Location) (bytes : List UInt8) : Prop where
  home : fs'.home = fs.home
  free : fs.get? location = none
  file : fs'.get? location = some (.file bytes)
  others : ∀ other, other ≠ location → fs'.get? other = fs.get? other

theorem AddsFile.keeps (h : AddsFile fs fs' location bytes) : Keeps fs fs' := by
  intro other entry hentry
  rw [h.others other, hentry]
  rintro rfl
  cases h.free.symm.trans hentry

/-- New bytes for a file that is found make no place free and take none. -/
theorem samePlaces_put {old : List UInt8} (hlook : fs.resolve .look path = .ok ⟨location, some (.file old)⟩) :
    SamePlaces fs (fs.put location (.file bytes)) := by
  intro other
  obtain ⟨hlocation, hfile⟩ := get?_of_resolve hlook (by simp)
  rw [get?_put fs other _ hlocation]
  split_ifs with hother
  · simp [← hother, hfile]
  · rfl

/-- A file put where a path leads to a free name is one entry more. -/
theorem addsFile_put (hcreate : fs.resolve .create path = .ok ⟨location, none⟩) :
    AddsFile fs (fs.put location (.file bytes)) location bytes := by
  obtain ⟨hlocation, hfree⟩ := get?_of_resolve hcreate (by simp)
  refine ⟨rfl, hfree, ?_, fun other hother => ?_⟩
  · rw [get?_put fs _ _ hlocation, if_pos rfl]
  · rw [get?_put fs _ _ hlocation, if_neg hother.symm]

end FileSystem

/-- The ways in which a write to a path can end. -/
inductive Node.Writes (fs : FileSystem) (path : String) (bytes : List UInt8) :
    Except Failure Unit → FileSystem → Prop where
  | refused (failure : Failure) : Writes fs path bytes (.error failure) fs
  /-- A device took the bytes, and does not keep them. -/
  | swallowed (hdevice : fs.isDevice path = true) : Writes fs path bytes (.ok ()) fs
  | rewritten {location : Location} {old : List UInt8}
      (hlook : fs.resolve .look path = .ok ⟨location, some (.file old)⟩) :
      Writes fs path bytes (.ok ()) (fs.put location (.file bytes))
  | created {location : Location} (habsent : fs.isPresent path = false)
      (hcreate : fs.resolve .create path = .ok ⟨location, none⟩) :
      Writes fs path bytes (.ok ()) (fs.put location (.file bytes))

namespace Node

/-- What is written over was found by looking, and what is made was not. -/
theorem writes_write (path value : String) (durable : Bool) (world : World) :
    Writes world.disk path (Utf8.encode value) (world.run (write path value durable)).1
      (world.run (write path value durable)).2.disk := by
  rw [run_write_eq]
  cases hwritten : world.disk.overwrite path (Utf8.encode value) durable with
  | error cause => exact .refused _
  | ok fs' =>
    obtain ⟨⟨location, found⟩, hcreate, ⟨hnone | ⟨old, hfile⟩, rfl⟩ | ⟨⟨device, hdevice⟩, rfl⟩⟩ :=
      overwrite_eq_ok hwritten
    · obtain rfl : found = none := hnone
      exact .created (isPresent_of_free hcreate) hcreate
    · obtain rfl : found = some (.file old) := hfile
      exact .rewritten (resolve_look_of_create hcreate (by simp))
    · obtain rfl : found = some (.device device) := hdevice
      refine .swallowed ?_
      rw [isDevice, resolve_look_of_create hcreate (by simp)]

theorem Writes.disk_of_ne_ok {fs fs' : FileSystem} {path : String} {bytes : List UInt8} {outcome : Except Failure Unit}
    (h : Writes fs path bytes outcome fs') (houtcome : outcome ≠ .ok ()) : fs' = fs := by
  cases h with
  | refused => rfl
  | _ => exact absurd rfl houtcome

/-- Where something is, a write makes no entry and removes none. What is not a device is written over. -/
theorem Writes.of_present {fs fs' : FileSystem} {path : String} {bytes : List UInt8} {outcome : Except Failure Unit}
    (h : Writes fs path bytes outcome fs') (hpresent : fs.isPresent path = true) :
    SamePlaces fs fs' ∧ (fs.isDevice path = true → fs' = fs) ∧
      (outcome = .ok () → fs.isDevice path = false → ∃ location old,
        fs.resolve .look path = .ok ⟨location, some (.file old)⟩ ∧ fs' = fs.put location (.file bytes)) := by
  cases h with
  | refused failure => exact ⟨fun _ => Iff.rfl, fun _ => rfl, fun hok => by cases hok⟩
  | swallowed hdevice => exact ⟨fun _ => Iff.rfl, fun _ => rfl, fun _ hnone => by simp [hdevice] at hnone⟩
  | rewritten hlook =>
    refine ⟨samePlaces_put hlook, fun hdevice => ?_, fun _ _ => ⟨_, _, hlook, rfl⟩⟩
    simp [isDevice, hlook] at hdevice
  | created habsent => simp [hpresent] at habsent

/-- Where nothing is, a write that succeeds makes a file, which is found from then on. -/
theorem Writes.of_absent {fs fs' : FileSystem} {path : String} {bytes : List UInt8} {outcome : Except Failure Unit}
    (h : Writes fs path bytes outcome fs') (habsent : fs.isPresent path = false) :
    Keeps fs fs' ∧ (outcome = .ok () → ∃ location, AddsFile fs fs' location bytes ∧
      fs'.resolve .look path = .ok ⟨location, some (.file bytes)⟩) := by
  cases h with
  | refused failure => exact ⟨fun _ _ => id, fun hok => by cases hok⟩
  | swallowed hdevice =>
    rw [isDevice] at hdevice
    split at hdevice
    · rename_i hlook
      simp [isPresent_of_resolve hlook] at habsent
    · cases hdevice
  | rewritten hlook => simp [isPresent_of_resolve hlook] at habsent
  | created _ hcreate =>
    have hadds : AddsFile fs _ _ bytes := addsFile_put hcreate
    exact ⟨hadds.keeps, fun _ => ⟨_, hadds, resolve_look_of_put hcreate (Or.inl rfl) bytes⟩⟩

end Node

/-- Restoring a node that is missing does nothing. One that is there is written to. -/
theorem Control.restore_of_probed (store : Store) (node : String) (world : World) :
    SamePlaces world.disk (world.run (restore store node)).2.disk ∧
      ((world.run (restore store node)).1 = .ok false ↔ world.disk.isPresent node = false) ∧
      (world.disk.isPresent node = false → (world.run (restore store node)).2 = world) := by
  rw [run_restore_eq]
  cases hpresent : world.disk.isPresent node with
  | false => exact ⟨fun _ => Iff.rfl, by simp, fun _ => rfl⟩
  | true =>
    have hwrites := Node.writes_write node (Signal.ofChecked (stored store)).text false world
    have hsame := (hwrites.of_present hpresent).1
    rw [if_pos rfl, Node.writeSignal, Node.writeText]
    cases hwritten : world.run (Node.write node (Signal.ofChecked (stored store)).text false) with
    | mk outcome written =>
      rw [hwritten] at hsame
      cases outcome with
      | error failure => exact ⟨hsame, by simp, by simp⟩
      | ok => exact ⟨hsame, by simp, by simp⟩

/-- The path to which an operation writes in any case, and the text that it writes there. -/
def Operation.writing? : Operation → Option (String × String)
  | writeText path value => some (path, value)
  | writeSignal path signal => some (path, signal.text)
  | writeBool path value => some (path, (Signal.ofBool value).text)
  | set _ _ _ | restore _ _ => none

theorem Operation.writes_perform {operation : Operation} {path text : String}
    (hwriting : operation.writing? = some (path, text)) (world : World) :
    Node.Writes world.disk path (Utf8.encode text) (world.run operation.perform).1
      (world.run operation.perform).2.disk := by
  cases operation with
  | writeText =>
    obtain ⟨rfl, rfl⟩ := Prod.mk.inj (Option.some.inj hwriting)
    exact Node.writes_write _ _ false world
  | writeSignal =>
    obtain ⟨rfl, rfl⟩ := Prod.mk.inj (Option.some.inj hwriting)
    exact Node.writes_write _ _ false world
  | writeBool =>
    obtain ⟨rfl, rfl⟩ := Prod.mk.inj (Option.some.inj hwriting)
    exact Node.writes_write _ _ true world
  | set | restore => cases hwriting

/-- A write to a path that leads to something adds no entry and removes none: it fails, is swallowed by a device, or
    gives new bytes to the one file to which the path leads. A write to a path that leads nowhere leaves all entries as
    they are; if it succeeds, there is one more, a file of just that text, and the path leads to it. So restoring a node
    adds nothing, and it answers that the node is missing just when looking says so, without having done anything. -/
theorem Operation.perform_of_probed (world : World) :
    (∀ operation path text outcome world', Operation.writing? operation = some (path, text) →
      world.run operation.perform = (outcome, world') →
        (outcome ≠ .ok () → world'.disk = world.disk) ∧
        (world.disk.isPresent path = true → SamePlaces world.disk world'.disk ∧
          (world.disk.isDevice path = true → world'.disk = world.disk) ∧
          (outcome = .ok () → world.disk.isDevice path = false → ∃ location old,
            world.disk.resolve .look path = .ok ⟨location, some (.file old)⟩ ∧
            world'.disk = world.disk.put location (.file (Utf8.encode text)))) ∧
        (world.disk.isPresent path = false → Keeps world.disk world'.disk ∧
          (outcome = .ok () → ∃ location, AddsFile world.disk world'.disk location (Utf8.encode text) ∧
            world'.disk.isPresent path = true))) ∧
    ∀ store node outcome world', world.run (Control.restore store node) = (outcome, world') →
      SamePlaces world.disk world'.disk ∧ (outcome = .ok false ↔ world.disk.isPresent node = false) ∧
      (world.disk.isPresent node = false → world' = world) := by
  constructor
  · intro operation path text outcome world' hwriting hrun
    have hwrites := Operation.writes_perform hwriting world
    rw [hrun] at hwrites
    refine ⟨hwrites.disk_of_ne_ok, hwrites.of_present, fun habsent => ?_⟩
    obtain ⟨hkeeps, hmade⟩ := hwrites.of_absent habsent
    refine ⟨hkeeps, fun hok => ?_⟩
    obtain ⟨location, hadds, hlook⟩ := hmade hok
    exact ⟨location, hadds, isPresent_of_resolve hlook⟩
  · intro store node outcome world' hrun
    have hprobed := Control.restore_of_probed store node world
    rwa [hrun] at hprobed

/-- The link `l` leads to the name `f`, which is free: restoring what `l` names does nothing, and writing there makes the
    file `f`, to which `l` leads then. -/
theorem Operation.perform_of_probed_link :
    let world := World.mk ⟨[(["l"], .link "f")], []⟩ []
    let operation := Operation.writeText "l" "x"
    world.disk.isPresent "l" = false ∧
      (∃ world', world.run operation.perform = (.ok (), world') ∧ Keeps world.disk world'.disk ∧
        (∃ location, AddsFile world.disk world'.disk location [0x78]) ∧ world'.disk.isPresent "l" = true) ∧
      (world.run (Control.restore (.memory []) "l")).1 = .ok false := by
  intro world operation
  have habsent : world.disk.isPresent "l" = false := by decide +kernel
  have hwritten : world.run operation.perform = (.ok (), _) := rfl
  obtain ⟨hwriting, hrestoring⟩ := perform_of_probed world
  obtain ⟨hkeeps, hmade⟩ := (hwriting operation "l" "x" _ _ rfl hwritten).2.2 habsent
  obtain ⟨location, hadds, hpresent⟩ := hmade rfl
  exact ⟨habsent, ⟨_, hwritten, hkeeps, ⟨location, hadds⟩, hpresent⟩,
    (hrestoring (.memory []) "l" _ _ rfl).2.1.2 habsent⟩

end LedSwitch
