import Mathlib.Tactic.Common
import LedSwitch.Control

/-!
One program on two machines. A relation between the programs of two machines that holds of the same answers, and of two
programs one after the other (`Compositional`), holds of what is written for any machine as soon as it holds of the
operations (`Operational`). A property of the programs of one machine is such a relation, between a program and itself.
-/

namespace LedSwitch

variable {m n : Type → Type} [Monad m] [Monad n]

/-- A relation between the programs of two machines that the same answer has, and that two programs have if their first
    parts have it, and for every answer what follows them. -/
structure Compositional (r : (α : Type) → m α → n α → Prop) : Prop where
  pure {α : Type} (answer : α) : r α (pure answer) (pure answer)
  bind {α β : Type} {program : m α} {program' : n α} {next : α → m β} {next' : α → n β}
    (hprogram : r α program program') (hnext : ∀ answer, r β (next answer) (next' answer)) :
    r β (program >>= next) (program' >>= next')

/-- A compositional relation that every operation has but reading. -/
structure Operational [Machine m] [Machine n] (r : (α : Type) → m α → n α → Prop) : Prop extends Compositional r where
  isPresent (path : String) : r Bool (Machine.isPresent path) (Machine.isPresent path)
  isDirectory (path : String) : r Bool (Machine.isDirectory path) (Machine.isDirectory path)
  overwrite (path : String) (bytes : List UInt8) (durable : Bool) :
    r _ (Machine.overwrite path bytes durable) (Machine.overwrite path bytes durable)
  makeDirectory (path : String) : r _ (Machine.makeDirectory path) (Machine.makeDirectory path)
  tell (event : Event) : r Unit (Machine.tell event) (Machine.tell event)

/-- A relation `q` between programs that read from a path once. After the read, or without it if there is nothing at the
    path, they go on in a way that has the relation `r`. -/
structure ReadsOnce [Machine m] [Machine n] (path : String) (r q : (α : Type) → m α → n α → Prop) : Prop where
  read : q _ (Machine.read path) (Machine.read path)
  bind {α β : Type} {program : m α} {program' : n α} {next : α → m β} {next' : α → n β}
    (hprogram : q α program program') (hnext : ∀ answer, r β (next answer) (next' answer)) :
    q β (program >>= next) (program' >>= next')
  isPresent {α : Type} {next : Bool → m α} {next' : Bool → n α} (hpresent : q α (next true) (next' true))
    (hmissing : r α (next false) (next' false)) :
    q α (Machine.isPresent path >>= next) (Machine.isPresent path >>= next')

variable [Machine m] [Machine n] {r q : (α : Type) → m α → n α → Prop}

namespace Compositional

variable (h : Compositional r) (hlook : ∀ path, r Bool (Machine.isDirectory path) (Machine.isDirectory path))

include h hlook

theorem holds_orDirectory (path : String) (made : Except Cause Unit) :
    r _ (makeDirectories.orDirectory path made) (makeDirectories.orDirectory path made) := by
  cases made with
  | ok => exact h.pure _
  | error cause => exact h.bind (hlook path) fun _ => h.pure _

theorem holds_makeDirectories {paths : List String}
    (hmake : ∀ path ∈ paths, r _ (Machine.makeDirectory path) (Machine.makeDirectory path)) :
    r _ (makeDirectories paths) (makeDirectories paths) := by
  -- The directories above one that cannot be made yet are those that follow it.
  induction paths with
  | nil => exact h.pure _
  | cons path above ih =>
    have hfirst := hmake path List.mem_cons_self
    have habove := ih fun directory hdirectory => hmake directory (List.mem_cons_of_mem path hdirectory)
    rw [makeDirectories, makeDirectories]
    split_ifs with hempty
    · exact h.pure _
    apply h.bind hfirst
    rintro (cause | ⟨⟩)
    · cases cause
      case noEntry =>
        apply h.bind habove
        rintro (cause | ⟨⟩)
        · exact h.pure _
        · exact h.bind hfirst fun again => h.holds_orDirectory hlook path again
      all_goals exact h.holds_orDirectory hlook path _
    · exact h.pure _

/-- Preparing the directory of a file is nothing but looking at directories and making them. -/
theorem holds_prepareDirectory (hmake : ∀ path, r _ (Machine.makeDirectory path) (Machine.makeDirectory path))
    (path : String) : r _ (FileStore.prepareDirectory path) (FileStore.prepareDirectory path) := by
  rw [FileStore.prepareDirectory, FileStore.prepareDirectory]
  cases Path.parent? path with
  | none => exact h.pure _
  | some directory =>
    apply h.bind (h.holds_makeDirectories hlook fun above _ => hmake above)
    rintro (cause | ⟨⟩) <;> exact h.pure _

end Compositional

namespace Operational

variable (h : Operational r)

include h

theorem holds_log (level : Level) (source : Source) (text : String) :
    r _ (log level source text) (log level source text) := h.tell _

theorem holds_save (store : FileStore) : r _ store.save store.save := by
  rw [FileStore.save, FileStore.save]
  split_ifs
  · exact h.pure _
  cases store.contents.toText? with
  | none => exact h.pure _
  | some text =>
    apply h.bind (h.holds_prepareDirectory h.isDirectory h.makeDirectory store.path)
    rintro (failure | ⟨⟩)
    · exact h.pure _
    apply h.bind (h.overwrite store.path _ false)
    rintro (cause | ⟨⟩)
    · exact h.pure _
    · exact h.bind (h.holds_log _ _ _) fun _ => h.pure _

theorem holds_setBool (store : Store) (key : String) (value : Bool) :
    r _ (store.setBool key value) (store.setBool key value) := by
  cases store with
  | memory values => exact h.pure _
  | file store => exact h.bind (h.holds_save (store.withBool key value)) fun _ => h.pure _

theorem holds_write (path value : String) (durable : Bool) :
    r _ (Node.write path value durable) (Node.write path value durable) := by
  apply h.bind (h.overwrite path _ durable)
  rintro (cause | ⟨⟩) <;> exact h.bind (h.holds_log _ _ _) fun _ => h.pure _

theorem holds_new (store : Store) (node : String) : r _ (Control.new store node) (Control.new store node) := by
  apply h.bind (h.isPresent node)
  rintro (_ | _)
  · exact h.bind (h.holds_log _ _ _) fun _ => h.pure _
  · exact h.pure _

theorem holds_apply (control : Control) (checked : Bool) : r _ (control.apply checked) (control.apply checked) := by
  apply h.bind (h.holds_setBool control.store _ checked)
  rintro ⟨failure | ⟨⟩, store⟩
  · exact h.bind (h.holds_log _ _ _) fun _ => h.bind (h.holds_write _ _ _) fun _ => h.pure _
  · exact h.bind (h.holds_write _ _ _) fun _ => h.pure _

theorem holds_click (control : Control) (name : String) (checked : Bool) :
    r _ (control.click name checked) (control.click name checked) := by
  apply h.bind (h.holds_log _ _ _)
  intro
  split_ifs
  · exact h.pure _
  · exact h.bind (h.holds_apply control checked) fun _ => h.pure _

theorem holds_restore (store : Store) (node : String) :
    r _ (Control.restore store node) (Control.restore store node) := by
  apply h.bind (h.isPresent node)
  rintro (_ | _)
  · exact h.pure _
  · apply h.bind (h.holds_write _ _ _)
    rintro (failure | ⟨⟩)
    · exact h.pure _
    · exact h.bind (h.holds_log _ _ _) fun _ => h.pure _

section

variable {path : String}

/-- Where reading is an operation like the others, one read may stand among them. -/
theorem readsOnce (hread : r _ (Machine.read path) (Machine.read path)) : ReadsOnce path r r where
  read := hread
  bind := h.bind
  isPresent hpresent hmissing := by
    apply h.bind (h.isPresent path)
    rintro (_ | _)
    · exact hmissing
    · exact hpresent

variable (hreads : ReadsOnce path r q)

include hreads

theorem holds_load : q _ (FileStore.load path) (FileStore.load path) := by
  have hfile : q _ (FileStore.read path) (FileStore.read path) := by
    refine hreads.isPresent (hreads.bind hreads.read ?_) (h.pure _)
    rintro (cause | bytes)
    · exact h.pure _
    · simp only
      cases Utf8.decode bytes with
      | none => exact h.pure _
      | some text =>
        simp only
        cases Toml.Table.ofText? text <;> exact h.pure _
  apply hreads.bind hfile
  rintro (failure | contents)
  · exact h.bind (h.holds_log _ _ _) fun _ => h.pure _
  · exact h.pure _

theorem holds_readLine? : q _ (Node.readLine? path) (Node.readLine? path) := by
  have hline : q _ (Node.readLine path) (Node.readLine path) := by
    apply hreads.bind hreads.read
    rintro (cause | bytes)
    · exact h.pure _
    · simp only
      cases Line.first bytes <;> exact h.pure _
  apply hreads.bind hline
  rintro (failure | line)
  · exact h.bind (h.holds_log _ _ _) fun _ => h.pure _
  · exact h.pure _

end

end Operational

end LedSwitch
