import LedSwitch.Proofs.Control.Probing
import LedSwitch.Proofs.Text.Line

/-!
Reading a node after it was written. Whoever reads goes to the file that was written, wherever the path leads, and finds
the first line of the text that was written (`Node.readLine_of_writeText`).
-/

namespace LedSwitch

open FileSystem

namespace Node

variable {world world' : World} {path value : String} {location : Location}

/-- Reading a node tells the first line of the bytes there, and leaves the machine as it is. -/
theorem run_readLine_eq (path : String) (world : World) :
    world.run (readLine path) = (match world.disk.read path with
      | .error cause => .error (.io path cause)
      | .ok bytes => match Line.first bytes with
        | .nothing => .ok none
        | .malformed => .error (.io path .notText)
        | .text line => .ok (some line), world) := by
  rw [readLine, World.run_bind, World.run_read]
  cases world.disk.read path with
  | error cause => rfl
  | ok bytes =>
    simp only
    cases Line.first bytes <;> rfl

theorem run_readLine {bytes : List UInt8}
    (hlook : world.disk.resolve .look path = .ok ⟨location, some (.file bytes)⟩) :
    world.run (readLine path) = (match Line.first bytes with
      | .nothing => .ok none
      | .malformed => .error (.io path .notText)
      | .text line => .ok (some line), world) := by
  rw [run_readLine_eq, read_of_resolve hlook]

/-- A write that succeeds ends in one file: the one that the path found, or a new one. Nothing else is touched. -/
theorem Writes.file {fs fs' : FileSystem} {bytes : List UInt8} (h : Writes fs path bytes (.ok ()) fs')
    (hdevice : fs.isDevice path = false) : ∃ location, fs'.resolve .look path = .ok ⟨location, some (.file bytes)⟩ ∧
      (∀ place, fs.resolve .look path = .ok place → place.location = location) ∧
      ∀ other, other ≠ location → fs'.get? other = fs.get? other := by
  cases h with
  | swallowed hdevice' => simp [hdevice] at hdevice'
  | @rewritten location old hlook =>
    obtain ⟨hlocation, hfile⟩ := get?_of_resolve hlook (by simp)
    refine ⟨location, ?_, fun place hplace => ?_, fun other hother => ?_⟩
    · rw [resolve_put_file hfile hlook, Place.rewritten_file]
    · rw [Except.ok.inj (hplace.symm.trans hlook)]
    · rw [get?_put fs other _ hlocation, if_neg hother.symm]
  | @created location habsent hcreate =>
    refine ⟨location, resolve_look_of_put hcreate (Or.inl rfl) bytes, fun place hplace => ?_, ?_⟩
    · simp [isPresent_of_resolve hplace] at habsent
    · exact (addsFile_put hcreate).others

/-- After a text was written to a path that leads to no device, the path leads to a file of just that text. If it led to
    something before, it leads to the same place still, and all else is as it was. What is read there is nothing if the
    text is empty, and otherwise the text up to its first line feed, without the line ends there; so a text without line
    ends is read as it is. -/
theorem readLine_of_writeText (hdevice : world.disk.isDevice path = false)
    (hwritten : world.run (writeText path value) = (.ok (), world')) :
    (∃ location, world'.disk.resolve .look path = .ok ⟨location, some (.file (Utf8.encode value))⟩ ∧
        (∀ place, world.disk.resolve .look path = .ok place → place.location = location) ∧
        ∀ other, other ≠ location → world'.disk.get? other = world.disk.get? other) ∧
      (value = "" → world'.run (readLine path) = (.ok none, world')) ∧
      (value ≠ "" → ∃ line, Line.Trims (Line.cut value.toList) line.toList ∧
        world'.run (readLine path) = (.ok (some line), world')) ∧
      (value ≠ "" → '\n' ∉ value.toList → '\r' ∉ value.toList →
        world'.run (readLine path) = (.ok (some value), world')) := by
  have hwrites := writes_write path value false world
  change world.run (write path value false) = _ at hwritten
  rw [hwritten] at hwrites
  obtain ⟨location, hlook, hsame, hothers⟩ := hwrites.file hdevice
  have hread := run_readLine hlook
  rw [Line.first_encode] at hread
  refine ⟨⟨location, hlook, hsame, hothers⟩, fun hempty => ?_, fun hvalue => ?_, fun hvalue hfeed hreturn => ?_⟩
  · rwa [if_pos hempty] at hread
  · rw [if_neg hvalue] at hread
    exact ⟨_, by simpa using Line.trims_trimEnd (Line.cut value.toList), hread⟩
  · have htrims : Line.Trims (Line.cut value.toList) value.toList := by
      rw [Line.cut_of_notMem hfeed]
      exact Line.trims_self fun c hc => ⟨fun heq => hfeed (heq ▸ hc), fun heq => hreturn (heq ▸ hc)⟩
    rwa [if_neg hvalue, ← htrims.eq_trimEnd, String.ofList_toList] at hread

/-- Through a dangling link in another directory, of a text with line ends. -/
theorem readLine_of_writeText_link :
    let world := World.mk ⟨[(["d"], .directory), (["l", "d"], .link "../f")], []⟩ []
    ∃ world' line, world.run (writeText "d/l" "é\r\n1") = (.ok (), world') ∧
      (∃ location, world'.disk.resolve .look "d/l" = .ok ⟨location, some (.file [0xc3, 0xa9, 0x0d, 0x0a, 0x31])⟩) ∧
      Line.Trims ['é', '\r', '\n'] line.toList ∧ world'.run (readLine "d/l") = (.ok (some line), world') := by
  intro world
  have hdevice : world.disk.isDevice "d/l" = false := by decide +kernel
  have hwritten : world.run (writeText "d/l" "é\r\n1") = (.ok (), _) := rfl
  obtain ⟨⟨location, hlook, -, -⟩, -, hread, -⟩ := readLine_of_writeText hdevice hwritten
  obtain ⟨line, htrims, hline⟩ := hread (by decide)
  exact ⟨_, line, hwritten, ⟨location, hlook⟩, htrims, hline⟩

end Node

end LedSwitch
