import LedSwitch.Proofs.Control.Echoing

/-!
Reading a node whose file has any bytes at all. The bytes up to the first line feed decide what is read
(`Node.readLine_firstLine`); whoever only wants the line finds every failure in the journal instead.
-/

namespace LedSwitch

namespace Node

variable {world world' : World} {path : String} {bytes : List UInt8}

/-- Nothing is read if and only if there is not a byte. -/
theorem readLine_eq_none_iff (hread : world.disk.read path = .ok bytes) :
    (world.run (readLine path)).1 = .ok none ↔ bytes = [] := by
  rw [run_readLine_eq, hread, ← Line.first_eq_nothing_iff]
  simp only
  cases Line.first bytes <;> simp

/-- Reading a file fails if and only if its first line is not well-formed, and that is what the failure says. -/
theorem readLine_eq_error_iff (hread : world.disk.read path = .ok bytes) {failure : Failure} :
    (world.run (readLine path)).1 = .error failure ↔
      failure = .io path .notText ∧ ¬ Utf8.WellFormed (Line.headBytes bytes) := by
  rw [run_readLine_eq, hread, ← Line.first_eq_malformed_iff]
  simp only
  cases Line.first bytes <;> simp [eq_comm]

/-- From well-formed bytes the text is read that is left of them without the line ends behind it. -/
theorem exists_readLine_eq_some (hread : world.disk.read path = .ok bytes) (hbytes : bytes ≠ [])
    (hvalid : Utf8.WellFormed (Line.headBytes bytes)) : ∃ line text, (world.run (readLine path)).1 = .ok (some line) ∧
      Line.headBytes bytes = text.flatMap Utf8.encodeChar ∧ Line.Trims text line.toList ∧ '\n' ∉ line.toList := by
  rw [run_readLine_eq, hread]
  cases hfirst : Line.first bytes with
  | nothing => exact absurd (Line.first_eq_nothing_iff.1 hfirst) hbytes
  | malformed => exact absurd hvalid (Line.first_eq_malformed_iff.1 hfirst)
  | text line =>
    obtain ⟨text, hhead, htrims, hfeed⟩ := Line.exists_of_first_text hfirst
    exact ⟨line, text, by simp only [hfirst], hhead, htrims, hfeed⟩

/-- The first line and no more of it is read, of a file on any machine. -/
theorem readLine_append_lineFeed (before rest rest' : List UInt8)
    (hread : world.disk.read path = .ok (before ++ 10 :: rest))
    (hread' : world'.disk.read path = .ok (before ++ 10 :: rest')) :
    (world'.run (readLine path)).1 = (world.run (readLine path)).1 := by
  rw [run_readLine_eq, run_readLine_eq, hread, hread']
  simp only [Line.first_append_lineFeed before rest rest']

theorem run_readLine_world (path : String) (world : World) :
    world.run (readLine path) = ((world.run (readLine path)).1, world) := by
  rw [run_readLine_eq]

/-- Whoever only wants the line gets it if it could be read. Otherwise there is one record more, with the failure. -/
theorem run_readLine?_eq (path : String) (world : World) :
    world.run (readLine? path) = (match (world.run (readLine path)).1 with
      | .ok line => (line, world)
      | .error failure =>
        (none, ⟨world.disk, world.events ++ [.logged ⟨.error, .node,
          "reading sysfs node failed: " ++ failure.message⟩]⟩)) := by
  rw [readLine?, World.run_bind, run_readLine_world]
  simp only
  cases (world.run (readLine path)).1 <;> rfl

/-- What reading a file tells of its bytes, when `head` are those of the first line. -/
structure Tells (path : String) (bytes head : List UInt8) (answer : Except Failure (Option String)) : Prop where
  nothing : answer = .ok none ↔ bytes = []
  malformed : (∃ cause, answer = .error (.io path cause) ∧ cause.message = "stream did not contain valid UTF-8") ↔
    ¬ Utf8.WellFormed head
  text : bytes ≠ [] → Utf8.WellFormed head → ∃ line ends : String, answer = .ok (some line) ∧
    head = Utf8.encode (line ++ ends) ∧ (∀ c ∈ ends.toList, c = '\n' ∨ c = '\r') ∧
    '\n' ∉ line.toList ∧ line.toList.getLast? ≠ some '\r'

theorem tells_readLine (hread : world.disk.read path = .ok bytes) :
    Tells path bytes (Line.headBytes bytes) (world.run (readLine path)).1 where
  nothing := readLine_eq_none_iff hread
  malformed := by
    constructor
    · rintro ⟨cause, hanswer, -⟩
      exact ((readLine_eq_error_iff hread).1 hanswer).2
    · intro hinvalid
      exact ⟨.notText, (readLine_eq_error_iff hread).2 ⟨rfl, hinvalid⟩, rfl⟩
  text hbytes hvalid := by
    obtain ⟨line, text, hanswer, hhead, ⟨⟨ends, rfl, hends⟩, hlast⟩, hfeed⟩ :=
      exists_readLine_eq_some hread hbytes hvalid
    refine ⟨line, String.ofList ends, hanswer, ?_, fun c hc => ?_, hfeed, fun hreturn => ?_⟩
    · rw [hhead, Utf8.encode, String.toList_append, String.toList_ofList]
    · rw [String.toList_ofList] at hc
      simpa [Line.isEnd] using hends c hc
    · have hnoEnd := hlast '\r' hreturn
      cases hnoEnd

/-- Reading a node leaves the machine as it is. If there is a file of any bytes, it goes by those up to the first line
    feed, that one included: if there are no bytes, nothing is read; if those up to there are not well-formed, it is a
    failure that says so; and otherwise the text of them is read, without the line feeds and carriage returns behind it.
    What follows the first line feed does not matter. Whoever only wants the line gets just that, and nothing and one
    record of it where there is a failure. -/
theorem readLine_firstLine (path : String) (world : World) : ∃ answer, world.run (readLine path) = (answer, world) ∧
    (∀ bytes head, world.disk.read path = .ok bytes → Line.IsHead head bytes → Tells path bytes head answer) ∧
    (∀ before rest rest' (other : World), world.disk.read path = .ok (before ++ 10 :: rest) →
      other.disk.read path = .ok (before ++ 10 :: rest') → other.run (readLine path) = (answer, other)) ∧
    (∀ line, (world.run (readLine? path)).1 = some line ↔ answer = .ok (some line)) ∧
    (∀ line, answer = .ok line → world.run (readLine? path) = (line, world)) ∧
    ∀ failure, answer = .error failure → world.run (readLine? path) = (none, ⟨world.disk, world.events ++
      [.logged ⟨.error, .node, "reading sysfs node failed: " ++ failure.message⟩]⟩) := by
  refine ⟨_, run_readLine_world path world, fun bytes head hread hhead => ?_,
    fun before rest rest' other hread hread' => ?_, ?_⟩
  · obtain rfl := Line.isHead_iff.1 hhead
    exact tells_readLine hread
  · rw [run_readLine_world path other, readLine_append_lineFeed before rest rest' hread hread']
  · rw [run_readLine?_eq]
    cases (world.run (readLine path)).1 with
    | ok line =>
      refine ⟨fun text => by simp, fun other hother => ?_, fun failure hfailure => ?_⟩
      · rw [Except.ok.inj hother]
      · cases hfailure
    | error failure =>
      refine ⟨fun text => by simp, fun other hother => ?_, fun other hother => ?_⟩
      · cases hother
      · rw [Except.error.inj hother]

/-- The bytes behind the line feed begin no character, and there are two carriage returns before it. -/
theorem readLine_firstLine_stray :
    let world := World.mk ⟨[(["n"], .file [0xC3, 0xA9, 13, 13, 10, 0xFF, 0x80])], []⟩ []
    ∃ line ends, world.run (readLine "n") = (.ok (some line), world) ∧
      world.run (readLine? "n") = (some line, world) ∧ [0xC3, 0xA9, 13, 13, 10] = Utf8.encode (line ++ ends) ∧
      line.toList.getLast? ≠ some '\r' := by
  intro world
  obtain ⟨answer, hanswer, htells, -, -, hline?, -⟩ := readLine_firstLine "n" world
  have hhead : Line.IsHead [0xC3, 0xA9, 13, 13, 10] [0xC3, 0xA9, 13, 13, 10, 0xFF, 0x80] := Line.isHead_iff.2 rfl
  have hvalid : Utf8.WellFormed [0xC3, 0xA9, 13, 13, 10] :=
    Utf8.wellFormed_flatMap ['é', '\r', '\r', '\n']
  obtain ⟨line, ends, rfl, hbytes, -, -, hlast⟩ := (htells _ _ rfl hhead).text (by decide) hvalid
  exact ⟨line, ends, hanswer, hline? _ rfl, hbytes, hlast⟩

end Node

end LedSwitch
