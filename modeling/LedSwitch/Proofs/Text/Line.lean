import Mathlib.Data.List.TakeWhile
import LedSwitch.Proofs.Text.WellFormed
import LedSwitch.Text.Line

/-!
The first line of the bytes of a text. Line feeds are found among the bytes where they stand among the characters, so
what is read is the text up to its first line feed (`Line.cut`), without the line ends there (`Line.first_encode`). Of
any other bytes, those up to the first line feed decide alone (`Line.IsHead`, `Line.exists_of_first_text`).
-/

namespace LedSwitch

namespace Utf8

/-- The line feed is a byte of no other character. -/
theorem lineFeed_notMem_encodeChar {c : Char} (h : c ≠ '\n') : 10 ∉ encodeChar c := by
  have hne : c.toNat ≠ 10 := fun htoNat => h (by rw [← Char.ofNat_toNat c, htoNat])
  have hvalid := toNat_valid c
  rw [encodeChar]
  split_ifs <;> simp [← UInt8.toNat_inj] <;> omega

end Utf8

namespace Line

/-- A text up to and including its first line feed, or all of it if it has none. -/
def cut : List Char → List Char
  | [] => []
  | c :: rest => if c = '\n' then [c] else c :: cut rest

theorem cut_of_notMem {text : List Char} (h : '\n' ∉ text) : cut text = text := by
  induction text with
  | nil => rfl
  | cons c rest ih =>
    rw [List.mem_cons, not_or] at h
    rw [cut, if_neg (Ne.symm h.1), ih h.2]

theorem cut_append_lineFeed {line : List Char} (h : '\n' ∉ line) (rest : List Char) :
    cut (line ++ '\n' :: rest) = line ++ ['\n'] := by
  induction line with
  | nil => rfl
  | cons c line ih =>
    rw [List.mem_cons, not_or] at h
    rw [List.cons_append, cut, if_neg (Ne.symm h.1), ih h.2, List.cons_append]

/-- What is left of a text when all line feeds and carriage returns at its end are taken away. -/
structure Trims (text line : List Char) : Prop where
  ends : ∃ ends, text = line ++ ends ∧ ∀ c ∈ ends, isEnd c = true
  last : ∀ c ∈ line.getLast?, isEnd c = false

theorem trims_trimEnd (text : List Char) : Trims text (trimEnd text) := by
  refine ⟨⟨(text.reverse.takeWhile isEnd).reverse, ?_, fun c hc => ?_⟩, fun c hc => ?_⟩
  · rw [trimEnd, ← List.reverse_append, List.takeWhile_append_dropWhile, List.reverse_reverse]
  · exact List.mem_takeWhile_imp (List.mem_reverse.1 hc)
  · rw [trimEnd, List.getLast?_reverse] at hc
    have hhead := List.head?_dropWhile_not isEnd text.reverse
    rw [Option.mem_def.1 hc] at hhead
    simpa using hhead

/-- A text without line ends is left as it is. -/
theorem trims_self {text : List Char} (h : ∀ c ∈ text, c ≠ '\n' ∧ c ≠ '\r') : Trims text text := by
  refine ⟨⟨[], (List.append_nil text).symm, by simp⟩, fun c hc => ?_⟩
  simpa [isEnd] using h c (List.mem_of_getLast? hc)

/-- There is only one text that is left. -/
theorem Trims.eq_trimEnd {text line : List Char} (h : Trims text line) : line = trimEnd text := by
  obtain ⟨ends, rfl, hends⟩ := h.ends
  have hline : line.reverse.dropWhile isEnd = line.reverse := by
    cases hlast : line.reverse with
    | nil => rfl
    | cons c rest =>
      have hc : isEnd c = false := h.last c (by rw [← List.head?_reverse, hlast]; rfl)
      rw [List.dropWhile_cons_of_neg (by simp [hc])]
  rw [trimEnd, List.reverse_append, List.dropWhile_append_of_pos (by simpa using hends), hline, List.reverse_reverse]

theorem headBytes_append_of_notMem {bytes : List UInt8} (h : 10 ∉ bytes) (more : List UInt8) :
    headBytes (bytes ++ more) = bytes ++ headBytes more := by
  induction bytes with
  | nil => rfl
  | cons b rest ih =>
    rw [List.mem_cons, not_or] at h
    rw [List.cons_append, headBytes, if_neg (Ne.symm h.1), ih h.2, List.cons_append]

/-- The bytes of a text up to its first line feed are the first ones up to a line feed. -/
theorem headBytes_encode (text : List Char) :
    headBytes (text.flatMap Utf8.encodeChar) = (cut text).flatMap Utf8.encodeChar := by
  induction text with
  | nil => rfl
  | cons c rest ih =>
    rw [List.flatMap_cons, cut]
    by_cases hc : c = '\n'
    · subst hc
      rfl
    · rw [if_neg hc, headBytes_append_of_notMem (Utf8.lineFeed_notMem_encodeChar hc), ih, List.flatMap_cons]

/-- A text that was written is read as its first line. -/
theorem first_encode (text : String) :
    first (Utf8.encode text) = if text = "" then .nothing else .text (String.ofList (trimEnd (cut text.toList))) := by
  by_cases hempty : text = ""
  · rw [if_pos hempty, hempty]
    rfl
  · have hbytes : ¬ (Utf8.encode text).isEmpty = true := by
      intro hnil
      have hread := Utf8.decode_encode text
      rw [List.isEmpty_iff.1 hnil] at hread
      exact hempty (Option.some.inj hread).symm
    rw [if_neg hempty, first, if_neg hbytes, Utf8.encode, headBytes_encode, Utf8.decodeChars_flatMap]

/-- The bytes up to and including the first line feed, or all of them if there is none. -/
inductive IsHead : List UInt8 → List UInt8 → Prop where
  | all {bytes : List UInt8} (h : 10 ∉ bytes) : IsHead bytes bytes
  | line {line : List UInt8} (h : 10 ∉ line) (rest : List UInt8) : IsHead (line ++ [10]) (line ++ 10 :: rest)

theorem headBytes_append_lineFeed {line : List UInt8} (h : 10 ∉ line) (rest : List UInt8) :
    headBytes (line ++ 10 :: rest) = line ++ [10] := by
  rw [headBytes_append_of_notMem h, headBytes, if_pos rfl]

theorem isHead_iff {head bytes : List UInt8} : IsHead head bytes ↔ head = headBytes bytes := by
  have hall {bytes : List UInt8} (h : 10 ∉ bytes) : headBytes bytes = bytes := by
    have hnil := headBytes_append_of_notMem h []
    rwa [List.append_nil, headBytes, List.append_nil] at hnil
  constructor
  · rintro (hfeed | ⟨hline, rest⟩)
    · exact (hall hfeed).symm
    · exact (headBytes_append_lineFeed hline rest).symm
  · rintro rfl
    by_cases hfeed : 10 ∈ bytes
    · obtain ⟨line, rest, rfl, hline⟩ := List.eq_append_cons_of_mem hfeed
      rw [headBytes_append_lineFeed hline]
      exact .line hline rest
    · rw [hall hfeed]
      exact .all hfeed

theorem headBytes_headBytes (bytes : List UInt8) : headBytes (headBytes bytes) = headBytes bytes := by
  induction bytes with
  | nil => rfl
  | cons b rest ih =>
    by_cases hb : b = 10
    · simp [headBytes, hb]
    · simp [headBytes, hb, ih]

/-- The first line does not depend on what follows a line feed. -/
theorem first_append_lineFeed (before rest rest' : List UInt8) :
    first (before ++ 10 :: rest) = first (before ++ 10 :: rest') := by
  have hhead (rest : List UInt8) : headBytes (before ++ 10 :: rest) = headBytes (before ++ [10]) := by
    rw [← headBytes_append_of_mem (by simp : 10 ∈ before ++ [10]) rest, List.append_assoc, List.singleton_append]
  have hnotEmpty (rest : List UInt8) : (before ++ 10 :: rest).isEmpty = false := by simp
  rw [first, first, hhead rest, hhead rest', hnotEmpty, hnotEmpty]

theorem first_eq_nothing_iff {bytes : List UInt8} : first bytes = .nothing ↔ bytes = [] := by
  constructor
  · intro h
    rw [first] at h
    split_ifs at h with hempty
    · exact List.isEmpty_iff.1 hempty
    · cases hline : Utf8.decodeChars (headBytes bytes) <;> rw [hline] at h <;> cases h
  · rintro rfl
    rfl

theorem first_eq_malformed_iff {bytes : List UInt8} :
    first bytes = .malformed ↔ ¬ Utf8.WellFormed (headBytes bytes) := by
  rw [Utf8.wellFormed_iff_decodeChars]
  cases bytes with
  | nil => simp [headBytes]
  | cons b rest => cases hline : Utf8.decodeChars (headBytes (b :: rest)) <;> simp [first, hline]

/-- The only line feed of a text that is cut is at its end. -/
theorem Trims.lineFeed_notMem {text line : List Char} (h : Trims text line) (hcut : cut text = text) : '\n' ∉ line := by
  intro hfeed
  obtain ⟨before, after, rfl, hbefore⟩ := List.eq_append_cons_of_mem hfeed
  obtain ⟨ends, rfl, -⟩ := h.ends
  rw [List.append_assoc, List.cons_append, cut_append_lineFeed hbefore] at hcut
  obtain ⟨-, hmore⟩ := List.cons.inj (List.append_cancel_left hcut)
  obtain ⟨rfl, -⟩ := List.append_eq_nil_iff.1 hmore.symm
  have hlast := h.last '\n' (by simp)
  cases hlast

/-- What is read as the first line is the text of the bytes there, without the line ends behind it. -/
theorem exists_of_first_text {bytes : List UInt8} {line : String} (h : first bytes = .text line) :
    ∃ text, headBytes bytes = text.flatMap Utf8.encodeChar ∧ Trims text line.toList ∧ '\n' ∉ line.toList := by
  rw [first] at h
  split_ifs at h
  cases hline : Utf8.decodeChars (headBytes bytes) with
  | none => rw [hline] at h; cases h
  | some text =>
    rw [hline] at h
    obtain rfl := First.text.inj h
    have hbytes := Utf8.decodeChars_eq_some_iff.1 hline
    have hcut : cut text = text := by
      have hread := Utf8.decodeChars_flatMap (cut text)
      rw [← headBytes_encode, ← hbytes, headBytes_headBytes, hline] at hread
      exact (Option.some.inj hread).symm
    have htrims := trims_trimEnd text
    rw [String.toList_ofList]
    exact ⟨text, hbytes, htrims, htrims.lineFeed_notMem hcut⟩

end Line

end LedSwitch
