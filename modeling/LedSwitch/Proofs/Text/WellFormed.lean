import Mathlib.Tactic.Common
import LedSwitch.Proofs.Text.Utf8

/-!
Which bytes are text. `Utf8.WellFormed` lists the forms that the bytes of a character can have; they are just those that
`Utf8.encodeChar` writes, and reading accepts nothing else (`Utf8.decodeChars_eq_some_iff`,
`Utf8.wellFormed_iff_decodeChars`).
-/

namespace LedSwitch.Utf8

/-- A byte that goes on with a character. -/
def Continues (b : UInt8) : Prop := 0x80 ≤ b.toNat ∧ b.toNat < 0xC0

/-- Bytes of characters, each of them in the fewest bytes, none of them a surrogate, and none beyond U+10FFFF. -/
inductive WellFormed : List UInt8 → Prop where
  | nil : WellFormed []
  | one {a : UInt8} {rest : List UInt8} (ha : a.toNat < 0x80) (hrest : WellFormed rest) : WellFormed (a :: rest)
  /-- After C0 and C1 there would be a character that fits into one byte. -/
  | two {a b : UInt8} {rest : List UInt8} (ha : 0xC2 ≤ a.toNat ∧ a.toNat < 0xE0) (hb : Continues b)
      (hrest : WellFormed rest) : WellFormed (a :: b :: rest)
  | three {a b c : UInt8} {rest : List UInt8} (ha : 0xE0 ≤ a.toNat ∧ a.toNat < 0xF0) (hb : Continues b)
      (hc : Continues c) (hshortest : a.toNat = 0xE0 → 0xA0 ≤ b.toNat) (hsurrogate : a.toNat = 0xED → b.toNat < 0xA0)
      (hrest : WellFormed rest) : WellFormed (a :: b :: c :: rest)
  | four {a b c d : UInt8} {rest : List UInt8} (ha : 0xF0 ≤ a.toNat ∧ a.toNat ≤ 0xF4) (hb : Continues b)
      (hc : Continues c) (hd : Continues d) (hshortest : a.toNat = 0xF0 → 0x90 ≤ b.toNat)
      (hlast : a.toNat = 0xF4 → b.toNat < 0x90) (hrest : WellFormed rest) : WellFormed (a :: b :: c :: d :: rest)

variable {a b b' b'' : UInt8} {c : Char} {bytes rest : List UInt8} {chars : List Char} {least bits n : Nat}

private theorem ofNat_eq_of_toNat (a : UInt8) (h : n = a.toNat) : UInt8.ofNat n = a := by
  rw [h, UInt8.ofNat_toNat]

theorem encodeChar_of_one (ha : a.toNat < 0x80) (hc : c.toNat = a.toNat) : encodeChar c = [a] := by
  rw [encodeChar, if_pos (by omega), ofNat_eq_of_toNat a hc]

theorem encodeChar_of_two (ha : 0xC2 ≤ a.toNat ∧ a.toNat < 0xE0) (hb : Continues b)
    (hc : c.toNat = (a.toNat - 0xC0) * 64 + (b.toNat - 0x80)) : encodeChar c = [a, b] := by
  obtain ⟨hlow, hhigh⟩ := hb
  rw [encodeChar, if_neg (by omega), if_pos (by omega), ofNat_eq_of_toNat a (by omega),
    ofNat_eq_of_toNat b (by omega)]

theorem encodeChar_of_three (ha : 0xE0 ≤ a.toNat ∧ a.toNat < 0xF0) (hb : Continues b) (hb' : Continues b')
    (hshortest : a.toNat = 0xE0 → 0xA0 ≤ b.toNat)
    (hc : c.toNat = ((a.toNat - 0xE0) * 64 + (b.toNat - 0x80)) * 64 + (b'.toNat - 0x80)) :
    encodeChar c = [a, b, b'] := by
  obtain ⟨hlow, hhigh⟩ := hb
  obtain ⟨hlow', hhigh'⟩ := hb'
  rw [encodeChar, if_neg (by omega), if_neg (by omega), if_pos (by omega), ofNat_eq_of_toNat a (by omega),
    ofNat_eq_of_toNat b (by omega), ofNat_eq_of_toNat b' (by omega)]

theorem encodeChar_of_four (ha : 0xF0 ≤ a.toNat ∧ a.toNat ≤ 0xF4) (hb : Continues b) (hb' : Continues b')
    (hb'' : Continues b'') (hshortest : a.toNat = 0xF0 → 0x90 ≤ b.toNat)
    (hc : c.toNat = (((a.toNat - 0xF0) * 64 + (b.toNat - 0x80)) * 64 + (b'.toNat - 0x80)) * 64 + (b''.toNat - 0x80)) :
    encodeChar c = [a, b, b', b''] := by
  obtain ⟨hlow, hhigh⟩ := hb
  obtain ⟨hlow', hhigh'⟩ := hb'
  obtain ⟨hlow'', hhigh''⟩ := hb''
  rw [encodeChar, if_neg (by omega), if_neg (by omega), if_neg (by omega), ofNat_eq_of_toNat a (by omega),
    ofNat_eq_of_toNat b (by omega), ofNat_eq_of_toNat b' (by omega), ofNat_eq_of_toNat b'' (by omega)]

private theorem toNat_ofNat (h : n < 0xD800 ∨ 0xE000 ≤ n ∧ n < 0x110000) : (Char.ofNat n).toNat = n := by
  have hvalid : n.isValidChar := h.imp_right fun hhigh => ⟨by omega, hhigh.2⟩
  rw [Char.ofNat, dif_pos hvalid]
  rfl

/-- Well-formed bytes are those of some characters. -/
theorem WellFormed.exists_chars (h : WellFormed bytes) : ∃ chars : List Char, bytes = chars.flatMap encodeChar := by
  have hnext {head rest : List UInt8} {c : Char} (hhead : encodeChar c = head)
      (hrest : ∃ chars : List Char, rest = chars.flatMap encodeChar) :
      ∃ chars : List Char, head ++ rest = chars.flatMap encodeChar := by
    obtain ⟨chars, rfl⟩ := hrest
    exact ⟨c :: chars, by rw [List.flatMap_cons, hhead]⟩
  induction h with
  | nil => exact ⟨[], rfl⟩
  | one ha _ ih => exact hnext (encodeChar_of_one ha (toNat_ofNat (by omega))) ih
  | two ha hb _ ih =>
    have hbound := hb.2
    exact hnext (encodeChar_of_two ha hb (toNat_ofNat (by omega))) ih
  | three ha hb hc hshortest hsurrogate _ ih =>
    obtain ⟨hlow, hhigh⟩ := hb
    obtain ⟨hlow', hhigh'⟩ := hc
    exact hnext (encodeChar_of_three ha ⟨hlow, hhigh⟩ ⟨hlow', hhigh'⟩ hshortest (toNat_ofNat (by omega))) ih
  | four ha hb hc hd hshortest hlast _ ih =>
    have hbound := hb.2
    have hbound' := hc.2
    have hbound'' := hd.2
    exact hnext (encodeChar_of_four ha hb hc hd hshortest (toNat_ofNat (by omega))) ih

/-- The bytes of a character have one of the forms that are allowed. -/
theorem WellFormed.encodeChar_append (c : Char) (hrest : WellFormed rest) : WellFormed (encodeChar c ++ rest) := by
  have hvalid := toNat_valid c
  have hbyte {n : Nat} (h : n < 256) : (UInt8.ofNat n).toNat = n := toNat_ofNat_byte h
  have hcontinues (n : Nat) : Continues (UInt8.ofNat (0x80 + n % 64)) := by
    rw [Continues, hbyte (by omega)]
    omega
  rw [encodeChar]
  split_ifs with h1 h2 h3
  · exact .one (by rw [hbyte (by omega)]; exact h1) hrest
  · exact .two (by rw [hbyte (by omega)]; omega) (hcontinues _) hrest
  · refine .three (by rw [hbyte (by omega)]; omega) (hcontinues _) (hcontinues _) ?_ ?_ hrest <;>
      rw [hbyte (by omega), hbyte (by omega)] <;> omega
  · refine .four (by rw [hbyte (by omega)]; omega) (hcontinues _) (hcontinues _) (hcontinues _) ?_ ?_ hrest <;>
      rw [hbyte (by omega), hbyte (by omega)] <;> omega

theorem wellFormed_flatMap (chars : List Char) : WellFormed (chars.flatMap encodeChar) := by
  induction chars with
  | nil => exact .nil
  | cons c rest ih => exact ih.encodeChar_append c

/-- The last byte of a character completes its number. -/
private theorem of_decodeFrom_last (h : decodeFrom 1 least bits bytes = some chars) :
    ∃ b rest c others, bytes = b :: rest ∧ Continues b ∧ c.toNat = bits * 64 + (b.toNat - 0x80) ∧ least ≤ c.toNat ∧
      decodeChars rest = some others ∧ chars = c :: others := by
  cases bytes with
  | nil => cases h
  | cons b rest =>
    rw [decodeFrom] at h
    obtain ⟨low, hlow, h⟩ := Option.bind_eq_some_iff.1 h
    obtain ⟨c, hc, h⟩ := Option.bind_eq_some_iff.1 h
    obtain ⟨others, hothers, rfl⟩ := Option.map_eq_some_iff.1 h
    rw [sixBits?] at hlow
    rw [scalar?] at hc
    split_ifs at hlow hc with hb hvalid
    obtain rfl := Option.some.inj hlow
    obtain rfl := Option.some.inj hc
    have hnumber := toNat_ofNat hvalid.2
    have hleast := hvalid.1
    rw [← hnumber] at hleast
    exact ⟨b, rest, _, others, rfl, hb, hnumber, hleast, hothers, rfl⟩

private theorem of_decodeFrom_more {k : Nat} (h : decodeFrom (k + 2) least bits bytes = some chars) :
    ∃ b rest, bytes = b :: rest ∧ Continues b ∧
      decodeFrom (k + 1) least (bits * 64 + (b.toNat - 0x80)) rest = some chars := by
  cases bytes with
  | nil => cases h
  | cons b rest =>
    rw [decodeFrom] at h
    obtain ⟨low, hlow, h⟩ := Option.bind_eq_some_iff.1 h
    rw [sixBits?] at hlow
    split_ifs at hlow with hb
    obtain rfl := Option.some.inj hlow
    exact ⟨b, rest, rfl, hb, h⟩

/-- What is read first is a character that stands there as it is written. -/
theorem of_decodeChars_cons (h : decodeChars (a :: rest) = some chars) : ∃ c more others,
    a :: rest = encodeChar c ++ more ∧ chars = c :: others ∧ decodeChars more = some others := by
  rw [decodeChars, decodeFrom] at h
  rw [lead?] at h
  split_ifs at h with h1 h2 h3 h4 h5
  · obtain ⟨others, hothers, rfl⟩ := Option.map_eq_some_iff.1 h
    exact ⟨_, rest, others, by rw [encodeChar_of_one h1 (toNat_ofNat (by omega))]; rfl, rfl, hothers⟩
  · obtain ⟨b, more, c, others, rfl, hb, hc, hleast, hothers, rfl⟩ := of_decodeFrom_last h
    exact ⟨c, more, others, by rw [encodeChar_of_two (by have := hb.2; omega) hb hc]; rfl, rfl, hothers⟩
  · obtain ⟨b, _, rfl, hb, h⟩ := of_decodeFrom_more h
    obtain ⟨b', more, c, others, rfl, hb', hc, hleast, hothers, rfl⟩ := of_decodeFrom_last h
    have hform : encodeChar c = [a, b, b'] := by
      obtain ⟨hlow, hhigh⟩ := hb
      obtain ⟨hlow', hhigh'⟩ := hb'
      exact encodeChar_of_three (by omega) ⟨hlow, hhigh⟩ ⟨hlow', hhigh'⟩ (by omega) hc
    exact ⟨c, more, others, by rw [hform]; rfl, rfl, hothers⟩
  · obtain ⟨b, _, rfl, hb, h⟩ := of_decodeFrom_more h
    obtain ⟨b', _, rfl, hb', h⟩ := of_decodeFrom_more h
    obtain ⟨b'', more, c, others, rfl, hb'', hc, hleast, hothers, rfl⟩ := of_decodeFrom_last h
    have hform : encodeChar c = [a, b, b', b''] := by
      have hvalid := toNat_valid c
      obtain ⟨hlow, hhigh⟩ := hb
      obtain ⟨hlow', hhigh'⟩ := hb'
      obtain ⟨hlow'', hhigh''⟩ := hb''
      exact encodeChar_of_four (by omega) ⟨hlow, hhigh⟩ ⟨hlow', hhigh'⟩ ⟨hlow'', hhigh''⟩ (by omega) hc
    exact ⟨c, more, others, by rw [hform]; rfl, rfl, hothers⟩

/-- Bytes are read as just those characters for which they are written. -/
theorem decodeChars_eq_some_iff : decodeChars bytes = some chars ↔ bytes = chars.flatMap encodeChar := by
  constructor
  · intro h
    induction chars generalizing bytes with
    | nil =>
      cases bytes with
      | nil => rfl
      | cons a rest =>
        obtain ⟨c, more, others, -, hchars, -⟩ := of_decodeChars_cons h
        cases hchars
    | cons c others ih =>
      cases bytes with
      | nil => cases h
      | cons a rest =>
        obtain ⟨first, more, others, hfirst, hchars, hmore⟩ := of_decodeChars_cons h
        obtain ⟨rfl, rfl⟩ := List.cons.inj hchars
        rw [hfirst, List.flatMap_cons, ← ih hmore]
  · rintro rfl
    exact decodeChars_flatMap chars

/-- Bytes can be read if and only if they are well-formed. -/
theorem wellFormed_iff_decodeChars : WellFormed bytes ↔ ∃ chars, decodeChars bytes = some chars := by
  constructor
  · intro h
    obtain ⟨chars, rfl⟩ := h.exists_chars
    exact ⟨chars, decodeChars_flatMap chars⟩
  · rintro ⟨chars, hchars⟩
    obtain rfl := decodeChars_eq_some_iff.1 hchars
    exact wellFormed_flatMap chars

end LedSwitch.Utf8
