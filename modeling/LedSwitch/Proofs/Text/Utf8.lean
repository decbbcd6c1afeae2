import LedSwitch.Text.Utf8

/-!
Reading UTF-8 undoes writing it: every text is spelled by the bytes that `Utf8.encode` writes for it.
-/

namespace LedSwitch.Utf8

/-- The number of a character is that of no surrogate. -/
theorem toNat_valid (c : Char) : c.toNat < 0xD800 ∨ 0xE000 ≤ c.toNat ∧ c.toNat < 0x110000 :=
  c.valid.imp_right fun hhigh => ⟨hhigh.1, hhigh.2⟩

theorem toNat_ofNat_byte {n : Nat} (h : n < 256) : (UInt8.ofNat n).toNat = n := by
  simpa using Nat.mod_eq_of_lt h

/-- A continuation byte gives back the six bits that it carries. -/
private theorem sixBits?_continuation (n : Nat) : sixBits? (UInt8.ofNat (0x80 + n % 64)) = some (n % 64) := by
  have hlt : n % 64 < 64 := Nat.mod_lt _ (by decide)
  rw [sixBits?, toNat_ofNat_byte (by omega), if_pos (by omega), Nat.add_sub_cancel_left]

/-- The number of a character is read as that character wherever its length is the right one. -/
private theorem scalar?_toNat (c : Char) {least : Nat} (h : least ≤ c.toNat) : scalar? least c.toNat = some c := by
  rw [scalar?, if_pos ⟨h, toNat_valid c⟩, Char.ofNat_toNat]

/-- The bytes of a character are read as that character, and reading goes on after them. -/
theorem decodeChars_encodeChar (c : Char) (rest : List UInt8) :
    decodeChars (encodeChar c ++ rest) = (decodeChars rest).map (c :: ·) := by
  have hvalid := toNat_valid c
  have hscalar := fun least (h : least ≤ c.toNat) => scalar?_toNat c h
  unfold encodeChar
  by_cases h1 : c.toNat < 0x80
  · have hbyte : (UInt8.ofNat c.toNat).toNat = c.toNat := toNat_ofNat_byte (by omega)
    simp only [h1, if_true, List.singleton_append]
    rw [decodeChars_ascii (by omega), hbyte, Char.ofNat_toNat]
  · by_cases h2 : c.toNat < 0x800
    · have hlead : lead? (UInt8.ofNat (0xC0 + c.toNat / 64)) = some (1, 0x80, c.toNat / 64) := by
        rw [lead?, toNat_ofNat_byte (by omega), if_neg (by omega), if_neg (by omega), if_pos (by omega),
          Nat.add_sub_cancel_left]
      have hbits : c.toNat / 64 * 64 + c.toNat % 64 = c.toNat := by omega
      simp only [h1, h2, if_true, if_false, List.cons_append, List.nil_append, decodeChars, decodeFrom, hlead,
        sixBits?_continuation, Option.bind_eq_bind, Option.bind_some, hbits, hscalar 0x80 (by omega)]
    · by_cases h3 : c.toNat < 0x10000
      · have hlead : lead? (UInt8.ofNat (0xE0 + c.toNat / 4096)) = some (2, 0x800, c.toNat / 4096) := by
          rw [lead?, toNat_ofNat_byte (by omega), if_neg (by omega), if_neg (by omega), if_neg (by omega),
            if_pos (by omega), Nat.add_sub_cancel_left]
        have hbits : (c.toNat / 4096 * 64 + c.toNat / 64 % 64) * 64 + c.toNat % 64 = c.toNat := by omega
        simp only [h1, h2, h3, if_true, if_false, List.cons_append, List.nil_append, decodeChars, decodeFrom, hlead,
          sixBits?_continuation, Option.bind_eq_bind, Option.bind_some, hbits, hscalar 0x800 (by omega)]
      · have hlead : lead? (UInt8.ofNat (0xF0 + c.toNat / 262144)) = some (3, 0x10000, c.toNat / 262144) := by
          rw [lead?, toNat_ofNat_byte (by omega), if_neg (by omega), if_neg (by omega), if_neg (by omega),
            if_neg (by omega), if_pos (by omega), Nat.add_sub_cancel_left]
        have hbits : ((c.toNat / 262144 * 64 + c.toNat / 4096 % 64) * 64 + c.toNat / 64 % 64) * 64 + c.toNat % 64
            = c.toNat := by omega
        simp only [h1, h2, h3, if_false, List.cons_append, List.nil_append, decodeChars, decodeFrom, hlead,
          sixBits?_continuation, Option.bind_eq_bind, Option.bind_some, hbits, hscalar 0x10000 (by omega)]

/-- Reading the bytes of characters gives these characters. -/
theorem decodeChars_flatMap (chars : List Char) : decodeChars (chars.flatMap encodeChar) = some chars := by
  induction chars with
  | nil => rfl
  | cons c rest ih => simp [decodeChars_encodeChar, ih]

/-- Reading the bytes of a text gives that text. -/
theorem decode_encode (text : String) : decode (encode text) = some text := by
  simp [decode, encode, decodeChars_flatMap]

end LedSwitch.Utf8
