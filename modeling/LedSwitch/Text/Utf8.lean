/-!
UTF-8. `Utf8.encode` writes each character in the fewest bytes; `Utf8.decode` reads strictly, so overlong
forms, surrogates, numbers above U+10FFFF, stray and missing continuation bytes are all refused.
-/

namespace LedSwitch.Utf8

/-- The bytes of one character: seven bits, or a lead byte and six bits in each byte that follows. -/
def encodeChar (c : Char) : List UInt8 :=
  let n := c.toNat
  if n < 0x80 then [UInt8.ofNat n]
  else if n < 0x800 then [UInt8.ofNat (0xC0 + n / 64), UInt8.ofNat (0x80 + n % 64)]
  else if n < 0x10000 then
    [UInt8.ofNat (0xE0 + n / 4096), UInt8.ofNat (0x80 + n / 64 % 64), UInt8.ofNat (0x80 + n % 64)]
  else
    [UInt8.ofNat (0xF0 + n / 262144), UInt8.ofNat (0x80 + n / 4096 % 64), UInt8.ofNat (0x80 + n / 64 % 64),
      UInt8.ofNat (0x80 + n % 64)]

/-- The bytes of a text. -/
def encode (text : String) : List UInt8 := text.toList.flatMap encodeChar

/-- The six bits that a continuation byte carries. -/
def sixBits? (b : UInt8) : Option Nat :=
  if 0x80 ≤ b.toNat ∧ b.toNat < 0xC0 then some (b.toNat - 0x80) else none

/-- The character numbered `n`, when it is one and is not less than `least`, the smallest number that needs
    the length at hand. -/
def scalar? (least n : Nat) : Option Char :=
  if least ≤ n ∧ (n < 0xD800 ∨ 0xE000 ≤ n ∧ n < 0x110000) then some (Char.ofNat n) else none

/-- What a byte begins: how many bytes follow it, the smallest number that needs this length, and the bits that
    it contributes. -/
def lead? (b : UInt8) : Option (Nat × Nat × Nat) :=
  if b.toNat < 0x80 then some (0, 0, b.toNat)
  else if b.toNat < 0xC0 then none
  else if b.toNat < 0xE0 then some (1, 0x80, b.toNat - 0xC0)
  else if b.toNat < 0xF0 then some (2, 0x800, b.toNat - 0xE0)
  else if b.toNat < 0xF8 then some (3, 0x10000, b.toNat - 0xF0)
  else none

/-- The characters that the bytes spell, when a character is under way that still lacks `lacking` bytes, has a
    number of at least `least` and has collected `bits`. -/
def decodeFrom : (lacking least bits : Nat) → List UInt8 → Option (List Char)
  | 0, _, _, [] => some []
  | _ + 1, _, _, [] => none
  | 0, _, _, b :: rest =>
    match lead? b with
    | none => none
    | some (0, _, n) => (decodeFrom 0 0 0 rest).map (Char.ofNat n :: ·)
    | some (k + 1, least, n) => decodeFrom (k + 1) least n rest
  | 1, least, bits, b :: rest => do
    let low ← sixBits? b
    let c ← scalar? least (bits * 64 + low)
    (decodeFrom 0 0 0 rest).map (c :: ·)
  | k + 2, least, bits, b :: rest => do
    let low ← sixBits? b
    decodeFrom (k + 1) least (bits * 64 + low) rest

/-- The characters that the bytes spell, if they are well-formed throughout. -/
def decodeChars (bytes : List UInt8) : Option (List Char) := decodeFrom 0 0 0 bytes

/-- The text that the bytes spell, if they are well-formed throughout. -/
def decode (bytes : List UInt8) : Option String := (decodeChars bytes).map String.ofList

@[simp] theorem decodeChars_nil : decodeChars [] = some [] := rfl

/-- An ASCII character is read from its one byte. -/
theorem decodeChars_ascii {a : UInt8} (h : a.toNat < 0x80) (rest : List UInt8) :
    decodeChars (a :: rest) = (decodeChars rest).map (Char.ofNat a.toNat :: ·) := by
  simp [decodeChars, decodeFrom, lead?, h]

end LedSwitch.Utf8
