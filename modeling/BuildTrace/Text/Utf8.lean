/-!
# UTF-8

Reading characters from bytes. A sequence of bytes that is no character is taken up to the byte
that cannot continue it, and counts as one gap.
-/

namespace BuildTrace.Text.Utf8

/-- A character of which some bytes are still to come. -/
structure Partial where
  /-- The bits read so far. -/
  value : Nat
  /-- The number of bytes to come. -/
  remaining : Nat
  /-- The least byte that may come next. -/
  low : Nat
  /-- The greatest byte that may come next. -/
  high : Nat

/-- What a byte means at the start of a character: a whole character, the first byte of a longer
one, or a gap. -/
def start (byte : UInt8) : Option Char ⊕ Partial :=
  let b := byte.toNat
  if b < 0x80 then .inl (some (Char.ofNat b))
  else if b < 0xc2 then .inl none
  else if b < 0xe0 then .inr ⟨b - 0xc0, 1, 0x80, 0xbf⟩
  else if b = 0xe0 then .inr ⟨0, 2, 0xa0, 0xbf⟩
  else if b = 0xed then .inr ⟨0xd, 2, 0x80, 0x9f⟩
  else if b < 0xf0 then .inr ⟨b - 0xe0, 2, 0x80, 0xbf⟩
  else if b = 0xf0 then .inr ⟨0, 3, 0x90, 0xbf⟩
  else if b < 0xf4 then .inr ⟨b - 0xf0, 3, 0x80, 0xbf⟩
  else if b = 0xf4 then .inr ⟨4, 3, 0x80, 0x8f⟩
  else .inl none

/-- The characters of the bytes behind a begun character, gaps as `none`. -/
def decodeFrom : Option Partial → List UInt8 → List (Option Char)
  | none, [] => []
  | some _, [] => [none]
  | begun, byte :: bytes =>
    let fresh (_ : Unit) : List (Option Char) :=
      match start byte with
      | .inl c => c :: decodeFrom none bytes
      | .inr p => decodeFrom (some p) bytes
    match begun with
    | none => fresh ()
    | some p =>
      let b := byte.toNat
      if p.low ≤ b ∧ b ≤ p.high then
        let value := p.value * 64 + (b - 0x80)
        if p.remaining ≤ 1 then some (Char.ofNat value) :: decodeFrom none bytes
        else decodeFrom (some ⟨value, p.remaining - 1, 0x80, 0xbf⟩) bytes
      -- The byte that does not fit may begin a character itself.
      else none :: fresh ()

/-- The characters of the bytes, if there is no gap. -/
def decode? (bytes : List UInt8) : Option (List Char) := (decodeFrom none bytes).mapM id

/-- The characters of the bytes, every gap shown as U+FFFD. -/
def decodeLossy (bytes : List UInt8) : List Char :=
  (decodeFrom none bytes).map (·.getD (Char.ofNat 0xfffd))

/-- The bytes of the text. -/
def encode (s : String) : List UInt8 := s.toUTF8.toList

end BuildTrace.Text.Utf8
