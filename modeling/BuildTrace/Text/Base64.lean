import BuildTrace.Text.Utf8

/-!
# Base 64

Bytes written with 64 letters, four letters for three bytes. White space between them does not
count. The last group is filled up with equality signs, and its bits that belong to no byte are
zero.
-/

namespace BuildTrace.Text.Base64

/-- The letters in the order of their values. -/
def letters : List Char :=
  "ABCDEFGHIJKLMNOPQRSTUVWXYZabcdefghijklmnopqrstuvwxyz0123456789+/".toList

/-- The value of a letter. -/
def value? (c : Char) : Option Nat := letters.idxOf? c

/-- White space of the first 128 code points. -/
def isSpace (c : Char) : Bool := [' ', '\t', '\n', '\x0c', '\r'].contains c

/-- The bytes of letters in groups of four. -/
def groups? : List Char → Option (List UInt8)
  | [] => some []
  | a :: b :: c :: d :: rest => do
    let x ← value? a
    let y ← value? b
    let first := UInt8.ofNat (x * 4 + y / 16)
    if c = '=' then
      -- Only the last group may be incomplete, and bits that no byte has must be zero.
      if d = '=' && rest.isEmpty && y % 16 = 0 then return [first] else none
    else
      let z ← value? c
      let second := UInt8.ofNat (y % 16 * 16 + z / 4)
      if d = '=' then
        if rest.isEmpty && z % 4 = 0 then return [first, second] else none
      else
        let third := UInt8.ofNat (z % 4 * 64 + (← value? d))
        return first :: second :: third :: (← groups? rest)
  | _ => none

/-- The characters whose bytes are written. -/
def decode? (text : List Char) : Option (List Char) :=
  (groups? (text.filter (!isSpace ·))).bind Utf8.decode?

end BuildTrace.Text.Base64
