import BuildTrace.Text.Utf8

/-!
# Texts of bytes

A shell and its programs work on bytes and do not look at characters of several bytes. Inside the
shell, a text is written with one character for each byte: the character with the number of the
byte. Texts are encoded where they come in and decoded where they go out.
-/

namespace BuildTrace.Shell

/-- The bytes of a text inside the shell. -/
def bytesOf (s : String) : List UInt8 := s.toList.map fun c => UInt8.ofNat c.toNat

/-- The characters for bytes. -/
def charsOf (bytes : List UInt8) : List Char := bytes.map fun b => Char.ofNat b.toNat

/-- The text inside the shell for bytes. -/
def textOf (bytes : List UInt8) : String := String.ofList (charsOf bytes)

/-- The text inside the shell for a text outside. -/
def encode (s : String) : String := textOf (Text.Utf8.encode s)

/-- The text outside for a text inside the shell. -/
def decode (s : String) : String := String.ofList (Text.Utf8.decodeLossy (bytesOf s))

/-- A blank of the shell. -/
def isBlank (c : Char) : Bool := c = ' ' || c = '\t'

/-- White space as programs of the shell see it. -/
def isSpace (c : Char) : Bool := c = ' ' || ('\t' ≤ c && c ≤ '\r')

/-- The value of the digits in a base up to sixteen, each of which is a digit of the base. -/
def digitsValue (base : Nat) (digits : List Char) : Nat :=
  digits.foldl
    (fun n c =>
      n * base + (if c.isDigit then c.toNat - '0'.toNat else c.toLower.toNat - 'a'.toNat + 10))
    0

end BuildTrace.Shell
