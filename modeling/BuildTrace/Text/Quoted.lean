import BuildTrace.Text.Basic
import BuildTrace.Text.Printable

/-!
# Quoted texts

A text between double quotes, as shown to a reader: what would not be seen, or would be taken for
a quote, is written as an escape. An argument is written so that a POSIX shell reads it back as one
word.
-/

namespace BuildTrace.Text

/-! ## Texts for a reader -/

/-- The number in base sixteen, small digits. -/
def hexDigits (n : Nat) : List Char := Nat.toDigits 16 n

/-- One character of a quoted text. -/
def quotedChar (c : Char) : List Char :=
  if c = '\x00' then ['\\', '0']
  else if c = '\t' then ['\\', 't']
  else if c = '\r' then ['\\', 'r']
  else if c = '\n' then ['\\', 'n']
  else if c = '\\' ∨ c = '"' then ['\\', c]
  else if isVisible c && !isExtending c then [c]
  else ['\\', 'u', '\x7b'] ++ hexDigits c.toNat ++ ['\x7d']

/-- The text between double quotes. -/
def quoted (s : List Char) : List Char := '"' :: s.flatMap quotedChar ++ ['"']

/-- The quoted texts between brackets, with commas between them. -/
def quotedList (texts : List String) : String :=
  String.ofList ('[' :: joinWith [',', ' '] (texts.map fun s => quoted s.toList) ++ [']'])

/-! ## Words for a shell -/

/-- The characters that make a word need quotes. -/
def shellSpecial : List Char :=
  ['\n', '\'', '|', '&', ';', '<', '>', '(', ')', '$', Char.ofNat 0x60, '\\', '"', ' ', '\t', '*',
    '?', '[', '#', '~', '=', '%']

/-- The word, between single quotes if it is empty or has a special character. A single quote
inside closes the quotes, stands escaped, and opens them again. -/
def shellWord (s : List Char) : List Char :=
  if s.isEmpty || s.any shellSpecial.contains then
    '\'' :: s.flatMap (fun c => if c = '\'' then ['\'', '\\', '\'', '\''] else [c]) ++ ['\'']
  else s

/-- The words on one line. -/
def shellWords (words : List String) : String :=
  " ".intercalate (words.map fun w => String.ofList (shellWord w.toList))

end BuildTrace.Text
