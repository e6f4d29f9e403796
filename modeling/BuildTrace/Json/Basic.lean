/-!
# JSON values

The values of a JSON document. Objects keep their members in the order of the document, repeated
keys included. Numbers are kept as they are written, and read when somebody asks for one.
-/

namespace BuildTrace

/-- A JSON value. -/
inductive Json where
  /-- The literal `null`. -/
  | null
  /-- A truth value. -/
  | bool (value : Bool)
  /-- A number, as it is written. -/
  | number (literal : List Char)
  /-- A text. -/
  | text (value : String)
  /-- A string literal that denotes no text, since it has half of a surrogate pair or bytes that
  are no characters, or an object with such a key. That matters only to those who want to read
  it. -/
  | garbled
  /-- A list of values. -/
  | array (items : List Json)
  /-- Keys with their values. -/
  | object (members : List (String × Json))
  deriving Inhabited

namespace Json

/-- A list of texts. -/
def texts (values : List String) : Json := array (values.map text)

/-- The text, if the value is one. -/
def text? : Json → Option String
  | text value => some value
  | _ => none

/-- The truth value, if the value is one. -/
def bool? : Json → Option Bool
  | bool value => some value
  | _ => none

/-- The items, if the value is a list. -/
def items? : Json → Option (List Json)
  | array items => some items
  | _ => none

/-- The natural number below `bound`, if the value is one and is written with digits only. -/
def natBelow? (bound : Nat) : Json → Option Nat
  | number literal =>
    if literal.all Char.isDigit then
      let n := literal.foldl (fun n c => n * 10 + (c.toNat - '0'.toNat)) 0
      if n < bound then some n else none
    else none
  | _ => none

/-- The values the object has for the key. -/
def lookups (key : String) (members : List (String × Json)) : List Json :=
  members.filterMap fun (k, v) => if k = key then some v else none

/-!
## Writing

A document is written over several lines, two spaces for each level. Empty lists and objects stay
on one line, and there is no line feed at the end.
-/

/-- The digit of base sixteen, small letters. -/
def hexDigit (n : Nat) : Char := Nat.digitChar (n % 16)

/-- One character of a string literal. -/
def escapeChar (c : Char) : List Char :=
  if c = '"' ∨ c = '\\' then ['\\', c]
  else if c = '\x08' then ['\\', 'b']
  else if c = '\x0c' then ['\\', 'f']
  else if c = '\n' then ['\\', 'n']
  else if c = '\r' then ['\\', 'r']
  else if c = '\t' then ['\\', 't']
  else if c.toNat < 0x20 then ['\\', 'u', '0', '0', hexDigit (c.toNat / 16), hexDigit c.toNat]
  else [c]

/-- The text as a string literal. -/
def literal (s : String) : List Char := '"' :: s.toList.flatMap escapeChar ++ ['"']

/-- A line feed and the blanks of the level. -/
def newline (level : Nat) : List Char := '\n' :: List.replicate (2 * level) ' '

mutual

/-- The value at the given level. -/
def render (level : Nat) : Json → List Char
  | null | garbled => ['n', 'u', 'l', 'l']
  | bool true => ['t', 'r', 'u', 'e']
  | bool false => ['f', 'a', 'l', 's', 'e']
  | number digits => digits
  | text s => literal s
  | array [] => ['[', ']']
  | array (item :: items) =>
    '[' :: newline (level + 1) ++ render (level + 1) item ++ renderItems (level + 1) items ++
      newline level ++ [']']
  | object [] => ['\x7b', '\x7d']
  | object (⟨key, value⟩ :: members) =>
    '\x7b' :: newline (level + 1) ++ literal key ++ [':', ' '] ++ render (level + 1) value ++
      renderMembers (level + 1) members ++ newline level ++ ['\x7d']

/-- The items behind the first one. -/
def renderItems (level : Nat) : List Json → List Char
  | [] => []
  | item :: items => ',' :: newline level ++ render level item ++ renderItems level items

/-- The members behind the first one. -/
def renderMembers (level : Nat) : List (String × Json) → List Char
  | [] => []
  | ⟨key, value⟩ :: members =>
    ',' :: newline level ++ literal key ++ [':', ' '] ++ render level value ++
      renderMembers level members

end

/-- The document with the value. -/
def pretty (value : Json) : String := String.ofList (render 0 value)

end Json

end BuildTrace
