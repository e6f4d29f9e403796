import BuildTrace.Text.Digit
import BuildTrace.Yaml.Position

/-!
# YAML tags

A tag stands in front of a value and names what it is. It is written with a handle, which may stand
for the beginning of a longer name, or in angle brackets with its full name.
-/

namespace BuildTrace.Yaml

/-- What a tag says about a value. -/
inductive Tag where
  /-- There is no tag. -/
  | absent
  /-- The value is what it looks like. -/
  | unspecific
  /-- The value is a text. -/
  | text
  /-- The value stands for nothing. -/
  | null
  /-- The value is a text in base 64. -/
  | binary
  /-- The value is of a kind that is no text. -/
  | nonText (kind : String)
  /-- The tag has no meaning. -/
  | unknown
  deriving DecidableEq, BEq

/-- The kinds of values that are no texts. -/
def nonTextKinds : List String :=
  ["int", "float", "bool", "timestamp", "time", "seq", "map", "degrees", "radians"]

/-- The tag with the short name. -/
def Tag.ofShortName (name : String) : Tag :=
  match name with
  | "str" => .text
  | "null" => .null
  | "binary" => .binary
  | name => if nonTextKinds.contains name then .nonText name else .unknown

/-- What the handle `!!` stands for. -/
def standardHandle : List Char := "tag:yaml.org,2002:".toList

/-- The tag with the meaning of its handle and the rest of its name. A short name may stand behind
the handles `!` and `!!` and behind none; behind anything else, a tag has no meaning. -/
def Tag.ofParts (handle suffix : List Char) : Tag :=
  if handle = standardHandle || handle = ['!'] then ofShortName (String.ofList suffix)
  else if handle.isEmpty then
    if suffix = ['!'] then .unspecific
    else ofShortName (String.ofList ((Text.strip? ['!'] suffix).getD suffix))
  else .unknown

/-- What handles stand for. -/
abbrev Handles := List (List Char × List Char)

/-- The tag with the handle and the rest of its name. Fails if the handle needs a meaning and has
none. -/
def Tag.resolve? (handles : Handles) (handle suffix : List Char) : Option Tag :=
  match handles.lookup handle with
  | some lead => some (ofParts lead suffix)
  | none =>
    if handle = ['!', '!'] then some (ofParts standardHandle suffix)
    -- A named handle has a meaning only by a directive.
    else if handle.length ≥ 2 && handle.head? = some '!' && handle.getLast? = some '!' then none
    else some (ofParts handle suffix)

/-! ## Reading tags -/

/-- A character of a handle. -/
def isHandleChar (c : Char) : Bool := c.isAlphanum || c = '_' || c = '-'

/-- A character of a name in angle brackets. -/
def isNameChar (c : Char) : Bool := c.isAlphanum || "-#;/?:@&=+$,_.!~*'()[]%".toList.contains c

/-- A character of a name behind a handle. -/
def isSuffixChar (c : Char) : Bool := isNameChar c && !isFlowMark c && c != '!'

/-- The number a byte counts in front of the bytes behind it, and how many of them there are. -/
def leadingByte? (byte : Nat) : Option Nat :=
  if byte < 0x80 then some 0
  else if 0xc0 ≤ byte && byte < 0xe0 then some 1
  else if 0xe0 ≤ byte && byte < 0xf0 then some 2
  else if 0xf0 ≤ byte && byte < 0xf8 then some 3
  else none

/-- The byte written as a percent sign and two digits. -/
def percentByte? : List Char → Option Nat
  | '%' :: a :: b :: _ => do return (← Text.hexDigit? a) * 16 + (← Text.hexDigit? b)
  | _ => none

/-- The bytes that follow a leading one, as one number behind the given one. -/
def trailingBytes? (value : Nat) : Nat → List Char → Option Nat
  | 0, _ => some value
  | count + 1, s => do
    let byte ← percentByte? s
    if 0x80 ≤ byte && byte < 0xc0 then trailingBytes? (value * 256 + byte) count (s.drop 3)
    else none

/-- The character that begins with a percent sign, and its length. -/
def percentChar? (s : List Char) : Option (Char × Nat) := do
  let first ← percentByte? s
  let more ← leadingByte? first
  let value ← trailingBytes? first more (s.drop 3)
  if value.isValidChar then some (Char.ofNat value, 3 * (more + 1)) else none

/-- The characters of a name that belong to the class, and the position behind them. -/
def nameChars? (belongs : Char → Bool) : Nat → Position → Option (List Char × Position)
  | 0, p => some ([], p)
  | fuel + 1, p =>
    match p.next? with
    | none => some ([], p)
    | some c =>
      if c = '%' then do
        let (c, length) ← percentChar? p.rest
        let (more, p) ← nameChars? belongs fuel (p.skip length)
        return (c :: more, p)
      else if belongs c then do
        let (more, p) ← nameChars? belongs fuel (p.skip 1)
        return (c :: more, p)
      else some ([], p)

/-- The handle that begins here with an exclamation mark. -/
def handleAt (p : Position) : List Char × Position :=
  let letters := (p.rest.drop 1).takeWhile isHandleChar
  let handle := '!' :: letters
  let p := p.skip handle.length
  if p.next? = some '!' then (handle ++ ['!'], p.skip 1) else (handle, p)

/-- The handle and the rest of the name of the tag that begins here. -/
def tagAt? (p : Position) : Option ((List Char × List Char) × Position) :=
  if (p.rest.drop 1).head? = some '<' then do
    let (name, p) ← nameChars? isNameChar p.steps (p.skip 2)
    if p.next? = some '>' then some (([], name), p.skip 1) else none
  else
    let (handle, behind) := handleAt p
    if handle.length ≥ 2 && handle.getLast? = some '!' then do
      let (suffix, behind) ← nameChars? isSuffixChar p.steps behind
      if suffix.isEmpty then none else some ((handle, suffix), behind)
    else do
      -- What looked like a handle was the beginning of the name.
      let (more, behind) ← nameChars? isSuffixChar p.steps behind
      let suffix := handle.drop 1 ++ more
      some (if suffix.isEmpty then ([], ['!']) else (['!'], suffix), behind)

/-- The beginning of names that a handle stands for, up to white space. -/
def tagLead? (p : Position) : Option (List Char × Position) :=
  match p.next? with
  | some c =>
    if c = '!' then do
      let (more, p) ← nameChars? isNameChar p.steps (p.skip 1)
      return (c :: more, p)
    else if isSuffixChar c then nameChars? isNameChar p.steps p
    else none
  | none => none

end BuildTrace.Yaml
