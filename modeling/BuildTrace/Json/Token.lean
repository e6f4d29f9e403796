import BuildTrace.Json.Basic

/-!
# JSON tokens

A document is cut into brackets, marks and scalar values. White space between them is the space,
the tab, the line feed and the carriage return. Bytes that are no character may stand in strings
only.
-/

namespace BuildTrace.Json

/-- A token of a document. -/
inductive Token where
  /-- The bracket `[`. -/
  | openArray
  /-- The bracket `]`. -/
  | closeArray
  /-- The bracket that opens an object. -/
  | openObject
  /-- The bracket that closes an object. -/
  | closeObject
  /-- The mark between items. -/
  | comma
  /-- The mark between a key and its value. -/
  | colon
  /-- A literal, a number or a string. -/
  | scalar (value : Json)

/-- A string literal that has been read in part. -/
structure StringPart where
  /-- The characters read so far, last one first. -/
  chars : List Char := []
  /-- The first half of a surrogate pair, when the second half must follow. -/
  half : Option Nat := none
  /-- A half was left alone, or there was no character. -/
  garbled : Bool := false

namespace StringPart

/-- Add a character. A half that waits for its second half is left alone. -/
def push (part : StringPart) (c : Char) : StringPart :=
  { part with
    chars := c :: part.chars, half := none, garbled := part.garbled || part.half.isSome }

/-- Add the code unit of a `\u` escape. -/
def pushUnit (part : StringPart) (unit : Nat) : StringPart :=
  if 0xdc00 ≤ unit ∧ unit < 0xe000 then
    match part.half with
    | some half =>
      { part with
        chars := Char.ofNat (0x10000 + (half - 0xd800) * 0x400 + (unit - 0xdc00)) :: part.chars
        half := none }
    | none => { part with garbled := true }
  else if 0xd800 ≤ unit ∧ unit < 0xdc00 then
    { part with half := some unit, garbled := part.garbled || part.half.isSome }
  else part.push (Char.ofNat unit)

/-- The value of the literal. -/
def value (part : StringPart) : Json :=
  if part.garbled || part.half.isSome then .garbled
  else .text (String.ofList part.chars.reverse)

end StringPart

/-- Where the reader of tokens stands. -/
inductive Lexing where
  /-- Between two tokens. -/
  | between
  /-- In a literal or a number; its characters, last one first. -/
  | word (chars : List Char)
  /-- In a string. -/
  | string (part : StringPart)
  /-- Behind the backslash of a string. -/
  | escape (part : StringPart)
  /-- In the four digits of a `\u` escape: how many are to come, and the value so far. -/
  | unit (part : StringPart) (toCome value : Nat)

/-- The white space of a document. -/
def isSpace (c : Char) : Bool := c = ' ' || c = '\t' || c = '\n' || c = '\r'

/-- A character of a literal or a number. -/
def isWordChar (c : Char) : Bool := c.isAlphanum || c = '-' || c = '+' || c = '.'

/-- The value of a digit in base sixteen. -/
def hexValue? (c : Char) : Option Nat :=
  if '0' ≤ c ∧ c ≤ '9' then some (c.toNat - '0'.toNat)
  else if 'a' ≤ c ∧ c ≤ 'f' then some (c.toNat - 'a'.toNat + 10)
  else if 'A' ≤ c ∧ c ≤ 'F' then some (c.toNat - 'A'.toNat + 10)
  else none

/-- The character an escape of one letter stands for. -/
def escaped? (c : Char) : Option Char :=
  match c with
  | '"' => some '"'
  | '\\' => some '\\'
  | '/' => some '/'
  | 'b' => some '\x08'
  | 'f' => some '\x0c'
  | 'n' => some '\n'
  | 'r' => some '\r'
  | 't' => some '\t'
  | _ => none

/-- The bracket or mark of a single character. -/
def mark? (c : Char) : Option Token :=
  match c with
  | '[' => some .openArray
  | ']' => some .closeArray
  | '\x7b' => some .openObject
  | '\x7d' => some .closeObject
  | ',' => some .comma
  | ':' => some .colon
  | _ => none

/-- One or more digits, up to the end or to a character that `stop` accepts. -/
def digitsThen (next : List Char → Bool) (s : List Char) : Bool :=
  match s with
  | [] => false
  | c :: rest => c.isDigit && next (rest.dropWhile Char.isDigit)

/-- The exponent of a number, if there is one, and nothing else. -/
def isExponent (s : List Char) : Bool :=
  match s with
  | [] => true
  | c :: rest =>
    (c = 'e' || c = 'E') &&
      match rest with
      | '+' :: digits | '-' :: digits => digitsThen List.isEmpty digits
      | digits => digitsThen List.isEmpty digits

/-- The fraction and the exponent of a number. -/
def isFraction (s : List Char) : Bool :=
  match s with
  | '.' :: rest => digitsThen isExponent rest
  | rest => isExponent rest

/-- The word is a number: no leading zeros, digits on both sides of the point. -/
def isNumber (s : List Char) : Bool :=
  let unsigned := match s with | '-' :: rest => rest | rest => rest
  match unsigned with
  | '0' :: rest => isFraction rest
  | digits => digitsThen isFraction digits

/-- The value of a word. -/
def wordValue? (word : List Char) : Option Json :=
  if word = ['n', 'u', 'l', 'l'] then some .null
  else if word = ['t', 'r', 'u', 'e'] then some (.bool true)
  else if word = ['f', 'a', 'l', 's', 'e'] then some (.bool false)
  else if isNumber word then some (.number word)
  else none

/-- Begin a token with the character. -/
def Lexing.begin (tokens : List Token) (c : Char) : Option (Lexing × List Token) :=
  if isSpace c then some (.between, tokens)
  else if c = '"' then some (.string {}, tokens)
  else if isWordChar c then some (.word [c], tokens)
  else (mark? c).map fun token => (.between, token :: tokens)

/-- Read one character. The tokens so far are given and returned last one first. -/
def Lexing.read (tokens : List Token) (c : Char) : Lexing → Option (Lexing × List Token)
  | between => begin tokens c
  | word chars =>
    if isWordChar c then some (word (c :: chars), tokens)
    -- The character that ends a word begins the next token.
    else (wordValue? chars.reverse).bind fun value => begin (.scalar value :: tokens) c
  | string part =>
    if c = '"' then some (between, .scalar part.value :: tokens)
    else if c = '\\' then some (escape part, tokens)
    -- Control characters have to be escaped.
    else if c.toNat < 0x20 then none
    else some (string (part.push c), tokens)
  | escape part =>
    if c = 'u' then some (unit part 4 0, tokens)
    else (escaped? c).map fun plain => (string (part.push plain), tokens)
  | unit part toCome value =>
    (hexValue? c).map fun digit =>
      let value := value * 16 + digit
      if toCome ≤ 1 then (string (part.pushUnit value), tokens)
      else (unit part (toCome - 1) value, tokens)

/-- Read bytes that are no character. -/
def Lexing.readGap : Lexing → Option Lexing
  | string part => some (string { part with garbled := true })
  | _ => none

/-- Read all characters; bytes that are none are given as `none`. -/
def Lexing.readAll : Lexing → List Token → List (Option Char) → Option (List Token)
  | between, tokens, [] => some tokens.reverse
  | word chars, tokens, [] =>
    (wordValue? chars.reverse).map fun value => (.scalar value :: tokens).reverse
  | _, _, [] => none
  | state, tokens, none :: s =>
    match state.readGap with
    | some state => readAll state tokens s
    | none => none
  | state, tokens, some c :: s =>
    match state.read tokens c with
    | some (state, tokens) => readAll state tokens s
    | none => none

/-- The tokens of a document. -/
def tokens? (s : List (Option Char)) : Option (List Token) := Lexing.readAll .between [] s

end BuildTrace.Json
