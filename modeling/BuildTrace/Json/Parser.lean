import BuildTrace.Json.Token
import BuildTrace.Text.Utf8

/-!
# Reading JSON

The tokens of a document are read one after the other. What is open at a point of the document is
kept on a stack; a document is a single value with nothing behind it.
-/

namespace BuildTrace.Json

/-- The members of an object so far, last one first, unless one of the keys is no text. -/
abbrev Members := Option (List (String × Json))

/-- The object with the members. -/
def ofMembers : Members → Json
  | some members => .object members.reverse
  | none => .garbled

/-- The key that a value stands for, if it is a string literal; the literal may denote no text. -/
def key? : Json → Option (Option String)
  | .text key => some (some key)
  | .garbled => some none
  | _ => none

/-- A list or an object whose end has not been read. -/
inductive Frame where
  /-- A list with its items so far, last one first. -/
  | items (done : List Json)
  /-- An object with its members so far, and the key of the member at hand. -/
  | members (done : Members) (key : Option String)

/-- What may come next. -/
inductive Expect where
  /-- A value. -/
  | value
  /-- A value, or the end of the list that was just opened. -/
  | firstItem
  /-- A key, or the end of the object that was just opened. -/
  | firstKey
  /-- A key. -/
  | key (done : Members)
  /-- The colon behind a key. -/
  | colon (done : Members) (key : Option String)
  /-- A comma or the end of what is open. -/
  | more
  /-- Nothing: the document is complete. -/
  | done (value : Json)

/-- Where a reader stands: what may come next, and what is open, innermost first. -/
structure Reading where
  /-- What may come next. -/
  expect : Expect
  /-- The open lists and objects. -/
  stack : List Frame

namespace Reading

/-- A value has been read. -/
def put (value : Json) : List Frame → Reading
  | [] => ⟨.done value, []⟩
  | .items done :: rest => ⟨.more, .items (value :: done) :: rest⟩
  | .members done key :: rest =>
    let done := key.bind fun key => done.map ((key, value) :: ·)
    ⟨.more, .members done key :: rest⟩

/-- A token stands where a value may begin. -/
def beginValue (stack : List Frame) : Token → Option Reading
  | .scalar value => some (put value stack)
  | .openArray => some ⟨.firstItem, .items [] :: stack⟩
  | .openObject => some ⟨.firstKey, stack⟩
  | _ => none

/-- Read one token. -/
def read (token : Token) (r : Reading) : Option Reading :=
  match r.expect, token, r.stack with
  | .firstItem, .closeArray, .items _ :: stack => some (put (.array []) stack)
  | .value, _, stack | .firstItem, _, stack => beginValue stack token
  | .firstKey, .closeObject, stack => some (put (.object []) stack)
  | .firstKey, .scalar value, stack => (key? value).map fun key => ⟨.colon (some []) key, stack⟩
  | .key done, .scalar value, stack => (key? value).map fun key => ⟨.colon done key, stack⟩
  | .colon done key, .colon, stack => some ⟨.value, .members done key :: stack⟩
  | .more, .comma, .items done :: stack => some ⟨.value, .items done :: stack⟩
  | .more, .comma, .members done _ :: stack => some ⟨.key done, stack⟩
  | .more, .closeArray, .items done :: stack => some (put (.array done.reverse) stack)
  | .more, .closeObject, .members done _ :: stack => some (put (ofMembers done) stack)
  | _, _, _ => none

/-- Read all tokens to the end of the document. -/
def readAll : Reading → List Token → Option Json
  | ⟨.done value, _⟩, [] => some value
  | _, [] => none
  | r, token :: rest =>
    match r.read token with
    | some r => readAll r rest
    | none => none

end Reading

/-- The value of a document; bytes that are no character are given as `none`. -/
def ofChars? (document : List (Option Char)) : Option Json :=
  (tokens? document).bind fun tokens => Reading.readAll ⟨.value, []⟩ tokens

/-- The value of a document. -/
def parse? (document : String) : Option Json := ofChars? (document.toList.map some)

/-- The value of a document in bytes. -/
def parseBytes? (document : List UInt8) : Option Json :=
  ofChars? (Text.Utf8.decodeFrom none document)

end BuildTrace.Json
