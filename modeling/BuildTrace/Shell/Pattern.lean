import BuildTrace.Shell.Bytes

/-!
# Shell patterns

A pattern stands for texts: `*` for any text, `?` for any character, and a list in brackets for one
of its characters. A list has characters, ranges, and classes such as `[:alpha:]`. A backslash takes
the meaning from the character behind it.
-/

namespace BuildTrace.Shell

/-- A class of characters. -/
inductive CharClass where
  /-- Letters and digits. -/
  | alnum
  /-- Letters. -/
  | alpha
  /-- A space or a tab. -/
  | blank
  /-- Characters without a shape of their own. -/
  | cntrl
  /-- Digits. -/
  | digit
  /-- Characters that can be seen. -/
  | graph
  /-- Small letters. -/
  | lower
  /-- Characters that can be seen, and the space. -/
  | print
  /-- Characters that can be seen, but for letters and digits. -/
  | punct
  /-- White space. -/
  | space
  /-- Capital letters. -/
  | upper
  /-- Digits of base sixteen. -/
  | xdigit
  deriving DecidableEq

namespace CharClass

/-- The classes with their names. -/
def names : List (String × CharClass) :=
  [("alnum", alnum), ("alpha", alpha), ("blank", blank), ("cntrl", cntrl), ("digit", digit),
    ("graph", graph), ("lower", lower), ("print", print), ("punct", punct), ("space", space),
    ("upper", upper), ("xdigit", xdigit)]

/-- The class with the name. -/
def ofName? (name : List Char) : Option CharClass := names.lookup (String.ofList name)

/-- The character can be seen. -/
def isGraph (c : Char) : Bool := '!' ≤ c && c ≤ '~'

/-- The character belongs to the class. -/
def has (c : Char) : CharClass → Bool
  | alnum => c.isAlphanum
  | alpha => c.isAlpha
  | blank => isBlank c
  | cntrl => c < ' ' || c = '\x7f'
  | digit => c.isDigit
  | graph => isGraph c
  | lower => c.isLower
  | print => isGraph c || c = ' '
  | punct => isGraph c && !c.isAlphanum
  | space => isSpace c
  | upper => c.isUpper
  | xdigit => c.isDigit || ('a' ≤ c && c ≤ 'f') || ('A' ≤ c && c ≤ 'F')

end CharClass

/-- A member of a list in brackets. -/
inductive ListItem where
  /-- The characters from one to another. -/
  | range (first last : Char)
  /-- The characters of a class. -/
  | ofClass (value : CharClass)
  deriving DecidableEq

/-- The character belongs to the item. -/
def ListItem.has (c : Char) : ListItem → Bool
  | range first last => first ≤ c && c ≤ last
  | ofClass value => value.has c

/-- An item of a pattern. -/
inductive Pattern.Item where
  /-- Any text. -/
  | any
  /-- Any character. -/
  | one
  /-- A character of one of the items, or of none of them. -/
  | within (negated : Bool) (items : List ListItem)
  /-- The character itself. -/
  | char (c : Char)
  deriving DecidableEq

/-- A pattern. -/
abbrev Pattern := List Pattern.Item

/-- A character of a text, and whether it is quoted. -/
abbrev Quotable := Char × Bool

namespace Pattern

/-- The class at the beginning, behind its bracket, and what follows it. -/
def class? (s : List Quotable) : Option (CharClass × List Quotable) :=
  match s with
  | (':', false) :: rest =>
    let name := rest.takeWhile fun (c, _) => c.isAlpha
    match rest.drop name.length with
    | (':', false) :: (']', false) :: behind =>
      (CharClass.ofName? (name.map Prod.fst)).map (·, behind)
    | _ => none
  | _ => none

/-- Drop a backslash in front of a character, which is quoted then. -/
def unescape : List Quotable → List Quotable
  | ('\\', false) :: (c, _) :: rest => (c, true) :: rest
  | s => s

/-- The items of a list in brackets and what follows the bracket. The first character may be a
bracket itself. -/
def items? : Nat → (first : Bool) → List Quotable → Option (List ListItem × List Quotable)
  | 0, _, _ => none
  | fuel + 1, first, s =>
    let withItem := fun (item : ListItem) (rest : List Quotable) =>
      (items? fuel false rest).map fun (items, rest) => (item :: items, rest)
    match s with
    | [] => none
    | (']', false) :: rest => if first then withSingle fuel ']' rest else some ([], rest)
    | ('[', false) :: rest =>
      match class? rest with
      | some (value, rest) => withItem (.ofClass value) rest
      | none => withSingle fuel '[' rest
    | s =>
      match unescape s with
      | (c, _) :: rest => withSingle fuel c rest
      | [] => none
where
  /-- The items behind a character, which may begin a range. -/
  withSingle (fuel : Nat) (c : Char) (rest : List Quotable) :
      Option (List ListItem × List Quotable) :=
    match rest with
    | ('-', false) :: next :: behind =>
      if next = (']', false) then
        (items? fuel false rest).map fun (items, rest) => (.range c c :: items, rest)
      else
        match unescape (next :: behind) with
        | (d, _) :: behind =>
          (items? fuel false behind).map fun (items, rest) => (.range c d :: items, rest)
        | [] => none
    | _ => (items? fuel false rest).map fun (items, rest) => (.range c c :: items, rest)

/-- The pattern of characters, each of which may be quoted; a quoted one stands for itself. -/
def ofChars : Nat → List Quotable → Pattern
  | 0, _ => []
  | _, [] => []
  | fuel + 1, (c, quoted) :: s =>
    if quoted then .char c :: ofChars fuel s
    else if c = '*' then .any :: ofChars fuel s
    else if c = '?' then .one :: ofChars fuel s
    else if c = '\\' then
      match s with
      | (d, _) :: s => .char d :: ofChars fuel s
      | [] => [.char c]
    else if c = '[' then
      let (negated, list) :=
        match s with
        | (d, false) :: rest => if d = '!' || d = '^' then (true, rest) else (false, s)
        | s => (false, s)
      match items? (list.length + 1) true list with
      | some (items, s) => .within negated items :: ofChars fuel s
      -- A bracket that is never closed stands for itself.
      | none => .char c :: ofChars fuel s
    else .char c :: ofChars fuel s

/-- The pattern of a text. -/
def ofQuotable (s : List Quotable) : Pattern := ofChars (s.length + 1) s

/-- The pattern of a text without quotes. -/
def ofText (s : List Char) : Pattern := ofQuotable (s.map (·, false))

/-- The character fits the item. -/
def Item.fits (c : Char) : Item → Bool
  | any => true
  | one => true
  | within negated items => (items.any (·.has c)) != negated
  | char d => c = d

/-- Some end of the text, which may be all of it, satisfies `p`. -/
def anyEnd (p : List Char → Bool) : List Char → Bool
  | [] => p []
  | c :: s => p (c :: s) || anyEnd p s

/-- The whole text fits the pattern. -/
def fits : Pattern → List Char → Bool
  | [], s => s.isEmpty
  | .any :: p, s => p.isEmpty || anyEnd (fits p) s
  | _ :: _, [] => false
  | item :: p, c :: s => item.fits c && fits p s

/-- What is left when a part at the beginning that fits is taken away: the shortest one, or the
longest one. Nothing is taken away if no part fits. -/
def cutStart (longest : Bool) (p : Pattern) (s : List Char) : List Char :=
  let lengths := List.range (s.length + 1)
  let lengths := if longest then lengths.reverse else lengths
  match lengths.find? fun n => fits p (s.take n) with
  | some n => s.drop n
  | none => s

/-- What is left when a part at the end that fits is taken away. -/
def cutEnd (longest : Bool) (p : Pattern) (s : List Char) : List Char :=
  let lengths := List.range (s.length + 1)
  let lengths := if longest then lengths else lengths.reverse
  match lengths.find? fun n => fits p (s.drop n) with
  | some n => s.take n
  | none => s

end Pattern

end BuildTrace.Shell
