import BuildTrace.Regex.Basic
import BuildTrace.Text.Basic

/-!
# Regular expressions in texts

The two ways to write a regular expression: with a backslash in front of what has a meaning, or in
front of what has none.
-/

namespace BuildTrace.Regex

open Shell (ListItem CharClass digitsValue)

/-- How an expression is written. -/
structure Flavor where
  /-- Parentheses and the like have a meaning without a backslash. -/
  isExtended : Bool
  /-- A sign for more of what is missing in front of it is a mistake. -/
  isStrict : Bool := false

/-- What is left to be read, and how many numbered texts there are. -/
structure Rest where
  /-- The text. -/
  text : List Char
  /-- The number of texts whose number is given. -/
  count : Nat := 0
  /-- The numbers of the texts that are complete. -/
  closed : List Nat := []
  /-- What may not be meant, the last first. -/
  warnings : List String := []

/-! ## Lists in brackets -/

/-- The message about a list without an end. -/
def openList : String := "Unmatched [, [^, [:, [., or [="

/-- The character or the class that a name in brackets stands for; the sign in front of the name is
that behind it. -/
def named? (sign : Char) (s : List Char) : Except String (ListItem × List Char) :=
  let name := s.takeWhile (· != sign)
  match s.drop name.length with
  | _ :: ']' :: rest =>
    if sign = ':' then
      match CharClass.ofName? name with
      | some value => .ok (.ofClass value, rest)
      | none => .error "Invalid character class name"
    else
      match name with
      | [c] => .ok (.range c c, rest)
      | _ => .error "Invalid collation character"
  | _ => .error openList

/-- The items of a list up to its bracket. The first character may be a bracket itself. -/
def items : Nat → (isFirst : Bool) → List Char → Except String (List ListItem × List Char)
  | 0, _, _ => .error openList
  | fuel + 1, isFirst, s => do
    let (item, s) ← match s with
      | [] => .error openList
      | '[' :: sign :: rest =>
        if [':', '.', '='].contains sign then named? sign rest
        else .ok (.range '[' '[', sign :: rest)
      | c :: rest => .ok (.range c c, rest)
    match item with
    | .range c _ =>
      if c = ']' && !isFirst then .ok ([], s)
      else
        match s with
        | '-' :: d :: rest =>
          -- A dash in front of the closing bracket is a character of its own.
          if d = ']' then
            let (more, s) ← items fuel false s
            .ok (item :: more, s)
          else
            let (last, rest) ← match d, rest with
              | '[', sign :: rest' =>
                if ['.', '='].contains sign then
                  match named? sign rest' with
                  | .ok (.range e _, rest) => .ok (e, rest)
                  | .ok _ => .error "Invalid range end"
                  | .error message => .error message
                else .ok (d, rest)
              | _, _ => .ok (d, rest)
            if last < c then .error "Invalid range end"
            let (more, s) ← items fuel false rest
            .ok (.range c last :: more, s)
        | _ =>
          let (more, s) ← items fuel false s
          .ok (item :: more, s)
    | _ =>
      let (more, s) ← items fuel false s
      .ok (item :: more, s)

/-- The list behind a bracket. -/
def list (s : List Char) : Except String (Regex × List Char) := do
  let (negated, s) := match s with
    | '^' :: rest => (true, rest)
    | s => (false, s)
  let (items, rest) ← items (s.length + 1) true s
  .ok (.one negated items, rest)

/-! ## Signs -/

/-- The items for the characters of words. -/
def wordItems : List ListItem := [.ofClass .alnum, .range '_' '_']

/-- What a backslash and a character stand for in both ways of writing. -/
def escaped? (c : Char) : Option Regex :=
  match c with
  | 'w' => some (.one false wordItems)
  | 'W' => some (.one true wordItems)
  | 's' => some (.one false [.ofClass .space])
  | 'S' => some (.one true [.ofClass .space])
  | '<' => some .wordStart
  | '>' => some .wordEnd
  | 'b' => some .wordEdge
  | 'B' => some .noEdge
  | '\x60' => some .textStart
  | '\'' => some .textEnd
  | _ => none

namespace Flavor

/-- What follows a sign that has a meaning, which may need a backslash. -/
def behindSign? (f : Flavor) (c : Char) (s : List Char) : Option (List Char) :=
  if f.isExtended then Text.strip? [c] s else Text.strip? ['\\', c] s

/-- The text is at the end of a branch. -/
def isBranchEnd (f : Flavor) (depth : Nat) (s : List Char) : Bool :=
  s.isEmpty || (f.behindSign? '|' s).isSome ||
    ((f.behindSign? ')' s).isSome && (depth != 0 || !f.isExtended || f.isStrict))

/-- The greatest number of times. -/
def greatest : Nat := 32767

/-- The numbers of times behind a brace, and what follows. -/
def interval (f : Flavor) (s : List Char) : Except String (Nat × Option Nat × List Char) := do
  let first := s.takeWhile Char.isDigit
  let behind := s.drop first.length
  let (least, most, behind) ← match behind with
    | ',' :: rest =>
      let second := rest.takeWhile Char.isDigit
      let most := if second.isEmpty then none else some (digitsValue 10 second)
      .ok (digitsValue 10 first, most, rest.drop second.length)
    | behind =>
      if first.isEmpty then
        .error (if behind.isEmpty then "Unmatched \\\x7b" else "Invalid content of \\\x7b\\\x7d")
      else .ok (digitsValue 10 first, some (digitsValue 10 first), behind)
  match f.behindSign? '\x7d' behind with
  | none =>
    .error (if behind.isEmpty then "Unmatched \\\x7b" else "Invalid content of \\\x7b\\\x7d")
  | some rest =>
    if most.any (· < least) then .error "Invalid content of \\\x7b\\\x7d"
    else if greatest < least || most.any (greatest < ·) then .error "Regular expression too big"
    else .ok (least, most, rest)

/-- The number of times in a sign at the beginning of a text, and what follows. -/
def times? (f : Flavor) (s : List Char) : Except String (Option (Nat × Option Nat × List Char)) :=
  match s with
  | '*' :: rest => .ok (some (0, none, rest))
  | s =>
    match f.behindSign? '+' s with
    | some rest => .ok (some (1, none, rest))
    | none =>
      match f.behindSign? '?' s with
      | some rest => .ok (some (0, some 1, rest))
      | none =>
        match f.behindSign? '\x7b' s with
        | none => .ok none
        | some rest =>
          match f.interval rest with
          | .ok result => .ok (some result)
          | .error message =>
            -- Where that is allowed, a brace that begins no number of times stands for itself.
            let isText := rest.head?.all fun c => !c.isDigit && c != ','
            let isOpen := !(rest.dropWhile fun c => c.isDigit || c = ',').head?.any (· = '\x7d')
            if f.isExtended && !f.isStrict && (isText || isOpen) then .ok none else .error message

end Flavor

/-! ## Expressions -/

/-- The expression with signs for how often it stands. -/
def withTimes (f : Flavor) : Nat → Regex → List Char → Except String (Regex × List Char)
  | 0, e, s => .ok (e, s)
  | fuel + 1, e, s => do
    match ← f.times? s with
    | none => .ok (e, s)
    | some (least, most, rest) => withTimes f fuel (.again least most e) rest

mutual

/-- Branches with signs between them. -/
def branches (f : Flavor) : Nat → (depth : Nat) → Rest → Except String (Regex × Rest)
  | 0, _, rest => .ok (.empty, rest)
  | fuel + 1, depth, rest => do
    let (first, rest) ← branch f fuel depth true rest
    match f.behindSign? '|' rest.text with
    | none => .ok (first, rest)
    | some text =>
      let (second, rest) ← branches f fuel depth { rest with text }
      .ok (.either first second, rest)

/-- A branch up to its end. -/
def branch (f : Flavor) : Nat → (depth : Nat) → (isFirst : Bool) → Rest →
    Except String (Regex × Rest)
  | 0, _, _, rest => .ok (.empty, rest)
  | fuel + 1, depth, isFirst, rest => do
    if f.isBranchEnd depth rest.text then .ok (.empty, rest)
    else
      let size := rest.text.length + 1
      match rest.text with
      | '^' :: text =>
        -- The sign has its meaning at the beginning, and in the extended way everywhere.
        if isFirst || f.isExtended then
          let (more, rest) ← branch f fuel depth true { rest with text }
          .ok (.seq .lineStart more, rest)
        else piece f fuel depth isFirst rest
      | '$' :: text =>
        -- This one has its meaning at the end.
        if f.isExtended || f.isBranchEnd depth text then
          let (e, text) ←
            if f.isExtended then withTimes f size .lineEnd text else .ok (.lineEnd, text)
          let (more, rest) ← branch f fuel depth false { rest with text }
          .ok (.seq e more, rest)
        else piece f fuel depth isFirst rest
      | _ => piece f fuel depth isFirst rest

/-- A piece of a branch, with what follows it. -/
def piece (f : Flavor) : Nat → (depth : Nat) → (isFirst : Bool) → Rest →
    Except String (Regex × Rest)
  | 0, _, _, rest => .ok (.empty, rest)
  | fuel + 1, depth, isFirst, rest => do
    let size := rest.text.length + 1
    let goOn := fun (e : Regex) (rest : Rest) => do
      let (e, text) ← withTimes f size e rest.text
      let (more, rest) ← branch f fuel depth false { rest with text }
      .ok (.seq e more, rest)
    match f.behindSign? '(' rest.text with
    | some text =>
      let number := rest.count + 1
      let (inner, after) ← branches f fuel (depth + 1) { rest with text, count := number }
      match f.behindSign? ')' after.text with
      | some text =>
        goOn (.group number inner) { after with text, closed := number :: after.closed }
      | none => .error "Unmatched ( or \\("
    | none =>
      -- A sign for how often something stands has nothing in front of it here.
      let leading? := if isFirst then f.times? rest.text else .ok none
      match ← leading? with
      | some (_, _, text) =>
        if !f.isExtended then
          match rest.text with
          | '*' :: text => goOn (.char '*') { rest with text }
          | '\\' :: c :: text =>
            if c = '\x7b' && f.isStrict then .error "Invalid preceding regular expression"
            else goOn (.char c) { rest with text }
          | _ => .error "Invalid preceding regular expression"
        else if f.isStrict then .error "Invalid preceding regular expression"
        else
          let sign := match rest.text with
            | c :: _ => if c = '\x7b' then "\x7b...\x7d" else c.toString
            | [] => ""
          let warnings := (sign ++ " at start of expression") :: rest.warnings
          branch f fuel depth true { rest with text, warnings }
      | none =>
        match rest.text with
        | [] => .ok (.empty, rest)
        | '.' :: text => goOn .anyChar { rest with text }
        | '[' :: text =>
          let (e, text) ← list text
          goOn e { rest with text }
        | ['\\'] => .error "Trailing backslash"
        | '\\' :: c :: text =>
          match escaped? c with
          | some e => goOn e { rest with text }
          | none =>
            if c.isDigit && c != '0' then
              let number := c.toNat - '0'.toNat
              -- Only a text that is complete can be referred to.
              if rest.closed.contains number then goOn (.back number) { rest with text }
              else .error "Invalid back reference"
            else goOn (.char c) { rest with text }
        | c :: text => goOn (.char c) { rest with text }

end

/-- An expression that was read. -/
structure Parsed where
  /-- The expression. -/
  regex : Regex
  /-- The number of its numbered texts. -/
  count : Nat
  /-- What may not be meant. -/
  warnings : List String

/-- The expression in a text. -/
def parse (f : Flavor) (s : List Char) : Except String Parsed := do
  let (regex, rest) ← branches f (4 * s.length + 8) 0 { text := s }
  if rest.text.isEmpty then .ok ⟨regex, rest.count, rest.warnings.reverse⟩
  else .error "Unmatched ) or \\)"

end BuildTrace.Regex
