import BuildTrace.Shell.Real

/-!
# Formats

The escapes that `echo` and `printf` understand, and the directives of a format.
-/

namespace BuildTrace.Shell

/-! ## Escapes -/

/-- The value of the octal digits at the beginning, at most `limit` of them, and what follows. -/
def octal (limit : Nat) (s : List Char) : Nat × List Char :=
  let digits := (s.take limit).takeWhile Arithmetic.isOctalDigit
  (digitsValue 8 digits, s.drop digits.length)

/-- The character an escape of one letter stands for. -/
def escapeChar? (c : Char) : Option Char :=
  match c with
  | 'a' => some '\x07'
  | 'b' => some '\x08'
  | 'e' => some '\x1b'
  | 'f' => some '\x0c'
  | 'n' => some '\n'
  | 'r' => some '\r'
  | 't' => some '\t'
  | 'v' => some '\x0b'
  | '\\' => some '\\'
  | _ => none

/-- The character with the number, as far as a byte can hold it. -/
def byteChar (n : Nat) : Char := Char.ofNat (n % 256)

/-- The character of the escape behind a backslash, and what follows it; a backslash without a
meaning stands for itself. -/
def escape (s : List Char) : Char × List Char :=
  match s with
  | [] => ('\\', [])
  | c :: rest =>
    if Arithmetic.isOctalDigit c then
      let (n, rest) := octal 3 s
      (byteChar n, rest)
    else
      match escapeChar? c with
      | some d => (d, rest)
      | none => ('\\', s)

/-- The text with its escapes replaced, and whether `\c` ends the output. A zero may stand in front
of octal digits. -/
def unescape : Nat → List Char → List Char × Bool
  | 0, _ => ([], false)
  | _, [] => ([], false)
  | fuel + 1, c :: s =>
    let goOn := fun (c : Char) (s : List Char) =>
      let (more, stops) := unescape fuel s
      (c :: more, stops)
    if c = '\\' then
      match s with
      | 'c' :: _ => ([], true)
      | '0' :: d :: rest =>
        let (c, s) := escape (if Arithmetic.isOctalDigit d then d :: rest else s)
        goOn c s
      | _ =>
        let (c, s) := escape s
        goOn c s
    else goOn c s

/-- The text with its escapes replaced, and whether the output ends. -/
def unescapeText (s : String) : List Char × Bool := unescape (s.length + 1) s.toList

/-! ## Layouts -/

/-- How a value is set in a field. -/
structure Layout where
  /-- The text stands at the left. -/
  left : Bool := false
  /-- Zeros fill the field. -/
  zeros : Bool := false
  /-- A plus sign is written. -/
  plus : Bool := false
  /-- A space stands for a plus sign. -/
  blank : Bool := false
  /-- The base of a number is written, or the point behind it. -/
  alternate : Bool := false
  /-- The least width. -/
  width : Nat := 0
  /-- The least number of digits, or the greatest number of characters. -/
  precision : Option Nat := none

namespace Layout

/-- Fill up to the width. -/
def fill (l : Layout) (usesZeros : Bool) (sign text : List Char) : List Char :=
  let missing := l.width - sign.length - text.length
  if l.left then sign ++ text ++ List.replicate missing ' '
  else if usesZeros then sign ++ List.replicate missing '0' ++ text
  else List.replicate missing ' ' ++ sign ++ text

/-- The text in its field. -/
def text (l : Layout) (s : List Char) : List Char :=
  l.fill false [] (l.precision.elim s fun n => s.take n)

/-- The sign in front of a number. -/
def sign (l : Layout) (negative : Bool) : List Char :=
  if negative then ['-'] else if l.plus then ['+'] else if l.blank then [' '] else []

/-- The digits of a number with the least number of digits. -/
def digits (l : Layout) (base : Nat) (n : Nat) : List Char :=
  let ds := if n = 0 && l.precision = some 0 then [] else Nat.toDigits base n
  List.replicate (l.precision.getD 0 - ds.length) '0' ++ ds

/-- A whole number with a sign. -/
def signed (l : Layout) (n : Int) : List Char :=
  l.fill (l.zeros && l.precision.isNone) (l.sign (n < 0)) (l.digits 10 n.natAbs)

/-- A whole number without a sign. -/
def unsigned (l : Layout) (base : Nat) (isUpper : Bool) (n : Nat) : List Char :=
  let ds := l.digits base n
  let lead := if l.alternate && base = 16 && n != 0 then ['0', 'x'] else []
  let ds := if l.alternate && base = 8 && ds.head? != some '0' then '0' :: ds else ds
  let text := l.fill (l.zeros && l.precision.isNone) lead ds
  if isUpper then text.map Char.toUpper else text

/-- A real number. -/
def real (l : Layout) (kind : Char) (x : Real) : List Char :=
  let sign := l.sign x.isNegative
  let text :=
    match x with
    | .infinite _ => l.fill false sign "inf".toList
    | .nan _ => l.fill false sign "nan".toList
    | .finite _ n d =>
      let places := l.precision.getD 6
      match kind.toLower with
      | 'e' => l.fill l.zeros sign (Real.scientific places l.alternate n d)
      | 'f' => l.fill l.zeros sign (Real.fixed places l.alternate n d)
      | 'g' => l.fill l.zeros sign (Real.general places l.alternate n d)
      | _ =>
        let text := Real.binary l.precision l.alternate n d
        l.fill l.zeros (sign ++ text.take 2) (text.drop 2)
  if kind.isUpper then text.map Char.toUpper else text

end Layout

/-! ## Formats -/

/-- A format that is being printed. -/
structure Printing where
  /-- The arguments that are left. -/
  arguments : List String
  /-- The characters so far, the last one first. -/
  printed : List Char := []
  /-- The messages so far, the last one first. -/
  messages : List String := []
  /-- The output ends. -/
  stops : Bool := false
  /-- The format is mistaken. -/
  isWrong : Bool := false

namespace Printing

/-- The next argument, if there is one, and what is printed behind it. -/
def next (p : Printing) : Option String × Printing :=
  (p.arguments.head?, { p with arguments := p.arguments.drop 1 })

/-- Print characters. -/
def add (p : Printing) (text : List Char) : Printing :=
  { p with printed := text.reverse ++ p.printed }

/-- Note a message. -/
def note (p : Printing) (message : String) : Printing :=
  { p with messages := message :: p.messages }

/-- Note what is wrong with the number in an argument. -/
def noteRest (p : Printing) (argument : String) (found isInRange : Bool) (rest : List Char) :
    Printing :=
  if !found then
    if argument.isEmpty then p else p.note (argument ++ ": expected numeric value")
  else if !rest.isEmpty then p.note (argument ++ ": not completely converted")
  else if !isInRange then p.note (argument ++ ": Numerical result out of range")
  else p

/-- The character behind a quote, which stands for its number. -/
def quotedChar? (argument : String) : Option Nat :=
  match argument.toList with
  | q :: rest => if q = '"' || q = '\'' then some ((rest.head?.map Char.toNat).getD 0) else none
  | [] => none

/-- The whole number of the next argument, in the range of those with or without a sign. -/
def number (p : Printing) (isSigned : Bool) : Int × Printing :=
  match p.next with
  | (none, p) => (0, p)
  | (some argument, p) =>
    match quotedChar? argument with
    | some n => (n, p)
    | none =>
      let (negative, digits) :=
        match argument.toList.dropWhile isSpace with
        | '-' :: digits => (true, digits)
        | '+' :: digits => (false, digits)
        | digits => (false, digits)
      match Arithmetic.constant? digits with
      | none => (0, p.noteRest argument false true [])
      | some (n, rest) =>
        let value : Int := if negative then -n else n
        let clamped :=
          if isSigned then Arithmetic.clamp value
          else if Text.wordLimit ≤ n then Text.wordLimit - 1
          -- A number below zero is counted from the end of the range.
          else value % Text.wordLimit
        let isInRange := if isSigned then clamped = value else n < Text.wordLimit
        (clamped, p.noteRest argument true isInRange rest)

/-- The real number of the next argument. -/
def real (p : Printing) : Real × Printing :=
  let zero := Real.finite false 0 1
  match p.next with
  | (none, p) => (zero, p)
  | (some argument, p) =>
    match quotedChar? argument with
    | some n => (.finite false n 1, p)
    | none =>
      match Real.ofText? argument.toList with
      | none => (zero, p.noteRest argument false true [])
      | some (x, rest) => (x, p.noteRest argument true true rest)

/-- A number in a directive: the digits here, or the next argument for a star. -/
def size? (p : Printing) (s : List Char) : Option Int × List Char × Printing :=
  match s with
  | '*' :: s =>
    let (n, p) := p.number true
    (some n, s, p)
  | _ =>
    let digits := s.takeWhile Char.isDigit
    (if digits.isEmpty then none else some (digitsValue 10 digits), s.drop digits.length, p)

/-- The layout of a directive, and what follows it. -/
def layout (p : Printing) (s : List Char) : Layout × List Char × Printing :=
  let flags := s.takeWhile ['-', '+', ' ', '#', '0'].contains
  let (width, s, p) := p.size? (s.drop flags.length)
  let width := width.getD 0
  -- A width below zero asks for the left side.
  let layout : Layout :=
    { left := flags.contains '-' || width < 0
      zeros := flags.contains '0' && !flags.contains '-' && 0 ≤ width
      plus := flags.contains '+'
      blank := flags.contains ' '
      alternate := flags.contains '#'
      width := width.natAbs }
  match s with
  | '.' :: s =>
    let (precision, s, p) := p.size? s
    let n := precision.getD 0
    ({ layout with precision := if n < 0 then none else some n.natAbs }, s, p)
  | s => (layout, s, p)

/-- Print the value of a directive. -/
def directive (p : Printing) (l : Layout) (kind : Char) : Printing :=
  match kind with
  | 's' =>
    let (argument, p) := p.next
    p.add (l.text (argument.getD "").toList)
  | 'c' =>
    let (argument, p) := p.next
    p.add (l.fill false [] [(argument.getD "").toList.headD '\x00'])
  | 'b' =>
    let (argument, p) := p.next
    let (text, stops) := unescapeText (argument.getD "")
    { p.add (l.text text) with stops }
  | 'd' | 'i' =>
    let (n, p) := p.number true
    p.add (l.signed n)
  | 'o' | 'u' | 'x' | 'X' =>
    let (n, p) := p.number false
    let base := if kind = 'o' then 8 else if kind = 'u' then 10 else 16
    p.add (l.unsigned base (kind = 'X') n.toNat)
  | _ =>
    let (x, p) := p.real
    p.add (l.real kind x)

/-- The letters of directives. -/
def kinds : List Char :=
  ['b', 'c', 's', 'd', 'i', 'o', 'u', 'x', 'X', 'a', 'A', 'e', 'E', 'f', 'F', 'g', 'G']

/-- Print a format once. -/
def once : Nat → Printing → List Char → Printing
  | 0, p, _ => p
  | _, p, [] => p
  | fuel + 1, p, c :: s =>
    if p.stops then p
    else if c = '\\' then
      let (c, s) := escape s
      once fuel (p.add [c]) s
    else if c = '%' then
      if s.head? = some '%' then once fuel (p.add ['%']) (s.drop 1)
      else
        let (l, rest, p) := p.layout s
        match rest with
        | [] => { p.note "missing format character" with stops := true, isWrong := true }
        | kind :: rest =>
          if kinds.contains kind then once fuel (p.directive l kind) rest
          else
            let shown := '%' :: s.take (s.length - rest.length)
            { p.note (String.ofList shown ++ ": invalid directive") with
              stops := true, isWrong := true }
    else once fuel (p.add [c]) s

/-- Print a format until there are no arguments left. -/
def all (format : List Char) : Nat → Printing → Printing
  | 0, p => p
  | fuel + 1, p =>
    let after := once (format.length + 1) p format
    -- A format that takes no arguments is printed once, however many there are.
    if after.stops || after.arguments.isEmpty || after.arguments.length = p.arguments.length then
      after
    else all format fuel after

/-- Print a format with arguments. -/
def ofFormat (format : String) (arguments : List String) : Printing :=
  all format.toList (arguments.length + 1) { arguments }

/-- What was printed. -/
def text (p : Printing) : String := String.ofList p.printed.reverse

end Printing

end BuildTrace.Shell
