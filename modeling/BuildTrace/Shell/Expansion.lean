import BuildTrace.Shell.Arithmetic
import BuildTrace.Shell.Basic
import BuildTrace.Shell.Pattern

/-!
# Expansion of words

A word becomes a number of fields: its parameters, scripts and expressions are replaced by their
values, values that are not quoted are cut at separators, and fields with a pattern become the
paths that fit it.
-/

namespace BuildTrace.Shell

/-- A sign of an expanded word. -/
inductive Glyph where
  /-- A character, and whether it is quoted. -/
  | char (c : Char) (isQuoted : Bool)
  /-- A field stands here, even if it is empty. -/
  | mark
  /-- The border between two arguments. -/
  | seam
  deriving DecidableEq

/-- Where a segment is cut. -/
inductive Cut where
  /-- Nowhere. -/
  | never
  /-- At the borders between arguments. -/
  | atSeams
  /-- At separators, and at the borders between arguments. -/
  | atSeparators
  deriving DecidableEq

/-- A segment of an expanded word. -/
structure Segment where
  /-- The signs. -/
  glyphs : List Glyph
  /-- Where it is cut. -/
  cut : Cut := .never

/-- Run a script and give what it writes. -/
abbrev Substitution := Script → Shell (List Char)

namespace Expansion

/-- How a word is expanded. -/
structure Mode where
  /-- The word is quoted. -/
  isQuoted : Bool := false
  /-- The word becomes fields. -/
  makesFields : Bool := false
  /-- The texts of the word are cut, too. -/
  cutsTexts : Bool := false
  /-- A tilde may also stand behind a colon. -/
  isValue : Bool := false

/-- The signs of a text. -/
def glyphsOf (isQuoted : Bool) (text : List Char) : List Glyph := text.map (.char · isQuoted)

/-- The characters of segments. -/
def charsOf (segments : List Segment) : List Quotable :=
  segments.flatMap fun s => s.glyphs.filterMap fun
    | .char c q => some (c, q)
    | _ => none

/-- The text of segments that are not cut. -/
def textOf (segments : List Segment) : List Char := (charsOf segments).map Prod.fst

/-- The segment of a value, which is cut unless it is quoted. -/
def valueSegment (mode : Mode) (value : List Char) : Segment :=
  { glyphs := glyphsOf mode.isQuoted value, cut := if mode.isQuoted then .never else .atSeparators }

/-! ## Parameters -/

/-- The options that are set, as a parameter shows them. -/
def optionLetters (s : State) : String :=
  String.ofList ("pubaCEVvxsnmiIfe".toList.filter s.hasOption)

/-- The signs of the arguments, if there are any. -/
def argumentGlyphs? (s : State) (isStar : Bool) (mode : Mode) : Option (List Glyph) :=
  let first := (s.separators.head?.map fun c => Glyph.char c mode.isQuoted).toList
  let separator :=
    -- Where fields are made, the arguments stay apart, whatever separates fields.
    if mode.makesFields && !(isStar && mode.isQuoted) then
      if mode.isQuoted || (s.value? "IFS").isSome then [Glyph.seam] else [Glyph.char ' ' false]
    else first
  if s.arguments.isEmpty then none
  else
    some (separator.intercalate (s.arguments.map fun a => glyphsOf mode.isQuoted a.toList))

/-- The signs of the value of a parameter, if it has one. -/
def parameter? (s : State) (mode : Mode) (name : String) : Option (List Glyph) :=
  let value? : Option String :=
    match name with
    | "#" => some (toString s.arguments.length)
    | "?" => some (toString s.status)
    | "$" => some (toString s.main)
    | "!" => s.background.map toString
    | "-" => some (optionLetters s)
    | "0" => some s.name
    | _ =>
      match name.toNat? with
      | some n => if n = 0 then some s.name else s.arguments[n - 1]?
      | none => s.value? name
  match name with
  | "@" => argumentGlyphs? s false mode
  | "*" => argumentGlyphs? s true mode
  | _ => value?.map fun value => glyphsOf mode.isQuoted value.toList

/-- The segment of the signs of a parameter. -/
def parameterSegment (s : State) (mode : Mode) (name : String) (glyphs : List Glyph) : Segment :=
  let cut :=
    if !mode.isQuoted then Cut.atSeparators
    else if name = "@" && mode.makesFields && !s.arguments.isEmpty then .atSeams
    else .never
  { glyphs, cut }

/-- The signs as characters; a border is a zero. -/
def plainChars (glyphs : List Glyph) : List Char :=
  glyphs.filterMap fun
    | .char c _ => some c
    | .seam => some '\x00'
    | .mark => none

/-- The signs of a text in which a zero is a border. -/
def glyphsOfPlain (isQuoted : Bool) (text : List Char) : List Glyph :=
  text.map fun c => if c = '\x00' then .seam else .char c isQuoted

/-- The message about a parameter without a value. -/
def failUnset {α : Type} (name : String) (orNull : Bool) (message : List Char) : Shell α :=
  let text :=
    if message.isEmpty then if orNull then "parameter not set or null" else "parameter not set"
    else String.ofList message
  fail (name ++ ": " ++ text)

/-! ## Home directories -/

/-- The home directory of a user, if the user is known. -/
def homeOf? (user : List Char) : Option String :=
  if user = "root".toList then some "/root" else none

/-- What stands for a tilde and the name behind it, and what follows them. `isLast` tells whether
the text is the end of the word. -/
def tilde? (s : State) (isValue isLast : Bool) (text : List Char) :
    Option (List Char × List Char) :=
  match text with
  | '~' :: rest =>
    let user := rest.takeWhile fun c => c != '/' && !(isValue && c = ':')
    let behind := rest.drop user.length
    -- The name may go on in a part that is no plain text.
    if behind.isEmpty && !isLast then none
    else
      let home := if user.isEmpty then s.value? "HOME" else homeOf? user
      home.map fun home => (home.toList, behind)
  | _ => none

/-- The signs of a text at the beginning of which, or behind each colon of which, a tilde may
stand. -/
def textGlyphs (s : State) (mode : Mode) (isLast : Bool) :
    Nat → (atStart : Bool) → List Char → List Glyph
  | 0, _, _ => []
  | _, _, [] => []
  | fuel + 1, atStart, c :: rest =>
    match if atStart then tilde? s mode.isValue isLast (c :: rest) else none with
    | some (home, behind) => glyphsOf true home ++ textGlyphs s mode isLast fuel false behind
    | none => .char c false :: textGlyphs s mode isLast fuel (mode.isValue && c = ':') rest

/-! ## Parts and words -/

mutual

/-- The segments of a part. `atStart` and `isLast` tell whether it is the first and the last part of
the word. -/
def part (substitute : Substitution) (mode : Mode) (atStart isLast : Bool) :
    Part → Shell (List Segment)
  | .text value isQuoted => do
    if isQuoted || mode.isQuoted then
      return [⟨glyphsOf true value, .never⟩]
    else
      let glyphs := textGlyphs (← get) mode isLast (value.length + 1) atStart value
      return [⟨glyphs, if mode.cutsTexts then .atSeparators else .never⟩]
  | .quotes [.parameter "@" .plain _ _] => do
    if mode.isQuoted then parameter "@"
    else
      let inner := { mode with isQuoted := true }
      let s ← get
      match parameter? s inner "@" with
      | some glyphs => return [parameterSegment s inner "@" glyphs]
      | none => return []
  | .quotes inner => do
    let segments ← parts substitute { mode with isQuoted := true } false inner
    -- Quotes make a field even if there is nothing between them.
    return ⟨[.mark], .never⟩ :: segments ++ [⟨[.mark], .never⟩]
  | .output script => do
    let text := Text.dropEndWhile (· == '\n') (← substitute script)
    return [valueSegment mode (text.filter (· != '\x00'))]
  | .number expression => do
    let segments ← parts substitute { isQuoted := true } false expression
    let text := textOf segments
    let s ← get
    match Arithmetic.evaluate s.value? text with
    | .error error => fail (error.message (String.ofList text))
    | .ok (value, assigned) =>
      assigned.forM fun (name, value) => do
        if ((← get).binding? name).any (·.isReadonly) then fail (name ++ ": is read only")
        modify fun s => s.assign name (toString value)
      return [valueSegment mode (toString value).toList]
  | .parameter name modifier colon argument => do
    let s ← get
    let value? := parameter? s mode name
    let checkSet : Shell Unit := do
      if value?.isNone && s.hasOption 'u' && name != "@" && name != "*" then
        failUnset name false []
    let isGiven := value?.any fun v => !(colon && v.isEmpty)
    let inner := { mode with cutsTexts := !mode.isQuoted }
    match modifier with
    | .bad => fail "Bad substitution"
    | .plain =>
      checkSet
      parameter name
    | .length =>
      checkSet
      let count := (value?.map fun v => (v.filter (· != .seam)).length).getD 0
      let separators :=
        if name = "@" || name = "*" then (parameter? s {} name).getD [] else value?.getD []
      let count := if name = "@" || name = "*" then separators.length else count
      return [valueSegment mode (toString count).toList]
    | .fallback =>
      if isGiven then parameter name else parts substitute inner true argument
    | .replacement =>
      if isGiven then parts substitute inner true argument else return []
    | .message =>
      if isGiven then parameter name
      else
        let segments ← parts substitute { isQuoted := mode.isQuoted } true argument
        failUnset name colon (textOf segments)
    | .assignment =>
      if isGiven then parameter name
      else
        let segments ← parts substitute { isQuoted := mode.isQuoted } true argument
        if !isName name.toList then fail (name ++ ": bad variable name")
        if (s.binding? name).any (·.isReadonly) then fail (name ++ ": is read only")
        modify fun s => s.assign name (String.ofList (textOf segments))
        parameter name
    | .cut atEnd longest => do
      checkSet
      let segments ← parts substitute {} true argument
      let pattern := Pattern.ofQuotable (charsOf segments)
      match value? with
      | none => return []
      | some glyphs =>
        let text := plainChars glyphs
        let left :=
          if atEnd then pattern.cutEnd longest text else pattern.cutStart longest text
        return [parameterSegment s mode name (glyphsOfPlain mode.isQuoted left)]
where
  /-- The segments of a parameter without a modifier. -/
  parameter (name : String) : Shell (List Segment) := do
    let s ← get
    match parameter? s mode name with
    | some glyphs => return [parameterSegment s mode name glyphs]
    | none => return []

/-- The segments of the parts of a word. -/
def parts (substitute : Substitution) (mode : Mode) (atStart : Bool) :
    List Part → Shell (List Segment)
  | [] => return []
  | p :: rest => do
    let isLast := rest.isEmpty
    let first ← part substitute mode atStart isLast p
    let behindColon :=
      match p with
      | .text value false => mode.isValue && value.getLast? = some ':'
      | _ => false
    let more ← parts substitute mode behindColon rest
    return first ++ more

end

/-- The text of a word that is not cut. -/
def text (substitute : Substitution) (word : Word) (isValue : Bool := false) : Shell String := do
  return String.ofList (textOf (← parts substitute { isValue } true word))

/-- The text of a document. -/
def document (substitute : Substitution) (word : Word) : Shell String := do
  return String.ofList (textOf (← parts substitute { isQuoted := true } false word))

/-- The pattern of a word. -/
def pattern (substitute : Substitution) (word : Word) : Shell Pattern := do
  return Pattern.ofQuotable (charsOf (← parts substitute {} true word))

/-! ## Fields -/

/-- A field that is being read, with its last sign first, and those that have been read, the last
one first. -/
structure Fields where
  /-- The field that is being read. -/
  current : List Glyph := []
  /-- The fields that have been read. -/
  done : List (List Glyph) := []

namespace Fields

/-- Go on with the next field. -/
def cut (f : Fields) : Fields := ⟨[], f.current.reverse :: f.done⟩

/-- Add a sign to the field. -/
def push (f : Fields) (g : Glyph) : Fields := { f with current := g :: f.current }

end Fields

/-- The sign separates fields, and whether it is white space. -/
def separator? (separators : List Char) (cut : Cut) : Glyph → Option Bool
  | .seam => some (cut = .atSeparators)
  | .char c false =>
    if cut = .atSeparators && separators.contains c then some ([' ', '\t', '\n'].contains c)
    else none
  | _ => none

/-- Read the fields of a segment. Behind a separator, white space does not count, and neither does
one separator behind white space, if `skips` says so. White space in front of a field does not
count, unless arguments end there. -/
def cutSegment (separators : List Char) (cut : Cut) (behindArguments : Bool)
    (skips : Option Bool) (f : Fields) : List Glyph → Fields
  | [] => f
  | g :: rest =>
    match separator? separators cut g, skips with
    | none, _ => cutSegment separators cut behindArguments none (f.push g) rest
    | some true, some _ => cutSegment separators cut behindArguments skips f rest
    | some false, some true => cutSegment separators cut behindArguments (some false) f rest
    | some isSpace, _ =>
      if f.current.isEmpty && isSpace && !behindArguments then
        cutSegment separators cut behindArguments none f rest
      else
        let skips := if cut = .atSeparators then some isSpace else none
        cutSegment separators cut behindArguments skips f.cut rest

/-- Read the fields of segments; `last` tells where the segment in front of them is cut, if one
is. -/
def cutSegments (separators : List Char) (last : Cut) (f : Fields) : List Segment → Fields
  | [] => if f.current.isEmpty && last != .atSeams then f else f.cut
  | s :: rest =>
    if s.cut = .never then cutSegments separators last (s.glyphs.foldl Fields.push f) rest
    else
      let f := cutSegment separators s.cut (last = .atSeams) none f s.glyphs
      cutSegments separators s.cut f rest

/-- The fields of segments. -/
def fieldsOf (separators : List Char) (segments : List Segment) : List (List Glyph) :=
  (cutSegments separators .never {} segments).done.reverse

/-- The characters of a field. -/
def fieldChars (field : List Glyph) : List Quotable :=
  field.filterMap fun
    | .char c q => some (c, q)
    | _ => none

/-! ## Paths -/

/-- The character has a meaning in a pattern. -/
def isMeta (q : Quotable) : Bool := !q.2 && ['*', '?', '['].contains q.1

/-- The text of a piece of a path, with the backslashes that take a meaning from a character left
out. -/
def literal : List Quotable → List Char
  | (c, q) :: (d, e) :: rest =>
    if c = '\\' && !q then d :: literal rest else c :: literal ((d, e) :: rest)
  | [(c, _)] => [c]
  | [] => []

/-- The pieces of a field between its slashes. -/
def piecesOf : List Quotable → List (List Quotable)
  | [] => [[]]
  | (c, q) :: rest =>
    if c = '/' then [] :: piecesOf rest
    else
      match piecesOf rest with
      | [] => [[(c, q)]]
      | piece :: pieces => ((c, q) :: piece) :: pieces

/-- The paths that fit a pattern, cut at its slashes, behind a beginning of the path. -/
def pathsFitting (m : Machine) (directory : Path) (start : String) :
    List (List Quotable) → List String
  | [] => []
  | piece :: rest =>
    let names :=
      if piece.any isMeta then
        let pattern := Pattern.ofQuotable piece
        -- Names with a leading dot have to be asked for.
        let showsHidden := (literal piece).head? = some '.'
        let path : Path := State.pathOf (if start.isEmpty then "." else start)
        match m.entry directory path with
        | .ok (place, .directory) =>
          ("." :: ".." :: (m.namesIn place).map encode).filter fun name =>
            pattern.fits name.toList && (showsHidden || name.toList.head? != some '.')
        | _ => []
      else [String.ofList (literal piece)]
    names.flatMap fun name =>
      let path := start ++ name
      if rest.isEmpty then
        if (m.entry directory (State.pathOf path)).isOk then [path] else []
      else pathsFitting m directory (path ++ "/") rest

/-- The texts a field stands for: the paths that fit it if it has a pattern, or else itself. -/
def fieldTexts (field : List Glyph) : Shell (List String) := do
  let chars := fieldChars field
  let itself := [String.ofList (chars.map Prod.fst)]
  let s ← get
  if chars.any isMeta && !s.hasOption 'f' then
    let paths ← look fun m => pathsFitting m s.directoryPath "" (piecesOf chars)
    return if paths.isEmpty then itself else paths.mergeSort
  else return itself

/-- The fields of a word. -/
def fields (substitute : Substitution) (word : Word) : Shell (List String) := do
  let segments ← parts substitute { makesFields := true } true word
  let fields := fieldsOf (← get).separators segments
  return (← fields.mapM fieldTexts).flatten

/-- The fields of words. -/
def allFields (substitute : Substitution) (words : List Word) : Shell (List String) := do
  return (← words.mapM (fields substitute)).flatten

end Expansion

end BuildTrace.Shell
