import BuildTrace.Yaml.Scalar.Block
import BuildTrace.Yaml.Scalar.Plain
import BuildTrace.Yaml.Scalar.Quoted
import BuildTrace.Yaml.Token

/-!
# Cutting YAML documents into tokens

A document is cut into tokens from its beginning to its end. Whether a text is a key turns out at
the colon behind it; the tokens that tell so are then put in front of it. Until then, the tokens
from there on are held back, and a mistake that is found meanwhile takes them along.
-/

namespace BuildTrace.Yaml

/-- A place where a key may have begun. -/
structure KeyCandidate where
  /-- The number of bytes before it. -/
  index : Nat
  /-- Its line. -/
  line : Nat
  /-- Its column. -/
  column : Nat
  /-- The number of tokens before it. -/
  tokens : Nat
  /-- Nothing but a key may stand there. -/
  isRequired : Bool

/-- A level of indentation. -/
structure Level where
  /-- The column. -/
  column : Int
  /-- A block of items or members stands there, and not only one that may come. -/
  isBlock : Bool

/-- A document that is cut in part. -/
structure Lexer where
  /-- The position. -/
  position : Position
  /-- The tokens, the last one first. -/
  tokens : List Token := []
  /-- The number of the tokens. -/
  count : Nat := 0
  /-- The number of tokens that are not held back. -/
  released : Nat := 0
  /-- The levels of indentation, the innermost first. -/
  levels : List Level := []
  /-- A key may begin at the position. -/
  allowsKey : Bool := true
  /-- Where a key may have begun in the innermost flow collection, or outside of all. -/
  candidate : Option KeyCandidate := none
  /-- Where keys may have begun around the flow collections. -/
  outer : List (Option KeyCandidate) := []
  /-- For each flow sequence around, the depth at which a member without braces goes on in it. -/
  members : List (Option Nat) := []
  /-- A mapping with braces has begun, or a key with a question mark. -/
  inMapping : Bool := false
  /-- Where a value may follow its colon without a space. -/
  adjacentAt : Nat := 0

namespace Lexer

/-! ## The state -/

/-- The number of flow collections around. -/
def depth (l : Lexer) : Nat := l.outer.length

/-- Inside a flow collection. -/
def inFlow (l : Lexer) : Bool := 0 < l.depth

/-- The present indentation. -/
def indent (l : Lexer) : Int := (l.levels.head?.map Level.column).getD (-1)

/-- The column of the position. -/
def column (l : Lexer) : Int := l.position.column

/-- Add a token. -/
def push (l : Lexer) (token : Token) : Lexer :=
  { l with tokens := token :: l.tokens, count := l.count + 1 }

/-- Put a token behind a number of tokens. -/
def insert (l : Lexer) (index : Nat) (token : Token) : Lexer :=
  { l with tokens := l.tokens.insertIdx (l.count - index) token, count := l.count + 1 }

/-- Go to another position. -/
def goTo (l : Lexer) (position : Position) : Lexer := { l with position }

/-- Go behind characters. -/
def skip (l : Lexer) (count : Nat) : Lexer := l.goTo (l.position.skip count)

/-! ## Indentation -/

/-- End the levels that are not indented deeper than to the column. -/
def unroll (l : Lexer) (column : Int) : Lexer :=
  if l.inFlow then l
  else
    let ended := l.levels.takeWhile fun level => column < level.column
    let l := { l with levels := l.levels.drop ended.length }
    -- A level that was only open began no block, so that none ends with it.
    (ended.filter Level.isBlock).foldl (fun l _ => l.push .blockEnd) l

/-- The levels of blocks only. -/
def dropOpenLevels (l : Lexer) : Lexer := { l with levels := l.levels.dropWhile (!·.isBlock) }

/-- Begin a block at the column, if it is a deeper one. The token that tells so is put behind the
number of tokens. -/
def roll (l : Lexer) (column : Nat) (index : Nat) (token : Token) : Lexer :=
  if l.inFlow then l
  else
    -- A level that was open for a block gives way to that of this block.
    let isOpen := l.indent ≤ column && l.levels.head?.any (!·.isBlock)
    let l := if isOpen then { l with levels := l.levels.tail } else l
    if l.indent < column then { l with levels := ⟨column, true⟩ :: l.levels }.insert index token
    else l

/-- What follows has to be indented deeper than the block. -/
def rollOpen (l : Lexer) : Lexer :=
  if !l.inFlow && l.levels.head?.any Level.isBlock then
    { l with levels := ⟨l.indent + 1, false⟩ :: l.levels }
  else l

/-! ## Keys -/

/-- A key may begin here, if one may. -/
def noteKey (l : Lexer) : Lexer :=
  if l.allowsKey then
    let p := l.position
    -- In the column of its block, a text can only be the next key.
    let isRequired :=
      !l.inFlow && l.indent = p.column && l.levels.head?.any Level.isBlock
    { l with candidate := some ⟨p.index, p.line, p.column, l.count, isRequired⟩ }
  else l

/-- The text before is no key. -/
def dropKey? (l : Lexer) : Option Lexer :=
  if l.candidate.any KeyCandidate.isRequired then none else some { l with candidate := none }

/-- The greatest number of bytes of a key outside of flow collections. -/
def keyLimit : Nat := 1024

/-- What began too far before is no key. -/
def dropStaleKey? (l : Lexer) : Option Lexer :=
  let isStale := fun k : KeyCandidate =>
    k.line < l.position.line || k.index + keyLimit < l.position.index
  if !l.inFlow && l.candidate.any isStale then l.dropKey? else some l

/-- The next token may turn out to be behind the beginning of a key. -/
def isHeldBack (l : Lexer) : Bool :=
  (l.candidate :: l.outer).any fun k => k.any (·.tokens == l.released)

/-! ## White space -/

/-- Go to the next text. A tab in the indentation of a block is not allowed before a text. -/
def toText? : Nat → Lexer → Option Lexer
  | 0, l => some l
  | fuel + 1, l =>
    match l.position.next? with
    | none => some l
    | some c =>
      if c = '\n' then
        -- Outside of flow collections, each line may begin with a key.
        toText? fuel { l.goTo l.position.nextLine with allowsKey := l.allowsKey || !l.inFlow }
      else if c = '#' then toText? fuel (l.goTo l.position.skipLine)
      else if !isBlank c then some l
      else if c = '\t' && !l.levels.isEmpty && l.position.isBare && l.column < l.indent then
        (skipMargin? l.position).bind fun next =>
          if endsLine next.rest then toText? fuel (l.goTo next) else none
      else toText? fuel (l.goTo (l.position.skipBlanks 1))

/-- Go to the next text. -/
def nextText? (l : Lexer) : Option Lexer := l.toText? l.position.steps

/-- Go to the next text of the line, over white space and a comment behind it. -/
def nextInLine? (l : Lexer) : Option Lexer := (skipMargin? l.position).map l.goTo

/-! ## Tokens of documents -/

/-- Read the marker between documents. -/
def documentMarker? (l : Lexer) (token : Token) : Option Lexer :=
  ((l.unroll (-1)).dropKey?).bind fun l =>
    let l := ({ l with allowsKey := false }.skip 3).push token
    -- A document may begin on the line of its marker; behind the marker of an end, only a comment
    -- may stand.
    if token = .documentStart then some l
    else l.nextInLine?.bind fun l => if endsLine l.position.rest then some l else none

/-- Read the end of the document. -/
def streamEnd? (l : Lexer) : Option Lexer :=
  if (l.candidate :: l.outer).any fun k => k.any KeyCandidate.isRequired then none
  else
    -- The end counts as the beginning of a line.
    let p := l.position
    let l := if p.column = 0 then l else l.goTo { p with column := 0, line := p.line + 1 }
    let l := { l with candidate := none, outer := l.outer.map fun _ => none, allowsKey := false }
    some ((l.unroll (-1)).push .streamEnd)

/-- The number in the directive on the version. -/
def versionNumber? (p : Position) : Option Position :=
  let digits := p.rest.takeWhile Char.isDigit
  if digits.isEmpty || 9 < digits.length then none else some (p.skip digits.length)

/-- The position behind the blanks. -/
def behindBlanks (p : Position) : Position := p.skipBlanks (p.rest.takeWhile isBlank).length

/-- The token of a directive, behind its name. -/
def directiveToken? (name : List Char) (p : Position) : Option (Token × Position) :=
  if name = "YAML".toList then do
    let p ← versionNumber? (behindBlanks p)
    if p.next? = some '.' then (versionNumber? (p.skip 1)).map (.version, ·) else none
  else if name = "TAG".toList then
    let p := behindBlanks p
    if p.next? = some '!' then
      let (handle, p) := handleAt p
      if handle = ['!'] || handle.getLast? = some '!' then do
        let (lead, p) ← tagLead? (behindBlanks p)
        if endsWord p.rest then some (.handle handle lead, p) else none
      else none
    else none
  else some (.handle [] [], p.skipLine)

/-- Read a directive. -/
def directive? (l : Lexer) : Option Lexer :=
  ((l.unroll (-1)).dropKey?).bind fun l =>
    let p := l.position.skip 1
    let name := p.rest.takeWhile (!isGap ·)
    if name.isEmpty then none
    else do
      let (token, p) ← directiveToken? name (p.skip name.length)
      let p ← skipMargin? p
      if !endsLine p.rest then none
      else
        let next := if p.rest.isEmpty then p else p.nextLine
        some (({ l with allowsKey := false }.goTo next).push token)

/-! ## Tokens of flow collections -/

/-- Read a bracket that opens a collection. -/
def openBracket? (l : Lexer) (token : Token) : Option Lexer :=
  -- The whole collection may turn out to be a key.
  let l := l.noteKey.rollOpen
  if 255 ≤ l.depth then none
  else
    let l := { l with outer := l.candidate :: l.outer, candidate := none, allowsKey := true }.skip 1
    let l :=
      if token = .openMapping then { l with inMapping := true }
      else { l with members := none :: l.members }
    l.nextInLine?.map (·.push token)

/-- End a member without braces that goes on at this depth. -/
def endMember (l : Lexer) : Lexer :=
  match l.members with
  | some depth :: rest =>
    if depth = l.depth then
      { l with members := none :: rest, inMapping := false }.push .closeMapping
    else l
  | _ => l

/-- Read a bracket that closes a collection. -/
def closeBracket? (l : Lexer) (token : Token) : Option Lexer :=
  match l.outer with
  | [] => none
  | candidate :: outer =>
    l.dropKey?.bind fun l =>
      let l :=
        if token = .closeSequence then
          let l := l.endMember
          { l with members := l.members.tail }
        else l
      let l := { l with candidate, outer, allowsKey := false }.skip 1
      l.nextInLine?.map fun l =>
        -- A colon may follow without a space, as in JSON.
        let l := if l.inFlow then { l with adjacentAt := l.position.index } else l
        l.push token

/-- Read a comma. -/
def comma? (l : Lexer) : Option Lexer :=
  l.dropKey?.bind fun l =>
    let l := { l with allowsKey := true }.endMember.skip 1
    l.nextInLine?.map fun l => l.push .comma

/-! ## Items, keys and values -/

/-- Read the dash in front of an item. -/
def item? (l : Lexer) : Option Lexer :=
  let mark := l.position
  if l.inFlow || !l.allowsKey then none
  else
    let l := l.skip 1
    let l := l.roll mark.column l.count .blockSequence
    (margin? l.position).bind fun m =>
      let p := m.next
      -- Tabs do not count as indentation, so that no item may begin behind one.
      if m.hasTab && p.next? = some '-' && endsWord (p.rest.drop 1) then none
      else
        let l := l.goTo p
        let l := if p.next?.any fun c => c = '\n' || isFlowMark c then l.rollOpen else l
        l.dropKey?.map fun l => { l with allowsKey := true }.push .item

/-- Skip spaces, line ends and comments behind a question mark; there has to be a space or a line
end. -/
def keyMargin? (seen : Bool) : Nat → Lexer → Option Lexer
  | 0, _ => none
  | fuel + 1, l =>
    match l.position.next? with
    | some ' ' => keyMargin? true fuel (l.goTo (l.position.skipBlanks 1))
    | some '\n' =>
      keyMargin? true fuel { l.goTo l.position.nextLine with allowsKey := l.allowsKey || !l.inFlow }
    | some '#' => keyMargin? seen fuel (l.goTo l.position.skipLine)
    | _ => if seen then some l else none

/-- Read the question mark in front of a key. -/
def key? (l : Lexer) : Option Lexer :=
  let mark := l.position
  if !l.inFlow && !l.allowsKey then none
  else
    let l :=
      if l.inFlow then { l with inMapping := true }
      else l.roll mark.column l.count .blockMapping
    l.dropKey?.bind fun l =>
      -- In block style, the key may itself be a mapping that begins here.
      let l := { l with allowsKey := !l.inFlow }.skip 1
      (l.keyMargin? false l.position.steps).bind fun l =>
        if l.position.next? = some '\t' then none else some (l.push .key)

/-- Behind the colon, a text does not follow tabs alone. -/
def behindColon? (p : Position) : Option Position :=
  if p.next? = some '\t' then
    (margin? p).bind fun m =>
      let isText := m.next.next?.any fun c => c = '-' || isHandleChar c
      if !m.hasSpace && isText then none else some m.next
  else some p

/-- Read the colon in front of a value. -/
def value? (l : Lexer) : Option Lexer :=
  let mark := l.position
  -- In a sequence in flow style, a colon makes a member without braces.
  let opens := !l.members.isEmpty && !l.inMapping
  let l := if opens then { l with members := some l.depth :: l.members.tail } else l
  (behindColon? (mark.skip 1)).bind fun p =>
    let l := l.goTo p
    match l.candidate with
    | some k =>
      -- The key of such a member stands on one line with its colon.
      if opens && k.line < mark.line then none
      else
        -- The text before was a key: the tokens that tell so go in front of it.
        let l := l.insert k.tokens .key
        let l := if opens then l.insert k.tokens .openMapping else l
        let l := (l.roll k.column k.tokens .blockMapping).rollOpen
        some ({ l with candidate := none, allowsKey := false }.push .value)
    | none =>
      -- There is no key, so that it counts as empty.
      let l := if opens then l.push .openMapping else l
      if !l.inFlow && !l.allowsKey then none
      else
        let l := (l.roll mark.column l.count .blockMapping).rollOpen
        some ({ l with allowsKey := !l.inFlow }.push .value)

/-- Read the colon in front of a value where no space follows. A bracket may follow only behind a
quote or a bracket. -/
def adjacentValue? (l : Lexer) : Option Lexer :=
  let isBracket := (l.position.rest.drop 1).head?.any fun c => c = '[' || c = '\x7b'
  if l.position.index != l.adjacentAt && isBracket then none else l.value?

/-! ## Anchors, tags and scalars -/

/-- A character of the name of an anchor. -/
def isAnchorChar (c : Char) : Bool := !isGap c && c != '\ufeff' && !isFlowMark c

/-- Read a name behind its sign. -/
def anchor? (l : Lexer) (token : List Char → Token) : Option Lexer :=
  let l := { l.noteKey with allowsKey := false }.skip 1
  let name := l.position.rest.takeWhile isAnchorChar
  if name.isEmpty then none else some ((l.skip name.length).push (token name))

/-- Read a tag. -/
def tag? (l : Lexer) : Option Lexer :=
  let l := { l.noteKey with allowsKey := false }
  (tagAt? l.position).bind fun ((handle, suffix), p) =>
    if endsWord p.rest || (l.inFlow && atFlowMark p.rest) then
      some ((l.goTo p).push (.tag handle suffix))
    else none

/-- Read a block scalar. -/
def block? (l : Lexer) (isFolded : Bool) : Option Lexer :=
  let l := { l.noteKey with allowsKey := true }.dropOpenLevels
  (Block.read? isFolded l.indent (l.position.skip 1)).map fun (text, p) =>
    (l.goTo p).push (.scalar text .block)

/-- Read a quoted scalar. -/
def quoted? (l : Lexer) : Option Lexer :=
  let l := { l.noteKey with allowsKey := false }
  (Quoted.read? l.inFlow l.indent l.position).bind fun (text, p) =>
    (l.goTo p).nextText?.map fun l =>
      { l with adjacentAt := l.position.index }.push (.scalar text .quoted)

/-- Read a plain scalar. -/
def plain? (l : Lexer) : Option Lexer :=
  let l := { l.noteKey with allowsKey := false }.dropOpenLevels
  (Plain.read? l.inFlow (l.indent + 1) l.position).map fun (text, p) =>
    { l.goTo p with allowsKey := p.isBare }.push (.scalar text .plain)

/-! ## All tokens -/

/-- Read the token that begins here, in the middle of a document. -/
def content? (l : Lexer) : Option Lexer :=
  match l.position.rest with
  | [] => none
  | c :: rest =>
    -- Only what closes or separates may stand to the left of its block.
    if l.column < l.indent && !(l.inFlow && [']', '\x7d', ','].contains c) then none
    else
      match c with
      | '[' => l.openBracket? .openSequence
      | '\x7b' => l.openBracket? .openMapping
      | ']' => l.closeBracket? .closeSequence
      | '\x7d' => l.closeBracket? .closeMapping
      | ',' => l.comma?
      | '*' => l.anchor? .reference
      | '&' => l.anchor? .anchor
      | '!' => l.tag?
      | '\'' | '"' => l.quoted?
      | '%' | '@' | '\x60' => none
      | _ =>
        if c = '-' && endsWord rest then l.item?
        else if c = '?' && endsWord rest then l.key?
        else if c = ':' && endsWord rest then l.value?
        else if c = ':' && l.inFlow && (atFlowMark rest || l.position.index = l.adjacentAt) then
          l.adjacentValue?
        else if (c = '|' || c = '>') && !l.inFlow then l.block? (c = '>')
        else l.plain?

/-- Read the next tokens. -/
def step? (l : Lexer) : Option Lexer := do
  let l ← l.nextText?
  -- White space may have led away from where a key may have begun.
  let l ← l.dropStaleKey?
  let l := l.unroll l.column
  let rest := l.position.rest
  if rest.isEmpty then l.streamEnd?
  else if l.position.column = 0 && rest.head? = some '%' then l.directive?
  else if l.position.column = 0 && atMarker '-' rest then l.documentMarker? .documentStart
  else if l.position.column = 0 && atMarker '.' rest then l.documentMarker? .documentEnd
  else l.content?

/-- The tokens that are not held back. -/
def releasedTokens (l : Lexer) : List Token := l.tokens.reverse.take l.released

/-- The tokens up to the end of the text, or up to a mistake. -/
def run : Nat → Lexer → List Token
  | 0, _ => []
  | fuel + 1, l =>
    if l.tokens.head? = some .streamEnd then l.tokens.reverse
    else if l.released < l.count then
      match l.dropStaleKey? with
      | none => l.releasedTokens
      | some l =>
        -- The next token is handed out as soon as no key can be put in front of it any more.
        if l.isHeldBack then
          match l.step? with
          | none => l.releasedTokens
          | some l => run fuel l
        else run fuel { l with released := l.released + 1 }
    else
      match l.step? with
      | none => l.releasedTokens
      | some l => run fuel l

end Lexer

/-- Line ends of all kinds as line feeds. -/
def normalLineEnds : List Char → List Char
  | [] => []
  | '\r' :: '\n' :: s => '\n' :: normalLineEnds s
  | '\r' :: s => '\n' :: normalLineEnds s
  | c :: s => c :: normalLineEnds s

/-- The tokens of a text. The last one is the end of the text, unless there is a mistake before. A
zero character ends the text. -/
def tokens (text : List Char) : List Token :=
  let text := normalLineEnds (text.takeWhile (· != '\x00'))
  Lexer.run (8 * (text.length + 4)) { position := .start text }

end BuildTrace.Yaml
