import BuildTrace.Yaml.Lexer
import BuildTrace.Yaml.Mapping

/-!
# Reading YAML

A text holds one document, which is one value. The value is read from the tokens of the text; where
the tokens end too early, there is a mistake.

A value may have a name and then be written again by its name. How often that happens is bounded,
since few tokens could otherwise stand for a value of any size.
-/

namespace BuildTrace.Yaml

/-! ## What is known while reading -/

/-- Tokens that are read in part. -/
structure Source where
  /-- The tokens that are left. -/
  tokens : List Token
  /-- What the handles of tags stand for. -/
  handles : Handles := []
  /-- The names with the numbers of their values, the last one first. -/
  names : List (List Char × Nat) := []
  /-- The values with names, the last one first. -/
  anchored : List (Nat × Yaml × Nat) := []
  /-- The number of values that were given a name. -/
  anchors : Nat := 0
  /-- The number of values that were written by their names. -/
  references : Nat := 0
  /-- The number of the parts of those values. -/
  repeated : Nat := 0
  /-- The number of the parts of all values. -/
  parts : Nat := 0

namespace Source

/-- The next token. -/
def next? (s : Source) : Option Token := s.tokens.head?

/-- What is left behind the next token. -/
def drop (s : Source) : Source := { s with tokens := s.tokens.tail }

/-- The next token is one of these. -/
def isAt (s : Source) (tokens : List Token) : Bool := s.next?.any tokens.contains

/-- The tokens as if there were an end of the value here, which counts a part. -/
def count (s : Source) (parts : Nat) : Source := { s with parts := s.parts + parts }

/-- The number of parts that may be repeated. -/
def repeatLimit : Nat := 1000000

/-- The value with the name. Fails if there is none, or if it is still being read. -/
def reference? (s : Source) (name : List Char) : Option (Yaml × Source) := do
  -- A name may be given again; the last value counts.
  let number ← s.names.lookup name
  let (value, parts) ← s.anchored.lookup number
  let repeated := s.repeated + parts
  if repeatLimit < repeated then none
  else some (value, { s with references := s.references + 1, repeated, parts := s.parts + parts })

/-- The number of references from which on there has to be a name for every ten of them. -/
def referenceLimit : Nat := 100

/-- There are not too many references for so few names. -/
def isModest (s : Source) : Bool :=
  s.references < referenceLimit || (s.anchors != 0 && s.references ≤ 10 * s.anchors)

end Source

/-! ## Names and tags of values -/

/-- The name and the tag of a value. -/
structure Properties where
  /-- The number of the value, if it has a name. -/
  number : Option Nat := none
  /-- The tag, if there is one. -/
  tag : Option Tag := none

namespace Properties

/-- There is a name or a tag. -/
def areGiven (q : Properties) : Bool := q.number.isSome || q.tag.isSome

/-- The name that stands here. -/
def nameAt (q : Properties) (s : Source) : Properties × Source :=
  match s.next? with
  | some (.anchor name) =>
    let number := s.anchors + 1
    ({ q with number := some number },
      { s.drop with names := (name, number) :: s.names, anchors := number })
  | _ => (q, s)

/-- The tag that stands here. -/
def tagAt? (q : Properties) (s : Source) : Option (Properties × Source) :=
  match s.next? with
  | some (.tag handle suffix) =>
    (Tag.resolve? s.handles handle suffix).map fun tag => ({ q with tag := some tag }, s.drop)
  | _ => some (q, s)

/-- The name and the tag that stand here, in any order. -/
def read? (s : Source) : Option (Properties × Source) :=
  match s.next? with
  | some (.anchor _) =>
    let (q, s) := nameAt {} s
    q.tagAt? s
  | _ => (tagAt? {} s).map fun (q, s) => if q.tag.isSome then q.nameAt s else (q, s)

/-- A scalar with the properties. An empty one that has a name stands for nothing. -/
def scalar (q : Properties) (text : List Char) (style : Style) : Yaml :=
  -- An empty text in quotes is nothing as soon as it has a name.
  let style := if q.number.isSome && text.isEmpty && style == .quoted then .plain else style
  .scalar text style (q.tag.getD .absent)

/-- Remember a complete value that has a name; its first part has the given number. -/
def finish (q : Properties) (first : Nat) (value : Yaml) (s : Source) : Yaml × Source :=
  match q.number with
  | some number =>
    (value, { s with anchored := (number, value, s.parts - first) :: s.anchored })
  | none => (value, s)

end Properties

/-! ## Values -/

/-- What a reader gives: a value, and what is left behind it. -/
abbrev Reading := Option (Yaml × Source)

/-- The tokens in front of which the value of a key in block style is missing. -/
def blockStops : List Token := [.key, .value, .blockEnd]

/-- The value where nothing is written. -/
def missing (s : Source) : Yaml × Source := (nothing, s.count 1)

mutual

/-- A value. In block style it may be a collection that only the indentation tells; `besides` tells
whether the items of a sequence may stand in the column of their key. -/
def node? (inBlock besides : Bool) : Nat → Source → Reading
  | 0, _ => none
  | fuel + 1, s =>
    match s.next? with
    -- A value written by its name has no other name and no tag.
    | some (.reference name) => s.drop.reference? name
    | _ =>
      (Properties.read? s).bind fun (q, s) =>
        let finish := fun ((value, after) : Yaml × Source) => q.finish s.parts value after
        match s.next? with
        | none => none
        | some (.scalar text style) => some (finish (q.scalar text style, s.drop.count 1))
        | some .openSequence =>
          (flowItems? true fuel (s.drop.count 1)).map fun (items, s) => finish (.sequence items, s)
        | some .openMapping =>
          (flowMembers? true fuel (s.drop.count 1)).map fun (members, s) =>
            finish (.mapping members, s)
        | some token =>
          if token = .item && besides then
            (besideItems? fuel (s.count 1)).map fun (items, s) => finish (.sequence items, s)
          else if token = .blockSequence && inBlock then
            (blockItems? fuel (s.drop.count 1)).map fun (items, s) => finish (.sequence items, s)
          else if token = .blockMapping && inBlock then
            (blockMembers? fuel (s.drop.count 1)).map fun (members, s) =>
              finish (.mapping members, s)
          -- Behind a name or a tag, the value may be missing.
          else if q.areGiven then some (finish (q.scalar [] .plain, s.count 1))
          else none

/-- A value in block style, unless one of the tokens stands here. -/
def blockNode? (besides : Bool) (stops : List Token) : Nat → Source → Reading
  | 0, _ => none
  | fuel + 1, s =>
    if s.next?.isNone then none
    else if s.isAt stops then some (missing s)
    else node? true besides fuel s

/-- The items of a sequence in block style. -/
def blockItems? : Nat → Source → Option (List Yaml × Source)
  | 0, _ => none
  | fuel + 1, s =>
    match s.next? with
    | some .blockEnd => some ([], s.drop.count 1)
    | some .item => do
      let (item, s) ← blockNode? false [.item, .blockEnd] fuel s.drop
      let (items, s) ← blockItems? fuel s
      return (item :: items, s)
    | _ => none

/-- The items of a sequence in the column of its key. -/
def besideItems? : Nat → Source → Option (List Yaml × Source)
  | 0, _ => none
  | fuel + 1, s =>
    match s.next? with
    | none => none
    | some .item => do
      let (item, s) ← blockNode? false (.item :: blockStops) fuel s.drop
      let (items, s) ← besideItems? fuel s
      return (item :: items, s)
    | _ => some ([], s.count 1)

/-- The members of a mapping in block style. -/
def blockMembers? : Nat → Source → Option (List (Yaml × Yaml) × Source)
  | 0, _ => none
  | fuel + 1, s =>
    let go := fun (key : Yaml) (s : Source) =>
      match s.next? with
      | none => none
      | some .value => do
        let (value, s) ← blockNode? true blockStops fuel s.drop
        let (members, s) ← blockMembers? fuel s
        return ((key, value) :: members, s)
      | _ => do
        let (value, s) := missing s
        let (members, s) ← blockMembers? fuel s
        return ((key, value) :: members, s)
    match s.next? with
    | some .blockEnd => some ([], s.drop.count 1)
    | some .key => (blockNode? true blockStops fuel s.drop).bind fun (key, s) => go key s
    | some .value =>
      let (key, s) := missing s
      go key s
    | _ => none

/-- A value in flow style, unless one of the tokens stands here. -/
def flowNode? (stops : List Token) : Nat → Source → Reading
  | 0, _ => none
  | fuel + 1, s =>
    if s.next?.isNone then none
    else if s.isAt stops then some (missing s)
    else node? false false fuel s

/-- The items of a sequence in flow style up to its bracket. An item may be a single member without
braces. -/
def flowItems? (isFirst : Bool) : Nat → Source → Option (List Yaml × Source)
  | 0, _ => none
  | fuel + 1, s =>
    if s.isAt [.closeSequence] then some ([], s.drop.count 1)
    else if !isFirst && !s.isAt [.comma] then none
    else
      let s := if isFirst then s else s.drop
      match s.next? with
      | none => none
      | some .closeSequence => some ([], s.drop.count 1)
      | some .key => do
        let (member, s) ← flowMember? fuel (s.drop.count 1)
        let (items, s) ← flowItems? false fuel (s.count 1)
        return (.mapping [member] :: items, s)
      | _ => do
        let (item, s) ← node? false false fuel s
        let (items, s) ← flowItems? false fuel s
        return (item :: items, s)

/-- A single member without braces in a sequence, behind the token of its key. -/
def flowMember? : Nat → Source → Option ((Yaml × Yaml) × Source)
  | 0, _ => none
  | fuel + 1, s => do
    let (key, s) ← flowNode? [.comma, .closeSequence, .value] fuel s
    match s.next? with
    | none => none
    | some .value =>
      let (value, s) ← flowNode? [.comma, .closeSequence] fuel s.drop
      return ((key, value), s)
    | _ =>
      let (value, s) := missing s
      return ((key, value), s)

/-- The members of a mapping in flow style up to its bracket. -/
def flowMembers? (isFirst : Bool) : Nat → Source → Option (List (Yaml × Yaml) × Source)
  | 0, _ => none
  | fuel + 1, s =>
    if s.isAt [.closeMapping] then some ([], s.drop.count 1)
    else if !isFirst && !s.isAt [.comma] then none
    else
      let s := if isFirst then s else s.drop
      let go := fun (key : Yaml) (s : Source) =>
        match s.next? with
        | none => none
        | some .value => do
          let (value, s) ← flowNode? [.comma, .closeMapping] fuel s.drop
          let (members, s) ← flowMembers? false fuel s
          return ((key, value) :: members, s)
        | _ => do
          let (value, s) := missing s
          let (members, s) ← flowMembers? false fuel s
          return ((key, value) :: members, s)
      match s.next? with
      | none => none
      | some .closeMapping => some ([], s.drop.count 1)
      | some .key =>
        (flowNode? [.value, .comma, .closeMapping] fuel s.drop).bind fun (key, s) => go key s
      | some .value =>
        let (key, s) := missing s
        go key s
      | _ => do
        let (key, s) ← node? false false fuel s
        let (value, s) := missing s
        let (members, s) ← flowMembers? false fuel s
        return ((key, value) :: members, s)

end

/-! ## Documents -/

/-- The tokens behind directives, with what the handles of tags stand for. There is at most one
directive on the version. A directive makes those before it forgotten. -/
def directives? : (hasVersion : Bool) → Handles → List Token → Option (Handles × List Token)
  | hasVersion, _, .version :: tokens => if hasVersion then none else directives? true [] tokens
  | hasVersion, _, .handle name lead :: tokens => directives? hasVersion [(name, lead)] tokens
  | _, handles, tokens => some (handles, tokens)

/-- A directive or a marker in front of a document. -/
def Token.opensDocument : Token → Bool
  | version | handle _ _ | documentStart => true
  | _ => false

/-- The tokens of a document behind its marker, with what the handles of tags stand for, and
whether there is a marker. -/
def header? (tokens : List Token) : Option (Handles × Bool × List Token) := do
  let (handles, behind) ← directives? false [] tokens
  match behind with
  | .documentStart :: rest => some (handles, true, rest)
  | _ => if tokens.head?.any Token.opensDocument then none else some (handles, false, behind)

/-- The tokens behind the markers of an end. -/
def skipEnds (tokens : List Token) : List Token := tokens.dropWhile (· = .documentEnd)

/-- The value of the document that begins here, if one does, and what is left behind it. -/
def document? (tokens : List Token) : Reading :=
  (header? (skipEnds tokens)).bind fun (handles, marked, tokens) =>
    let s : Source := { tokens, handles }
    -- With a marker, the document may be empty.
    let isEmpty := tokens.head?.any fun t => t.opensDocument || t = .documentEnd || t = .streamEnd
    if marked && isEmpty then some (missing s)
    else node? true false (8 * (tokens.length + 1)) s

/-- Another document begins, behind an end that is marked if `ended` says so. A mistake in front of
its marker does not matter. -/
def hasDocument (tokens : List Token) (ended : Bool) : Bool :=
  match skipEnds tokens with
  | [] | [.streamEnd] => false
  | tokens => (header? tokens).any fun (_, marked, _) => marked || ended

/-- What follows the value of a document: whether the end is marked, and the tokens behind it.
Fails at a directive without a marker before, and where there is no token. -/
def ending? (tokens : List Token) : Option (Bool × List Token) :=
  match tokens with
  | [] => none
  | .documentEnd :: rest => some (true, rest)
  | .version :: _ | .handle _ _ :: _ => none
  | tokens => some (false, tokens)

/-- The value of a text with a single document. -/
def parse? (text : List Char) : Option Yaml := do
  -- A byte order mark in front does not belong to the text.
  let (value, s) ← document? (tokens ((Text.strip? ['\ufeff'] text).getD text))
  let (ended, rest) ← ending? s.tokens
  if s.isModest && !hasDocument rest ended then some value else none

end BuildTrace.Yaml
