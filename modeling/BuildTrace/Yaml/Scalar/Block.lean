import BuildTrace.Yaml.Position

/-!
# Block scalars

Scalars written as indented lines behind `|`, where line breaks stay, or behind `>`, where lines
are joined to paragraphs.
-/

namespace BuildTrace.Yaml.Block

/-- What happens to the line breaks at the end of a block scalar. -/
inductive Chomping where
  /-- The first one is kept. -/
  | clip
  /-- None is kept. -/
  | strip
  /-- All are kept. -/
  | keep
  deriving DecidableEq

/-! ## The header -/

/-- The header of a block scalar. -/
structure Header where
  /-- What happens to the line breaks at the end. -/
  chomping : Chomping := .clip
  /-- How much deeper than its parent the scalar is indented, if that is given. -/
  depth : Option Nat := none

/-- The chomping that a sign stands for. -/
def chomping? (p : Position) : Option Chomping :=
  match p.next? with
  | some '+' => some .keep
  | some '-' => some .strip
  | _ => none

/-- The digit of the header, if there is one, and the position behind it. Fails at a zero. -/
def depth? (p : Position) : Option (Option Nat × Position) :=
  match p.next? with
  | some c =>
    if c = '0' then none
    else if c.isDigit then some (some (c.toNat - '0'.toNat), p.skip 1)
    else some (none, p)
  | none => some (none, p)

/-- The header behind the sign of the scalar, a chomping and a digit in any order. -/
def header? (p : Position) : Option (Header × Position) :=
  match chomping? p with
  | some chomping => (depth? (p.skip 1)).map fun (depth, p) => (⟨chomping, depth⟩, p)
  | none =>
    (depth? p).map fun (depth, p) =>
      match if depth.isSome then chomping? p else none with
      | some chomping => (⟨chomping, depth⟩, p.skip 1)
      | none => (⟨.clip, depth⟩, p)

/-! ## Indentation -/

/-- The number of line breaks and the position behind spaces up to the column and lines that end
there. -/
def skipIndent (column : Nat) : Nat → (breaks : Nat) → Position → Nat × Position
  | 0, breaks, p => (breaks, p)
  | fuel + 1, breaks, p =>
    match p.next? with
    | some '\n' => skipIndent column fuel (breaks + 1) p.nextLine
    | some ' ' =>
      if p.column < column then skipIndent column fuel breaks (p.skipBlanks 1) else (breaks, p)
    | _ => (breaks, p)

/-- The greatest column, the number of line breaks, and the position behind all spaces and lines of
spaces. -/
def skipSpaces (column : Nat) : Nat → (breaks : Nat) → Position → Nat × Nat × Position
  | 0, breaks, p => (column, breaks, p)
  | fuel + 1, breaks, p =>
    match p.next? with
    | some ' ' => skipSpaces (max column (p.column + 1)) fuel breaks (p.skipBlanks 1)
    | some '\n' => skipSpaces column fuel (breaks + 1) p.nextLine
    | _ => (column, breaks, p)

/-! ## The lines -/

/-- What stands between two lines of text. -/
structure Glue where
  /-- There is a line before. -/
  isInside : Bool := false
  /-- The line before begins with white space. -/
  afterBlank : Bool := false
  /-- The number of empty lines. -/
  breaks : Nat

/-- The text of a glue in front of a line; lines that are folded are joined by a space unless one
of them begins with white space. -/
def Glue.text (g : Glue) (isFolded beforeBlank : Bool) : List Char :=
  let empty := List.replicate g.breaks '\n'
  if !g.isInside then empty
  else if isFolded && !g.afterBlank && !beforeBlank then
    if g.breaks = 0 then [' '] else empty
  else '\n' :: empty

/-- The text of the lines that are indented to the column, whether the last one ended, the number
of line breaks behind it, and the position there. -/
def lines (isFolded : Bool) (column : Nat) :
    Nat → Glue → Position → List Char × Bool × Nat × Position
  | 0, g, p => ([], g.isInside, g.breaks, p)
  | fuel + 1, g, p =>
    let isOver := p.rest.isEmpty || p.column != column || (column = 0 && atMarker '.' p.rest)
    if isOver then ([], g.isInside, g.breaks, p)
    else
      let line := p.rest.takeWhile (· != '\n')
      let isBlankLine := line.head?.any isBlank
      let text := g.text isFolded isBlankLine ++ line
      let p := p.skipBlanks line.length
      -- The document ends without a line end.
      if p.rest.isEmpty then (text, false, 0, p)
      else
        let (breaks, p) := skipIndent column p.steps 0 p.nextLine
        let (more, ended, breaks, p) := lines isFolded column fuel ⟨true, isBlankLine, breaks⟩ p
        (text ++ more, ended, breaks, p)

/-- The text of a scalar without lines at the end of a document. -/
def emptyText (chomping : Chomping) (hasLineEnd : Bool) (breaks : Nat) : List Char :=
  match chomping with
  | .strip => []
  | .clip => if hasLineEnd then ['\n'] else []
  | .keep => List.replicate (if breaks = 0 && hasLineEnd then 1 else breaks) '\n'

/-- The line breaks at the end of a scalar. -/
def ending (chomping : Chomping) (column : Nat) (ended : Bool) (breaks : Nat) (p : Position) :
    List Char :=
  let last := if ended then ['\n'] else []
  let missing := if p.rest.isEmpty && max column 1 ≤ p.column then ['\n'] else []
  match chomping with
  | .strip => []
  | .clip => last ++ missing
  | .keep => last ++ missing ++ List.replicate breaks '\n'

/-- The block scalar behind its sign, inside something that is indented to the column `indent`, and
the position behind it. -/
def read? (isFolded : Bool) (indent : Int) (p : Position) : Option (List Char × Position) := do
  let (header, p) ← header? p
  let p ← skipMargin? p
  if !endsLine p.rest then none
  else
    let hasLineEnd := !p.rest.isEmpty
    let p := if hasLineEnd then p.nextLine else p
    if p.next? = some '\t' then none
    else
      let fuel := p.steps
      let least := (indent + 1).toNat
      let (column, breaks, p) :=
        match header.depth with
        | some depth =>
          let column := if 0 ≤ indent then indent.toNat + depth else depth
          (column, skipIndent column fuel 0 p)
        | none =>
          let (column, breaks, p) := skipSpaces 0 fuel 0 p
          (max column least, breaks, p)
      if p.rest.isEmpty then some (emptyText header.chomping hasLineEnd breaks, p)
      else if p.column < column && indent < (p.column : Int) then none
      else
        let (text, ended, breaks, p) := lines isFolded column fuel { breaks } p
        some (text ++ ending header.chomping column ended breaks p, p)

end BuildTrace.Yaml.Block
