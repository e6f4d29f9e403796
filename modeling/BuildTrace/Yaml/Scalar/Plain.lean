import BuildTrace.Yaml.Position

/-!
# Plain scalars

Scalars without quotes. A plain scalar may run over several lines; a single line break in it counts
as a space, and each further one as itself.
-/

namespace BuildTrace.Yaml

/-- What a number of line breaks inside a scalar counts as. -/
def foldBreaks (breaks : Nat) : List Char :=
  if breaks = 1 then [' '] else List.replicate (breaks - 1) '\n'

namespace Plain

/-- The text does not end the scalar by its next character. A colon does in front of white space,
and in a flow collection in front of its marks. -/
def goesOn (inFlow : Bool) : List Char → Bool
  | [] => false
  | c :: s =>
    if isGap c then false
    else if c = ':' then !(endsWord s || (inFlow && atFlowMark s))
    else !(inFlow && isFlowMark c)

/-- The characters up to white space or the end of the scalar. -/
def run (inFlow : Bool) : List Char → List Char
  | [] => []
  | c :: s => if goesOn inFlow (c :: s) then c :: run inFlow s else []

/-- White space inside a scalar. -/
structure Gap where
  /-- The blanks, if no line ends. -/
  blanks : List Char := []
  /-- The number of line ends. -/
  breaks : Nat := 0
  /-- The position behind it. -/
  next : Position

/-- Skip white space. On a further line, a tab in front of the column `least` is not allowed before
a text. -/
def gapFrom? (least : Int) : Nat → Gap → Option Gap
  | 0, g => some g
  | fuel + 1, g =>
    match g.next.next? with
    | none => some g
    | some c =>
      if c = '\n' then gapFrom? least fuel ⟨[], g.breaks + 1, g.next.nextLine⟩
      else if !isBlank c then some g
      else if !g.next.isBare then
        gapFrom? least fuel { g with blanks := g.blanks ++ [c], next := g.next.skipBlanks 1 }
      else if c = '\t' && (g.next.column : Int) < least then
        (skipMargin? g.next).bind fun next =>
          if endsLine next.rest then gapFrom? least fuel { g with next } else none
      else gapFrom? least fuel { g with next := g.next.skipBlanks 1 }

/-- What a gap counts as between two parts of a scalar. -/
def Gap.text (g : Gap) : List Char := if g.breaks = 0 then g.blanks else foldBreaks g.breaks

/-- The parts of a scalar from here on, and the position behind the scalar and the white space that
follows it. The first part follows the text `glue`. -/
def parts? (inFlow : Bool) (least : Int) : Nat → (glue : List Char) → Position →
    Option (List Char × Position)
  | 0, _, p => some ([], p)
  | fuel + 1, glue, p =>
    let c? := p.next?
    -- A marker between documents and a comment end the scalar.
    if (p.column = 0 && atDocumentMarker p.rest) || c? == some '#' then some ([], p)
    else if inFlow && c? == some '-' && atFlowMark (p.rest.drop 1) then none
    else
      let part := run inFlow p.rest
      let text := if part.isEmpty then [] else glue ++ part
      let p := if part.isEmpty then p else p.skip part.length
      if !p.next?.any isGap then some (text, p)
      else
        (gapFrom? least p.steps { next := p }).bind fun gap =>
          -- The next line is not indented deep enough to go on with the scalar.
          if !inFlow && (gap.next.column : Int) < least then some (text, gap.next)
          else
            (parts? inFlow least fuel gap.text gap.next).map fun (more, p) => (text ++ more, p)

/-- The plain scalar at the position, its lines beginning at the column `least` at the earliest. -/
def read? (inFlow : Bool) (least : Int) (p : Position) : Option (List Char × Position) :=
  if inFlow && (p.column : Int) < least then none
  else
    (parts? inFlow least p.steps [] p).bind fun (text, p) =>
      if text.isEmpty then none else some (text, p)

end Plain

end BuildTrace.Yaml
