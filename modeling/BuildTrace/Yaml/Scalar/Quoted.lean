import BuildTrace.Text.Digit
import BuildTrace.Yaml.Scalar.Plain

/-!
# Quoted scalars

Scalars between single quotes, where a quote is written twice, and between double quotes, where a
backslash begins an escape. Both may run over several lines, which are joined as in plain scalars.
-/

namespace BuildTrace.Yaml.Quoted

/-! ## Escapes -/

/-- The character an escape of one letter stands for. -/
def escaped? (c : Char) : Option Char :=
  match c with
  | '0' => some '\x00'
  | 'a' => some '\x07'
  | 'b' => some '\x08'
  | 't' | '\t' => some '\t'
  | 'n' => some '\n'
  | 'v' => some '\x0b'
  | 'f' => some '\x0c'
  | 'r' => some '\r'
  | 'e' => some '\x1b'
  | ' ' => some ' '
  | '"' => some '"'
  | '/' => some '/'
  | '\\' => some '\\'
  | 'N' => some '\x85'
  | '_' => some '\xa0'
  | 'L' => some '\u2028'
  | 'P' => some '\u2029'
  | _ => none

/-- The number of digits behind the letter of an escape. -/
def escapeLength? (c : Char) : Option Nat :=
  match c with
  | 'x' => some 2
  | 'u' => some 4
  | 'U' => some 8
  | _ => none

/-- The character an escape stands for, and the length of the escape behind the backslash. -/
def escape? : List Char → Option (Char × Nat)
  | [] => none
  | c :: rest =>
    match escapeLength? c with
    | some length =>
      let digits := rest.take length
      if digits.length < length then none
      else
        (Text.hexNumber? digits).bind fun n =>
          if n.isValidChar then some (Char.ofNat n, length + 1) else none
    | none => (escaped? c).map (·, 1)

/-! ## Lines -/

/-- The text up to white space or the closing quote. -/
structure Run where
  /-- The text. -/
  text : List Char
  /-- A backslash hides the end of the line. -/
  isJoined : Bool := false
  /-- The position behind it. -/
  next : Position

/-- Read up to white space or the closing quote. Fails at a wrong escape. -/
def run? (quote : Char) : Nat → Position → Option Run
  | 0, p => some { text := [], next := p }
  | fuel + 1, p =>
    let more := fun (c : Char) (length : Nat) =>
      (run? quote fuel (p.skip length)).map fun r => { r with text := c :: r.text }
    match p.rest with
    | [] => some { text := [], next := p }
    | c :: s =>
      if isGap c then some { text := [], next := p }
      else if c = quote then
        -- Between single quotes, a quote that is written twice stands for one.
        if quote = '\'' && s.head? = some quote then more quote 2
        else some { text := [], next := p }
      else if c = '\\' && quote = '"' then
        if s.head? = some '\n' then
          some { text := [], isJoined := true, next := (p.skip 1).nextLine }
        else (escape? s).bind fun (c, length) => more c (length + 1)
      else more c 1

/-- Skip white space. On a further line, there must be no tab in front of the column `indent`. -/
def gapFrom? (indent : Int) (isJoined : Bool) : Nat → Plain.Gap → Option Plain.Gap
  | 0, g => some g
  | fuel + 1, g =>
    match g.next.next? with
    | none => some g
    | some c =>
      if c = '\n' then gapFrom? indent isJoined fuel ⟨[], g.breaks + 1, g.next.nextLine⟩
      else if !isBlank c then some g
      -- White space counts only where no line end follows or goes before.
      else if g.breaks = 0 && !isJoined then
        gapFrom? indent isJoined fuel
          { g with blanks := g.blanks ++ [c], next := g.next.skipBlanks 1 }
      else if c = '\t' && (g.next.column : Int) < indent then none
      else gapFrom? indent isJoined fuel { g with next := g.next.skipBlanks 1 }

/-- The text that a gap counts as. Behind a hidden line end, each further one counts as itself. -/
def gapText (isJoined : Bool) (g : Plain.Gap) : List Char :=
  if isJoined then List.replicate g.breaks '\n' else g.text

/-- A further line may begin at the position: outside of flow collections, its text is indented
deeper than to the column `indent`, except for the closing quote and behind a hidden line end. -/
def mayContinue (inFlow : Bool) (quote : Char) (indent : Int) (isJoined : Bool) (g : Plain.Gap) :
    Bool :=
  inFlow || isJoined || g.breaks = 0 || g.next.next? == some quote ||
    indent < (g.next.column : Int)

/-- The rest of the scalar, and the position behind its closing quote. -/
def rest? (inFlow : Bool) (quote : Char) (indent : Int) :
    Nat → Position → Option (List Char × Position)
  | 0, _ => none
  | fuel + 1, p =>
    if p.rest.isEmpty || (p.column = 0 && atDocumentMarker p.rest) then none
    else
      (run? quote p.steps p).bind fun r =>
        if r.next.next? = some quote then some (r.text, r.next.skip 1)
        else
          (gapFrom? indent r.isJoined r.next.steps { next := r.next }).bind fun gap =>
            if mayContinue inFlow quote indent r.isJoined gap then
              (rest? inFlow quote indent fuel gap.next).map fun (more, p) =>
                (r.text ++ gapText r.isJoined gap ++ more, p)
            else none

/-- What may follow a quoted scalar: the end of the line, a colon on the line it began in, or
something in the flow collection around it. -/
def mayFollow (inFlow : Bool) (line : Nat) (p : Position) : Bool :=
  match p.next? with
  | none | some '\n' => true
  | some ':' => inFlow || line = p.line
  | some c => inFlow && [',', ']', '\x7d'].contains c

/-- The quoted scalar at the position, and the position behind the white space that follows it. -/
def read? (inFlow : Bool) (indent : Int) (p : Position) : Option (List Char × Position) :=
  p.next?.bind fun quote =>
    (rest? inFlow quote indent p.steps (p.skip 1)).bind fun (text, behind) =>
      (skipMargin? behind).bind fun next =>
        if mayFollow inFlow p.line next then some (text, next) else none

end BuildTrace.Yaml.Quoted
