import BuildTrace.Text.Basic

/-!
# Positions in YAML documents

A position knows its line and column, since YAML gives a meaning to indentation. It also knows
whether only white space stands before it on its line. The lines of a document end in line feeds.
-/

namespace BuildTrace.Yaml

/-! ## Characters -/

/-- The space and the tab. -/
def isBlank (c : Char) : Bool := c = ' ' || c = '\t'

/-- The space, the tab, and the end of a line. -/
def isGap (c : Char) : Bool := isBlank c || c = '\n'

/-- A bracket or comma of a flow collection. -/
def isFlowMark (c : Char) : Bool := [',', '[', ']', '\x7b', '\x7d'].contains c

/-- At the end of the document, or in front of white space. -/
def endsWord (s : List Char) : Bool := s.head?.all isGap

/-- In front of a bracket or comma of a flow collection. -/
def atFlowMark (s : List Char) : Bool := s.head?.any isFlowMark

/-- At the end of a line or of the document. -/
def endsLine (s : List Char) : Bool := s.head?.all (· = '\n')

/-- In front of the marker that is three times the same character. -/
def atMarker (mark : Char) (s : List Char) : Bool :=
  (Text.strip? [mark, mark, mark] s).any endsWord

/-- In front of a marker between documents. -/
def atDocumentMarker (s : List Char) : Bool := atMarker '-' s || atMarker '.' s

/-! ## Positions -/

/-- A position in a document, and what follows. -/
structure Position where
  /-- The number of bytes before it. -/
  index : Nat := 0
  /-- The line, counted from zero. -/
  line : Nat := 0
  /-- The column, counted from zero. -/
  column : Nat := 0
  /-- Only white space stands before it on its line. -/
  isBare : Bool := true
  /-- The rest of the document. -/
  rest : List Char
  /-- A number of steps that is enough to go through the rest of the document. -/
  steps : Nat

namespace Position

/-- The beginning of a document. -/
def start (document : List Char) : Position := { rest := document, steps := document.length + 1 }

/-- The position behind the end of the line. -/
def nextLine (p : Position) : Position :=
  { p with
    index := p.index + 1
    line := p.line + 1
    column := 0
    isBare := true
    rest := p.rest.drop 1 }

/-- The position behind characters of the line that count as white space. -/
def skipBlanks (p : Position) (count : Nat) : Position :=
  { p with
    index := p.index + Text.byteLength (p.rest.take count)
    column := p.column + count
    rest := p.rest.drop count }

/-- The position behind characters of the line. -/
def skip (p : Position) (count : Nat) : Position := { p.skipBlanks count with isBare := false }

/-- The position at the end of the line. -/
def skipLine (p : Position) : Position := p.skipBlanks (p.rest.takeWhile (· != '\n')).length

/-- The next character. -/
def next? (p : Position) : Option Char := p.rest.head?

end Position

/-! ## White space in a line -/

/-- The white space between two texts of a line. -/
structure Margin where
  /-- There is a tab. -/
  hasTab : Bool := false
  /-- There is a space. -/
  hasSpace : Bool := false
  /-- The position behind it. -/
  next : Position

/-- Skip white space and then a comment, which has to have white space before it. -/
def marginFrom? (m : Margin) : List Char → Option Margin
  | [] => some m
  | c :: s =>
    if c = ' ' then marginFrom? { m with hasSpace := true, next := m.next.skipBlanks 1 } s
    else if c = '\t' then marginFrom? { m with hasTab := true, next := m.next.skipBlanks 1 } s
    else if c = '#' then
      if m.hasTab || m.hasSpace then some { m with next := m.next.skipLine } else none
    else some m

/-- The white space at the position. Fails at a comment without white space before it. -/
def margin? (p : Position) : Option Margin := marginFrom? ⟨false, false, p⟩ p.rest

/-- The position behind the white space of the line. -/
def skipMargin? (p : Position) : Option Position := (margin? p).map Margin.next

end BuildTrace.Yaml
