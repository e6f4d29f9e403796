import BuildTrace.Utility.Copy
import BuildTrace.Utility.Input

/-!
# Parts of lines

The programs that cut parts out of lines and put lines side by side.
-/

namespace BuildTrace.Utility

open Shell
open Machine (Fault)

/-! ## Positions -/

/-- Positions in a line, counted from one on: from the first to the last one, if there is a last. -/
structure Span where
  /-- The first position. -/
  first : Nat
  /-- The last position. -/
  last : Option Nat

namespace Span

/-- The position is one of the span. -/
def has (s : Span) (n : Nat) : Bool := s.first ≤ n && s.last.all (n ≤ ·)

/-- Spans in order, of which those that overlap are made one. -/
def merge : List Span → List Span
  | [] => []
  | s :: rest =>
    match merge rest with
    | [] => [s]
    | t :: more =>
      -- The spans come in the order of their beginnings, so that only neighbours can overlap.
      if s.last.all (t.first ≤ ·) then
        let last := s.last.bind fun a => t.last.map fun b => max a b
        ⟨s.first, last⟩ :: more
      else s :: t :: more

/-- The positions that are in none of the spans, from a position on. -/
def others (start : Nat) : List Span → List Span
  | [] => [⟨start, none⟩]
  | s :: rest =>
    let lead := if start < s.first then [⟨start, some (s.first - 1)⟩] else []
    match s.last with
    | some last => lead ++ others (last + 1) rest
    | none => lead

/-- The span that an item of a list stands for, or what is wrong with it. `what` are the things that
are counted. -/
def ofItem (what : String) (item : List Char) : Except String Span :=
  let number := fun (digits : List Char) =>
    match number? digits with
    | some 0 => .error (what ++ "s are numbered from 1")
    | some n => .ok n
    | none => .error ("invalid " ++ what ++ " value " ++ quote (String.ofList item))
  match Text.splitOnce? '-' item with
  | none => do
    if item.isEmpty then .error (what ++ "s are numbered from 1")
    let n ← number item
    .ok ⟨n, some n⟩
  | some ([], []) => .error "invalid range with no endpoint: -"
  | some (first, last) => do
    let a ← if first.isEmpty then .ok 1 else number first
    if last.isEmpty then .ok ⟨a, none⟩
    else
      let b ← number last
      if b < a then .error "invalid decreasing range" else .ok ⟨a, some b⟩

/-- The spans of a list, in order. -/
def ofList (what : String) (list : String) : Except String (List Span) := do
  let items := Text.splitOn ',' (list.toList.map fun c => if isBlank c then ',' else c)
  let spans ← items.mapM (ofItem what)
  .ok (merge (spans.mergeSort fun a b => a.first ≤ b.first))

end Span

/-! ## Cutting -/

/-- How lines are cut. -/
structure Cutting where
  /-- The positions. -/
  spans : List Span
  /-- What separates fields; without it, positions are those of bytes. -/
  delimiter : Option Char
  /-- What is put between parts. -/
  joint : Option (List Char)
  /-- Lines without a delimiter are left out. -/
  skips : Bool

namespace Cutting

/-- The parts of a line that are asked for. -/
def bytes (c : Cutting) (line : List Char) : List Char :=
  let parts := (c.spans.filter (·.first ≤ line.length)).map fun s =>
    let behind := line.drop (s.first - 1)
    s.last.elim behind fun last => behind.take (last + 1 - s.first)
  match c.joint with
  | none => parts.flatten
  | some joint => Text.joinWith joint parts

/-- The fields of a line that are asked for, unless the line is left out. -/
def fields? (c : Cutting) (delimiter : Char) (line : List Char) : Option (List Char) :=
  let fields := Text.splitOn delimiter line
  -- A line without a delimiter is one field, whichever ones are asked for.
  if fields.length ≤ 1 then if c.skips then none else some line
  else
    let taken := fields.zipIdx.filter fun (_, i) => c.spans.any (·.has (i + 1))
    some (Text.joinWith (c.joint.getD [delimiter]) (taken.map Prod.fst))

/-- What is left of a line. -/
def line? (c : Cutting) (line : List Char) : Option (List Char) :=
  match c.delimiter with
  | none => some (c.bytes line)
  | some delimiter => c.fields? delimiter line

end Cutting

/-- Cut parts out of lines. -/
def cut : Utility :=
  (OptionForms.make "b:c:d:f:nsz"
    [("bytes", "b", .value), ("characters", "c", .value), ("delimiter", "d", .value),
      ("fields", "f", .value), ("complement", "complement", .nothing),
      ("only-delimited", "s", .nothing), ("output-delimiter", "output-delimiter", .value),
      ("zero-terminated", "z", .nothing)]).program fun name g => do
    let delimiter? := (g.value? "d").map String.toList
    if delimiter?.any (1 < ·.length) then misuse name "the delimiter must be a single character"
    match g.options.filter fun o => ["b", "c", "f"].contains o.1 with
    | [] => misuse name "you must specify a list of bytes, characters, or fields"
    | _ :: _ :: _ => misuse name "only one list may be specified"
    | [(key, list)] =>
      let isFields := key == "f"
      if !isFields && delimiter?.isSome then
        misuse name "an input delimiter may be specified only when operating on fields"
      if !isFields && g.has "s" then
        misuse name
          "suppressing non-delimited lines makes sense\n\tonly when operating on fields"
      let what := if isFields then "field" else "byte/character position"
      match Span.ofList what (list.getD "") with
      | .error message => misuse name message
      | .ok spans =>
        let cutting : Cutting :=
          { spans := if g.has "complement" then Span.others 1 spans else spans
            delimiter :=
              if isFields then some ((delimiter?.getD ['\t']).headD '\x00') else none
            joint := (g.value? "output-delimiter").map fun s =>
              if s.isEmpty then ['\x00'] else s.toList
            skips := g.has "s" }
        let sign := if g.has "z" then '\x00' else '\n'
        forTexts name (inputsOf g.operands) fun _ text =>
          let lines := (linesOf sign text).filterMap cutting.line?
          say name (String.ofList (lines.flatMap (· ++ [sign])))

/-! ## Side by side -/

/-- The characters that separate lines side by side. An escape may stand for no character. -/
def jointsOf : List Char → List (List Char)
  | [] => []
  | '\\' :: c :: rest =>
    (match c with
      | '0' => []
      | 'n' => ['\n']
      | 't' => ['\t']
      | 'b' => ['\x08']
      | 'f' => ['\x0c']
      | 'r' => ['\r']
      | 'v' => ['\x0b']
      | c => [c]) :: jointsOf rest
  | c :: rest => [c] :: jointsOf rest

/-- The parts with separators between them, which are taken in turn. -/
def joinInTurn (joints : List (List Char)) (parts : List (List Char)) : List Char :=
  (parts.zipIdx.map fun (part, i) =>
    if i = 0 then part else (joints[(i - 1) % joints.length]?).getD [] ++ part).flatten

/-- The lines of the inputs side by side. An input that stands several times gives its lines in
turn. -/
def paste : Utility :=
  (OptionForms.make "d:sz"
    [("delimiters", "d", .value), ("serial", "s", .nothing),
      ("zero-terminated", "z", .nothing)]).program fun name g => do
    let sign := if g.has "z" then '\x00' else '\n'
    let joints := match (g.value? "d").map String.toList with
      | none => [['\t']]
      | some [] => [[]]
      | some s => jointsOf s
    let files := inputsOf g.operands
    if g.has "s" then
      forTexts name files fun _ text =>
        say name (String.ofList (joinInTurn joints (linesOf sign text) ++ [sign]))
    else
      let mut columns : List (List (List Char)) := []
      let count := files.countP (· == "-")
      -- The standard input is read once; its places among the files take its lines in turn.
      let shared ← if count = 0 then pure [] else do
        match ← textOfInput "-" with
        | .ok text => pure (linesOf sign text.toList)
        | .error fault => fail name ("-: " ++ fault.message)
      let mut turn := 0
      for file in files do
        if file = "-" then
          columns := columns ++ [everyNth count turn shared]
          turn := turn + 1
        else
          match ← textOfInput file with
          | .ok text => columns := columns ++ [linesOf sign text.toList]
          | .error fault => fail name (quoteIfNeeded file ++ ": " ++ fault.message)
      let longest := (columns.map List.length).foldl max 0
      let rows := (List.range longest).map fun i => columns.map fun lines => (lines[i]?).getD []
      say name (String.ofList (rows.flatMap fun row => joinInTurn joints row ++ [sign]))
      return 0
where
  /-- Every item of a list whose number leaves the same rest. -/
  everyNth (count turn : Nat) (lines : List (List Char)) : List (List Char) :=
    (lines.zipIdx.filter fun (_, i) => i % count = turn).map Prod.fst

/-! ## Widths -/

/-- Break lines that are too wide. -/
def fold : Utility := fun _ name arguments => do
  let forms : OptionForms :=
    { OptionForms.make "bsw:"
        [("bytes", "b", .nothing), ("spaces", "s", .nothing), ("width", "w", .value)] with
      numbers := some 'w' }
  let g ← forms.given name arguments
  let text := (g.value? "w").getD "80"
  match number? text.toList with
  | none => fail name ("invalid number of columns: " ++ quote text)
  | some 0 =>
    fail name ("invalid number of columns: " ++ quote text ++ ": Numerical result out of range")
  | some width =>
    forTexts name (inputsOf g.operands) fun _ text => do
      let pieces := (linesWithEnds '\n' text).flatMap fun line =>
        fit width (g.has "b") (g.has "s") (line.length + 1) line []
      say name (String.ofList pieces.flatten)
where
  /-- The column behind a character. -/
  behind (inBytes : Bool) (column : Nat) (c : Char) : Nat :=
    if inBytes then column + 1
    else if c = '\x08' then column - 1
    else if c = '\r' then 0
    else if c = '\t' then column + (8 - column % 8)
    else column + 1
  /-- The pieces of a line. `piece` is the one that is being filled, the last character first. -/
  fit (width : Nat) (inBytes atSpaces : Bool) : Nat → List Char → List Char → List (List Char)
    | 0, _, _ => []
    | _, [], piece => if piece.isEmpty then [] else [piece.reverse]
    | fuel + 1, c :: rest, piece =>
      if c = '\n' then (c :: piece).reverse :: fit width inBytes atSpaces fuel rest []
      else
        let column := piece.reverse.foldl (behind inBytes) 0
        if behind inBytes column c ≤ width || piece.isEmpty then
          fit width inBytes atSpaces fuel rest (c :: piece)
        else
          let tail := piece.takeWhile fun d => !isBlank d
          if atSpaces && tail.length < piece.length then
            ((piece.drop tail.length).reverse ++ ['\n']) ::
              fit width inBytes atSpaces fuel rest (c :: tail)
          else (piece.reverse ++ ['\n']) :: fit width inBytes atSpaces fuel rest [c]

/-- Write spaces for tabs. -/
def expand : Utility :=
  (OptionForms.make "it:"
    [("initial", "i", .nothing), ("tabs", "t", .value)]).program fun name g => do
    let text := (g.value? "t").getD "8"
    match number? text.toList with
    | none => fail name ("tab size contains invalid character(s): " ++ quote text)
    | some 0 => fail name "tab size cannot be 0"
    | some width =>
      forTexts name (inputsOf g.operands) fun _ text =>
        let (copy, _) := text.foldl
          (fun (copy, column, isInitial) c =>
            if c = '\n' then (c :: copy, 0, true)
            else if c = '\t' && (isInitial || !g.has "i") then
              let count := width - column % width
              (List.replicate count ' ' ++ copy, column + count, isInitial)
            else (c :: copy, column + 1, isInitial && isBlank c))
          (([], 0, true) : List Char × Nat × Bool)
        say name (String.ofList copy.reverse)

end BuildTrace.Utility
