import BuildTrace.Regex.Parser
import BuildTrace.Utility.Change
import BuildTrace.Utility.Input

/-!
# Lines with a pattern

The program that puts out the lines in which one of its patterns is found.
-/

namespace BuildTrace.Utility

open Shell
open Machine (Entry Fault)

/-- What lines are looked for. -/
structure Search where
  /-- The patterns. -/
  patterns : List Regex
  /-- Letters are taken in any case. -/
  ignoresCase : Bool
  /-- A pattern has to fit a whole line. -/
  wholeLine : Bool
  /-- A pattern has to fit whole words. -/
  wholeWord : Bool

namespace Search

/-- The text of a line as it is read. -/
def reading (s : Search) (line : List Char) : Regex.Reading :=
  { text := line.toArray, ignoresCase := s.ignoresCase }

/-- The ends of parts that fit a pattern and begin at a place, the last one first. -/
def endsAt (r : Regex.Reading) (e : Regex) (i : Nat) : List Nat :=
  if e.hasBack then
    ((List.range (r.text.size + 1 - i)).map (i + ·)).reverse.filter fun j =>
      (Regex.find r e i [] fun k groups => if k = j then some groups else none).isSome
  else (Regex.ends r e i).reverse

/-- The end of the longest part that begins at a place. -/
def endAt? (s : Search) (r : Regex.Reading) (i : Nat) : Option Nat :=
  let isEnd := fun (j : Nat) =>
    if s.wholeLine then i = 0 && j = r.text.size
    else if s.wholeWord then !r.isWordBefore i && !r.isWordAt j
    else true
  let found := s.patterns.filterMap fun e => (endsAt r e i).find? isEnd
  found.max?

/-- The first part that begins at a place or behind it. -/
def spanFrom? (s : Search) (r : Regex.Reading) (i : Nat) : Option (Nat × Nat) :=
  (List.range (r.text.size + 1 - i)).findSome? fun k => (s.endAt? r (i + k)).map (i + k, ·)

/-- A pattern is found in the line. -/
def isFoundIn (s : Search) (line : List Char) : Bool := (s.spanFrom? (s.reading line) 0).isSome

/-- The parts of a line that are found, from a place on. -/
def parts (s : Search) (r : Regex.Reading) : Nat → Nat → List (Nat × Nat)
  | 0, _ => []
  | fuel + 1, i =>
    match s.spanFrom? r i with
    | none => []
    | some (a, b) => if b = a then parts s r fuel (a + 1) else (a, b) :: parts s r fuel b

end Search

/-- What is put out for the lines that are found. -/
structure Findings where
  /-- The lines that are not found are meant. -/
  isInverted : Bool
  /-- Only the number of lines. -/
  counts : Bool
  /-- Only the names of inputs with such lines, or of those without. -/
  lists : Option Bool
  /-- Nothing. -/
  isQuiet : Bool
  /-- Only the parts of the lines. -/
  onlyParts : Bool
  /-- The names of the inputs. -/
  showsNames : Bool
  /-- The numbers of lines. -/
  showsNumbers : Bool
  /-- The numbers of bytes in front. -/
  showsOffsets : Bool
  /-- The greatest number of lines. -/
  limit : Option Nat
  /-- The numbers of lines in front and behind that are put out, too. -/
  before : Nat
  /-- The number of lines behind. -/
  after : Nat
  /-- Lines of other files are not shown. -/
  isText : Bool
  /-- What ends a line. -/
  sign : Char
  /-- What ends a name in a list. -/
  nameEnd : Char

namespace Findings

/-- What stands in front of a line. -/
def lead (f : Findings) (title : String) (mark : Char) (number offset : Nat) : List Char :=
  (if f.showsNames then title.toList ++ [mark] else []) ++
    (if f.showsNumbers then Nat.toDigits 10 number ++ [mark] else []) ++
    (if f.showsOffsets then Nat.toDigits 10 offset ++ [mark] else [])

/-- A line with its number, the number of bytes in front of it, and whether it is meant. -/
abbrev Item := List Char × Nat × Nat × Bool

/-- The lines of a text. -/
def itemsOf (f : Findings) (s : Search) (text : List Char) : List Item :=
  let (items, _) := ((linesOf f.sign text).zipIdx).foldl
    (fun ((items, offset) : List Item × Nat) (line, i) =>
      ((line, i + 1, offset, s.isFoundIn line != f.isInverted) :: items, offset + line.length + 1))
    ([], 0)
  items.reverse

/-- The lines up to the last one that is counted, with those behind it that belong to it. -/
def limited (f : Findings) (items : List Item) : List Item :=
  match f.limit with
  | none => items
  | some limit =>
    let meant := items.filter fun i => i.2.2.2
    match limit with
    | 0 => []
    | count + 1 =>
      match meant[count]? with
      | none => items
      | some (_, last, _, _) =>
        (items.filter fun i => i.2.1 ≤ last + f.after).map fun (line, number, offset, isMeant) =>
          (line, number, offset, isMeant && number ≤ last)

/-- The text for the lines. -/
def text (f : Findings) (s : Search) (title : String) (items : List Item) : List Char :=
  if f.onlyParts then
    if f.isInverted then []
    else
      (items.filter fun i => i.2.2.2).flatMap fun (line, number, offset, _) =>
        let r := s.reading line
        (s.parts r (line.length + 1) 0).flatMap fun (a, b) =>
          f.lead title ':' number (offset + a) ++ (r.text.extract a b).toList ++ [f.sign]
  else
    let meant := (items.filter fun i => i.2.2.2).map fun i => i.2.1
    let isNear := fun (n : Nat) => meant.any fun m => m ≤ n + f.before && n ≤ m + f.after
    let near := if f.before = 0 && f.after = 0 then items.filter fun i => i.2.2.2
      else items.filter fun i => isNear i.2.1
    let (shown, _) := near.foldl
      (fun ((shown, last) : List (List Char) × Option Nat) (line, number, offset, isMeant) =>
        let gap :=
          if f.before = 0 && f.after = 0 then []
          else if last.any (· + 1 < number) then ['-', '-', '\n'] else []
        let lead := f.lead title (if isMeant then ':' else '-') number offset
        ((gap ++ lead ++ line ++ [f.sign]) :: shown, some number))
      ([], none)
    shown.reverse.flatten

end Findings

/-- The stream is a file, and so is the standard output, and they are the same. -/
def isOutputFile (number : Nat) : Shell Bool := do
  let process := (← get).process
  look fun m =>
    match m.stream? process number, m.stream? process 1 with
    | some (_, ⟨.file a, _, _, _, _⟩), some (_, ⟨.file b, _, _, _, _⟩) => a = b
    | _, _ => false

/-- The options of the program for lines with a pattern. -/
def grepForms : OptionForms :=
  { OptionForms.make "A:abB:cC:D:d:Ee:f:FGhHiIlLm:noPqrRsTuUvVwxyzZ"
      [("after-context", "A", .value), ("basic-regexp", "G", .nothing),
        ("before-context", "B", .value), ("byte-offset", "b", .nothing),
        ("color", "color", .optional), ("colour", "color", .optional),
        ("context", "C", .value), ("count", "c", .nothing), ("exclude", "exclude", .value),
        ("exclude-dir", "exclude-dir", .value), ("extended-regexp", "E", .nothing),
        ("file", "f", .value), ("files-with-matches", "l", .nothing),
        ("files-without-match", "L", .nothing), ("fixed-strings", "F", .nothing),
        ("ignore-case", "i", .nothing), ("include", "include", .value),
        ("invert-match", "v", .nothing), ("label", "label", .value),
        ("line-number", "n", .nothing), ("line-regexp", "x", .nothing),
        ("max-count", "m", .value), ("no-filename", "h", .nothing),
        ("no-messages", "s", .nothing), ("null", "Z", .nothing), ("null-data", "z", .nothing),
        ("only-matching", "o", .nothing), ("quiet", "q", .nothing), ("recursive", "r", .nothing),
        ("regexp", "e", .value), ("silent", "q", .nothing), ("text", "a", .nothing),
        ("with-filename", "H", .nothing), ("word-regexp", "w", .nothing)] 2 with
    usage := some "Usage: grep [OPTION]... PATTERNS [FILE]..."
    numbers := some 'C' }

/-- Put out the lines in which a pattern is found. `kind` says how patterns are written, unless an
option does. -/
def searching (kind : String) : Utility := fun _ name arguments => do
  let g ← grepForms.given name arguments
  let kinds := ((g.options.map Prod.fst).filter ["E", "F", "G", "P"].contains).eraseDups
  if 1 < kinds.length then fail name "conflicting matchers specified" 2
  let kind := kinds.headD kind
  let numberOf := fun (keys : List String) => do
    match (g.options.filter fun o => keys.contains o.1).getLast? with
    | none => pure 0
    | some (_, value) =>
      match amount? (value.getD "").toList with
      | some n => pure n
      | none => fail name (value.getD "" ++ ": invalid context length argument") 2
  let after ← numberOf ["A", "C"]
  let before ← numberOf ["B", "C"]
  let limit ← match g.value? "m" with
    | none => pure none
    | some text =>
      match amount? text.toList with
      | some n => pure (some n)
      | none =>
        if (signedNumber? text.toList).isSome then pure none else fail name "invalid max count" 2
  let mut texts : List (List Char) := []
  for (key, value) in g.options do
    if key == "e" then texts := texts ++ Text.splitOn '\n' (value.getD "").toList
    else if key == "f" then
      match ← textOfInput (value.getD "") with
      | .ok text => texts := texts ++ linesOf '\n' text.toList
      | .error fault => fail name (value.getD "" ++ ": " ++ fault.message) 2
  let isGiven := g.hasAny ["e", "f"]
  if !isGiven && g.operands.isEmpty then
    printError ((grepForms.usage.getD "") ++ "\n" ++ helpLine name ++ "\n")
    quit 2
  -- The pattern is the first operand, if no option gives one.
  if !isGiven then texts := Text.splitOn '\n' (g.operands.headD "").toList
  let operands := if isGiven then g.operands else g.operands.drop 1
  let patterns ← texts.mapM fun text => do
    if kind == "F" then return text.foldr (fun c e => Regex.seq (.char c) e) .empty
    else
      match Regex.parse ⟨kind != "G", false⟩ text with
      | .ok parsed =>
        parsed.warnings.forM fun warning => complain name ("warning: " ++ warning)
        return parsed.regex
      | .error message => fail name message 2
  let search : Search :=
    { patterns, ignoresCase := g.hasAny ["i", "y"], wholeLine := g.has "x", wholeWord := g.has "w" }
  let recursive := g.hasAny ["r", "R"]
  let files ←
    if !recursive then pure (inputsOf operands)
    else do
      let starts := if operands.isEmpty then ["."] else operands
      let trees ← starts.mapM fun start => do
        if start = "-" then pure ["-"]
        else
          let tree ← treeOf depthLimit start
          pure ((tree.filter fun t => !t.2).map fun t =>
            if operands.isEmpty then String.ofList (t.1.toList.drop 2) else t.1)
      let included := (g.values "include").map fun p => Pattern.ofText p.toList
      let excluded := (g.values "exclude").map fun p => Pattern.ofText p.toList
      pure (trees.flatten.filter fun file =>
        let last := (lastNameOf file).toList
        (included.isEmpty || included.any (·.fits last)) && !excluded.any (·.fits last))
  let findings : Findings :=
    { isInverted := g.has "v"
      counts := g.has "c"
      lists := (g.last? ["l", "L"]).map (· == "l")
      isQuiet := g.has "q"
      onlyParts := g.has "o"
      showsNames :=
        match g.last? ["h", "H"] with
        | some key => key == "H"
        | none => 1 < operands.length || recursive
      showsNumbers := g.has "n"
      showsOffsets := g.has "b"
      limit, before, after
      isText := g.has "a"
      sign := if g.has "z" then '\x00' else '\n'
      nameEnd := if g.has "Z" then '\x00' else '\n' }
  let mut isFound := false
  let mut isFaulty := false
  for file in files do
    let title := if file = "-" then (g.value? "label").getD "(standard input)" else file
    let result ← withInput file fun number => do
      -- Lines that are put out to the input itself would be found again.
      let writesBack ← isOutputFile number
      if writesBack && !findings.isQuiet && findings.lists.isNone && limit.all (1 < ·) then
        complain name (title ++ ": input file is also the output")
        return .ok none
      else return (← readAll number manySteps []).map some
    match result with
    | .error fault =>
      isFaulty := true
      if !g.has "s" then complain name (file ++ ": " ++ fault.message)
    | .ok none => isFaulty := true
    | .ok (some bytes) =>
      let text := charsOf bytes
      let items := findings.limited (findings.itemsOf search text)
      let count := items.countP fun i => i.2.2.2
      let count := if limit = some 0 then 0 else count
      if count != 0 then isFound := true
      if findings.isQuiet then
        if isFound then quit 0
      else
        match findings.lists with
        | some wanted =>
          if (count != 0) = wanted then say name (title ++ findings.nameEnd.toString)
        | none =>
          if findings.counts then
            let lead := if findings.showsNames then title ++ ":" else ""
            say name (lead ++ toString count ++ "\n")
          else if count != 0 then
            if text.contains '\x00' && !findings.isText && !g.has "z" then
              complain name (title ++ ": binary file matches")
            else say name (String.ofList (findings.text search title items))
  return if isFaulty then 2 else if isFound then 0 else 1

end BuildTrace.Utility
