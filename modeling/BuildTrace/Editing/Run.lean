import BuildTrace.Editing.Parser

/-!
# Editing

What a script for editing makes of the lines of its inputs. The lines are taken one after the other;
for each of them all commands are run, and the text that is left is printed.
-/

namespace BuildTrace.Editing

open Shell (CharClass)

/-- A line of an input. -/
structure Line where
  /-- The text. -/
  text : List Char
  /-- Something ends it. -/
  hasEnd : Bool
  /-- The name of the input. -/
  source : String
  /-- The number of the line. -/
  number : Nat
  /-- No line is behind it. -/
  isLast : Bool

/-- Where something is written to. -/
inductive Sink where
  /-- The standard output. -/
  | output
  /-- The standard error. -/
  | error
  /-- A file. -/
  | file (name : String)
  deriving DecidableEq

/-- The sink with the name. -/
def Sink.ofName (name : String) : Sink :=
  if name = "/dev/stdout" then output else if name = "/dev/stderr" then error else file name

/-- What is printed at the end of a turn. -/
inductive Pending where
  /-- A text. -/
  | text (s : List Char)
  /-- A file. -/
  | file (name : String)

/-- A range of lines that a command is in. -/
structure Range where
  /-- The number of the command. -/
  command : Nat
  /-- The number of the last line, if it is known. -/
  last : Option Nat

/-- Editing, at some point. -/
structure Editor where
  /-- The script. -/
  script : Script
  /-- What ends a line. -/
  sign : Char := '\n'
  /-- The contents of the files that are read. -/
  files : List (String × List Char) := []
  /-- The lines that are left. -/
  rest : List Line
  /-- The line. -/
  line : Line := ⟨[], true, "-", 0, false⟩
  /-- The text that is edited. -/
  text : List Char := []
  /-- Something ends the text. -/
  hasEnd : Bool := true
  /-- The text that is kept, and whether something ends it. -/
  kept : List Char × Bool := ([], true)
  /-- What is printed at the end of the turn, the last first. -/
  pending : List Pending := []
  /-- The ranges that are open. -/
  ranges : List Range := []
  /-- Something has been put in the place of something since the line was taken. -/
  isChanged : Bool := false
  /-- The expression that was used last. -/
  lastRegex : Option Regex := none
  /-- The numbers of lines that were read from files. -/
  linesRead : List (String × Nat) := []
  /-- What was written, the last first. -/
  written : List (Sink × List Char) := []
  /-- The sinks to which a line without an end was written last. -/
  openSinks : List Sink := []

/-- How a turn goes on. -/
inductive Flow where
  /-- With the next command. -/
  | next
  /-- With the command with a number. -/
  | goTo (command : Nat)
  /-- It ends, maybe without the text being printed. -/
  | ends (prints : Bool)
  /-- It begins again without a new line. -/
  | again
  /-- Editing ends with a status, maybe without the text being printed. -/
  | quits (status : Nat) (prints : Bool)
  /-- Editing ends with a message. -/
  | fails (message : String)

namespace Editor

/-- The number of the line. -/
def number (e : Editor) : Nat := e.line.number

/-! ## Writing -/

/-- Write a text. -/
def write (e : Editor) (sink : Sink) (text : List Char) : Editor :=
  let text := if e.openSinks.contains sink then e.sign :: text else text
  { e with written := (sink, text) :: e.written, openSinks := e.openSinks.filter (· != sink) }

/-- Write a line, with an end if the line of the input has one. -/
def writeLine (e : Editor) (sink : Sink) (text : List Char) : Editor :=
  if e.hasEnd then e.write sink (text ++ [e.sign])
  else
    -- The end is added when something else is written behind the line.
    let e := e.write sink text
    { e with openSinks := sink :: e.openSinks }

/-- Write what was put off to the end of the turn. -/
def flush (e : Editor) : Editor :=
  let e := e.pending.reverse.foldl
    (fun (e : Editor) p =>
      match p with
      | .text s => e.write .output s
      | .file name =>
        match e.files.lookup name with
        | some [] | none => e
        | some text => e.write .output text)
    e
  { e with pending := [] }

/-- Take the next line, behind the text if there is one to be added to. -/
def advance (e : Editor) (adds : Bool) : Option Editor :=
  match e.rest with
  | [] => none
  | line :: rest =>
    let e := e.flush
    some { e with
      rest, line, hasEnd := line.hasEnd, isChanged := false
      text := if adds then e.text ++ e.sign :: line.text else line.text }

/-! ## Choosing lines -/

/-- The expression, which may be the one used last. -/
def regex? (e : Editor) (x : Expression) : Option Regex := x.regex <|> e.lastRegex

/-- How the text is read for an expression. -/
def reading (e : Editor) (x : Expression) : Regex.Reading :=
  { text := e.text.toArray, ignoresCase := x.ignoresCase, hasLines := x.hasLines }

/-- The line is one of those of the address; nothing if there is no expression. -/
def isAt (e : Editor) (a : Address) : Option (Bool × Editor) :=
  match a with
  | .line n => some (e.number = n, e)
  | .every first step => some (first ≤ e.number && (e.number - first) % step = 0, e)
  | .last => some (e.line.isLast, e)
  | .found x =>
    match e.regex? x with
    | none => none
    | some regex =>
      some ((Regex.spanFrom? regex (e.reading x) 0).isSome, { e with lastRegex := some regex })
  | .further _ | .upTo _ => some (false, e)

/-- Close the range of a command. -/
def closeRange (e : Editor) (command : Nat) : Editor :=
  { e with ranges := e.ranges.filter (·.command != command) }

/-- Open a range for a command. -/
def openRange (e : Editor) (command : Nat) (last : Option Nat) : Editor :=
  { e with ranges := ⟨command, last⟩ :: e.ranges }

/-- The line is the first one of a range, which is opened if it goes on behind the line. -/
def startRange (e : Editor) (command : Nat) (second : Address) : Editor :=
  let upTo := fun (last : Nat) => if e.number < last then e.openRange command (some last) else e
  match second with
  | .line n => upTo n
  | .further count => upTo (e.number + count)
  | .upTo divisor =>
    if divisor = 0 then e else upTo ((e.number / divisor + 1) * divisor)
  | _ => e.openRange command none

/-- The command with a number is run for the line. -/
def isSelected (e : Editor) (command : Nat) (s : Selector) : Option (Bool × Editor) :=
  match s.first, s.second with
  | none, _ => some (true, e)
  | some first, none => e.isAt first
  | some first, some second =>
    match e.ranges.find? (·.command == command) with
    -- No range is open: the line may be the first one of a new range.
    | none => do
      let (starts, e) ← e.isAt first
      some (starts, if starts then e.startRange command second else e)
    | some ⟨_, some last⟩ =>
      if e.number < last then some (true, e)
      else if e.number = last then some (true, e.closeRange command)
      -- The range ended before this line, which may begin the next one.
      else (e.closeRange command).isAt first
    | some ⟨_, none⟩ => do
      let (isEnd, e) ← e.isAt second
      some (true, if isEnd then e.closeRange command else e)

/-! ## Putting texts in the place of others -/

/-- The case in which letters are written: from now on, and for the next one only. -/
abbrev Casing := Option Char × Option Char

/-- A text in a case. -/
def cased (c : Casing) (s : List Char) : List Char × Casing :=
  let whole := match c.1 with
    | some 'U' => s.map Char.toUpper
    | some 'L' => s.map Char.toLower
    | _ => s
  match whole, c.2 with
  | first :: rest, some 'u' => (first.toUpper :: rest, (c.1, none))
  | first :: rest, some 'l' => (first.toLower :: rest, (c.1, none))
  | whole, _ => (whole, c)

/-- What is put in the place of a text. -/
def replacement (parts : List Part) (r : Regex.Reading) (m : Regex.Match) : List Char :=
  let (pieces, _) := parts.foldl
    (fun ((pieces, c) : List (List Char) × Casing) part =>
      match part with
      | .text s =>
        let (s, c) := cased c s
        (s :: pieces, c)
      | .group n =>
        let (s, c) := cased c (m.text r n)
        (s :: pieces, c)
      | .casing letter =>
        let c : Casing :=
          match letter with
          | 'E' => (none, none)
          | 'U' | 'L' => (some letter, none)
          | _ => (c.1, some letter)
        (pieces, c))
    ([], (none, none))
  pieces.reverse.flatten

/-- The text behind a place with other texts in the place of those that are found, if there are
any. `count` is the number of those in front, and `last` is the end of the last one. -/
def replaced (s : Substitution) (regex : Regex) (r : Regex.Reading) :
    Nat → (start count : Nat) → (last : Option Nat) → List Char × Bool
  | 0, _, _, _ => ([], false)
  | fuel + 1, start, count, last =>
    let tail := (r.text.extract start r.text.size).toList
    if r.text.size < start then ([], false)
    else
      match regex.matchFrom? r start with
      | none => (tail, false)
      | some m =>
        let lead := (r.text.extract start m.start).toList
        let char := (r.text.extract m.stop (m.stop + 1)).toList
        -- Nothing is not found right behind a text that was found.
        if m.start = m.stop && last = some m.start then
          let (more, isFound) := replaced s regex r fuel (m.stop + 1) count none
          (lead ++ char ++ more, isFound)
        else
          let isMeant := s.number ≤ count + 1
          let own :=
            if isMeant then replacement s.parts r m else (r.text.extract m.start m.stop).toList
          if isMeant && !s.isGlobal then
            (lead ++ own ++ (r.text.extract m.stop r.text.size).toList, true)
          -- Behind nothing, one character is passed by, or the same place would be found again.
          else if m.start = m.stop then
            let (more, isFound) := replaced s regex r fuel (m.stop + 1) (count + 1) none
            (lead ++ own ++ char ++ more, isMeant || isFound)
          else
            let (more, isFound) := replaced s regex r fuel m.stop (count + 1) (some m.stop)
            (lead ++ own ++ more, isMeant || isFound)

/-- Put a text in the place of others; nothing if there is no expression. -/
def substitute (e : Editor) (s : Substitution) : Option Editor := do
  let regex ← e.regex? s.expression
  let e := { e with lastRegex := some regex }
  let (text, isFound) := replaced s regex (e.reading s.expression) (e.text.length + 2) 0 0 none
  if !isFound then some e
  else
    let e := { e with text, isChanged := true }
    let e := if s.prints then e.writeLine .output e.text else e
    some (s.file.elim e fun name => e.writeLine (.ofName name) e.text)

/-! ## Commands -/

/-- The first line of the text. -/
def firstLine (e : Editor) : List Char := e.text.takeWhile (· != e.sign)

/-- A character with an escape if it cannot be seen. -/
def plainChar (c : Char) : List Char :=
  match c with
  | '\\' => ['\\', '\\']
  | '\x07' => ['\\', 'a']
  | '\x08' => ['\\', 'b']
  | '\x0c' => ['\\', 'f']
  | '\n' => ['\\', 'n']
  | '\r' => ['\\', 'r']
  | '\t' => ['\\', 't']
  | '\x0b' => ['\\', 'v']
  | c =>
    if CharClass.print.has c then [c]
    else
      let digits := Nat.toDigits 8 c.toNat
      '\\' :: List.replicate (3 - digits.length) '0' ++ digits

/-- The text with escapes, in lines that are not too long. -/
def plainText (width : Nat) (text : List Char) : List Char :=
  let (lines, last) := (text.map plainChar).foldl
    (fun ((lines, line) : List (List Char) × List Char) piece =>
      if width != 0 && width - 1 < line.length + piece.length then
        ((line ++ ['\\', '\n']) :: lines, piece)
      else (lines, line ++ piece))
    ([], [])
  lines.reverse.flatten ++ last ++ ['$', '\n']

/-- Go on at a label; at the end if there is none. -/
def jump (e : Editor) (label : String) : Flow :=
  if label.isEmpty then .ends true
  else (e.script.labels.lookup label).elim (.ends true) Flow.goTo

/-- A line of a file that has not been read yet. -/
def nextLineOf (e : Editor) (name : String) : Option (List Char) × Editor :=
  let count := (e.linesRead.lookup name).getD 0
  let lines := Text.splitOn '\n' ((e.files.lookup name).getD [])
  let last := lines.getLast?.getD []
  let lines := lines.dropLast.map (· ++ ['\n']) ++ if last.isEmpty then [] else [last]
  (lines[count]?,
    { e with linesRead := (name, count + 1) :: e.linesRead.filter (·.1 != name) })

/-- Run the command with a number, which is selected. -/
def perform (e : Editor) (command : Nat) (selector : Selector) : Action → Flow × Editor
  | .block _ | .nothing => (.next, e)
  | .append text => (.next, { e with pending := .text text :: e.pending })
  | .insert text => (.next, e.write .output text)
  | .change text =>
    -- For a range the text is written once, at its last line.
    let isInside := selector.second.isSome && e.ranges.any (·.command == command)
    (.ends false, if isInside && !selector.isInverted then e else e.write .output text)
  | .branch label => (e.jump label, e)
  | .branchIf label =>
    if e.isChanged then (e.jump label, { e with isChanged := false }) else (.next, e)
  | .branchUnless label =>
    if e.isChanged then (.next, { e with isChanged := false }) else (e.jump label, e)
  | .delete => (.ends false, e)
  | .deleteFirst =>
    if e.text.contains e.sign then
      (.again, { e with text := e.text.drop (e.firstLine.length + 1) })
    else (.ends false, e)
  | .print => (.next, e.writeLine .output e.text)
  | .printFirst => (.next, e.write .output (e.firstLine ++ [e.sign]))
  | .printNumber => (.next, e.write .output (Nat.toDigits 10 e.number ++ ['\n']))
  | .printName => (.next, e.write .output (e.line.source.toList ++ ['\n']))
  | .printPlain width => (.next, e.write .output (plainText (width.getD 70) e.text))
  | .next =>
    if e.rest.isEmpty then (.quits 0 true, e)
    else
      let e := if e.script.isSilent then e else e.writeLine .output e.text
      match e.advance false with
      | some e => (.next, e)
      | none => (.quits 0 true, e)
  | .addNext =>
    match e.advance true with
    | some e => (.next, e)
    | none => (.quits 0 true, e)
  | .keep => (.next, { e with kept := (e.text, e.hasEnd) })
  | .addKept => (.next, { e with kept := (e.kept.1 ++ e.sign :: e.text, e.hasEnd) })
  | .take => (.next, { e with text := e.kept.1, hasEnd := e.kept.2 })
  | .addTaken => (.next, { e with text := e.text ++ e.sign :: e.kept.1, hasEnd := e.kept.2 })
  | .exchange =>
    (.next, { e with text := e.kept.1, hasEnd := e.kept.2, kept := (e.text, e.hasEnd) })
  | .quit status prints => (.quits status prints, e)
  | .readFile name => (.next, { e with pending := .file name :: e.pending })
  | .readLine name =>
    match e.nextLineOf name with
    | (some line, e) => (.next, { e with pending := .text line :: e.pending })
    | (none, e) => (.next, e)
  | .writeFile name => (.next, e.writeLine (.ofName name) e.text)
  | .writeFirst name => (.next, e.write (.ofName name) (e.firstLine ++ [e.sign]))
  | .substitute s =>
    match e.substitute s with
    | some e => (.next, e)
    | none => (.fails "no previous regular expression", e)
  | .translate pairs => (.next, { e with text := e.text.map fun c => (pairs.lookup c).getD c })
  | .empty => (.next, { e with text := [] })

/-- Run the command with a number, if it is to be run for the line. -/
def step (e : Editor) (command : Nat) (c : Command) : Flow × Editor :=
  match e.isSelected command c.selector with
  | none => (.fails "no previous regular expression", e)
  | some (isSelected, e) =>
    if isSelected != c.selector.isInverted then e.perform command c.selector c.action
    else
      match c.action with
      | .block stop => (.goTo stop, e)
      | _ => (.next, e)

/-! ## Turns -/

/-- How editing ends. -/
inductive Ending where
  /-- With a status. -/
  | done (status : Nat)
  /-- With a message. -/
  | failed (message : String)
  /-- It goes on for ever. -/
  | endless

/-- Print the text, if that is wanted, and what was put off. -/
def finishTurn (e : Editor) (prints : Bool) : Editor :=
  let e := if prints && !e.script.isSilent then e.writeLine .output e.text else e
  e.flush

/-- Run commands from one on, and go on with the next lines. -/
def run (commands : Array Command) : Nat → (command : Nat) → Editor → Ending × Editor
  | 0, _, e => (.endless, e)
  | fuel + 1, command, e =>
    let newTurn := fun (e : Editor) =>
      match e.advance false with
      | some e => run commands fuel 0 e
      | none => (.done 0, e)
    match commands[command]? with
    | none => newTurn (e.finishTurn true)
    | some c =>
      match e.step command c with
      | (.next, e) => run commands fuel (command + 1) e
      | (.goTo n, e) => run commands fuel n e
      | (.ends prints, e) => newTurn (e.finishTurn prints)
      | (.again, e) => run commands fuel 0 (e.finishTurn false)
      | (.quits status prints, e) => (.done status, e.finishTurn prints)
      | (.fails message, e) => (.failed message, e)

/-- The number of commands after which editing does not end. -/
def stepLimit : Nat := 10000000

/-- The ranges that are open from the beginning: those from line zero on. -/
def startRanges (s : Script) : List Range :=
  s.commands.zipIdx.filterMap fun (c, i) =>
    match c.selector.first, c.selector.second with
    | some (.line 0), some (.found _) => some ⟨i, none⟩
    | _, _ => none

/-- Edit all lines. -/
def runAll (e : Editor) : Ending × Editor :=
  let e := { e with ranges := startRanges e.script }
  match e.advance false with
  | none => (.done 0, e)
  | some e => run e.script.commands.toArray stepLimit 0 e

end Editor

end BuildTrace.Editing
