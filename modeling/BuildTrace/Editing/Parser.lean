import BuildTrace.Editing.Script
import BuildTrace.Shell.Format

/-!
# Reading scripts for editing

How the commands of a script are written. A mistake is told with the number of characters in front
of it.
-/

namespace BuildTrace.Editing

open Shell (digitsValue isBlank isSpace)

/-- What is wrong with a script, and what is left of it behind the mistake, if that is known. -/
structure Mistake where
  /-- The message. -/
  message : String
  /-- What is left of the text. -/
  rest : Option (List Char)

/-- A mistake in front of the rest of the text. -/
def wrong {α : Type} (message : String) (rest : List Char) : Except Mistake α :=
  .error ⟨message, some rest⟩

/-- How a script is read. -/
structure Style where
  /-- Expressions are written in the extended way. -/
  isExtended : Bool

/-! ## Expressions and texts between signs -/

/-- The list at the beginning of a text, behind its opening bracket, up to its closing bracket, and
what follows. -/
def bracketList? (s : List Char) : Option (List Char × List Char) :=
  -- A closing bracket that comes first belongs to the list.
  let (lead, body) := match s with
    | '^' :: ']' :: rest => (['^', ']'], rest)
    | '^' :: rest => (['^'], rest)
    | ']' :: rest => ([']'], rest)
    | rest => ([], rest)
  (go (body.length + 1) body).map fun (inner, rest) => (lead ++ inner, rest)
where
  /-- The list up to its bracket. -/
  go : Nat → List Char → Option (List Char × List Char)
    | 0, _ => none
    | _, [] => none
    | _ + 1, ']' :: rest => some ([']'], rest)
    | fuel + 1, '[' :: sign :: rest =>
      if [':', '.', '='].contains sign then
        let inner := rest.takeWhile (· != sign)
        match rest.drop inner.length with
        | _ :: ']' :: behind =>
          (go fuel behind).map fun (more, rest) =>
            ('[' :: sign :: inner ++ sign :: ']' :: more, rest)
        | _ => none
      else (go fuel (sign :: rest)).map fun (more, rest) => ('[' :: more, rest)
    | fuel + 1, '\\' :: 'n' :: rest => (go fuel rest).map fun (more, rest) => ('\n' :: more, rest)
    | fuel + 1, c :: rest => (go fuel rest).map fun (more, rest) => (c :: more, rest)

/-- The text up to a sign, and what follows the sign. In an expression, signs in brackets do not
count. The sign loses the backslash in front of it; an `n` behind a backslash is the end of a
line. -/
def upTo? (sign : Char) (isExpression : Bool) : Nat → List Char → Option (List Char × List Char)
  | 0, _ => none
  | fuel + 1, s =>
    let more := fun (lead rest : List Char) =>
      (upTo? sign isExpression fuel rest).map fun (text, rest) => (lead ++ text, rest)
    match s with
    | [] => none
    | ['\\'] => none
    | '\\' :: c :: rest =>
      if c = sign then
        -- Some signs mean something else without their backslash, and keep it.
        let keepsSlash :=
          if isExpression then ['|', '+', '?', '(', ')', '\x7b', '\x7d'].contains c else c = '&'
        more (if keepsSlash then ['\\', c] else [c]) rest
      else if isExpression && (c = 'n' || c = '\n') then more ['\n'] rest
      else more ['\\', c] rest
    | c :: rest =>
      if c = sign then some ([], rest)
      -- An expression has to end on its line.
      else if c = '\n' && isExpression then none
      else if c = '[' && isExpression then
        match bracketList? rest with
        | some (list, behind) =>
          more ('[' :: list) (if behind.length < rest.length then behind else [])
        | none => more [c] rest
      else more [c] rest

/-- The text of an expression with escapes for characters replaced by them. -/
def unescapeExpression : Nat → List Char → List Char
  | 0, s => s
  | _, [] => []
  | fuel + 1, '\\' :: c :: rest =>
    match c with
    | 't' => '\t' :: unescapeExpression fuel rest
    | 'f' => '\x0c' :: unescapeExpression fuel rest
    | 'v' => '\x0b' :: unescapeExpression fuel rest
    | 'a' => '\x07' :: unescapeExpression fuel rest
    | 'r' => '\r' :: unescapeExpression fuel rest
    | c => '\\' :: c :: unescapeExpression fuel rest
  | fuel + 1, c :: rest => c :: unescapeExpression fuel rest

/-- The expression in a text, with letters behind it, and the number of its numbered texts. -/
def expressionOf (style : Style) (text letters rest : List Char) :
    Except Mistake (Expression × Option Nat) :=
  let ignoresCase := letters.contains 'I' || letters.contains 'i'
  let hasLines := letters.contains 'M' || letters.contains 'm'
  if text.isEmpty then .ok ({ regex := none, ignoresCase, hasLines }, none)
  else
    match Regex.parse ⟨style.isExtended, style.isExtended⟩
        (unescapeExpression text.length text) with
    | .ok p => .ok ({ regex := some p.regex, ignoresCase, hasLines }, some p.count)
    | .error message => wrong message rest

/-! ## Addresses -/

/-- The number at the beginning of a text. -/
def number (s : List Char) : Nat × List Char :=
  let digits := s.takeWhile Char.isDigit
  (digitsValue 10 digits, s.drop digits.length)

/-- The choice of lines at the beginning of a text, if there is one. -/
def address (style : Style) (s : List Char) : Except Mistake (Option Address × List Char) := do
  let expression := fun (sign : Char) (rest : List Char) => do
    match upTo? sign true (rest.length + 1) rest with
    | none => wrong "unterminated address regex" []
    | some (text, rest) =>
      let letters := rest.takeWhile ['I', 'M'].contains
      let rest := rest.drop letters.length
      let (e, _) ← expressionOf style text letters rest
      .ok (some (Address.found e), rest)
  match s with
  | '/' :: rest => expression '/' rest
  | '\\' :: sign :: rest => expression sign rest
  | '$' :: rest => .ok (some .last, rest)
  | sign :: rest =>
    if sign.isDigit then
      let (first, rest) := number s
      -- A line and a distance stand for every so many lines from that line on.
      match rest.dropWhile isBlank with
      | '~' :: behind =>
        let (step, rest) := number (behind.dropWhile isBlank)
        .ok (some (if step = 0 then .line first else .every first step), rest)
      | _ => .ok (some (.line first), rest)
    else if sign = '+' || sign = '~' then
      let (count, rest) := number (rest.dropWhile isBlank)
      .ok (some (if sign = '+' then .further count else .upTo count), rest)
    else .ok (none, s)
  | [] => .ok (none, s)

/-- The choice of lines in front of a command. -/
def selector (style : Style) (s : List Char) : Except Mistake (Selector × List Char) := do
  let (first, s) ← address style s
  match first with
  | none => .ok ({}, s)
  | some first =>
    let s := s.dropWhile isBlank
    let (second, s) ← match s with
      | ',' :: rest =>
        let (second, behind) ← address style (rest.dropWhile isBlank)
        if second.isNone then
          wrong "unexpected \x60,'" ((rest.dropWhile isBlank).drop 1)
        .ok (second, behind.dropWhile isBlank)
      | s => .ok (none, s)
    match first, second with
    | .further _, _ | .upTo _, _ => wrong "invalid usage of +N or ~N as first address" s
    -- Line zero makes sense only if the first line may be the end of the range.
    | .line 0, some (.found _) => .ok ({ first, second }, s)
    | .line 0, _ => wrong "invalid usage of line address 0" (s.drop 1)
    | _, _ => .ok ({ first, second }, s)

/-! ## Commands -/

/-- What follows a command, which has to end here. -/
def ending (s : List Char) : Except Mistake (List Char) :=
  match s.dropWhile isBlank with
  | [] => .ok []
  | '}' :: rest => .ok ('}' :: rest)
  | '#' :: rest => .ok ('#' :: rest)
  | '\n' :: rest => .ok rest
  | ';' :: rest => .ok rest
  | '\r' :: rest => .ok rest
  | _ :: rest => wrong "extra characters after command" rest

/-- The text up to the end of a line, with escapes taken for what they stand for, and what
follows. -/
def textLines : Nat → List Char → List Char × List Char
  | 0, _ => ([], [])
  | _, [] => ([], [])
  | fuel + 1, c :: s =>
    let more := fun (c : Char) (s : List Char) =>
      let (text, rest) := textLines fuel s
      (c :: text, rest)
    match c, s with
    | '\n', s => ([], s)
    | '\\', [] => ([], [])
    | '\\', d :: s =>
      match d with
      | 'n' => more '\n' s
      | 't' => more '\t' s
      | 'a' => more '\x07' s
      | 'f' => more '\x0c' s
      | 'v' => more '\x0b' s
      | d => more d s
    | c, s => more c s

/-- The text of a command that prints one. -/
def printedText (s : List Char) : Except Mistake (List Char × List Char) :=
  match s.dropWhile isBlank with
  | [] => wrong "expected \\ after \x60a', \x60c' or \x60i'" []
  | '\\' :: rest =>
    let behind := rest.dropWhile isBlank
    -- The text begins on this line or on the next one.
    let s := match behind with
      | '\n' :: text => text
      | _ => rest
    if behind.isEmpty then .ok ([], [])
    else
      let (text, rest) := textLines (s.length + 1) s
      .ok (text ++ ['\n'], rest)
  | s =>
    let (text, rest) := textLines (s.length + 1) s
    .ok (text ++ ['\n'], rest)

/-- The name up to the end of the line. -/
def fileName (s : List Char) : Except Mistake (String × List Char) :=
  let s := s.dropWhile isBlank
  let name := s.takeWhile (· != '\n')
  if name.isEmpty then wrong "missing filename in r/R/w/W commands" s
  else .ok (String.ofList name, s.drop (name.length + 1))

/-- The label up to a sign that ends it. -/
def label (s : List Char) : String × List Char :=
  let s := s.dropWhile isBlank
  let name := s.takeWhile fun c => c != '\n' && c != ';' && !isBlank c && c != '}'
  (String.ofList name, s.drop name.length)

/-- The parts of what is put in the place of a text. -/
def partsOf : Nat → List Char → List Part
  | 0, _ => []
  | _, [] => []
  | fuel + 1, c :: s =>
    let chars := fun (c : Char) (s : List Char) =>
      match partsOf fuel s with
      | .text t :: rest => Part.text (c :: t) :: rest
      | parts => .text [c] :: parts
    match c, s with
    | '&', s => .group 0 :: partsOf fuel s
    | '\\', d :: s =>
      if d.isDigit then .group (d.toNat - '0'.toNat) :: partsOf fuel s
      else if ['L', 'U', 'l', 'u', 'E'].contains d then .casing d :: partsOf fuel s
      else
        match d with
        | 'n' => chars '\n' s
        | 't' => chars '\t' s
        | 'r' => chars '\r' s
        | 'f' => chars '\x0c' s
        | 'v' => chars '\x0b' s
        | 'a' => chars '\x07' s
        | d => chars d s
    | c, s => chars c s

/-- The letters behind a text that is put in the place of others. -/
def substitutionLetters : Nat → Substitution → (letters : List Char) → List Char →
    Except Mistake ((Substitution × List Char) × List Char)
  | 0, sub, letters, s => .ok ((sub, letters), s)
  | fuel + 1, sub, letters, s => do
    let again := fun (letter : Char) (rest : List Char) =>
      if letters.contains letter then
        wrong ("multiple \x60" ++ letter.toString ++ "' options to \x60s' command") rest
      else .ok ()
    match s with
    | [] => .ok ((sub, letters), [])
    | c :: rest =>
      match c with
      | 'g' =>
        again 'g' rest
        substitutionLetters fuel { sub with isGlobal := true } ('g' :: letters) rest
      | 'p' =>
        again 'p' rest
        substitutionLetters fuel { sub with prints := true } ('p' :: letters) rest
      | 'w' =>
        let (name, rest) ← fileName rest
        .ok (({ sub with file := some name }, letters), rest)
      | '\n' | ';' => .ok ((sub, letters), rest)
      | '}' | '#' => .ok ((sub, letters), s)
      | _ =>
        if ['i', 'I', 'm', 'M', 'e'].contains c then
          substitutionLetters fuel sub (c :: letters) rest
        else if c.isDigit then
          let (n, rest) := number s
          if letters.contains '0' then
            wrong "multiple number options to \x60s' command" rest
          else if n = 0 then wrong "number option to \x60s' command may not be zero" rest
          else substitutionLetters fuel { sub with number := n } ('0' :: letters) rest
        else if isBlank c then substitutionLetters fuel sub letters rest
        else wrong "unknown option to \x60s'" rest

/-- The greatest number in the parts. -/
def greatestGroup (parts : List Part) : Nat :=
  (parts.map fun | .group n => n | _ => 0).foldl max 0

/-- The command that puts a text in the place of others, behind its letter. -/
def substitution (style : Style) (s : List Char) : Except Mistake (Action × List Char) := do
  let unterminated : Mistake := ⟨"unterminated \x60s' command", some []⟩
  match s with
  | [] => .error unterminated
  | sign :: s =>
    match upTo? sign true (s.length + 1) s with
    | none => .error unterminated
    | some (text, s) =>
      match upTo? sign false (s.length + 1) s with
      | none => .error unterminated
      | some (replacement, s) =>
        let parts := partsOf (replacement.length + 1) replacement
        let start : Substitution := { expression := { regex := none }, parts }
        let ((sub, letters), rest) ← substitutionLetters (s.length + 1) start [] s
        let (expression, count) ← expressionOf style text letters rest
        -- No text can be referred to that the expression does not number.
        let greatest := greatestGroup parts
        if count.any (· < greatest) then
          wrong ("invalid reference \\" ++ toString greatest ++ " on \x60s' command's RHS") rest
        .ok (.substitute { sub with expression }, rest)

/-- The characters of a list with escapes. -/
def translatedChars : List Char → List Char
  | [] => []
  | '\\' :: '\\' :: rest => '\\' :: translatedChars rest
  | '\\' :: 'n' :: rest => '\n' :: translatedChars rest
  | '\\' :: 't' :: rest => '\t' :: translatedChars rest
  | '\\' :: '\n' :: rest => '\n' :: translatedChars rest
  | c :: rest => c :: translatedChars rest

/-- The command that puts characters in the place of others, behind its letter. -/
def translation (s : List Char) : Except Mistake (Action × List Char) := do
  let unterminated : Mistake := ⟨"unterminated \x60y' command", some []⟩
  match s with
  | [] => .error unterminated
  | sign :: s =>
    match upTo? sign false (s.length + 1) s with
    | none => .error unterminated
    | some (source, s) =>
      match upTo? sign false (s.length + 1) s with
      | none => .error unterminated
      | some (target, s) =>
        let source := translatedChars source
        let target := translatedChars target
        if source.length != target.length then
          wrong "strings for \x60y' command are different lengths" s
        .ok (.translate (source.zip target), ← ending s)

/-- A script that is being read. -/
structure Draft where
  /-- The commands, the last one first. -/
  commands : List Command := []
  /-- The labels. -/
  labels : List (String × Nat) := []
  /-- The numbers of the blocks that are open. -/
  blocks : List Nat := []
  /-- Lines are printed only if a command does it. -/
  isSilent : Bool := false

namespace Draft

/-- With a command. -/
def add (d : Draft) (selector : Selector) (action : Action) : Draft :=
  { d with commands := ⟨selector, action⟩ :: d.commands }

/-- The number of the next command. -/
def size (d : Draft) : Nat := d.commands.length

end Draft

/-- The commands that have nothing behind their letter. -/
def plainAction? (c : Char) : Option Action :=
  match c with
  | '=' => some .printNumber
  | 'd' => some .delete
  | 'D' => some .deleteFirst
  | 'F' => some .printName
  | 'g' => some .take
  | 'G' => some .addTaken
  | 'h' => some .keep
  | 'H' => some .addKept
  | 'n' => some .next
  | 'N' => some .addNext
  | 'p' => some .print
  | 'P' => some .printFirst
  | 'x' => some .exchange
  | 'z' => some .empty
  | _ => none

/-- The command with a letter, but for those that open or close blocks. -/
def action (style : Style) (c : Char) (rest : List Char) : Except Mistake (Action × List Char) := do
  let named := fun (f : String → Action) => do
    let (name, rest) ← fileName rest
    .ok (f name, rest)
  let branching := fun (f : String → Action) => do
    let (name, rest) := label rest
    .ok (f name, ← ending rest)
  match c with
  | 'a' => (printedText rest).map fun (text, rest) => (.append text, rest)
  | 'i' => (printedText rest).map fun (text, rest) => (.insert text, rest)
  | 'c' => (printedText rest).map fun (text, rest) => (.change text, rest)
  | 'b' => branching .branch
  | 't' => branching .branchIf
  | 'T' => branching .branchUnless
  | 'r' => named .readFile
  | 'R' => named .readLine
  | 'w' => named .writeFile
  | 'W' => named .writeFirst
  | 's' => substitution style rest
  | 'y' => translation rest
  -- The version that a script asks for is not looked at.
  | 'v' =>
    let (_, rest) := label rest
    .ok (.nothing, ← ending rest)
  | 'q' | 'Q' =>
    let (status, rest) := number (rest.dropWhile isBlank)
    .ok (.quit (status % 256) (c = 'q'), ← ending rest)
  | 'l' =>
    let s := rest.dropWhile isBlank
    let (width, behind) := number s
    .ok (.printPlain (if behind.length < s.length then some width else none), ← ending behind)
  | c =>
    match plainAction? c with
    | some action => .ok (action, ← ending rest)
    | none => wrong ("unknown command: \x60" ++ c.toString ++ "'") rest

/-- Read commands. -/
def commands (style : Style) : Nat → (isStart : Bool) → Draft → List Char → Except Mistake Draft
  | 0, _, d, _ => .ok d
  | fuel + 1, isStart, d, s => do
    let s := s.dropWhile fun c => isSpace c || c = ';'
    if s.isEmpty then return d
    let (selector, s) ← selector style s
    let (selector, s) ← match s.dropWhile isBlank with
      | '!' :: rest =>
        match rest.dropWhile isBlank with
        | '!' :: rest => wrong "multiple \x60!'s" rest
        | rest => .ok ({ selector with isInverted := true }, rest)
      | s => .ok (selector, s)
    match s with
    | [] => wrong "missing command" []
    | '#' :: rest =>
      if selector.first.isSome then wrong "comments don't accept any addresses" rest
      -- A script that begins with this comment prints only what its commands print.
      let isSilent := isStart && rest.takeWhile (· != '\n') = ['n']
      commands style fuel false { d with isSilent := d.isSilent || isSilent }
        (rest.dropWhile (· != '\n'))
    | ':' :: rest =>
      if selector.first.isSome then wrong ": doesn't want any addresses" rest
      let text := rest.dropWhile isBlank
      let name := text.takeWhile fun c => !isSpace c && c != ';'
      if name.isEmpty then wrong "\":\" lacks a label" rest
      let d := { d with labels := (String.ofList name, d.size) :: d.labels }
      commands style fuel false (d.add {} .nothing) (text.drop name.length)
    | '{' :: rest =>
      -- Where the block ends is filled in when it is closed.
      let d := { d with blocks := d.size :: d.blocks }
      commands style fuel false (d.add selector (.block 0)) rest
    | '}' :: rest =>
      if selector.first.isSome then wrong "\x7d doesn't want any addresses" rest
      match d.blocks with
      | [] => wrong "unexpected \x60\x7d'" rest
      | start :: blocks =>
        let stop := d.size
        let closed := d.commands.reverse.zipIdx.map fun (c, i) =>
          if i = start then { c with action := .block stop } else c
        let d := { d with blocks, commands := closed.reverse }
        commands style fuel false (d.add {} .nothing) (← ending rest)
    | c :: rest =>
      let (action, rest) ← action style c rest
      commands style fuel false (d.add selector action) rest

/-- The label of a command that goes on elsewhere. -/
def Action.target? : Action → Option String
  | branch label | branchIf label | branchUnless label => if label.isEmpty then none else some label
  | _ => none

/-- Read a part of a script. -/
def readPart (style : Style) (isStart : Bool) (d : Draft) (text : List Char) :
    Except Mistake Draft := commands style (text.length + 1) isStart d text

/-- The script, if it is complete. -/
def Draft.script (d : Draft) : Except String Script :=
  if !d.blocks.isEmpty then .error "-e expression #1, char 0: unmatched \x60\x7b'"
  else
    let commands := d.commands.reverse
    let targets := commands.filterMap fun c => c.action.target?
    match targets.find? fun t => (d.labels.lookup t).isNone with
    | some label => .error ("can't find label for jump to \x60" ++ label ++ "'")
    | none => .ok { commands, labels := d.labels, isSilent := d.isSilent }

end BuildTrace.Editing
