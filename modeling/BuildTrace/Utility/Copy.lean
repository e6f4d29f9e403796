import BuildTrace.Utility.Input

/-!
# Copying inputs

The programs that put out what they read: as it is, with marks, or turned around.
-/

namespace BuildTrace.Utility

open Shell
open Machine (Fault Opening Target)

/-! ## One input after the other -/

/-- What is added to the lines of a copy. -/
structure Marking where
  /-- Lines get numbers. -/
  numbers : Bool
  /-- Only lines that are not empty get numbers. -/
  numbersText : Bool
  /-- Of empty lines that follow one another only one is left. -/
  squeezes : Bool
  /-- The ends of lines are shown. -/
  showsEnds : Bool
  /-- Tabs are shown. -/
  showsTabs : Bool
  /-- Other characters that cannot be seen are shown. -/
  showsHidden : Bool

/-- How far a copy with marks has come. -/
structure Marking.Progress where
  /-- The number of lines that have a number. -/
  count : Nat := 0
  /-- The next character is the first of a line. -/
  isFirst : Bool := true
  /-- The line in front of this one is empty. -/
  wasEmpty : Bool := false

namespace Marking

/-- A character that cannot be seen, as it is shown. -/
def shownByte (c : Char) : List Char :=
  let low := fun (n : Nat) =>
    if n < 32 then ['^', Char.ofNat (n + 64)]
    else if n = 127 then ['^', '?']
    else [Char.ofNat n]
  if c.toNat < 128 then low c.toNat else 'M' :: '-' :: low (c.toNat - 128)

/-- A character as it is shown. -/
def shown (m : Marking) (c : Char) : List Char :=
  if c = '\t' then if m.showsTabs then ['^', 'I'] else [c]
  else if m.showsHidden then shownByte c
  else [c]

/-- The number in front of a line. -/
def numberText (n : Nat) : List Char := padNumber 6 n ++ ['\t']

/-- Copy a line, which may lack its end. -/
def line (m : Marking) (p : Progress) (text : List Char) : List Char × Progress :=
  let body := text.takeWhile (· != '\n')
  let hasEnd := body.length < text.length
  let isEmpty := p.isFirst && body.isEmpty
  if isEmpty && m.squeezes && p.wasEmpty then ([], p)
  else
    let isNumbered := p.isFirst && if m.numbersText then !body.isEmpty else m.numbers
    let p := if isNumbered then { p with count := p.count + 1 } else p
    let number := if isNumbered then numberText p.count else []
    -- A carriage return is shown with the end of the line, even if hidden characters are not.
    let returns := m.showsEnds && hasEnd && !m.showsHidden && body.getLast? = some '\r'
    let body :=
      if returns then body.dropLast.flatMap m.shown ++ ['^', 'M'] else body.flatMap m.shown
    let ending := if hasEnd then if m.showsEnds then ['$', '\n'] else ['\n'] else []
    (number ++ body ++ ending, { p with isFirst := hasEnd, wasEmpty := isEmpty })

/-- Copy a text. -/
def text (m : Marking) (p : Progress) (s : List Char) : List Char × Progress :=
  let (pieces, p) := (linesWithEnds '\n' s).foldl
    (fun (pieces, p) next =>
      let (piece, p) := m.line p next
      (piece :: pieces, p))
    ([], p)
  (pieces.reverse.flatten, p)

end Marking

/-- Copy what can be read from a stream. -/
def copyStream (name : String) (m : Option Marking) (number : Nat) :
    Nat → Marking.Progress → Shell (Except Fault Marking.Progress)
  | 0, _ => hang
  | fuel + 1, p => do
    match ← read number { limit := blockSize } with
    | .error fault => return .error fault
    | .ok [] => return .ok p
    | .ok bytes =>
      match m with
      | none =>
        put name bytes
        copyStream name m number fuel p
      | some marking =>
        let (copy, p) := marking.text p (charsOf bytes)
        say name (String.ofList copy)
        copyStream name m number fuel p

/-- What would be read from the stream is the file that is written to. -/
def isOutput (number : Nat) : Shell Bool := do
  let process := (← get).process
  look fun m =>
    match m.stream? process number, m.stream? process 1 with
    | some (_, input), some (_, output) =>
      match input.target, output.target with
      | .file a, .file b =>
        -- Where nothing is left to read, nothing is written, either.
        let bytes := ((m.contentAt? a).map Content.toBytes).getD []
        a = b && output.writes && input.offset < bytes.length
      | _, _ => false
    | _, _ => false

/-- Copy inputs one after the other. -/
def cat : Utility :=
  (OptionForms.make "AbeEnstTuv"
    [("number-nonblank", "b", .nothing), ("number", "n", .nothing),
      ("squeeze-blank", "s", .nothing), ("show-nonprinting", "v", .nothing),
      ("show-ends", "E", .nothing), ("show-tabs", "T", .nothing),
      ("show-all", "A", .nothing)]).program fun name g => do
    let process := (← get).process
    if (← look fun m => m.stream? process 1).isNone then
      fail name ("standard output: " ++ Fault.badStream.message)
    let marking : Marking :=
      { numbers := g.hasAny ["n", "b"]
        numbersText := g.has "b"
        squeezes := g.has "s"
        showsEnds := g.hasAny ["A", "e", "E"]
        showsTabs := g.hasAny ["A", "t", "T"]
        showsHidden := g.hasAny ["A", "e", "t", "v"] }
    let isMarked := g.hasAny ["A", "b", "e", "E", "n", "s", "t", "T", "v"]
    let marking := if isMarked then some marking else none
    let mut p : Marking.Progress := {}
    let mut status := 0
    for file in inputsOf g.operands do
      let result ← withInput file fun number => do
        if ← isOutput number then
          complain name (quoteIfNeeded file ++ ": input file is output file")
          return .ok none
        else return (← copyStream name marking number manySteps p).map some
      match result with
      | .ok (some q) => p := q
      | .ok none => status := 1
      | .error fault =>
        complain name (quoteIfNeeded file ++ ": " ++ fault.message)
        status := 1
    return status

/-- Copy the standard input to files and to the standard output. -/
def tee : Utility :=
  (OptionForms.make "aip"
    [("append", "a", .nothing), ("ignore-interrupts", "i", .nothing),
      ("output-error", "p", .optional)]).program fun name g => do
    let mut outputs : List (String × Nat) := []
    let mut status := 0
    for file in g.operands do
      match ← openFile file (if g.has "a" then .toAppend else .toWrite) with
      | .ok number => outputs := outputs ++ [(file, number)]
      | .error fault =>
        complain name (quoteIfNeeded file ++ ": " ++ fault.message)
        status := 1
    copyToAll name (("'standard output'", 1) :: outputs) status manySteps
where
  /-- Copy the standard input to streams, which are left out after a fault. -/
  copyToAll (name : String) (outputs : List (String × Nat)) (status : Nat) : Nat → Shell Nat
    | 0 => hang
    | fuel + 1 => do
      match ← read 0 { limit := blockSize } with
      | .ok [] => return status
      | .error fault => fail name ("read error: " ++ fault.message)
      | .ok bytes =>
        let mut left := []
        let mut status := status
        for (file, number) in outputs do
          match ← writeBytes number manySteps bytes with
          | .ok () => left := left ++ [(file, number)]
          | .error fault =>
            complain name (file ++ ": " ++ fault.message)
            status := 1
        if left.isEmpty then return status else copyToAll name left status fuel

/-! ## Turned around -/

/-- Do something with the text of each input. Inputs that cannot be read are told. -/
def forTexts (name : String) (files : List String) (action : String → List Char → Shell Unit)
    (fault : String → Fault → String :=
      fun file fault => quoteIfNeeded file ++ ": " ++ fault.message) :
    Shell Nat :=
  forAll files fun file => do
    match ← textOfInput file with
    | .ok text =>
      action file text.toList
      return 0
    | .error f =>
      complain name (fault file f)
      return 1

/-- The pieces of a text that end with a separator, the last one first. -/
def tac : Utility :=
  (OptionForms.make "bs:"
    [("before", "b", .nothing), ("separator", "s", .value)]).program fun name g => do
    let separator := ((g.value? "s").getD "\n").toList
    let message := fun (file : String) (fault : Fault) =>
      match fault with
      | .isDirectory => quoteIfNeeded file ++ ": read error: Is a directory"
      | fault => "failed to open " ++ quote file ++ " for reading: " ++ fault.message
    forTexts name (inputsOf g.operands)
      (fun _ text =>
        let pieces := split separator (g.has "b") (text.length + 1) text []
        say name (String.ofList pieces.reverse.flatten))
      message
where
  /-- The pieces of a text, with the separators at their ends or at their beginnings. `piece` is
  what has been read of the next one, the last character first. -/
  split (separator : List Char) (before : Bool) :
      Nat → List Char → (piece : List Char) → List (List Char)
    | 0, _, _ => []
    | _, [], piece => if piece.isEmpty then [] else [piece.reverse]
    | fuel + 1, c :: s, piece =>
      match Text.strip? separator (c :: s) with
      | some rest =>
        if separator.isEmpty then split separator before fuel s (c :: piece)
        else if before then
          (if piece.isEmpty then [] else [piece.reverse]) ++
            split separator before fuel rest separator.reverse
        else (piece.reverse ++ separator) :: split separator before fuel rest []
      | none => split separator before fuel s (c :: piece)

/-- The lines of inputs, each from its end to its beginning. -/
def rev : Utility := (OptionForms.make "" []).program fun name g => do
  let message := fun (file : String) (fault : Fault) =>
    match fault with
    | .isDirectory => file ++ ": Is a directory"
    | fault => "cannot open " ++ file ++ ": " ++ fault.message
  forTexts name (inputsOf g.operands)
    (fun _ text => do
      let lines := (linesWithEnds '\n' text).map fun line =>
        if line.getLast? = some '\n' then line.dropLast.reverse ++ ['\n'] else line.reverse
      say name (String.ofList lines.flatten))
    message

end BuildTrace.Utility
