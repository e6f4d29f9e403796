import BuildTrace.Editing.Run
import BuildTrace.Utility.Change

/-!
# Editing inputs

The program that runs a script for every line of its inputs.
-/

namespace BuildTrace.Utility

open Shell
open Editing
open Machine (Fault Opening)

/-- The options of the program. -/
def sedForms : OptionForms :=
  { OptionForms.make "e:Ef:l:nrsuz"
      [("expression", "e", .value), ("file", "f", .value), ("in-place", "i", .optional),
        ("line-length", "l", .value), ("null-data", "z", .nothing), ("posix", "posix", .nothing),
        ("quiet", "n", .nothing), ("regexp-extended", "E", .nothing),
        ("separate", "s", .nothing), ("silent", "n", .nothing),
        ("unbuffered", "u", .nothing)] with
    usage := some "Usage: sed [OPTION]... \x7bscript-only-if-no-other-script\x7d [input-file]..." }

/-- The forms with the option to change files, whose value is joined to it. -/
def sedFormsWithFiles : OptionForms :=
  { sedForms with forms := ⟨some 'i', "", .optional⟩ :: sedForms.forms }

/-- A part of a script, with what it is called in messages. -/
structure ScriptPart where
  /-- The text. -/
  text : List Char
  /-- What a mistake is called that has a number of characters in front of it. -/
  mistake : Nat → String

/-- The lines of the inputs, of which each may be looked at on its own. -/
def editedLines (sign : Char) (separate : Bool) (texts : List (String × List Char)) : List Line :=
  let inputs := texts.map fun (source, text) =>
    let lines := linesWithEnds sign text
    lines.zipIdx.map fun (line, i) =>
      let hasEnd := line.getLast? = some sign
      let text := if hasEnd then line.dropLast else line
      (⟨text, hasEnd, source, i + 1, separate && i + 1 = lines.length⟩ : Line)
  let all := inputs.flatten
  all.zipIdx.map fun (line, i) =>
    let isLast := i + 1 = all.length
    { line with
      hasEnd := line.hasEnd || !(isLast || separate)
      number := if separate then line.number else i + 1
      isLast := line.isLast || isLast }

/-- The names of the files that commands read. -/
def filesRead (s : Editing.Script) : List String :=
  s.commands.filterMap fun c =>
    match c.action with
    | .readFile name | .readLine name => some name
    | _ => none

/-- The names of the files that commands write. -/
def filesWritten (s : Editing.Script) : List String :=
  s.commands.filterMap fun c =>
    match c.action with
    | .writeFile name | .writeFirst name => some name
    | .substitute sub => sub.file
    | _ => none

/-- What was written to a sink. -/
def writtenTo (e : Editor) (sink : Sink) : List Char :=
  ((e.written.filter (·.1 = sink)).map Prod.snd).reverse.flatten

/-- Run a script for the lines of inputs. -/
def sed : Utility := fun _ name arguments => do
  let g ← sedFormsWithFiles.given name arguments
  let mut parts : List ScriptPart := []
  let mut isFirst := true
  let mut expressions := 0
  for (key, value) in g.options do
    let text := value.getD ""
    if key == "e" then
      expressions := expressions + 1
      let n := expressions
      parts := parts ++ [⟨text.toList, fun chars =>
        "-e expression #" ++ toString n ++ ", char " ++ toString chars⟩]
    else if key == "f" then
      match ← textOfInput text with
      | .ok content =>
        parts := parts ++ [⟨content.toList, fun chars =>
          let lines := ((content.toList.take chars).filter (· = '\n')).length
          "file " ++ text ++ " line " ++ toString (lines + 1)⟩]
      | .error fault => fail name ("couldn't open file " ++ text ++ ": " ++ fault.message)
  let operands ←
    if !parts.isEmpty then pure g.operands
    else
      match g.operands with
      | [] =>
        printError ((sedForms.usage.getD "") ++ "\n")
        quit 1
      | script :: operands =>
        parts := [⟨script.toList, fun chars => "-e expression #1, char " ++ toString chars⟩]
        pure operands
  let style : Style := ⟨g.hasAny ["E", "r"]⟩
  let mut draft : Draft := {}
  for part in joined parts do
    match readPart style isFirst draft part.text with
    | .ok d =>
      draft := d
      isFirst := false
    | .error mistake =>
      let chars := mistake.rest.elim 0 fun rest => part.text.length - rest.length
      fail name (part.mistake chars ++ ": " ++ mistake.message)
  let script ← match draft.script with
    | .ok script => pure { script with isSilent := script.isSilent || g.has "n" }
    | .error message => fail name message (if message.startsWith "-e" then 1 else 4)
  let sign := if g.has "z" then '\x00' else '\n'
  let files ← (filesRead script).mapM fun file => do
    let text ← textOfInput (if file = "/dev/stdin" then "-" else file)
    return (file, (text.toOption.getD "").toList)
  for file in filesWritten script do
    if (Sink.ofName file) = .file file then
      match ← writeFile file .toWrite [] with
      | .ok () => pure ()
      | .error fault => fail name ("couldn't open file " ++ file ++ ": " ++ fault.message) 4
  let inPlace := g.has "i"
  let mut texts : List (String × List Char) := []
  let mut status := 0
  for file in inputsOf operands do
    let isDirectory := (← entryOf file).toOption.any fun e => e.2.isDirectory
    if inPlace && isDirectory then
      complain name ("couldn't edit " ++ file ++ ": not a regular file")
      status := 4
    else
      match ← textOfInput (if inPlace && file = "-" then "./-" else file) with
      | .ok text => texts := texts ++ [(file, text.toList)]
      | .error .isDirectory =>
        fail name ("read error on " ++ file ++ ": " ++ Fault.isDirectory.message) 4
      | .error fault =>
        complain name ("can't read " ++ file ++ ": " ++ fault.message)
        status := 2
  let groups := if inPlace then texts.map fun t => [t] else [texts]
  let mut ended := false
  for group in groups do
    if ended then continue
    let start : Editor :=
      { script, sign, files, rest := editedLines sign (g.has "s" || inPlace) group }
    let (ending, e) := start.runAll
    let output := bytesOf (String.ofList (writtenTo e .output))
    if inPlace then
      let file := (group.head?.map Prod.fst).getD ""
      let rest := e.rest.flatMap fun line => line.text ++ if line.hasEnd then [sign] else []
      let suffix := (g.value? "i").getD ""
      if !suffix.isEmpty then
        let backup := if suffix.toList.contains '*' then
            String.ofList (suffix.toList.flatMap fun c => if c = '*' then file.toList else [c])
          else file ++ suffix
        discard (writeFile backup .toWrite
          (bytesOf (String.ofList ((group.head?.map Prod.snd).getD []))))
      discard (writeFile file .toWrite (output ++ bytesOf (String.ofList rest)))
    else put name output
    printError (String.ofList (writtenTo e .error))
    for file in (filesWritten script).eraseDups do
      let bytes := bytesOf (String.ofList (writtenTo e (.file file)))
      if (Sink.ofName file) = .file file && !bytes.isEmpty then
        discard (writeFile file .toAppend bytes)
    match ending with
    | .done 0 => pure ()
    | .done s =>
      status := s
      ended := true
    | .failed message => fail name ("-e expression #1, char 0: " ++ message)
    | .endless => hang
  return status
where
  /-- The parts of a script, of which those that end with a backslash are joined to the next
  ones. -/
  joined : List ScriptPart → List ScriptPart
    | [] => []
    | part :: rest =>
      match joined rest with
      | [] => [part]
      | next :: more =>
        let slashes := (part.text.reverse.takeWhile (· = '\\')).length
        if slashes % 2 = 1 then { part with text := part.text ++ '\n' :: next.text } :: more
        else part :: next :: more

end BuildTrace.Utility
