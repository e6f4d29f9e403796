import BuildTrace.Scan.Basic

/-!
# Build targets of a database

The database dump of make lists its rules between `# Files` and `# Finished Make data base`. A
rule begins with its target and a colon. A file that is no target is announced on the line before
it.
-/

namespace BuildTrace.BuildTarget

/-- Where a reader of the dump stands. -/
structure Extraction where
  /-- The reader is in the section of the files. -/
  inSection : Bool := false
  /-- The next line is about a file that is no target. -/
  skipNext : Bool := false
  /-- The line before ended with a backslash. -/
  continued : Bool := false
  /-- The targets met so far. -/
  seen : List String := []

namespace Extraction

/-- A character of a target name. -/
def isNameChar (c : Char) : Bool := !Text.isBlank c && !([':', '#', '=', '%'].contains c)

/-- The target of a line with a rule. -/
def target? (line : List Char) : Option (List Char) :=
  let name := line.takeWhile isNameChar
  match line.dropWhile isNameChar with
  | ':' :: rest =>
    if name.isEmpty || name.head? == some '.' || rest.head? == some '=' then none else some name
  | _ => none

/-- The line begins with the text. -/
def begins (lead : String) (line : List Char) : Bool := Text.startsWith lead.toList line

/-- Read one line. -/
def read (e : Extraction) (line : List Char) : List String × Extraction :=
  let continued := e.continued
  -- A line that goes on concerns the next one: this one goes by how the last one ended.
  let e := { e with continued := (Text.trimEnd line).getLast? == some '\\' }
  if begins "# Files" line then ([], { e with inSection := true, skipNext := false })
  else if begins "# Finished Make data base" line then ([], { e with inSection := false })
  else if !e.inSection || continued || Text.isBlankText line then ([], e)
  else if begins "# Not a target:" line then ([], { e with skipNext := true })
  else if e.skipNext then ([], { e with skipNext := false })
  -- Other comments, and the recipes of rules.
  else if line.head?.any fun c => c = '#' || Text.isBlank c then ([], e)
  else
    match target? line with
    | none => ([], e)
    | some name =>
      let name := String.ofList name
      -- A target may have rules in several places.
      if e.seen.contains name then ([], e) else ([name], { e with seen := name :: e.seen })

end Extraction

/-- The recognizer of build targets. -/
def scanner {ω : Type} : LineScanner ω Extraction String :=
  .ofPure (fun line e => e.read line.toList) (fun _ => [])

/-- The targets of a dump in order of first appearance, unless the scan was cancelled. -/
def extract? {ω : Type} (isCancelled : ω → Bool) (chunkSize : Nat) (dump : String) (w : ω) :
    Option (List String) × ω :=
  Scan.complete? scanner isCancelled chunkSize dump {} w

end BuildTrace.BuildTarget
