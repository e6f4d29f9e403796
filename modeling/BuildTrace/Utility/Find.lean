import BuildTrace.Shell.Pattern
import BuildTrace.Utility.Order
import BuildTrace.Utility.Process

/-!
# Looking for entries

The program that goes through directories and does something for the entries that satisfy a
condition.
-/

namespace BuildTrace.Utility

open Shell
open Machine (Entry Fault)

/-- A condition on an entry, which may have an effect. -/
inductive Inquiry where
  /-- It always holds. -/
  | always (value : Bool)
  /-- The name fits a pattern, maybe in any case. -/
  | name (pattern : Pattern) (ignoresCase : Bool)
  /-- The whole path fits a pattern. -/
  | path (pattern : Pattern) (ignoresCase : Bool)
  /-- The entry is of one of some kinds. -/
  | kind (letters : List Char)
  /-- There is nothing in it. -/
  | isEmpty
  /-- Its size in units, compared with a number. -/
  | size (order : Ordering) (count unit : Nat)
  /-- It can be executed. -/
  | canRun
  /-- Print the path with an ending. -/
  | print (ending : String)
  /-- Remove the entry. -/
  | delete
  /-- Do not go into the directory. -/
  | prune
  /-- End. -/
  | quit
  /-- Run a program for it. -/
  | run (command : List String)
  /-- Run a program for all of them. -/
  | collect (command : List String)
  /-- The opposite. -/
  | not (a : Inquiry)
  /-- Both. -/
  | both (a b : Inquiry)
  /-- One of them. -/
  | either (a b : Inquiry)

namespace Inquiry

/-- Something is done for the entry. -/
def hasAction : Inquiry → Bool
  | print _ | delete | run _ | collect _ | quit => true
  | not a => a.hasAction
  | both a b | either a b => a.hasAction || b.hasAction
  | _ => false

/-- Directories come behind what is in them. -/
def isDeepFirst : Inquiry → Bool
  | delete => true
  | not a => a.isDeepFirst
  | both a b | either a b => a.isDeepFirst || b.isDeepFirst
  | _ => false

end Inquiry

/-- What the arguments ask for beside the condition. -/
structure InquiryScope where
  /-- The greatest depth. -/
  most : Option Nat := none
  /-- The least depth. -/
  least : Nat := 0
  /-- Directories come behind what is in them. -/
  isDeepFirst : Bool := false

namespace Inquiry

/-- A condition that is read, with the scope and the words that are left. -/
abbrev Parsed := Except String (Inquiry × InquiryScope × List String)

/-- The words up to the end of a command, whether it is run once for all, and what follows. -/
def commandOf? : List String → Option (List String × Bool × List String)
  | [] => none
  | ";" :: rest => some ([], false, rest)
  | "\x7b\x7d" :: "+" :: rest => some ([], true, rest)
  | word :: rest => (commandOf? rest).map fun (words, isOnce, rest) => (word :: words, isOnce, rest)

/-- The size with a sign in front and a letter behind. -/
def sizeOf? (text : String) : Option Inquiry :=
  let (order, s) := match text.toList with
    | '+' :: s => (Ordering.gt, s)
    | '-' :: s => (.lt, s)
    | s => (.eq, s)
  let digits := s.takeWhile Char.isDigit
  let unit := match s.drop digits.length with
    | [] | ['b'] => some 512
    | ['c'] => some 1
    | ['w'] => some 2
    | ['k'] => some 1024
    | ['M'] => some (1024 * 1024)
    | ['G'] => some (1024 * 1024 * 1024)
    | _ => none
  if digits.isEmpty then none else unit.map fun u => .size order (digitsValue 10 digits) u

/-- A condition without an operator. -/
def simple (s : InquiryScope) (words : List String) : Parsed :=
  match words with
  | [] => .error "invalid expression"
  | word :: rest =>
    let missing := "missing argument to \x60" ++ word ++ "'"
    let withValue := fun (f : String → Except String (Inquiry × InquiryScope)) =>
      match rest with
      | [] => .error missing
      | value :: rest => (f value).map fun (q, s) => (q, s, rest)
    let depth := fun (f : Nat → InquiryScope) => withValue fun value =>
      match number? value.toList with
      | some n => .ok (always true, f n)
      | none =>
        .error ("Expected a positive decimal integer argument to " ++ word ++ ", but got " ++
          quote value)
    let lowered := fun (value : String) => Pattern.ofText (value.toList.map Char.toLower)
    match word with
    | "-name" => withValue fun v => .ok (name (Pattern.ofText v.toList) false, s)
    | "-iname" => withValue fun v => .ok (name (lowered v) true, s)
    | "-path" | "-wholename" => withValue fun v => .ok (path (Pattern.ofText v.toList) false, s)
    | "-ipath" => withValue fun v => .ok (path (lowered v) true, s)
    | "-type" => withValue fun v =>
        let letters := v.toList.filter (· != ',')
        match letters.find? fun c => !("bcdpfls".toList.contains c) with
        | some c => .error ("Unknown argument to -type: " ++ c.toString)
        | none => .ok (kind letters, s)
    | "-size" => withValue fun v =>
        match sizeOf? v with
        | some q => .ok (q, s)
        | none => .error ("Invalid argument \x60" ++ v ++ "' to -size")
    | "-maxdepth" => depth fun n => { s with most := some n }
    | "-mindepth" => depth fun n => { s with least := n }
    | "-depth" | "-d" => .ok (always true, { s with isDeepFirst := true }, rest)
    | "-mount" | "-xdev" | "-follow" | "-noleaf" | "-true" => .ok (always true, s, rest)
    | "-false" => .ok (always false, s, rest)
    | "-empty" => .ok (isEmpty, s, rest)
    | "-executable" => .ok (canRun, s, rest)
    | "-readable" | "-writable" => .ok (always true, s, rest)
    | "-print" => .ok (print "\n", s, rest)
    | "-print0" => .ok (print "\x00", s, rest)
    | "-delete" => .ok (delete, s, rest)
    | "-prune" => .ok (prune, s, rest)
    | "-quit" => .ok (quit, s, rest)
    | "-exec" | "-execdir" =>
      match commandOf? rest with
      | none | some ([], _, _) => .error missing
      | some (command, true, rest) => .ok (collect command, s, rest)
      | some (command, false, rest) => .ok (run command, s, rest)
    | word =>
      if word.startsWith "-" then .error ("unknown predicate \x60" ++ word ++ "'")
      else .error ("paths must precede expression: \x60" ++ word ++ "'")

mutual

/-- Conditions of which one has to hold. -/
def parseEither : Nat → InquiryScope → List String → Parsed
  | 0, _, _ => .error "invalid expression"
  | fuel + 1, s, words => do
    let (a, s, rest) ← parseBoth fuel s words
    match rest with
    | word :: rest' =>
      if word = "-o" || word = "-or" then
        let (b, s, rest) ← parseEither fuel s rest'
        .ok (either a b, s, rest)
      else .ok (a, s, rest)
    | [] => .ok (a, s, [])

/-- Conditions that have to hold together. -/
def parseBoth : Nat → InquiryScope → List String → Parsed
  | 0, _, _ => .error "invalid expression"
  | fuel + 1, s, words => do
    let (a, s, rest) ← parseOne fuel s words
    match rest with
    | [] => .ok (a, s, [])
    | word :: rest' =>
      if ["-o", "-or", ")", ","].contains word then .ok (a, s, rest)
      else
        let rest := if word = "-a" || word = "-and" then rest' else rest
        let (b, s, rest) ← parseBoth fuel s rest
        .ok (both a b, s, rest)

/-- A condition, maybe in brackets. -/
def parseOne : Nat → InquiryScope → List String → Parsed
  | 0, _, _ => .error "invalid expression"
  | fuel + 1, s, words => do
    match words with
    | "!" :: rest | "-not" :: rest =>
      let (a, s, rest) ← parseOne fuel s rest
      .ok (not a, s, rest)
    | "(" :: rest =>
      let (a, s, rest) ← parseEither fuel s rest
      match rest with
      | ")" :: rest => .ok (a, s, rest)
      | _ =>
        .error ("invalid expression; I was expecting to find a ')' somewhere but did not see " ++
          "one.")
    | words => simple s words

end

/-- The condition that words stand for. -/
def parse (words : List String) : Except String (Inquiry × InquiryScope) := do
  if words.isEmpty then return (.print "\n", {})
  let (q, s, rest) ← parseEither (4 * words.length + 4) {} words
  match rest with
  | [] => .ok (if q.hasAction then q else .both q (.print "\n"), s)
  | ")" :: _ => .error "invalid expression; you have too many ')'"
  | word :: _ => .error ("paths must precede expression: \x60" ++ word ++ "'")

end Inquiry

/-- An entry that is looked at. -/
structure Candidate where
  /-- The path. -/
  path : String
  /-- The place. -/
  place : Place
  /-- The entry. -/
  entry : Entry

/-- What has come of looking for entries so far. -/
structure Finding where
  /-- The exit status. -/
  status : Nat := 0
  /-- The directory is not gone into. -/
  isPruned : Bool := false
  /-- The commands that are run for all, each with the paths. -/
  collected : List (List String × List String) := []
  /-- No more entries are looked at. -/
  isDone : Bool := false

/-- Run a program and wait for it. -/
def runAndWait (handOver : Handover) (name : String) (command : List String) : Shell Nat := do
  let child ← start do
    handOverOr handOver command fun fault =>
      complain name (quote (command.headD "") ++ ": " ++ fault.message)
  return (← waitFor child).status

/-- Whether the condition holds for an entry; it may have an effect. -/
def Inquiry.holds (handOver : Handover) (name : String) (c : Candidate) :
    Inquiry → Finding → Shell (Bool × Finding)
  | .always value, f => return (value, f)
  | .name p ignoresCase, f =>
    let last := (lastNameOf c.path).toList
    return (p.fits (if ignoresCase then last.map Char.toLower else last), f)
  | .path p ignoresCase, f =>
    let text := c.path.toList
    return (p.fits (if ignoresCase then text.map Char.toLower else text), f)
  | .kind letters, f =>
    let letter := match c.entry with
      | .directory => 'd'
      | .device _ => 'c'
      | _ => 'f'
    return (letters.contains letter, f)
  | .isEmpty, f => do
    let isEmpty ← look fun m =>
      match c.entry with
      | .directory => (m.namesIn c.place).isEmpty
      | _ => ((m.contentAt? c.place).map Content.toBytes) = some []
    return (isEmpty, f)
  | .size order count unit, f => do
    let size ← look fun m =>
      if c.entry.isDirectory then 4096
      else ((m.contentAt? c.place).map fun x => x.toBytes.length).getD 0
    return (compareInt ((size + unit - 1) / unit : Nat) count = order, f)
  | .canRun, f =>
    return (match c.entry with | .file _ e => e | .device _ => false | _ => true, f)
  | .print ending, f => do
    say name (c.path ++ ending)
    return (true, f)
  | .delete, f => do
    let result ←
      if c.entry.isDirectory then change fun m d => m.removeDirectory d (State.pathOf c.path)
      else change fun m d => m.removeFile d (State.pathOf c.path)
    match result with
    | .ok () => return (true, f)
    | .error fault =>
      complain name ("cannot delete " ++ quote c.path ++ ": " ++ fault.message)
      return (false, { f with status := 1 })
  | .prune, f => return (true, { f with isPruned := true })
  | .quit, f => return (true, { f with isDone := true })
  | .run command, f => do
    let filled := command.map fun a =>
      String.ofList (ArgumentInput.fill ['\x7b', '\x7d'] c.path.toList (a.length + 1) a.toList)
    return ((← runAndWait handOver name filled) = 0, f)
  | .collect command, f =>
    let old := (f.collected.lookup command).getD []
    let others := f.collected.filter (·.1 != command)
    return (true, { f with collected := others ++ [(command, old ++ [c.path])] })
  | .not a, f => do
    let (value, f) ← a.holds handOver name c f
    return (!value, f)
  | .both a b, f => do
    let (value, f) ← a.holds handOver name c f
    if value && !f.isDone then b.holds handOver name c f else return (value, f)
  | .either a b, f => do
    let (value, f) ← a.holds handOver name c f
    if value then return (true, f) else b.holds handOver name c f

/-- Look at an entry and at what is in it. -/
def Inquiry.visit (handOver : Handover) (name : String) (q : Inquiry) (s : InquiryScope) :
    Nat → (depth : Nat) → (file : String) → Finding → Shell Finding
  | 0, _, _, f => return f
  | fuel + 1, depth, file, f => do
    if f.isDone then return f
    match ← entryOf file with
    | .error fault =>
      complain name (quote file ++ ": " ++ fault.message)
      return { f with status := 1 }
    | .ok (place, entry) =>
      let deepFirst := s.isDeepFirst || q.isDeepFirst
      let here := fun (f : Finding) => do
        if depth < s.least || f.isDone then return f
        let (_, f) ← q.holds handOver name ⟨file, place, entry⟩ f
        return f
      let f ← if deepFirst then pure f else here { f with isPruned := false }
      let goesIn := entry.isDirectory && s.most.all (depth < ·) && (deepFirst || !f.isPruned)
      let names ← if goesIn then sortedNames place else pure []
      let f ← names.foldlM
        (fun f n => visit handOver name q s fuel (depth + 1) (within file n) f)
        f
      if deepFirst then here f else return { f with isPruned := false }

/-- Go through directories. -/
def findEntries : Utility := fun handOver name arguments => do
  let arguments := arguments.dropWhile fun a => ["-H", "-L", "-P", "--"].contains a
  let isPath := fun (a : String) => !(a.startsWith "-" || ["!", "(", ")", ","].contains a)
  let paths := arguments.takeWhile isPath
  match Inquiry.parse (arguments.drop paths.length) with
  | .error message => fail name message
  | .ok (q, s) =>
    let starts := if paths.isEmpty then ["."] else paths
    let f ← starts.foldlM (fun f path => q.visit handOver name s depthLimit 0 path f) ({} : Finding)
    let mut status := f.status
    for (command, files) in f.collected do
      if (← runAndWait handOver name (command ++ files)) != 0 then status := 1
    return status

end BuildTrace.Utility
