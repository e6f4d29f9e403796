import BuildTrace.Utility.Options

/-!
# Files that programs read and write
-/

namespace BuildTrace.Utility

open Shell
open Machine (Fault Opening)

/-- The operands that name inputs: the standard input if there are none. -/
def inputsOf (operands : List String) : List String := if operands.isEmpty then ["-"] else operands

/-- Open a file. -/
def openFile (file : String) (how : Opening) : Shell (Except Fault Nat) := do
  let s ← get
  let number ← look fun m => m.freeNumber s.process 3
  let result ← tryMachine fun m =>
    m.openAs s.process number s.directoryPath (State.pathOf file) how
  return result.map fun _ => number

/-- Do something with the stream of an input; `-` is the standard input. -/
def withInput {α : Type} (file : String) (use : Nat → Shell (Except Fault α)) :
    Shell (Except Fault α) := do
  if file = "-" then use 0
  else
    match ← openFile file .toRead with
    | .error fault => return .error fault
    | .ok number =>
      let result ← use number
      close number
      return result

/-- The bytes of an input. -/
def bytesOfInput (file : String) : Shell (Except Fault (List UInt8)) :=
  withInput file fun number => readAll number manySteps []

/-- The text of an input. -/
def textOfInput (file : String) : Shell (Except Fault String) := do
  return (← bytesOfInput file).map textOf

/-- Write the bytes of a file anew. -/
def writeFile (file : String) (how : Opening) (bytes : List UInt8) : Shell (Except Fault Unit) := do
  match ← openFile file how with
  | .error fault => return .error fault
  | .ok number =>
    let result ← writeBytes number manySteps bytes
    close number
    return result

/-- The lines of a text, each with the sign that ends it. The last one may have none. -/
def linesWithEnds (sign : Char) (text : List Char) : List (List Char) :=
  text.foldr
    (fun c lines =>
      if c = sign then [c] :: lines
      else
        match lines with
        | [] => [[c]]
        | line :: lines => (c :: line) :: lines)
    []

/-- The lines of a text, without the signs that end them. -/
def linesOf (sign : Char) (text : List Char) : List (List Char) :=
  (linesWithEnds sign text).map fun line =>
    if line.getLast? = some sign then line.dropLast else line

/-- Fill a text with spaces at the left, up to a width. -/
def padStart (width : Nat) (s : List Char) : List Char :=
  List.replicate (width - s.length) ' ' ++ s

/-- The digits of a number, with spaces at the left. -/
def padNumber (width n : Nat) : List Char := padStart width (Nat.toDigits 10 n)

/-- Do something for each of the operands; the greatest one of the exit statuses. -/
def forAll (operands : List String) (action : String → Shell Nat) : Shell Nat := do
  let statuses ← operands.mapM action
  return statuses.foldl max 0

/-- What the entry at a path is. -/
def entryOf (file : String) : Shell (Except Fault (Place × Machine.Entry)) := do
  let s ← get
  look fun m => m.entry s.directoryPath (State.pathOf file)

/-- Change the files. -/
def change (f : Machine → Path → Except Fault Machine) : Shell (Except Fault Unit) := do
  let s ← get
  tryMachine fun m => f m s.directoryPath

/-! ## Numbers among arguments -/

/-- The letters behind a number, in the order of the powers of their base. -/
def magnitudes : List Char := ['K', 'M', 'G', 'T', 'P', 'E', 'Z', 'Y', 'R', 'Q']

/-- What the letters behind a number multiply it with. -/
def multiplier? (letters : List Char) : Option Nat :=
  match letters with
  | [] => some 1
  | ['b'] => some 512
  | c :: rest =>
    let c := if c = 'k' || c = 'm' then c.toUpper else c
    match magnitudes.findIdx? (· == c) with
    | none => none
    | some i =>
      match rest with
      | [] | ['i', 'B'] => some (Nat.pow 1024 (i + 1))
      | ['B'] => some (Nat.pow 1000 (i + 1))
      | _ => none

/-- A number with letters behind it. -/
def amount? (s : List Char) : Option Nat :=
  let digits := s.takeWhile Char.isDigit
  if digits.isEmpty then none
  else (multiplier? (s.drop digits.length)).map (digitsValue 10 digits * ·)

/-- A number without letters behind it. -/
def number? (s : List Char) : Option Nat :=
  if s.isEmpty || !s.all Char.isDigit then none else some (digitsValue 10 s)

/-- A number with a sign or without one. -/
def signedNumber? (s : List Char) : Option Int :=
  match s with
  | '-' :: digits => (number? digits).map fun n => -(n : Int)
  | '+' :: digits => (number? digits).map fun n => (n : Int)
  | digits => (number? digits).map fun n => (n : Int)

/-- The arguments with an old form of an option in front written out: a number with letters behind a
sign. Letters mean the unit and options. -/
def modernize (signs letters : List Char) : List String → List String
  | [] => []
  | a :: rest =>
    match a.toList with
    | sign :: text =>
      let digits := text.takeWhile Char.isDigit
      let behind := text.drop digits.length
      if signs.contains sign && !digits.isEmpty && behind.all letters.contains then
        let unit := if behind.contains 'c' then "-c" else "-n"
        let lead := if sign = '+' then "+" else ""
        let others := (behind.filter (· != 'c')).map fun c => "-" ++ c.toString
        unit :: (lead ++ String.ofList digits) :: others ++ rest
      else a :: rest
    | [] => a :: rest

end BuildTrace.Utility
