import BuildTrace.Shell.Condition
import BuildTrace.Shell.Format
import BuildTrace.Shell.Program
import BuildTrace.Text.Base64
import BuildTrace.Utility.Copy
import BuildTrace.Utility.Input

/-!
# Words

The programs that put out words, and those that say something about where they run.
-/

namespace BuildTrace.Utility

open Shell
open Machine (Fault)

/-! ## Printing -/

/-- The number of the digits of base sixteen at the beginning, at most two, and what follows. -/
def hexByte? (s : List Char) : Option (Char × List Char) :=
  let digits := (s.take 2).takeWhile Arithmetic.isHexDigit
  if digits.isEmpty then none else some (byteChar (digitsValue 16 digits), s.drop digits.length)

/-- The text with its escapes replaced, and whether the output ends. -/
def unescapeWord : Nat → List Char → List Char × Bool
  | 0, _ => ([], false)
  | _, [] => ([], false)
  | fuel + 1, c :: s =>
    let goOn := fun (c : Char) (s : List Char) =>
      let (more, stops) := unescapeWord fuel s
      (c :: more, stops)
    match c, s with
    | '\\', 'c' :: _ => ([], true)
    | '\\', 'e' :: rest => goOn '\x1b' rest
    | '\\', '0' :: rest =>
      let (n, rest) := octal 3 rest
      goOn (byteChar n) rest
    | '\\', 'x' :: rest =>
      match hexByte? rest with
      | some (d, rest) => goOn d rest
      | none => goOn '\\' s
    | '\\', d :: rest =>
      match escapeChar? d with
      | some e => goOn e rest
      | none => goOn '\\' s
    | c, s => goOn c s

/-- Print the arguments with spaces between them. -/
def echo : Utility := fun _ name arguments => do
  let isOption := fun (a : String) =>
    match a.toList with
    | '-' :: letters => !letters.isEmpty && letters.all ['n', 'e', 'E'].contains
    | _ => false
  let options := arguments.takeWhile isOption
  let letters := options.flatMap String.toList
  let text := " ".intercalate (arguments.drop options.length)
  let escapes := (letters.filter (['e', 'E'].contains ·)).getLast? = some 'e'
  let (shown, stops) :=
    if escapes then unescapeWord (text.length + 1) text.toList else (text.toList, false)
  say name (String.ofList shown ++ if stops || letters.contains 'n' then "" else "\n")
  return 0

/-- Print the arguments in a format. -/
def printf : Utility := fun _ name arguments => do
  let arguments := if arguments.head? = some "--" then arguments.drop 1 else arguments
  match arguments with
  | [] => misuse name "missing operand"
  | format :: operands =>
    let p := Printing.ofFormat format operands
    say name p.text
    for message in p.messages.reverse do
      match Text.splitOnce? ':' message.toList with
      | some (subject, reason) =>
        let subject := String.ofList subject
        match String.ofList (reason.drop 1) with
        | "expected numeric value" => complain name (quote subject ++ ": expected a numeric value")
        | "not completely converted" =>
          complain name (quote subject ++ ": value not completely converted")
        | "invalid directive" => complain name (subject ++ ": invalid conversion specification")
        | reason => complain name (quote subject ++ ": " ++ reason)
      | none => complain name message
    let isUsed := format.toList.contains '%'
    if !isUsed && !operands.isEmpty then
      complain name ("warning: ignoring excess arguments, starting with " ++
        quote (operands.headD ""))
    return if p.messages.isEmpty then 0 else 1

/-- Print a line again and again. -/
def yes : Utility := fun _ name arguments => do
  let arguments := if arguments.head? = some "--" then arguments.drop 1 else arguments
  let line := bytesOf ((if arguments.isEmpty then "y" else " ".intercalate arguments) ++ "\n")
  let count := max 1 (8192 / line.length)
  again name (List.replicate count line).flatten manySteps
where
  /-- Print a block again and again. -/
  again (name : String) (block : List UInt8) : Nat → Shell Nat
    | 0 => hang
    | fuel + 1 => do
      put name block
      again name block fuel

/-! ## Conditions -/

/-- What is said about a mistake in a condition. -/
def conditionMessage (words : List String) (message : String) : String :=
  match Text.strip? "Illegal number: ".toList message.toList with
  | some subject => "invalid integer " ++ quote (String.ofList subject)
  | none =>
    match words with
    | [_, b] => "missing argument after " ++ quote b
    | [_, b, _] => quote b ++ ": binary operator expected"
    | _ =>
      match Text.splitOnce? ':' message.toList with
      | some (subject, _) => quote (String.ofList subject) ++ ": unexpected argument"
      | none => message

/-- Look at a condition. -/
def conditionOf (name : String) (words : List String) : Shell Nat := do
  let s ← get
  let verdict ← look fun m =>
    Condition.value ⟨m, s.process, s.directoryPath⟩ (words.length + 1) words
  match verdict with
  | .ok value => return if value then 0 else 1
  | .error message => fail name (conditionMessage words message) 2

/-- Look at a condition. -/
def test : Utility := fun _ name arguments => conditionOf name arguments

/-- Look at a condition in brackets. -/
def bracket : Utility := fun _ name arguments => do
  if arguments.getLast? = some "]" then conditionOf name arguments.dropLast
  else fail name "missing ']'" 2

/-! ## Circumstances -/

/-- End a program that has operands where it takes none. -/
def refuseOperands (name : String) (g : Given) (status : Nat := 1) : Shell Unit := do
  match g.operands with
  | [] => pure ()
  | extra :: _ => misuse name ("extra operand " ++ quote extra) status

/-- What is known of the system, in order, by the letters of options. -/
def systemNames : List (String × String) :=
  [("s", "Linux"), ("n", "localhost"), ("m", "x86_64"), ("o", "GNU/Linux")]

/-- Print the names of the system. -/
def uname : Utility :=
  (OptionForms.make "amnoprsvi"
    [("all", "a", .nothing), ("kernel-name", "s", .nothing), ("machine", "m", .nothing),
      ("nodename", "n", .nothing), ("operating-system", "o", .nothing)]).program fun name g => do
    refuseOperands name g
    let asked := systemNames.filter fun (key, _) => g.has key || g.has "a"
    let asked := if g.options.isEmpty then systemNames.take 1 else asked
    say name (" ".intercalate (asked.map Prod.snd) ++ "\n")
    return 0

/-- Print a line, if there are no operands. -/
def fixedLine (line : String) (status : Nat := 0) (fault : Nat := 1) : Utility :=
  (OptionForms.make "" [] fault).program fun name g => do
    refuseOperands name g fault
    say name (line ++ "\n")
    return status

/-- Print who runs the program. -/
def id : Utility :=
  (OptionForms.make "agGnruz"
    [("group", "g", .nothing), ("groups", "G", .nothing), ("name", "n", .nothing),
      ("real", "r", .nothing), ("user", "u", .nothing)]).program fun name g => do
    match g.operands.filter (· != "root") with
    | user :: _ => fail name (quote user ++ ": no such user")
    | [] => pure ()
    let line :=
      if g.hasAny ["u", "g", "G"] then if g.has "n" then "root" else "0"
      else "uid=0(root) gid=0(root) groups=0(root)"
    say name (line ++ "\n")
    return 0

/-- Print the paths of programs. -/
def which : Utility := (OptionForms.make "as" []).program fun name g => do
  let s ← get
  let path := (s.environment.lookup "PATH").getD "/usr/bin:/bin"
  let canRun := fun (m : Machine) (file : String) =>
    match m.entry s.directoryPath (State.pathOf file) with
    | .ok (_, .file _ true) | .ok (_, .program _) => true
    | _ => false
  if g.operands.isEmpty then return 1
  forAll g.operands fun program => do
    let found ← look fun m =>
      if program.toList.contains '/' then if canRun m program then [program] else []
      else
        ((Program.directoriesOf path).map fun d =>
          Program.inDirectory (if d.isEmpty then "." else d) program).filter (canRun m)
    let shown := if g.has "a" then found else found.take 1
    say name (String.join (shown.map (· ++ "\n")))
    return if found.isEmpty then 1 else 0

/-! ## Bytes -/

/-- The letters for bytes. -/
def base64Text : List UInt8 → List Char
  | [] => []
  | a :: rest =>
    let letter := fun (n : Nat) => (Text.Base64.letters[n % 64]?).getD '='
    let x := a.toNat
    match rest with
    | [] => [letter (x / 4), letter (x * 16), '=', '=']
    | [b] =>
      let y := b.toNat
      [letter (x / 4), letter (x * 16 + y / 16), letter (y * 4), '=']
    | b :: c :: rest =>
      let y := b.toNat
      let z := c.toNat
      letter (x / 4) :: letter (x * 16 + y / 16) :: letter (y * 4 + z / 64) :: letter z ::
        base64Text rest

/-- Write bytes with letters, or read them back. -/
def base64 : Utility :=
  (OptionForms.make "diw:"
    [("decode", "d", .nothing), ("ignore-garbage", "i", .nothing),
      ("wrap", "w", .value)]).program fun name g => do
    match g.operands.drop 1 with
    | extra :: _ => misuse name ("extra operand " ++ quote extra)
    | [] => pure ()
    let file := g.operands.headD "-"
    match ← bytesOfInput file with
    | .error .isDirectory => fail name ("read error: " ++ Fault.isDirectory.message)
    | .error fault => fail name (quoteIfNeeded file ++ ": " ++ fault.message)
    | .ok bytes =>
      if g.has "d" then
        let text := (charsOf bytes).filter fun c =>
          c != '\n' && (!g.has "i" || (Text.Base64.value? c).isSome || c = '=')
        match Text.Base64.groups? text with
        | some bytes =>
          put name bytes
          return 0
        | none => fail name "invalid input"
      else
        match (g.value? "w").elim (some 76) fun w => number? w.toList with
        | none => fail name ("invalid wrap size: " ++ quote ((g.value? "w").getD ""))
        | some 0 =>
          say name (String.ofList (base64Text bytes))
          return 0
        | some width =>
          let lines := wrap width (bytes.length * 2 + 8) (base64Text bytes)
          say name (String.ofList (lines.flatMap (· ++ ['\n'])))
          return 0
where
  /-- Lines of at most a width. -/
  wrap (width : Nat) : Nat → List Char → List (List Char)
    | 0, _ => []
    | _, [] => []
    | fuel + 1, s => s.take width :: wrap width fuel (s.drop width)

/-- Compare two inputs byte by byte. -/
def cmp : Utility :=
  (OptionForms.make "bi:ln:s"
    [("print-bytes", "b", .nothing), ("quiet", "s", .nothing), ("silent", "s", .nothing),
      ("verbose", "l", .nothing)] 2).program fun name g => do
    let (a, b) ← match g.operands with
      | [] => misuse name ("missing operand after " ++ quote name) 2
      | [a] => pure (a, "-")
      | [a, b] => pure (a, b)
      | _ :: _ :: _ :: _ => misuse name "extra operand" 2
    let contentOf := fun (file : String) => do
      match ← bytesOfInput file with
      | .ok bytes => pure bytes
      | .error fault =>
        if g.has "s" then quit 2 else fail name (file ++ ": " ++ fault.message) 2
    let x ← contentOf a
    let y ← contentOf b
    match ((x.zip y).zipIdx).find? fun ((c, d), _) => c != d with
    | some (_, i) =>
      let line := (x.take i).countP (· = 10) + 1
      if g.has "l" then
        let shown := ((x.zip y).zipIdx).filterMap fun ((c, d), i) =>
          if c = d then none
          else
            some ((toString (i + 1)).toList ++ ' ' :: padStart 3 (Nat.toDigits 8 c.toNat) ++
              ' ' :: padStart 3 (Nat.toDigits 8 d.toNat) ++ ['\n'])
        say name (String.ofList shown.flatten)
      else if !g.has "s" then
        say name (a ++ " " ++ b ++ " differ: char " ++ toString (i + 1) ++ ", line " ++
          toString line ++ "\n")
      return 1
    | none =>
      if x.length = y.length then return 0
      let (short, bytes) := if x.length < y.length then (a, x) else (b, y)
      if !g.has "s" then
        let line := bytes.countP (· = 10)
        let place :=
          if bytes.isEmpty then " which is empty"
          else " after byte " ++ toString bytes.length ++
            (if bytes.getLast? = some 10 then ", line " ++ toString line
             else ", in line " ++ toString (line + 1))
        complain name ("EOF on " ++ short ++ place)
      return 1

end BuildTrace.Utility
