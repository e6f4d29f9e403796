import BuildTrace.Shell.Arithmetic
import BuildTrace.Shell.State

/-!
# Conditions in shell scripts

What `test` finds out about texts, numbers and files. The number of words decides first what a word
means; only then does its text.
-/

namespace BuildTrace.Shell

open Machine (Entry)

namespace Condition

/-! ## Operators -/

/-- The operators about one operand. -/
def unaryOperators : List String :=
  ["-r", "-w", "-x", "-e", "-f", "-d", "-c", "-b", "-p", "-u", "-g", "-k", "-s", "-t", "-z", "-n",
    "-h", "-L", "-S", "-O", "-G"]

/-- The operators about two operands. -/
def binaryOperators : List String :=
  ["=", "!=", "<", ">", "-eq", "-ne", "-ge", "-gt", "-le", "-lt", "-nt", "-ot", "-ef"]

/-- What a word is in a condition. -/
inductive Role where
  /-- The end of the words. -/
  | finish
  /-- An operand. -/
  | operand
  /-- An operator about one operand. -/
  | unary (operator : String)
  /-- An operator about two operands. -/
  | binary (operator : String)
  /-- The opposite of a condition. -/
  | negation
  /-- Both of two conditions. -/
  | both
  /-- One of two conditions. -/
  | either
  /-- An opening bracket. -/
  | opening
  /-- A closing bracket. -/
  | closing
  deriving DecidableEq

/-- The role of the first one of some words. -/
def roleOf : List String → Role
  | [] => .finish
  | word :: rest =>
    if unaryOperators.contains word then
      match rest with
      | [] => .operand
      | [_] => .unary word
      -- In front of an operator with two operands, the word is the first one of them.
      | next :: _ => if binaryOperators.contains next then .operand else .unary word
    else if binaryOperators.contains word then .binary word
    else
      match word with
      | "!" => .negation
      | "-a" => .both
      | "-o" => .either
      | "(" => if rest.isEmpty then .operand else .opening
      | ")" => .closing
      | _ => .operand

/-! ## Operands -/

/-- What a condition comes to: a truth value, or a message about a mistake. -/
abbrev Verdict := Except String

/-- The number of an operand. -/
def number (s : String) : Verdict Int :=
  let bad := .error ("Illegal number: " ++ s)
  match Arithmetic.integer? 10 s.toList with
  | some (n, rest) => if rest.all isSpace && Arithmetic.clamp n = n then .ok n else bad
  | none => bad

/-- Where a condition is looked at. -/
structure Scene where
  /-- The machine. -/
  machine : Machine
  /-- The process. -/
  process : Nat
  /-- The working directory. -/
  directory : Path

namespace Scene

/-- The entry at a path. -/
def entry? (scene : Scene) (name : String) : Option Entry :=
  ((scene.machine.entry scene.directory (State.pathOf name)).toOption).map Prod.snd

/-- What the entry at a path holds. -/
def target? (scene : Scene) (name : String) : Option Machine.Target :=
  match scene.entry? name with
  | some (.device (.stream number)) =>
    (scene.machine.stream? scene.process number).map fun s => s.2.target
  | some (.device device) => (scene.machine.deviceTarget scene.process device).toOption
  | _ => none

/-- The path leads to something. -/
def isPresent (scene : Scene) (name : String) : Bool :=
  match scene.entry? name with
  | some (.device .terminal) => true
  | some (.device _) => (scene.target? name).isSome
  | entry => entry.isSome

/-- The place to which a path leads. -/
def place? (scene : Scene) (name : String) : Option Place :=
  ((scene.machine.entry scene.directory (State.pathOf name)).toOption).map Prod.fst

/-- The value of an operator about a path. -/
def ofPath (scene : Scene) (operator name : String) : Bool :=
  let target? := scene.target? name
  let isPipe :=
    match target? with
    | some (.pipe _) | some .output | some .error => true
    | _ => false
  let isFileTarget :=
    match target? with
    | some (.file _) => true
    | _ => false
  match operator with
  -- Everything belongs to the user, who may read and write all of it.
  | "-e" | "-r" | "-w" | "-O" | "-G" => scene.isPresent name
  | "-f" => (scene.entry? name).any Entry.isFile || isFileTarget
  | "-d" => (scene.entry? name).any Entry.isDirectory
  | "-x" =>
    match scene.entry? name with
    | some .directory | some (.program _) => true
    | some (.file _ isExecutable) => isExecutable
    | _ => false
  | "-s" =>
    match scene.entry? name with
    | some .directory | some (.program _) => true
    | some (.file content _) => !content.toBytes.isEmpty
    | _ =>
      match target? with
      | some (.file place) =>
        (scene.machine.contentAt? place).any fun content => !content.toBytes.isEmpty
      | _ => false
  | "-p" => isPipe
  | "-c" =>
    match scene.entry? name, target? with
    | some (.device .terminal), _ => true
    | _, some .null | _, some .zero | _, some .full => true
    | _, _ => false
  | _ => false

/-- The value of an operator about one operand. -/
def unary (scene : Scene) (operator operand : String) : Verdict Bool :=
  match operator with
  | "-n" => .ok !operand.isEmpty
  | "-z" => .ok operand.isEmpty
  | "-t" => (number operand).map fun _ => false
  | _ => .ok (scene.ofPath operator operand)

/-- The value of an operator about two operands. No file is newer than another one, since the times
of files are not known. -/
def binary (scene : Scene) (a operator b : String) : Verdict Bool :=
  let compare := fun (f : Int → Int → Bool) => do
    let x ← number a
    let y ← number b
    return f x y
  match operator with
  | "=" => .ok (a == b)
  | "!=" => .ok (a != b)
  | "<" => .ok (decide (a < b))
  | ">" => .ok (decide (b < a))
  | "-eq" => compare (· == ·)
  | "-ne" => compare (· != ·)
  | "-lt" => compare fun x y => decide (x < y)
  | "-le" => compare fun x y => decide (x ≤ y)
  | "-gt" => compare fun x y => decide (y < x)
  | "-ge" => compare fun x y => decide (y ≤ x)
  | "-nt" | "-ot" => .ok false
  | _ => .ok ((scene.place? a).isSome && scene.place? a == scene.place? b)

end Scene

/-! ## Conditions -/

/-- A truth value, and the words from the last one on that was looked at. -/
abbrev Step := Verdict (Bool × List String)

mutual

/-- Conditions of which one should hold, from the first word on. -/
def disjunction (scene : Scene) : Nat → List String → Step
  | 0, words => .ok (false, words)
  | fuel + 1, words => do
    let (first, words) ← conjunction scene fuel words
    if roleOf (words.drop 1) = .either then
      let (second, words) ← disjunction scene fuel (words.drop 2)
      return (first || second, words)
    else return (first, words)

/-- Conditions all of which should hold. -/
def conjunction (scene : Scene) : Nat → List String → Step
  | 0, words => .ok (false, words)
  | fuel + 1, words => do
    let (first, words) ← opposite scene fuel words
    if roleOf (words.drop 1) = .both then
      let (second, words) ← conjunction scene fuel (words.drop 2)
      return (first && second, words)
    else return (first, words)

/-- A condition that may be turned into its opposite. -/
def opposite (scene : Scene) : Nat → List String → Step
  | 0, words => .ok (false, words)
  | fuel + 1, words => do
    if roleOf words = .negation then
      if words.length ≤ 1 then return (true, words)
      else
        let (value, words) ← opposite scene fuel (words.drop 1)
        return (!value, words)
    else primary scene fuel (roleOf words) words

/-- A condition without conditions in it, or one in brackets. -/
def primary (scene : Scene) : Nat → Role → List String → Step
  | 0, _, words => .ok (false, words)
  | fuel + 1, role, words => do
    match role with
    | .finish => return (false, words)
    | .opening =>
      let rest := words.drop 1
      if roleOf rest = .closing then return (false, rest)
      else
        let (value, words) ← disjunction scene fuel rest
        let words := words.drop 1
        if roleOf words = .closing then return (value, words)
        else .error "closing paren expected"
    | .unary operator =>
      match words.drop 1 with
      | [] => .error (operator ++ ": argument expected")
      | operand :: rest => return (← scene.unary operator operand, operand :: rest)
    | _ =>
      match roleOf (words.drop 1) with
      | .binary operator =>
        match words.drop 2 with
        | [] => .error (operator ++ ": argument expected")
        | second :: rest => return (← scene.binary (words.headD "") operator second, second :: rest)
      -- A single word holds if it is not empty.
      | _ => return (!(words.headD "").isEmpty, words)

end

/-- The value of the words from the first one on, whose role may be known. -/
def whole (scene : Scene) (isOperand : Bool) (words : List String) : Verdict Bool := do
  let fuel := 4 * words.length + 8
  let (value, rest) ←
    if isOperand then primary scene fuel .operand words else disjunction scene fuel words
  if 2 ≤ rest.length then .error (rest.headD "" ++ ": unexpected operator") else .ok value

/-- The value of a condition. -/
def value (scene : Scene) : Nat → List String → Verdict Bool
  | 0, _ => .ok false
  | fuel + 1, words =>
    let isBinary :=
      match words with
      | [_, operator, _] => binaryOperators.contains operator
      | _ => false
    if words.isEmpty then .ok false
    -- What three and four words mean does not depend on what the operands look like.
    else if isBinary then whole scene true words
    else if words.length = 3 || words.length = 4 then
      if words.head? = some "(" && words.getLast? = some ")" then
        whole scene false (words.drop 1).dropLast
      else if words.head? = some "!" then (value scene fuel (words.drop 1)).map (!·)
      else whole scene false words
    else whole scene false words

end Condition

end BuildTrace.Shell
