import BuildTrace.Shell.Script
import BuildTrace.Shell.Bytes
import BuildTrace.Text.Basic

/-!
# Arithmetic in shell scripts

Expressions over integers of 64 bits. A name stands for the value of the variable, and an assignment
sets it. What a condition decides not to use is read, but it has no effect and no faults.
-/

namespace BuildTrace.Shell

/-- A token of an expression. -/
inductive Symbol where
  /-- A number. -/
  | number (value : Int)
  /-- The name of a variable. -/
  | name (value : String)
  /-- An operator. -/
  | operator (text : String)
  deriving DecidableEq

/-- Why an expression has no value. -/
inductive ArithmeticError where
  /-- A number is divided by zero. -/
  | divisionByZero
  /-- An operand is missing. -/
  | missingOperand
  /-- A bracket is missing. -/
  | missingBracket
  /-- The second part of a choice is missing. -/
  | missingChoice
  /-- Something stands behind the expression. -/
  | surplus
  /-- The value of a variable is no number. -/
  | illegalNumber (value : String)
  deriving DecidableEq

/-- The message about an expression without a value. -/
def ArithmeticError.message (expression : String) : ArithmeticError → String
  | divisionByZero => about "division by zero"
  | missingOperand => about "expecting primary"
  | missingBracket => about "expecting ')'"
  | missingChoice => about "expecting ':'"
  | surplus => about "expecting EOF"
  | illegalNumber value => "Illegal number: " ++ value
where
  /-- The message about the expression. -/
  about (reason : String) : String :=
    "arithmetic expression: " ++ reason ++ ": \"" ++ expression ++ "\""

namespace Arithmetic

/-! ## Numbers -/

/-- The least number. -/
def least : Int := -9223372036854775808

/-- The greatest number. -/
def greatest : Int := 9223372036854775807

/-- An integer brought into 64 bits. -/
def wrap (n : Int) : Int := Int.bmod n Text.wordLimit

/-- The nearest number of 64 bits. -/
def clamp (n : Int) : Int := max least (min greatest n)

/-- A digit of base sixteen. -/
def isHexDigit (c : Char) : Bool := c.isDigit || ('a' ≤ c && c ≤ 'f') || ('A' ≤ c && c ≤ 'F')

/-- A digit of base eight. -/
def isOctalDigit (c : Char) : Bool := '0' ≤ c && c ≤ '7'

/-- The number at the beginning of a text, in base sixteen behind `0x`, in base eight behind `0` and
else in base ten, and what follows it. -/
def constant? (s : List Char) : Option (Nat × List Char) :=
  let digits := fun (base : Nat) (isDigit : Char → Bool) (s : List Char) =>
    (digitsValue base (s.takeWhile isDigit), s.dropWhile isDigit)
  match s with
  | '0' :: c :: d :: rest =>
    if (c = 'x' || c = 'X') && isHexDigit d then some (digits 16 isHexDigit (d :: rest))
    else some (digits 8 isOctalDigit s)
  | '0' :: _ => some (digits 8 isOctalDigit s)
  | c :: _ => if c.isDigit then some (digits 10 Char.isDigit s) else none
  | [] => none

/-- The number at the beginning of a text, behind white space and a sign, and what follows it. -/
def integer? (base : Nat) (s : List Char) : Option (Int × List Char) :=
  let (negative, rest) :=
    match s.dropWhile isSpace with
    | '-' :: rest => (true, rest)
    | '+' :: rest => (false, rest)
    | rest => (false, rest)
  let found :=
    if base = 10 then
      match rest with
      | c :: _ =>
        if c.isDigit then
          some (digitsValue 10 (rest.takeWhile Char.isDigit), rest.dropWhile Char.isDigit)
        else none
      | [] => none
    else constant? rest
  found.map fun (n, rest) => (if negative then -n else n, rest)

/-- The number of 64 bits at the beginning of a text, and what follows it. -/
def signed? (base : Nat) (s : List Char) : Option (Int × List Char) :=
  (integer? base s).map fun (n, rest) => (clamp n, rest)

/-- The number a value stands for; no value and blanks stand for zero. -/
def number? (value : String) : Option Int :=
  match signed? 0 value.toList with
  | some (n, rest) => if rest.all isSpace then some n else none
  | none => if value.toList.all isSpace then some 0 else none

/-! ## Symbols -/

/-- The operators, a longer one before its beginnings. -/
def operators : List String :=
  ["<<=", ">>=", "<<", ">>", "<=", ">=", "==", "!=", "&&", "||", "+=", "-=", "*=", "/=", "%=", "&=",
    "|=", "^=", "+", "-", "*", "/", "%", "(", ")", "<", ">", "=", "!", "~", "&", "|", "^", "?", ":"]

/-- The operators that set a variable, with those that are applied first. -/
def assignments : List (String × Option String) :=
  [("=", none), ("+=", some "+"), ("-=", some "-"), ("*=", some "*"), ("/=", some "/"),
    ("%=", some "%"), ("&=", some "&"), ("|=", some "|"), ("^=", some "^"), ("<<=", some "<<"),
    (">>=", some ">>")]

/-- The tokens of an expression. A character without a meaning is an operator of its own. -/
def symbols : Nat → List Char → List Symbol
  | 0, _ => []
  | _, [] => []
  | fuel + 1, c :: s =>
    if [' ', '\t', '\n'].contains c then symbols fuel s
    else
      -- A number that is too great counts as the greatest one.
      match constant? (c :: s) with
      | some (n, rest) => .number (clamp n) :: symbols fuel rest
      | none =>
        if beginsName c then
          let name := c :: s.takeWhile isNameChar
          .name (String.ofList name) :: symbols fuel ((c :: s).drop name.length)
        else
          let operator? := operators.findSome? fun text =>
            (Text.strip? text.toList (c :: s)).map (text, ·)
          match operator? with
          | some (text, rest) => .operator text :: symbols fuel rest
          | none => .operator c.toString :: symbols fuel s

/-! ## Values -/

/-- A truth value as a number. -/
def ofBool (b : Bool) : Int := if b then 1 else 0

/-- Combine two integers bit by bit. -/
def bitwise (f : Nat → Nat → Nat) (a b : Int) : Int :=
  wrap (f (a % Text.wordLimit).toNat (b % Text.wordLimit).toNat)

/-- The value of an operator with two operands. -/
def combine (operator : String) (a b : Int) : Except ArithmeticError Int :=
  match operator with
  | "+" => pure (wrap (a + b))
  | "-" => pure (wrap (a - b))
  | "*" => pure (wrap (a * b))
  | "/" => if b = 0 then throw .divisionByZero else pure (wrap (a.tdiv b))
  | "%" => if b = 0 then throw .divisionByZero else pure (a.tmod b)
  | "<<" => pure (wrap (a * (Nat.pow 2 (b % 64).toNat : Nat)))
  | ">>" => pure (a.fdiv (Nat.pow 2 (b % 64).toNat : Nat))
  | "<" => pure (ofBool (a < b))
  | ">" => pure (ofBool (b < a))
  | "<=" => pure (ofBool (a ≤ b))
  | ">=" => pure (ofBool (b ≤ a))
  | "==" => pure (ofBool (a = b))
  | "!=" => pure (ofBool (a ≠ b))
  | "&" => pure (bitwise Nat.land a b)
  | "^" => pure (bitwise Nat.xor a b)
  | "|" => pure (bitwise Nat.lor a b)
  | _ => throw .missingOperand

/-- The operators with two operands that always use both of them, those that bind weakest first. -/
def levels : List (List String) :=
  [["|"], ["^"], ["&"], ["==", "!="], ["<=", ">=", "<", ">"], ["<<", ">>"], ["+", "-"],
    ["*", "/", "%"]]

/-- What is left of an expression, and the variables that were set, the last one first. -/
structure Progress where
  /-- The tokens that are left. -/
  symbols : List Symbol
  /-- The variables with their values. -/
  assigned : List (String × Int) := []

/-- A step of the evaluation of an expression. -/
abbrev Step (α : Type) := StateT Progress (Except ArithmeticError) α

/-- Skip the operator if it is the next token. -/
def skip (operator : String) : Step Bool := do
  let p ← get
  match p.symbols with
  | .operator text :: rest =>
    if text = operator then
      set { p with symbols := rest }
      return true
    else return false
  | _ => return false

/-- Skip one of the operators if it is the next token. -/
def skipOne (operators : List String) : Step (Option String) := do
  let p ← get
  match p.symbols with
  | .operator text :: rest =>
    if operators.contains text then
      set { p with symbols := rest }
      return some text
    else return none
  | _ => return none

/-- The value of a variable. -/
def valueOf (lookup : String → Option String) (name : String) : Step Int := do
  match (← get).assigned.lookup name with
  | some n => return n
  | none =>
    -- A variable that is not set counts as zero.
    match lookup name with
    | none => return 0
    | some value =>
      match number? value with
      | some n => return n
      | none => throw (.illegalNumber value)

mutual

/-- An expression with an assignment or a choice; `isUsed` tells whether its value is used. -/
def expression (lookup : String → Option String) : Nat → (isUsed : Bool) → Step Int
  | 0, _ => throw .missingOperand
  | fuel + 1, isUsed => do
    let p ← get
    match p.symbols with
    | .name name :: .operator operator :: rest =>
      match assignments.lookup operator with
      | none => choice lookup fuel isUsed
      | some applied =>
        set { p with symbols := rest }
        let value ← expression lookup fuel isUsed
        -- What is not used sets nothing, and its mistakes do not count.
        if !isUsed then return value
        else
          let value ←
            match applied with
            | none => pure value
            | some applied => do
              let old ← valueOf lookup name
              liftM (combine applied old value)
          modify fun p => { p with assigned := (name, value) :: p.assigned }
          return value
    | _ => choice lookup fuel isUsed

/-- An expression with a choice between two others. -/
def choice (lookup : String → Option String) : Nat → (isUsed : Bool) → Step Int
  | 0, _ => throw .missingOperand
  | fuel + 1, isUsed => do
    let condition ← disjunction lookup fuel isUsed
    if ← skip "?" then
      -- Both parts are read, but only one of them is used.
      let first ← expression lookup fuel (isUsed && condition ≠ 0)
      if !(← skip ":") then throw .missingChoice
      let second ← choice lookup fuel (isUsed && condition = 0)
      return if condition ≠ 0 then first else second
    else return condition

/-- Expressions of which one should be true. -/
def disjunction (lookup : String → Option String) : Nat → (isUsed : Bool) → Step Int
  | 0, _ => throw .missingOperand
  | fuel + 1, isUsed => do
    let first ← conjunction lookup fuel isUsed
    if ← skip "||" then
      let second ← disjunction lookup fuel (isUsed && first = 0)
      return ofBool (first ≠ 0 || second ≠ 0)
    else return first

/-- Expressions all of which should be true. -/
def conjunction (lookup : String → Option String) : Nat → (isUsed : Bool) → Step Int
  | 0, _ => throw .missingOperand
  | fuel + 1, isUsed => do
    let first ← binary lookup fuel levels isUsed
    if ← skip "&&" then
      let second ← conjunction lookup fuel (isUsed && first ≠ 0)
      return ofBool (first ≠ 0 && second ≠ 0)
    else return first

/-- An expression with operators of the given levels. -/
def binary (lookup : String → Option String) :
    Nat → List (List String) → (isUsed : Bool) → Step Int
  | 0, _, _ => throw .missingOperand
  | fuel + 1, [], isUsed => unary lookup fuel isUsed
  | fuel + 1, level :: tighter, isUsed => do
    let first ← binary lookup fuel tighter isUsed
    more lookup fuel level tighter first isUsed

/-- The operators and operands of a level behind a first operand. -/
def more (lookup : String → Option String) :
    Nat → List String → List (List String) → Int → (isUsed : Bool) → Step Int
  | 0, _, _, _, _ => throw .missingOperand
  | fuel + 1, level, tighter, first, isUsed => do
    match ← skipOne level with
    | none => return first
    | some operator =>
      let second ← binary lookup fuel tighter isUsed
      -- A division that is not used may be one by zero.
      let value ← if isUsed then liftM (combine operator first second) else pure second
      more lookup fuel level tighter value isUsed

/-- A number, a name, a bracket, or one of them behind a sign. -/
def unary (lookup : String → Option String) : Nat → (isUsed : Bool) → Step Int
  | 0, _ => throw .missingOperand
  | fuel + 1, isUsed => do
    let p ← get
    let goOn := fun (rest : List Symbol) => set { p with symbols := rest }
    match p.symbols with
    | .number n :: rest =>
      goOn rest
      return n
    | .name name :: rest =>
      goOn rest
      if isUsed then valueOf lookup name else return 0
    | .operator operator :: rest =>
      if !(["(", "-", "+", "!", "~"].contains operator) then throw .missingOperand
      goOn rest
      if operator = "(" then
        let value ← expression lookup fuel isUsed
        if !(← skip ")") then throw .missingBracket
        return value
      else
        let value ← unary lookup fuel isUsed
        match operator with
        | "-" => return wrap (-value)
        | "!" => return ofBool (value = 0)
        | "~" => return -value - 1
        | _ => return value
    | [] => throw .missingOperand

end

/-- The value of an expression, and the variables that it sets, in order. -/
def evaluate (lookup : String → Option String) (text : List Char) :
    Except ArithmeticError (Int × List (String × Int)) := do
  let symbols := symbols (text.length + 1) text
  -- Each token takes a bounded number of steps through the levels of operators.
  let (value, p) ← (expression lookup (16 * symbols.length + 32) true).run { symbols }
  if p.symbols.isEmpty then return (value, p.assigned.reverse) else throw .surplus

end Arithmetic

end BuildTrace.Shell
