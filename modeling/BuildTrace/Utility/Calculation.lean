import BuildTrace.Regex.Parser
import BuildTrace.Utility.Order

/-!
# Calculations

The program that calculates with its arguments. Each operand and each operator is an argument.
-/

namespace BuildTrace.Utility

open Shell

namespace Calculation

/-- A value that is read, and the arguments that are left; or a message. -/
abbrev Step := Except String (String × List String)

/-- The whole number that a text stands for. -/
def integer? (text : String) : Option Int :=
  match text.toList with
  | '-' :: digits => (number? digits).map fun n => -(n : Int)
  | digits => (number? digits).map fun n => (n : Int)

/-- The whole number that a text has to stand for. -/
def integer (text : String) : Except String Int :=
  match integer? text with
  | some n => .ok n
  | none => .error "non-integer argument"

/-- The text stands for nothing. -/
def isNull (text : String) : Bool := text.isEmpty || integer? text == some 0

/-- The truth value as a text. -/
def truth (value : Bool) : String := if value then "1" else "0"

/-- The order of two values: as numbers if both are. -/
def order (a b : String) : Ordering :=
  match integer? a, integer? b with
  | some x, some y => compareInt x y
  | _, _ => compareText a.toList b.toList

/-- What a pattern finds at the beginning of a text: the first numbered text, or a length. -/
def matching (text pattern : String) : Except String String := do
  let p ← Regex.parse ⟨false, true⟩ pattern.toList
  let r : Regex.Reading := { text := text.toList.toArray }
  match Regex.matchAt? p.regex r 0 with
  | some m => .ok (if p.count = 0 then toString m.stop else String.ofList (m.text r 1))
  | none => .ok (if p.count = 0 then "0" else "")

/-- The value of an operator for two operands. -/
def combine (operator a b : String) : Except String String :=
  match operator with
  | "|" => .ok (if !isNull a then a else if isNull b then "0" else b)
  | "&" => .ok (if isNull a || isNull b then "0" else a)
  | "<" => .ok (truth (order a b = .lt))
  | "<=" => .ok (truth (order a b != .gt))
  | "=" | "==" => .ok (truth (order a b = .eq))
  | "!=" => .ok (truth (order a b != .eq))
  | ">=" => .ok (truth (order a b != .lt))
  | ">" => .ok (truth (order a b = .gt))
  | ":" => matching a b
  | operator => do
    let x ← integer a
    let y ← integer b
    match operator with
    | "+" => .ok (toString (x + y))
    | "-" => .ok (toString (x - y))
    | "*" => .ok (toString (x * y))
    | _ =>
      if y = 0 then .error "division by zero"
      else .ok (toString (if operator = "/" then x.tdiv y else x.tmod y))

/-- The operators, from those that bind least. -/
def levels : List (List String) :=
  [["|"], ["&"], ["<", "<=", "=", "==", "!=", ">=", ">"], ["+", "-"], ["*", "/", "%"], [":"]]

/-- The message about an argument that is missing. -/
def missingAfter (word : String) : String := "syntax error: missing argument after " ++ quote word

mutual

/-- The value of operands with operators between them, which bind at least as the first level.
`last` is the argument in front. `counts` says that the value is needed. -/
def level : Nat → (counts : Bool) → List (List String) → (last : String) → List String → Step
  | 0, _, _, _, _ => .error "syntax error"
  | fuel + 1, counts, [], last, words => operand fuel counts last words
  | fuel + 1, counts, operators :: inner, last, words => do
    let (a, rest) ← level fuel counts inner last words
    chain fuel counts operators inner a rest

/-- The value of what follows the first operand. -/
def chain : Nat → (counts : Bool) → (operators : List String) → (inner : List (List String)) →
    (value : String) → List String → Step
  | 0, _, _, _, _, _ => .error "syntax error"
  | fuel + 1, counts, operators, inner, value, words =>
    match words with
    | [] => .ok (value, [])
    | operator :: rest =>
      if !operators.contains operator then .ok (value, words)
      else do
        -- The second operand is read even if it cannot change the value.
        let isDecided := (operator = "|" && !isNull value) || (operator = "&" && isNull value)
        let (b, rest) ← level fuel (counts && !isDecided) inner operator rest
        let value ←
          if !counts then .ok value
          else if isDecided then combine operator value "0"
          else combine operator value b
        chain fuel counts operators inner value rest

/-- The value of an operand. -/
def operand : Nat → (counts : Bool) → (last : String) → List String → Step
  | 0, _, _, _ => .error "syntax error"
  | fuel + 1, counts, last, words => do
    let one := fun (last : String) (words : List String) => operand fuel counts last words
    match words with
    | [] => .error (missingAfter last)
    | "(" :: rest =>
      let (value, after) ← level fuel counts levels "(" rest
      match after with
      | ")" :: after => .ok (value, after)
      | [] =>
        .error ("syntax error: expecting ')' after " ++ quote ((rest.getLast?).getD "("))
      | other :: _ => .error ("syntax error: expecting ')' instead of " ++ quote other)
    | ")" :: _ => .error "syntax error: unexpected ')'"
    -- Behind this sign a word stands for itself, even if it is an operator.
    | "+" :: rest =>
      match rest with
      | [] => .error (missingAfter "+")
      | word :: rest => .ok (word, rest)
    | "length" :: rest =>
      let (s, rest) ← one "length" rest
      .ok (toString s.length, rest)
    | "match" :: rest =>
      let (s, rest) ← one "match" rest
      let (p, rest) ← one s rest
      .ok (← if counts then matching s p else .ok "0", rest)
    | "index" :: rest =>
      let (s, rest) ← one "index" rest
      let (chars, rest) ← one s rest
      let place := (s.toList.findIdx? chars.toList.contains).elim 0 (· + 1)
      .ok (toString place, rest)
    | "substr" :: rest =>
      let (s, rest) ← one "substr" rest
      let (start, rest) ← one s rest
      let (size, rest) ← one start rest
      let value := match integer? start, integer? size with
        | some i, some n =>
          if i < 1 || n < 1 then "" else String.ofList ((s.toList.drop (i.toNat - 1)).take n.toNat)
        | _, _ => ""
      .ok (value, rest)
    | word :: rest => .ok (word, rest)

end

/-- The value of arguments. -/
def value (words : List String) : Except String String := do
  let (value, rest) ← level (20 * words.length + 20) true levels "" words
  match rest with
  | [] => .ok value
  | extra :: _ => .error ("syntax error: unexpected argument " ++ quote extra)

end Calculation

/-- Calculate with the arguments. -/
def expr : Utility := fun _ name arguments => do
  let arguments := if arguments.head? = some "--" then arguments.drop 1 else arguments
  if arguments.isEmpty then misuse name "missing operand" 2
  match Calculation.value arguments with
  | .error message => fail name message 2
  | .ok value =>
    say name (value ++ "\n")
    return if Calculation.isNull value then 1 else 0

end BuildTrace.Utility
