import BuildTrace.Shell.Format
import BuildTrace.Utility.Order

/-!
# Numbers

The program that counts.
-/

namespace BuildTrace.Utility

open Shell

namespace Counting

/-- The number an argument is, with the number of its digits behind the point. -/
def decimal? (text : String) : Option Decimal :=
  let s := text.toList
  let s := match s with
    | '+' :: rest => rest
    | s => s
  let (negative, digits) := match s with
    | '-' :: rest => (true, rest)
    | s => (false, s)
  let (mantissa, places, rest) := Real.mantissaOf Char.isDigit digits
  if mantissa.isEmpty then none
  else
    let n : Int := digitsValue 10 mantissa
    let n := if negative then -n else n
    match rest with
    | [] => some ⟨n, places⟩
    | _ =>
      let (e, rest) := Real.exponent ['e', 'E'] rest
      if !rest.isEmpty then none
      else if e < places then some ⟨n, (places - e).toNat⟩
      else some ⟨n * (Nat.pow 10 (e - places).toNat : Nat), 0⟩

/-- The number with a greater number of digits behind the point. -/
def widen (places : Nat) (d : Decimal) : Int := d.value * (Nat.pow 10 (places - d.places) : Nat)

/-- The number with digits behind the point. -/
def text (places : Nat) (n : Int) : List Char :=
  let unit := Nat.pow 10 places
  let sign := if n < 0 then ['-'] else []
  sign ++ Nat.toDigits 10 (n.natAbs / unit) ++
    Real.behindPoint false (if places = 0 then [] else Real.padded places (n.natAbs % unit))

/-- The number with zeros in front. -/
def padded (width : Nat) (s : List Char) : List Char :=
  match s with
  | '-' :: digits => '-' :: List.replicate (width - s.length) '0' ++ digits
  | digits => List.replicate (width - s.length) '0' ++ digits

/-- A format has one directive for a real number; what stands in front of it, its layout, its
letter, and what stands behind it. -/
def directive? (format : List Char) : Option (List Char × Layout × Char × List Char) :=
  go (format.length + 1) format []
where
  /-- Look for the directive; what was read already is turned around. -/
  go : Nat → List Char → List Char → Option (List Char × Layout × Char × List Char)
    | 0, _, _ => none
    | _, [], _ => none
    | fuel + 1, '%' :: '%' :: rest, past => go fuel rest ('%' :: past)
    | _ + 1, '%' :: rest, past =>
      let (layout, rest, _) := Printing.layout { arguments := [] } rest
      match rest with
      | kind :: rest =>
        if ['a', 'e', 'f', 'g', 'A', 'E', 'F', 'G'].contains kind then
          some (past.reverse, layout, kind, behind (rest.length + 1) rest)
        else none
      | [] => none
    | fuel + 1, c :: rest, past => go fuel rest (c :: past)
  /-- What stands behind the directive. -/
  behind : Nat → List Char → List Char
    | 0, s => s
    | fuel + 1, '%' :: '%' :: rest => '%' :: behind fuel rest
    | fuel + 1, c :: rest => c :: behind fuel rest
    | _, [] => []

end Counting

open Counting in
/-- Put out numbers one after the other. -/
def seq : Utility := fun _ name arguments => do
  let isNumber := fun (a : String) =>
    match a.toList with
    | '-' :: c :: _ => c.isDigit || c = '.'
    | _ => false
  let arguments :=
    match arguments.findIdx? isNumber with
    | some i => arguments.take i ++ "--" :: arguments.drop i
    | none => arguments
  let forms := OptionForms.make "f:s:w"
    [("equal-width", "w", .nothing), ("format", "f", .value), ("separator", "s", .value)]
  let g ← forms.given name arguments
  let number := fun (text : String) => do
    match decimal? text with
    | some d => pure d
    | none => misuse name ("invalid floating point argument: " ++ quote text)
  let one : Decimal := ⟨1, 0⟩
  let (first, step, last) ← match g.operands with
    | [] => misuse name "missing operand"
    | [a] => pure (one, one, ← number a)
    | [a, b] => pure (← number a, one, ← number b)
    | [a, b, c] => do
      let step ← number b
      if step.value = 0 then misuse name ("invalid Zero increment value: " ++ quote b)
      pure (← number a, step, ← number c)
    | _ :: _ :: _ :: extra :: _ => misuse name ("extra operand " ++ quote extra)
  let places := max first.places (max step.places last.places)
  let shownPlaces := max first.places step.places
  let (a, b, c) := (widen places first, widen places step, widen places last)
  let format ← match g.value? "f" with
    | none => pure none
    | some text =>
      match directive? text.toList with
      | some format =>
        if g.has "w" then
          misuse name "format string may not be specified when printing equal width strings"
        pure (some format)
      | none =>
        if text.toList.contains '%' then
          fail name ("format " ++ quote text ++ " has unknown directive")
        else fail name ("format " ++ quote text ++ " has no % directive")
  let separator := (g.value? "s").getD "\n"
  let hidden : Int := (Nat.pow 10 (places - shownPlaces) : Nat)
  let width :=
    if !g.has "w" then 0
    else
      let shown := fun (n : Int) =>
        (Counting.text shownPlaces (n / hidden)).length
      max (shown a) (shown c)
  let shown := fun (n : Int) =>
    match format with
    | some (lead, layout, kind, behind) =>
      let x := Real.nearest (n < 0) n.natAbs (Nat.pow 10 places)
      lead ++ layout.real kind x ++ behind
    | none => padded width (Counting.text shownPlaces (n / hidden))
  count name shown separator b c a manySteps true
where
  /-- Put out the numbers from one on. -/
  count (name : String) (shown : Int → List Char) (separator : String) (step last : Int) (n : Int) :
      Nat → (isFirst : Bool) → Shell Nat
    | 0, _ => hang
    | fuel + 1, isFirst => do
      if (0 < step && last < n) || (step < 0 && n < last) then
        if !isFirst then say name "\n"
        return 0
      else
        let left := (last - n).natAbs / step.natAbs + 1
        let block := min left 256
        let numbers := (List.range block).map fun (i : Nat) => String.ofList (shown (n + step * i))
        say name ((if isFirst then "" else separator) ++ separator.intercalate numbers)
        count name shown separator step last (n + step * block) fuel false

end BuildTrace.Utility
