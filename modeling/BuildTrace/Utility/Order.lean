import BuildTrace.Shell.Pattern
import BuildTrace.Shell.Real
import BuildTrace.Utility.Input

/-!
# Orders

How texts are put in order: by their bytes, or by what they stand for.
-/

namespace BuildTrace.Utility

open Shell

/-- The order of two texts by their bytes. -/
def compareText : List Char → List Char → Ordering
  | [], [] => .eq
  | [], _ => .lt
  | _, [] => .gt
  | a :: s, b :: t => if a < b then .lt else if b < a then .gt else compareText s t

/-- The order of two numbers. -/
def compareInt (a b : Int) : Ordering := if a < b then .lt else if b < a then .gt else .eq

/-! ## Numbers in texts -/

/-- A number with a point, as a whole number over a power of ten. -/
structure Decimal where
  /-- The digits as a whole number, with the sign. -/
  value : Int
  /-- The number of digits behind the point. -/
  places : Nat

namespace Decimal

/-- The number at the beginning of a text, behind blanks, and what follows. A text without a number
stands for zero. -/
def ofText (s : List Char) : Decimal × List Char :=
  let s := s.dropWhile fun c => isBlank c || c = '\n'
  let (negative, s) := match s with
    | '-' :: rest => (true, rest)
    | s => (false, s)
  let (digits, places, rest) := Real.mantissaOf Char.isDigit s
  let n : Int := digitsValue 10 digits
  (⟨if negative then -n else n, places⟩, rest)

/-- The order of two numbers. -/
def compare (a b : Decimal) : Ordering :=
  compareInt (a.value * (Nat.pow 10 b.places : Nat)) (b.value * (Nat.pow 10 a.places : Nat))

end Decimal

/-- The rank of the letter behind a number. -/
def magnitudeRank (s : List Char) : Nat :=
  match s with
  | c :: _ => ((magnitudes.findIdx? (· == if c = 'k' then 'K' else c)).map (· + 1)).getD 0
  | [] => 0

/-- The order of two numbers with letters behind them. -/
def compareMagnitude (s t : List Char) : Ordering :=
  let (a, restA) := Decimal.ofText s
  let (b, restB) := Decimal.ofText t
  let rank := fun (d : Decimal) (rest : List Char) =>
    if d.value = 0 then 0
    else if d.value < 0 then -(magnitudeRank rest : Int) - 1 else (magnitudeRank rest : Int) + 1
  (compareInt (rank a restA) (rank b restB)).then (a.compare b)

/-- The order of two real numbers; what is none comes first. -/
def compareReal (s t : List Char) : Ordering :=
  let rank : Option (Shell.Real × List Char) → Int × Int × Nat := fun
    | none => (0, 0, 1)
    | some (.nan _, _) => (1, 0, 1)
    | some (.infinite true, _) => (2, 0, 1)
    | some (.finite negative n d, _) => (3, if negative then -n else n, d)
    | some (.infinite false, _) => (4, 0, 1)
  let (a, n, d) := rank (Real.ofText? s)
  let (b, m, e) := rank (Real.ofText? t)
  (compareInt a b).then (compareInt (n * e) (m * d))

/-- The months by their first letters. -/
def months : List String :=
  ["JAN", "FEB", "MAR", "APR", "MAY", "JUN", "JUL", "AUG", "SEP", "OCT", "NOV", "DEC"]

/-- The number of the month at the beginning of a text, or zero. -/
def monthOf (s : List Char) : Nat :=
  let lead := ((s.dropWhile isBlank).take 3).map Char.toUpper
  ((months.findIdx? fun m => m.toList == lead).map (· + 1)).getD 0

/-! ## Versions -/

/-- The rank of a character of a version. -/
def versionRank (c : Char) : Int :=
  if c.isDigit then 0
  else if c.isAlpha then c.toNat
  else if c = '~' then -1
  else c.toNat + 256

/-- The order of two versions: what are no digits by their characters, digits as numbers. -/
def compareVersionText : Nat → List Char → List Char → Ordering
  | 0, _, _ => .eq
  | fuel + 1, s, t =>
    if s.isEmpty && t.isEmpty then .eq
    else
      let leadS := s.takeWhile (!·.isDigit)
      let leadT := t.takeWhile (!·.isDigit)
      let rankAt := fun (lead : List Char) (i : Nat) => ((lead[i]?).map versionRank).getD 0
      let ranks := (List.range (max leadS.length leadT.length)).map fun i =>
        compareInt (rankAt leadS i) (rankAt leadT i)
      match ranks.find? (· != .eq) with
      | some order => order
      | none =>
        let s := s.drop leadS.length
        let t := t.drop leadT.length
        let digitsS := s.takeWhile Char.isDigit
        let digitsT := t.takeWhile Char.isDigit
        (compareInt (digitsValue 10 digitsS) (digitsValue 10 digitsT)).then
          (compareVersionText fuel (s.drop digitsS.length) (t.drop digitsT.length))

/-- A version without the endings that begin with a point and a letter. -/
def versionStem (s : List Char) : List Char :=
  go s.length s.reverse
where
  /-- Take endings away from a version that is turned around. -/
  go : Nat → List Char → List Char
    | 0, s => s.reverse
    | fuel + 1, s =>
      let body := s.takeWhile fun c => c.isAlphanum || c = '~'
      match s.drop body.length, body.getLast? with
      | '.' :: rest, some c =>
        if (c.isAlpha || c = '~') && !rest.isEmpty then go fuel rest else s.reverse
      | _, _ => s.reverse

/-- The order of two names with versions in them. -/
def compareVersion (s t : List Char) : Ordering :=
  let rank := fun (s : List Char) =>
    if s.isEmpty then 0
    else if s = ['.'] then 1
    else if s = ['.', '.'] then 2
    else if s.head? = some '.' then 3 else 4
  let size := s.length + t.length + 1
  (compareInt (rank s) (rank t)).then
    ((compareVersionText size (versionStem s) (versionStem t)).then (compareVersionText size s t))

end BuildTrace.Utility
