import BuildTrace.Shell.Arithmetic

/-!
# Real numbers

A real number as a format knows it: a number with 53 binary digits. It is read from a text as the
number nearest to what is written, and written with as many digits as are asked for, each of them
right; of two numbers that are equally near, the even one is taken.
-/

namespace BuildTrace.Shell

/-- A real number. -/
inductive Real where
  /-- A fraction. -/
  | finite (negative : Bool) (numerator denominator : Nat)
  /-- Greater than all numbers. -/
  | infinite (negative : Bool)
  /-- Not a number. -/
  | nan (negative : Bool)
  deriving DecidableEq

namespace Real

/-! ## Rounding -/

/-- The whole number nearest to a fraction. -/
def roundDiv (numerator denominator : Nat) : Nat :=
  let quotient := numerator / denominator
  let twice := 2 * (numerator % denominator)
  if denominator < twice || (twice = denominator && quotient % 2 = 1) then quotient + 1
  else quotient

/-- The fraction times a power of a base. -/
def scale (base : Nat) (exponent : Int) (numerator denominator : Nat) : Nat × Nat :=
  if 0 ≤ exponent then (numerator * Nat.pow base exponent.toNat, denominator)
  else (numerator, denominator * Nat.pow base (-exponent).toNat)

/-- The greatest exponent for which the power of the base is not greater than the fraction. It is
looked for around a guess. -/
def exponentOf (base : Nat) (numerator denominator : Nat) : Int :=
  let digits := fun n => (Nat.toDigits base n).length
  let guess : Int := (digits numerator : Int) - digits denominator
  let (n, d) := scale base (-guess) numerator denominator
  if d ≤ n then guess else guess - 1

/-- The number of binary digits. -/
def precision : Nat := 53

/-- The least exponent of the last binary digit. -/
def leastExponent : Int := -1074

/-- The greatest exponent of the first binary digit. -/
def greatestExponent : Int := 1023

/-- The real number nearest to a fraction. -/
def nearest (negative : Bool) (numerator denominator : Nat) : Real :=
  if numerator = 0 then .finite negative 0 1
  else
    let lead := exponentOf 2 numerator denominator
    let last := max (lead - (precision - 1)) leastExponent
    let (n, d) := scale 2 (-last) numerator denominator
    let mantissa := roundDiv n d
    let (n, d) := scale 2 last mantissa 1
    if Nat.pow 2 (greatestExponent.toNat + 1) * d ≤ n then .infinite negative
    else .finite negative n d

/-! ## Reading -/

/-- The digits at the beginning of a text with a point in it, the number of them behind the point,
and what follows. -/
def mantissaOf (isDigit : Char → Bool) (s : List Char) : List Char × Nat × List Char :=
  let whole := s.takeWhile isDigit
  match s.drop whole.length with
  | '.' :: rest =>
    let fraction := rest.takeWhile isDigit
    if whole.isEmpty && fraction.isEmpty then ([], 0, s)
    else (whole ++ fraction, fraction.length, rest.drop fraction.length)
  | rest => (whole, 0, rest)

/-- The exponent behind one of the letters, and what follows it. -/
def exponent (letters : List Char) (s : List Char) : Int × List Char :=
  match s with
  | c :: rest =>
    if letters.contains c then
      let (negative, digits) :=
        match rest with
        | '-' :: digits => (true, digits)
        | '+' :: digits => (false, digits)
        | digits => (false, digits)
      let taken := digits.takeWhile Char.isDigit
      if taken.isEmpty then (0, s)
      else
        let n : Int := min (digitsValue 10 taken) 100000
        (if negative then -n else n, digits.drop taken.length)
    else (0, s)
  | [] => (0, s)

/-- The text behind a word, which is taken in any case. -/
def behindWord? (word : String) (s : List Char) : Option (List Char) :=
  let start := s.take word.length
  if start.map Char.toLower == word.toList then some (s.drop word.length) else none

/-- The number at the beginning of a text, behind its sign. -/
def unsigned? (negative : Bool) (s : List Char) : Option (Real × List Char) :=
  match behindWord? "infinity" s with
  | some rest => some (.infinite negative, rest)
  | none =>
    match behindWord? "inf" s with
    | some rest => some (.infinite negative, rest)
    | none =>
      match behindWord? "nan" s with
      | some rest => some (.nan negative, rest)
      | none =>
        let decimal : Option (Real × List Char) :=
          let (digits, behindPoint, rest) := mantissaOf Char.isDigit s
          if digits.isEmpty then none
          else
            let (e, rest) := exponent ['e', 'E'] rest
            let n := digitsValue 10 digits
            -- Each digit behind the point takes one from the exponent.
            let e := if n = 0 then 0 else e - behindPoint
            let (n, d) := scale 10 e n 1
            some (nearest negative n d, rest)
        match s with
        | '0' :: x :: hex =>
          let (digits, behindPoint, rest) := mantissaOf Arithmetic.isHexDigit hex
          if (x = 'x' || x = 'X') && !digits.isEmpty then
            let (e, rest) := exponent ['p', 'P'] rest
            let n := digitsValue 16 digits
            -- Here it takes four, since a digit stands for four of base two.
            let e := if n = 0 then 0 else e - 4 * behindPoint
            let (n, d) := scale 2 e n 1
            some (nearest negative n d, rest)
          else decimal
        | _ => decimal

/-- The number at the beginning of a text, behind white space and a sign, and what follows it. -/
def ofText? (s : List Char) : Option (Real × List Char) :=
  match s.dropWhile isSpace with
  | '-' :: rest => unsigned? true rest
  | '+' :: rest => unsigned? false rest
  | rest => unsigned? false rest

/-! ## Writing -/

/-- The number is negative, or is a zero with a sign. -/
def isNegative : Real → Bool
  | finite negative _ _ => negative
  | infinite negative => negative
  | nan negative => negative

/-- Decimal digits with zeros in front, up to a number of digits. -/
def padded (count n : Nat) : List Char :=
  let digits := Nat.toDigits 10 n
  List.replicate (count - digits.length) '0' ++ digits

/-- A point and digits behind it; the point stands alone only if it is asked for. -/
def behindPoint (keepsPoint : Bool) (digits : List Char) : List Char :=
  if digits.isEmpty then if keepsPoint then ['.'] else [] else '.' :: digits

/-- The number with digits behind the point. -/
def fixed (places : Nat) (keepsPoint : Bool) (numerator denominator : Nat) : List Char :=
  let unit := Nat.pow 10 places
  let n := roundDiv (numerator * unit) denominator
  let whole := Nat.toDigits 10 (n / unit)
  let fraction := if places = 0 then [] else padded places (n % unit)
  whole ++ behindPoint keepsPoint fraction

/-- The digits of a number, one in front of the point and `places` behind it, with the power of ten
they are to be multiplied with. -/
def scientificDigits (places : Nat) (numerator denominator : Nat) : List Char × Int :=
  if numerator = 0 then (List.replicate (places + 1) '0', 0)
  else
    let e := exponentOf 10 numerator denominator
    let (n, d) := scale 10 (places - e) numerator denominator
    let digits := Nat.toDigits 10 (roundDiv n d)
    -- Rounding may have given one digit more.
    if places + 1 < digits.length then (digits.take (places + 1), e + 1) else (digits, e)

/-- An exponent with a sign and at least `count` digits. -/
def exponentText (letter : Char) (count : Nat) (e : Int) : List Char :=
  letter :: (if e < 0 then '-' else '+') :: padded count e.natAbs

/-- The number with one digit in front of the point and an exponent. -/
def scientific (places : Nat) (keepsPoint : Bool) (numerator denominator : Nat) : List Char :=
  let (digits, e) := scientificDigits places numerator denominator
  digits.take 1 ++ behindPoint keepsPoint (digits.drop 1) ++ exponentText 'e' 2 e

/-- Drop the zeros at the end of digits behind a point. -/
def dropZeros (digits : List Char) : List Char := Text.dropEndWhile (· = '0') digits

/-- The number with a number of digits that count, with an exponent only if it is great or small. -/
def general (count : Nat) (keepsZeros : Bool) (numerator denominator : Nat) : List Char :=
  let count := max count 1
  let (digits, e) := scientificDigits (count - 1) numerator denominator
  let trim := fun digits => if keepsZeros then digits else dropZeros digits
  if -4 ≤ e && e < count then
    let text := fixed (count - 1 - e).toNat false numerator denominator
    let whole := text.takeWhile (· != '.')
    whole ++ behindPoint keepsZeros (trim (text.drop (whole.length + 1)))
  else
    digits.take 1 ++ behindPoint keepsZeros (trim (digits.drop 1)) ++ exponentText 'e' 2 e

/-- The number with digits of base sixteen and a binary exponent. -/
def binary (places : Option Nat) (keepsPoint : Bool) (numerator denominator : Nat) : List Char :=
  let e := if numerator = 0 then 0 else max (exponentOf 2 numerator denominator) (-1022)
  let count := places.getD 13
  let (n, d) := scale 2 (4 * count - e) numerator denominator
  let n := roundDiv n d
  let digits := Nat.toDigits 16 (n % Nat.pow 16 count)
  let fraction :=
    if count = 0 then [] else List.replicate (count - digits.length) '0' ++ digits
  let fraction := if places.isNone then dropZeros fraction else fraction
  '0' :: 'x' :: Nat.toDigits 16 (n / Nat.pow 16 count) ++ behindPoint keepsPoint fraction ++
    'p' :: (if e < 0 then '-' else '+') :: Nat.toDigits 10 e.natAbs

end Real

end BuildTrace.Shell
