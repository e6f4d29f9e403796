import BuildTrace.Utility.Input

/-!
# Bytes written out

The program that shows the bytes of its inputs as numbers or characters.
-/

namespace BuildTrace.Utility

open Shell
open Machine (Fault)

namespace Dump

/-- How bytes are shown. -/
inductive Form where
  /-- As characters, or else by escapes. -/
  | chars
  /-- By the names of characters. -/
  | names
  /-- As numbers of a number of bytes, in a base, and maybe with a sign. -/
  | numbers (size base : Nat) (isSigned : Bool)
  deriving DecidableEq

/-- The names of the first characters. -/
def charNames : List String :=
  ["nul", "soh", "stx", "etx", "eot", "enq", "ack", "bel", "bs", "ht", "nl", "vt", "ff", "cr", "so",
    "si", "dle", "dc1", "dc2", "dc3", "dc4", "nak", "syn", "etb", "can", "em", "sub", "esc", "fs",
    "gs", "rs", "us", "sp"]

namespace Form

/-- The number of bytes that are shown together. -/
def size : Form → Nat
  | numbers size _ _ => size
  | _ => 1

/-- The number of characters for one of the things that are shown. -/
def width : Form → Nat
  | numbers size base isSigned =>
    let limit := Nat.pow 256 size
    let digits := (Nat.toDigits base (limit - 1)).length
    let greatest := if isSigned then limit / 2 else limit - 1
    if base = 10 then (Nat.toDigits 10 greatest).length +
      (if isSigned then 1 else 0)
    else digits
  | _ => 3

/-- Digits with zeros in front. -/
def padded (width base n : Nat) : List Char :=
  let digits := Nat.toDigits base n
  List.replicate (width - digits.length) '0' ++ digits

/-- What is shown for a byte as a character. -/
def charText (b : UInt8) : List Char :=
  match Char.ofNat b.toNat with
  | '\x00' => ['\\', '0']
  | '\x07' => ['\\', 'a']
  | '\x08' => ['\\', 'b']
  | '\t' => ['\\', 't']
  | '\n' => ['\\', 'n']
  | '\x0b' => ['\\', 'v']
  | '\x0c' => ['\\', 'f']
  | '\r' => ['\\', 'r']
  | c => if ' ' ≤ c && c ≤ '~' then [c] else padded 3 8 b.toNat

/-- What is shown for bytes. -/
def text (f : Form) (bytes : List UInt8) : List Char :=
  match f with
  | chars => charText (bytes.headD 0)
  | names =>
    let n := (bytes.headD 0).toNat % 128
    if n = 127 then "del".toList
    else ((charNames[n]?).map String.toList).getD [Char.ofNat n]
  | numbers size base isSigned =>
    let n : Nat := bytes.foldr (fun b n => n * 256 + b.toNat) 0
    let limit := Nat.pow 256 size
    if base = 10 then
      if isSigned && limit ≤ 2 * n then (toString ((n : Int) - limit)).toList
      else Nat.toDigits 10 n
    else padded f.width base n

/-- The form that letters at the beginning of a text ask for, and what follows. -/
def ofLetters? (s : List Char) : Option (Form × List Char) :=
  match s with
  | 'c' :: rest => some (chars, rest)
  | 'a' :: rest => some (names, rest)
  | c :: rest =>
    let kind := match c with
      | 'o' => some (8, false)
      | 'x' => some (16, false)
      | 'u' => some (10, false)
      | 'd' => some (10, true)
      | _ => none
    kind.bind fun (base, isSigned) =>
      let digits := rest.takeWhile Char.isDigit
      let behind := rest.drop digits.length
      let (size, behind) := match digits, behind with
        | [], 'C' :: behind => (1, behind)
        | [], 'S' :: behind => (2, behind)
        | [], 'I' :: behind => (4, behind)
        | [], 'L' :: behind => (8, behind)
        | [], behind => (4, behind)
        | digits, behind => (digitsValue 10 digits, behind)
      if [1, 2, 4, 8].contains size then some (numbers size base isSigned, behind) else none
  | [] => none

/-- The forms that letters ask for. -/
def all? : Nat → List Char → Option (List Form)
  | 0, _ => none
  | _, [] => some []
  | fuel + 1, s => do
    let (form, rest) ← ofLetters? s
    let forms ← all? fuel rest
    some (form :: forms)

end Form

/-- The lists of a number of items that follow one another. -/
def chunks (size : Nat) : Nat → List UInt8 → List (List UInt8)
  | 0, _ => []
  | _, [] => []
  | fuel + 1, bytes => bytes.take size :: chunks size fuel (bytes.drop size)

/-- The number of bytes in front of a row, as it is shown. -/
def offsetText (base : Option Nat) (offset : Nat) : List Char :=
  match base with
  | none => []
  | some base => Form.padded (if base = 16 then 6 else 7) base offset

/-- The lines for a row of bytes: one for each form, under one another. -/
def row (forms : List Form) (lead : List Char) (bytes : List UInt8) : List Char :=
  let unit := (forms.map Form.size).foldl max 1
  let cell := (forms.map fun f => (unit / f.size) * (f.width + 1)).foldl max 0
  (forms.zipIdx.map fun (f, i) =>
    let count := unit / f.size
    let texts := (chunks f.size (bytes.length + 1) bytes).zipIdx.map fun (part, k) =>
      let room := cell * (k % count + 1) / count - cell * (k % count) / count
      padStart room (f.text part)
    (if i = 0 then lead else List.replicate lead.length ' ') ++ texts.flatten ++ ['\n']).flatten

/-- The lines for rows. A row like the one in front of it is not shown again. -/
def rows (forms : List Form) (base : Option Nat) (showsAll : Bool) (size : Nat) :
    (offset : Nat) → (last : Option (List UInt8)) → (isStarred : Bool) → List (List UInt8) →
      List Char
  | _, _, _, [] => []
  | offset, last, isStarred, bytes :: rest =>
    let behind := offset + bytes.length
    if !showsAll && last = some bytes && bytes.length = size then
      (if isStarred then [] else ['*', '\n']) ++ rows forms base showsAll size behind last true rest
    else
      row forms (offsetText base offset) bytes ++
        rows forms base showsAll size behind (some bytes) false rest

end Dump

open Dump in
/-- Show the bytes of inputs. -/
def od : Utility :=
  (OptionForms.make "A:abcdj:lN:osS:t:vw:x"
    [("address-radix", "A", .value), ("skip-bytes", "j", .value), ("read-bytes", "N", .value),
      ("format", "t", .value), ("output-duplicates", "v", .nothing),
      ("width", "w", .optional)]).program fun name g => do
    let base ← match (g.value? "A").map String.toList with
      | none | some ('o' :: _) => pure (some 8)
      | some ('d' :: _) => pure (some 10)
      | some ('x' :: _) => pure (some 16)
      | some ('n' :: _) => pure none
      | some s =>
        fail name ("invalid output address radix '" ++ String.ofList (s.take 1) ++
          "'; it must be one character from [doxn]")
    let forms ← g.options.mapM fun (key, value) => do
      match key with
      | "a" => pure [Form.names]
      | "b" => pure [Form.numbers 1 8 false]
      | "c" => pure [Form.chars]
      | "d" => pure [Form.numbers 2 10 false]
      | "l" => pure [Form.numbers 8 10 true]
      | "o" => pure [Form.numbers 2 8 false]
      | "s" => pure [Form.numbers 2 10 true]
      | "x" => pure [Form.numbers 2 16 false]
      | "t" =>
        let text := value.getD ""
        match Form.all? (text.length + 1) text.toList with
        | some forms => pure forms
        | none => fail name ("invalid type string " ++ quote text)
      | _ => pure []
    let forms := if forms.flatten.isEmpty then [Form.numbers 2 8 false] else forms.flatten
    let amountOf := fun (key : String) => do
      match g.value? key with
      | none => pure none
      | some text =>
        match amount? text.toList with
        | some n => pure (some n)
        | none => fail name ("invalid -" ++ key ++ " argument " ++ quote text)
    let skipped := (← amountOf "j").getD 0
    let limit ← amountOf "N"
    let asked ← amountOf "w"
    let size := if g.has "w" then asked.getD 32 else 16
    let mut bytes := []
    let mut status := 0
    for file in inputsOf g.operands do
      match ← bytesOfInput file with
      | .ok more => bytes := bytes ++ more
      | .error fault =>
        complain name (quoteIfNeeded file ++ ": " ++ fault.message)
        status := 1
    let shown := bytes.drop skipped
    let shown := limit.elim shown fun n => shown.take n
    let ending := offsetText base (skipped + shown.length)
    say name (String.ofList
      (rows forms base (g.has "v") size skipped none false (chunks size (shown.length + 1) shown) ++
        (if ending.isEmpty then [] else ending ++ ['\n'])))
    return status

end BuildTrace.Utility
