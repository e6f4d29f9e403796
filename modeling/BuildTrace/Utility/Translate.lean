import BuildTrace.Shell.Format
import BuildTrace.Shell.Pattern
import BuildTrace.Utility.Input

/-!
# Characters for characters

The program that puts characters in the place of others, or takes them away.
-/

namespace BuildTrace.Utility

open Shell
open Machine (Fault)

namespace Translation

/-- An item of a list of characters. -/
inductive Item where
  /-- Characters. -/
  | chars (list : List Char)
  /-- The characters of a class. -/
  | ofClass (value : CharClass)
  /-- A character again and again; as often as is needed, if no number is given. -/
  | again (c : Char) (count : Option Nat)

/-- All characters. -/
def everyChar : List Char := (List.range 256).map Char.ofNat

/-- The characters of a class in order. -/
def classChars (value : CharClass) : List Char := everyChar.filter value.has

/-- A character of a list, which may be written as an escape; whether it is one; and what
follows. -/
def next? (s : List Char) : Option (Char × Bool × List Char) :=
  match s with
  | [] => none
  | ['\\'] => some ('\\', false, [])
  | '\\' :: c :: rest =>
    if Arithmetic.isOctalDigit c then
      let (n, behind) := octal 3 (c :: rest)
      if 256 ≤ n then
        let (n, behind) := octal 2 (c :: rest)
        some (byteChar n, true, behind)
      else some (byteChar n, true, behind)
    else some ((escapeChar? c).getD c, true, rest)
  | c :: rest => some (c, false, rest)

/-- The characters of a list, each with whether it is written as an escape. -/
def charsOf : Nat → List Char → List (Char × Bool)
  | 0, _ => []
  | fuel + 1, s =>
    match next? s with
    | none => []
    | some (c, isEscaped, rest) => (c, isEscaped) :: charsOf fuel rest

/-- What stands in brackets behind a sign, up to the sign and the closing bracket. -/
def bracketed? (sign : Char) (s : List (Char × Bool)) : Option (List Char × List (Char × Bool)) :=
  match s with
  | [] => none
  | (c, false) :: (d, e) :: rest =>
    if c = sign && d = ']' && !e then some ([], rest)
    else (bracketed? sign ((d, e) :: rest)).map fun (inner, rest) => (c :: inner, rest)
  | (c, _) :: rest => (bracketed? sign rest).map fun (inner, rest) => (c :: inner, rest)

/-- A character with the number of times it stands, behind an opening bracket. -/
def repeated? (s : List (Char × Bool)) : Option (Except String Item × List (Char × Bool)) :=
  match s with
  | (c, _) :: ('*', false) :: rest =>
    let digits := (rest.takeWhile fun d => d.1 != ']').map Prod.fst
    match rest.drop digits.length with
    | (']', false) :: behind =>
      if digits.isEmpty then some (.ok (.again c none), behind)
      else if digits.all Char.isDigit then
        let n := digitsValue (if digits.head? = some '0' then 8 else 10) digits
        some (.ok (.again c (if n = 0 then none else some n)), behind)
      else
        some
          (.error ("invalid repeat count " ++ quote (String.ofList digits) ++
            " in [c*n] construct"), behind)
    | _ => none
  | _ => none

/-- What stands for a character in a message. -/
def shownChar (c : Char) : String := String.ofList (if isHidden c then escapeHidden c else [c])

/-- The items of a list. -/
def items : Nat → List (Char × Bool) → Except String (List Item)
  | 0, _ => .ok []
  | _, [] => .ok []
  | fuel + 1, (c, isEscaped) :: rest => do
    let plain := fun (_ : Unit) => do
      match rest with
      | ('-', false) :: (d, _) :: behind =>
        if d < c then
          .error ("range-endpoints of " ++ quote (shownChar c ++ "-" ++ shownChar d) ++
            " are in reverse collating sequence order")
        else
          let range := (List.range (d.toNat + 1 - c.toNat)).map fun i => Char.ofNat (c.toNat + i)
          .ok (.chars range :: (← items fuel behind))
      | _ => .ok (.chars [c] :: (← items fuel rest))
    if c = '[' && !isEscaped then
      match rest with
      | (':', false) :: inner =>
        match bracketed? ':' inner with
        | some (className, behind) =>
          match CharClass.ofName? className with
          | some value => .ok (.ofClass value :: (← items fuel behind))
          | none =>
            if className.isEmpty then .error "missing character class name '[::]'"
            else .error ("invalid character class " ++ quote (String.ofList className))
        | none => plain ()
      | ('=', false) :: inner =>
        match bracketed? '=' inner with
        | some ([d], behind) => .ok (.chars [d] :: (← items fuel behind))
        | some ([], _) => .error "missing equivalence class character '[==]'"
        | some (text, _) =>
          .error (String.ofList text ++ ": equivalence class operand must be a single character")
        | none => plain ()
      | _ =>
        match repeated? rest with
        | some (.ok item, behind) => .ok (item :: (← items fuel behind))
        | some (.error message, _) => .error message
        | none => plain ()
    else plain ()

/-- The items of a text. -/
def itemsOf (text : String) : Except String (List Item) :=
  items (text.length + 1) (charsOf (text.length + 1) text.toList)

/-- The characters of items, where `room` is how many of them there are to be. -/
def expand (room : Nat) (list : List Item) : List Char :=
  let length : Item → Nat := fun
    | .chars s => s.length
    | .ofClass value => (classChars value).length
    | .again _ count => count.getD 0
  let fixed := list.foldl (fun n item => n + length item) 0
  list.flatMap fun
    | .chars s => s
    | .ofClass value => classChars value
    | .again c count => List.replicate (count.getD (room - fixed)) c

/-- The pairs of characters, of which the first one is replaced by the second one. The last
character stands for all that are missing. -/
def pairs (source target : List Char) : List (Char × Char) :=
  let target := target ++ List.replicate (source.length - target.length) (target.getLast?.getD ' ')
  (source.zip target).reverse

/-- Of characters in a list that follow themselves only one is left. -/
def squeeze (list : List Char) (text : List Char) : List Char :=
  (text.foldl
    (fun (copy : List Char) c =>
      if copy.head? = some c && list.contains c then copy else c :: copy)
    []).reverse

end Translation

open Translation in
/-- Put characters in the place of others, or take them away. -/
def tr : Utility :=
  { OptionForms.make "cCdst"
      [("complement", "c", .nothing), ("delete", "d", .nothing),
        ("squeeze-repeats", "s", .nothing), ("truncate-set1", "t", .nothing)] with
    stopsEarly := true }.program fun name g => do
    let complements := g.hasAny ["c", "C"]
    let deletes := g.has "d"
    let squeezes := g.has "s"
    let least := if deletes = squeezes then 2 else 1
    let most := if deletes && !squeezes then 1 else 2
    let operands := g.operands
    if operands.isEmpty then misuse name "missing operand"
    if operands.length < least then
      let reason :=
        if squeezes then "Two strings must be given when both deleting and squeezing repeats."
        else "Two strings must be given when translating."
      misuse name ("missing operand after " ++ quote (operands.headD "") ++ "\n" ++ reason)
    match operands.drop most with
    | extra :: _ =>
      let reason :=
        if most = 1 && operands.length = 2 then
          "\nOnly one string may be given when deleting without squeezing repeats."
        else ""
      misuse name ("extra operand " ++ quote extra ++ reason)
    | [] => pure ()
    let parse := fun (text : String) => do
      match itemsOf text with
      | .ok list => pure list
      | .error message => fail name message
    let firstItems ← parse (operands.headD "")
    if firstItems.any fun i => match i with | .again .. => true | _ => false then
      fail name "the [c*] repeat construct may not appear in string1"
    let first := Translation.expand 0 firstItems
    let source := if complements then everyChar.filter (!first.contains ·) else first
    let translates := !deletes && operands.length = 2
    let secondItems ← parse ((operands[1]?).getD "")
    let second := Translation.expand source.length secondItems
    if translates then
      if secondItems.any fun i =>
          match i with
          | .ofClass value => value != CharClass.lower && value != CharClass.upper
          | _ => false then
        fail name ("when translating, the only character classes that may appear in\n" ++
          "string2 are 'upper' and 'lower'")
      if second.isEmpty && !source.isEmpty && !g.has "t" then
        fail name "when not truncating set1, string2 must be non-empty"
    let source := if g.has "t" && translates then source.take second.length else source
    let table := pairs source second
    match ← bytesOfInput "-" with
    | .error fault => fail name ("read error: " ++ fault.message)
    | .ok bytes =>
      let text := Shell.charsOf bytes
      let text := if deletes then text.filter (!source.contains ·) else text
      let text := if translates then text.map fun c => (table.lookup c).getD c else text
      let squeezed := if operands.length = 2 then second else source
      say name (String.ofList (if squeezes then squeeze squeezed text else text))
      return 0

end BuildTrace.Utility
