import BuildTrace.Utility.Order

/-!
# Lines in order

The programs that put lines in order, and those that work on lines in order.
-/

namespace BuildTrace.Utility

open Shell
open Machine (Fault Opening)

/-! ## Keys -/

/-- How a part of a line is compared. Each letter is that of an option. -/
abbrev KeyRule := List Char

/-- The part of lines that is compared. -/
structure SortKey where
  /-- The number of fields in front of it, and the number of characters. -/
  start : Nat × Nat := (0, 0)
  /-- The number of the field in which it ends, and the number of characters of it; all of them if
  there are none. -/
  stop : Option (Nat × Nat) := none
  /-- How it is compared. -/
  rule : KeyRule := []
  /-- Blanks in front of its end do not count. -/
  skipsAtStop : Bool := false

namespace SortKey

/-- The letters of rules. -/
def ruleLetters : List Char := ['b', 'd', 'f', 'g', 'h', 'i', 'M', 'n', 'R', 'r', 'V']

/-- What is left of a text behind a number of fields. -/
def dropFields (tab : Option Char) : Nat → List Char → List Char
  | 0, s => s
  | n + 1, s =>
    match tab with
    | some c => dropFields tab n ((s.dropWhile (· != c)).drop 1)
    | none => dropFields tab n ((s.dropWhile isBlank).dropWhile (!isBlank ·))

/-- The number of characters in front of the end of a field. -/
def fieldEnd (tab : Option Char) (fields : Nat) (s : List Char) : Nat :=
  match fields with
  | 0 => 0
  | n + 1 =>
    let rest := dropFields tab n s
    let field := match tab with
      | some c => rest.takeWhile (· != c)
      | none =>
        let blanks := rest.takeWhile isBlank
        blanks ++ (rest.drop blanks.length).takeWhile (!isBlank ·)
    s.length - rest.length + field.length

/-- The part of a line that is compared. -/
def partOf (k : SortKey) (tab : Option Char) (line : List Char) : List Char :=
  let (fields, chars) := k.start
  let rest := dropFields tab fields line
  let rest := if k.rule.contains 'b' then rest.dropWhile isBlank else rest
  let rest := rest.drop chars
  let offset := line.length - rest.length
  match k.stop with
  | none => rest
  | some (field, 0) => rest.take (fieldEnd tab field line - offset)
  | some (field, count) =>
    let behind := dropFields tab (field - 1) line
    let behind := if k.skipsAtStop then behind.dropWhile isBlank else behind
    rest.take (min line.length (line.length - behind.length + count) - offset)

/-- The order of two parts of lines. -/
def compareParts (rule : KeyRule) (s t : List Char) : Ordering :=
  let counts := fun (c : Char) =>
    if rule.contains 'd' then c.isAlphanum || isBlank c
    else if rule.contains 'i' then CharClass.print.has c
    else true
  let cut := fun (s : List Char) =>
    let s := s.filter counts
    if rule.contains 'f' then s.map Char.toUpper else s
  if rule.contains 'n' then ((Decimal.ofText s).1).compare (Decimal.ofText t).1
  else if rule.contains 'g' then compareReal s t
  else if rule.contains 'h' then compareMagnitude s t
  else if rule.contains 'M' then compareInt (monthOf s) (monthOf t)
  else if rule.contains 'V' then compareVersion (cut s) (cut t)
  else compareText (cut s) (cut t)

/-- The order of two lines by the key. -/
def compare (k : SortKey) (tab : Option Char) (s t : List Char) : Ordering :=
  let order := compareParts k.rule (k.partOf tab s) (k.partOf tab t)
  if k.rule.contains 'r' then order.swap else order

/-! ### Reading keys -/

/-- The number at the beginning of a text, and what follows it. -/
def count (what : String) (s : List Char) : Except String (Nat × List Char) :=
  let digits := s.takeWhile Char.isDigit
  if digits.isEmpty then
    .error (what ++ ": invalid count at start of " ++ quote (String.ofList s))
  else .ok (digitsValue 10 digits, s.drop digits.length)

/-- The key that an argument stands for. -/
def ofText (text : String) : Except String SortKey := do
  let bad := fun (message : String) =>
    (.error (message ++ ": invalid field specification " ++ quote text) : Except String Unit)
  let (field, s) ← count "invalid number at field start" text.toList
  if field = 0 then bad "field number is zero"
  let (char, s) ← match s with
    | '.' :: s => count "invalid number after '.'" s
    | s => .ok (1, s)
  if char = 0 then bad "character offset is zero"
  let rule := s.takeWhile ruleLetters.contains
  let key : SortKey := { start := (field - 1, char - 1), rule }
  match s.drop rule.length with
  | [] => .ok key
  | ',' :: s =>
    let (field, s) ← count "invalid number after ','" s
    if field = 0 then bad "field number is zero"
    let (char, s) ← match s with
      | '.' :: s => count "invalid number after '.'" s
      | s => .ok (0, s)
    let more := s.takeWhile ruleLetters.contains
    if more.length < s.length then bad "stray character in field spec"
    .ok { key with
      stop := some (field, char), rule := rule ++ more.filter (· != 'b'),
      skipsAtStop := more.contains 'b' }
  | _ =>
    bad "stray character in field spec"
    .ok key

/-- The letters of rules that do not go together. -/
def clash? (rule : KeyRule) : Option String :=
  let has := fun (c : Char) => rule.contains c
  let kinds := ['n', 'g', 'h', 'M'].countP has +
    if has 'V' || has 'R' || has 'd' || has 'i' then 1 else 0
  if 1 < kinds then
    some (String.ofList (['d', 'f', 'g', 'h', 'i', 'M', 'n', 'R', 'V'].filter has))
  else none

end SortKey

/-! ## Putting lines in order -/

/-- Put the lines of inputs in order. -/
def sort : Utility :=
  (OptionForms.make "bcCdfghiMmnRrsuVzk:o:t:S:T:"
    [("ignore-leading-blanks", "b", .nothing), ("dictionary-order", "d", .nothing),
      ("ignore-case", "f", .nothing), ("general-numeric-sort", "g", .nothing),
      ("human-numeric-sort", "h", .nothing), ("ignore-nonprinting", "i", .nothing),
      ("month-sort", "M", .nothing), ("numeric-sort", "n", .nothing), ("reverse", "r", .nothing),
      ("version-sort", "V", .nothing), ("check", "c", .optional), ("key", "k", .value),
      ("merge", "m", .nothing), ("output", "o", .value), ("stable", "s", .nothing),
      ("field-separator", "t", .value), ("unique", "u", .nothing),
      ("zero-terminated", "z", .nothing)] 2).program fun name g => do
    let tab ← match g.value? "t" with
      | none => pure none
      | some text =>
        match text.toList with
        | [] => fail name "empty tab" 2
        | [c] => pure (some c)
        | ['\\', '0'] => pure (some '\x00')
        | _ => fail name ("multi-character tab " ++ quote text) 2
    let shared : KeyRule := SortKey.ruleLetters.filter fun c => g.has c.toString
    let keys ← (g.values "k").mapM fun text => do
      match SortKey.ofText text with
      | .ok key =>
        -- A key without letters of its own is compared as the options say.
        let isBare := key.rule.isEmpty && !key.skipsAtStop
        pure (if isBare then { key with rule := shared } else key)
      | .error message => fail name message 2
    let keys := if keys.isEmpty && !shared.isEmpty then [{ rule := shared }] else keys
    for key in keys do
      match SortKey.clash? key.rule with
      | some letters => fail name ("options '-" ++ letters ++ "' are incompatible") 2
      | none => pure ()
    let sign := if g.has "z" then '\x00' else '\n'
    let checks := g.hasAny ["c", "C"]
    let files := inputsOf g.operands
    let byKeys := fun (s t : List Char) =>
      keys.foldl (fun (order : Ordering) key => order.then (key.compare tab s t)) .eq
    let isStable := g.has "s" || (g.has "u" && !keys.isEmpty)
    let order := fun (s t : List Char) =>
      -- Lines whose keys are equal are compared as a whole, unless their order is to stay.
      let last := if isStable then .eq else compareText s t
      (byKeys s t).then (if shared.contains 'r' then last.swap else last)
    if checks then
      match files.drop 1 with
      | extra :: _ => fail name ("extra operand " ++ quote extra ++ " not allowed with -c") 2
      | [] => pure ()
    let texts ← files.mapM fun file => do
      match ← textOfInput file with
      | .ok text => pure text.toList
      | .error .isDirectory =>
        fail name ("read failed: " ++ quoteIfNeeded file ++ ": " ++ Fault.isDirectory.message) 2
      | .error fault => fail name ("cannot read: " ++ quoteIfNeeded file ++ ": " ++ fault.message) 2
    let lines := texts.flatMap (linesOf sign)
    let same := fun (s t : List Char) =>
      (if keys.isEmpty then compareText s t else byKeys s t) == .eq
    if checks then
      let wrong := fun (s t : List Char) => order s t = .gt || (g.has "u" && same s t)
      match ((lines.zip (lines.drop 1)).zipIdx).find? fun ((s, t), _) => wrong s t with
      | some ((_, t), i) =>
        if !g.has "C" && g.value? "c" != some "quiet" && g.value? "c" != some "silent" then
          complain name
            (files.headD "-" ++ ":" ++ toString (i + 2) ++ ": disorder: " ++ String.ofList t)
        return 1
      | none => return 0
    let sorted := lines.mergeSort fun s t => order s t != .gt
    let sorted := if g.has "u" then dropRepeated same sorted else sorted
    let bytes := bytesOf (String.ofList (sorted.flatMap (· ++ [sign])))
    match g.value? "o" with
    | none => put name bytes
    | some file =>
      match ← writeFile file .toWrite bytes with
      | .ok () => pure ()
      | .error fault => fail name ("open failed: " ++ quoteIfNeeded file ++ ": " ++ fault.message) 2
    return 0
where
  /-- Of lines that are the same as those in front of them only the first ones are left. -/
  dropRepeated (same : List Char → List Char → Bool) (lines : List (List Char)) :
      List (List Char) :=
    (lines.foldl
      (fun (kept : List (List Char)) line =>
        match kept with
        | last :: _ => if same last line then kept else line :: kept
        | [] => [line])
      []).reverse

/-! ## Lines that follow themselves -/

/-- Lines that are the same, one after the other. -/
def groupsOf (same : List Char → List Char → Bool) (lines : List (List Char)) :
    List (List (List Char)) :=
  lines.foldr
    (fun line groups =>
      match groups with
      | (next :: more) :: groups =>
        if same line next then (line :: next :: more) :: groups
        else [line] :: (next :: more) :: groups
      | groups => [line] :: groups)
    []

/-- Put out lines that follow themselves once, or only some of them. -/
def uniq : Utility := fun _ name arguments => do
  let forms : OptionForms :=
    { OptionForms.make "cdDf:is:uw:z"
        [("count", "c", .nothing), ("repeated", "d", .nothing), ("all-repeated", "D", .optional),
          ("skip-fields", "f", .value), ("ignore-case", "i", .nothing),
          ("skip-chars", "s", .value), ("unique", "u", .nothing), ("check-chars", "w", .value),
          ("zero-terminated", "z", .nothing)] with
      numbers := some 'f' }
  let g ← forms.given name arguments
  match g.operands.drop 2 with
  | extra :: _ => misuse name ("extra operand " ++ quote extra)
  | [] => pure ()
  let numberOf := fun (key message : String) => do
    match g.value? key with
    | none => pure none
    | some text =>
      match number? text.toList with
      | some n => pure (some n)
      | none => fail name (text ++ ": " ++ message)
  let fields := (← numberOf "f" "invalid number of fields to skip").getD 0
  let skipped := (← numberOf "s" "invalid number of bytes to skip").getD 0
  let compared ← numberOf "w" "invalid number of bytes to compare"
  let file := g.operands.headD "-"
  let sign := if g.has "z" then '\x00' else '\n'
  match ← textOfInput file with
  | .error .isDirectory => fail name ("error reading " ++ quote file ++ ": Is a directory")
  | .error fault => fail name (quoteIfNeeded file ++ ": " ++ fault.message)
  | .ok text =>
    let part := fun (line : List Char) =>
      let rest := (SortKey.dropFields none fields line).drop skipped
      let rest := compared.elim rest fun n => rest.take n
      if g.has "i" then rest.map Char.toLower else rest
    -- Only neighbours are compared.
    let groups := groupsOf (fun s t => part s = part t) (linesOf sign text.toList)
    let chosen := groups.filter fun group =>
      if group.length = 1 then !g.hasAny ["d", "D"] else !g.has "u"
    let shown := chosen.flatMap fun group =>
      let lines := if g.has "D" then group else group.take 1
      let count := if g.has "c" then padNumber 7 group.length ++ [' '] else []
      lines.flatMap fun line => count ++ line ++ [sign]
    match g.operands.drop 1 with
    | [] => say name (String.ofList shown)
    | target :: _ =>
      if target = "-" then say name (String.ofList shown)
      else
        match ← writeFile target .toWrite (bytesOf (String.ofList shown)) with
        | .ok () => pure ()
        | .error fault => fail name (quoteIfNeeded target ++ ": " ++ fault.message)
    return 0

/-! ## Two inputs in order -/

/-- How far the comparison of two inputs has come. -/
structure Merging where
  /-- What is to be put out, the last line first. -/
  shown : List (List Char) := []
  /-- The numbers of lines in the first, in the second and in both inputs. -/
  counts : Nat × Nat × Nat := (0, 0, 0)
  /-- Some line is only in one of the inputs. -/
  hasSingle : Bool := false
  /-- The inputs that are not in order. -/
  disordered : List Nat := []

/-- Compare two inputs line by line. -/
def comm : Utility :=
  (OptionForms.make "123z"
    [("check-order", "check-order", .nothing),
      ("nocheck-order", "nocheck-order", .nothing),
      ("output-delimiter", "output-delimiter", .value), ("total", "total", .nothing),
      ("zero-terminated", "z", .nothing)]).program fun name g => do
    match g.operands with
    | [] => misuse name "missing operand"
    | [a] => misuse name ("missing operand after " ++ quote a)
    | [a, b] =>
      let sign := if g.has "z" then '\x00' else '\n'
      let linesIn := fun (file : String) => do
        match ← textOfInput file with
        | .ok text => pure (linesOf sign text.toList)
        | .error fault => fail name (quoteIfNeeded file ++ ": " ++ fault.message)
      let first ← linesIn a
      let second ← linesIn b
      let joint := (g.value? "output-delimiter").elim ['\t'] fun s =>
        if s.isEmpty then ['\x00'] else s.toList
      let show3 := fun (column : Nat) (line : List Char) =>
        if g.has (toString column) then []
        else
          let leads := (List.range column).filter fun i => i != 0 && !g.has (toString i)
          leads.flatMap (fun _ => joint) ++ line ++ [sign]
      let m ← merge name g show3 (first.length + second.length + 1) [] first [] second {}
      let (x, y, z) := m.counts
      let total :=
        if g.has "total" then
          let parts := [toString x, toString y, toString z, "total"].map String.toList
          Text.joinWith joint parts ++ [sign]
        else []
      say name (String.ofList (m.shown.reverse.flatten ++ total))
      if m.disordered.isEmpty then return 0 else fail name "input is not in sorted order"
    | _ :: _ :: extra :: _ => misuse name ("extra operand " ++ quote extra)
where
  /-- Note that an input is not in order, if two of its lines show it. -/
  check (name : String) (g : Given) (number : Nat) (lines : List (List Char)) (m : Merging) :
      Shell Merging := do
    match lines with
    | later :: earlier :: _ =>
      let isAsked := !g.has "nocheck-order" && (g.has "check-order" || m.hasSingle)
      if isAsked && !m.disordered.contains number && compareText earlier later = .gt then
        let message := "file " ++ toString number ++ " is not in sorted order"
        if g.has "check-order" then
          say name (String.ofList m.shown.reverse.flatten)
          fail name message
        complain name message
        return { m with disordered := number :: m.disordered }
      else return m
    | _ => return m
  /-- Go on in one of the inputs. `past` are its lines so far, the last one first. -/
  advance (name : String) (g : Given) (number : Nat) (past lines : List (List Char))
      (m : Merging) : Shell Merging := do
    match lines with
    | line :: next :: _ => check name g number (next :: line :: past) m
    | line :: [] => check name g number (line :: past) m
    | [] => return m
  /-- Compare what is left of the inputs. -/
  merge (name : String) (g : Given) (shown : Nat → List Char → List Char) : Nat →
      (pastA a pastB b : List (List Char)) → Merging → Shell Merging
    | 0, _, _, _, _, m => return m
    | fuel + 1, pastA, a, pastB, b, m => do
      let (x, y, z) := m.counts
      let order := match a, b with
        | [], _ => Ordering.gt
        | _, [] => .lt
        | s :: _, t :: _ => compareText s t
      match order, a, b with
      | _, [], [] => return m
      | .eq, s :: restA, t :: restB =>
        let m := { m with shown := shown 3 t :: m.shown, counts := (x, y, z + 1) }
        let m ← advance name g 1 pastA a m
        let m ← advance name g 2 pastB b m
        merge name g shown fuel (s :: pastA) restA (t :: pastB) restB m
      | .lt, s :: restA, _ =>
        let m :=
          { m with shown := shown 1 s :: m.shown, counts := (x + 1, y, z), hasSingle := true }
        let m ← advance name g 1 pastA a m
        merge name g shown fuel (s :: pastA) restA pastB b m
      | _, _, t :: restB =>
        let m :=
          { m with shown := shown 2 t :: m.shown, counts := (x, y + 1, z), hasSingle := true }
        let m ← advance name g 2 pastB b m
        merge name g shown fuel pastA a (t :: pastB) restB m
      | _, _, [] => return m

end BuildTrace.Utility
