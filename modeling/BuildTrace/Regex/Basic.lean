import BuildTrace.Shell.Pattern

/-!
# Regular expressions

A regular expression stands for texts, and for places in texts. Of the parts of a text that it fits,
the first one is taken, and of those that begin there the longest one.
-/

namespace BuildTrace

open Shell (ListItem)

/-- A regular expression. -/
inductive Regex where
  /-- The empty text. -/
  | empty
  /-- A character of one of the items, or of none of them. -/
  | one (negated : Bool) (items : List ListItem)
  /-- The beginning of a line. -/
  | lineStart
  /-- The end of a line. -/
  | lineEnd
  /-- The beginning of the text. -/
  | textStart
  /-- The end of the text. -/
  | textEnd
  /-- The beginning of a word. -/
  | wordStart
  /-- The end of a word. -/
  | wordEnd
  /-- The beginning or the end of a word. -/
  | wordEdge
  /-- No edge of a word. -/
  | noEdge
  /-- One expression behind the other one. -/
  | seq (first second : Regex)
  /-- One of two expressions. -/
  | either (first second : Regex)
  /-- An expression again and again, at least and at most a number of times. -/
  | again (least : Nat) (most : Option Nat) (inner : Regex)
  /-- An expression whose text has a number. -/
  | group (number : Nat) (inner : Regex)
  /-- The text with a number. -/
  | back (number : Nat)
  deriving Inhabited

namespace Regex

/-- Any character. -/
def anyChar : Regex := .one true []

/-- The character itself. -/
def char (c : Char) : Regex := .one false [.range c c]

/-- The expression asks for a text with a number. -/
def hasBack : Regex → Bool
  | seq a b | either a b => a.hasBack || b.hasBack
  | again _ _ r | group _ r => r.hasBack
  | back _ => true
  | _ => false

/-- How a text is read. -/
structure Reading where
  /-- The text. -/
  text : Array Char
  /-- Letters are taken in any case. -/
  ignoresCase : Bool := false
  /-- The ends of lines inside the text are ends for an expression. -/
  hasLines : Bool := false

namespace Reading

/-- The character at a place is part of a word. -/
def isWordAt (r : Reading) (i : Nat) : Bool :=
  (r.text[i]?).any fun c => c.isAlphanum || c = '_'

/-- The character in front of a place is part of a word. -/
def isWordBefore (r : Reading) (i : Nat) : Bool := i != 0 && r.isWordAt (i - 1)

/-- The character fits one of the items, or none of them. -/
def fits (r : Reading) (negated : Bool) (items : List ListItem) (c : Char) : Bool :=
  let has := fun (c : Char) => items.any fun item => item.has c
  (if r.ignoresCase then has c.toLower || has c.toUpper else has c) != negated

/-- The place has the property that an expression asks for. -/
def holdsAt (r : Reading) (i : Nat) : Regex → Bool
  | empty => true
  | lineStart => i = 0 || (r.hasLines && r.text[i - 1]? = some '\n')
  | lineEnd => i = r.text.size || (r.hasLines && r.text[i]? = some '\n')
  | textStart => i = 0
  | textEnd => i = r.text.size
  | wordStart => !r.isWordBefore i && r.isWordAt i
  | wordEnd => r.isWordBefore i && !r.isWordAt i
  | wordEdge => r.isWordBefore i != r.isWordAt i
  | noEdge => r.isWordBefore i = r.isWordAt i
  | _ => false

end Reading

/-! ## Ends -/

/-- Numbers in order, each of them once. -/
def distinct (places : List Nat) : List Nat :=
  (places.mergeSort).foldr (fun n rest => if rest.head? = some n then rest else n :: rest) []

/-- The places that are reached by steps from places. -/
def stepAll (step : Nat → List Nat) (places : List Nat) : List Nat := distinct (places.flatMap step)

/-- The places that are reached by exactly a number of steps. -/
def stepExactly (step : Nat → List Nat) : Nat → List Nat → List Nat
  | 0, places => places
  | n + 1, places => if places.isEmpty then [] else stepExactly step n (stepAll step places)

/-- The places that are reached by at most a number of steps. `seen` have been reached already. -/
def stepUpTo (step : Nat → List Nat) : Nat → (seen places : List Nat) → List Nat
  | 0, seen, _ => seen
  | n + 1, seen, places =>
    let next := (stepAll step places).filter fun i => !seen.contains i
    if next.isEmpty then seen else stepUpTo step n (distinct (seen ++ next)) next

/-- The places at which a part of the text may end that begins at a place and fits the expression.
Texts with a number are not looked at. -/
def ends (r : Reading) : Regex → Nat → List Nat
  | one negated items, i =>
    match r.text[i]? with
    | some c => if r.fits negated items c then [i + 1] else []
    | none => []
  | seq a b, i => distinct ((ends r a i).flatMap (ends r b))
  | either a b, i => distinct (ends r a i ++ ends r b i)
  | again least most inner, i =>
    let start := stepExactly (ends r inner) least [i]
    -- Without a greatest number, as many steps as there are places reach all that can be reached.
    let more := match most with
      | none => r.text.size + 1
      | some most => most - least
    stepUpTo (ends r inner) more start start
  | group _ inner, i => ends r inner i
  | back _, _ => []
  | place, i => if r.holdsAt i place then [i] else []

/-! ## Numbered texts -/

/-- The numbered texts that have been found, by their beginnings and their ends. -/
abbrev Groups := List (Nat × Nat × Nat)

/-- What is done with a place at which a part may end, and with the texts with a number. -/
abbrev Goal := Nat → Groups → Option Groups

/-- Go on with an expression again and again, as often as possible. -/
def repeatGreedy (step : Nat → Groups → Goal → Option Groups) (goal : Goal) :
    (least : Nat) → (most : Option Nat) → Nat → Nat → Groups → Option Groups
  | _, _, 0, _, _ => none
  | least, most, fuel + 1, i, groups =>
    let further :=
      if most = some 0 then none
      else
        step i groups fun j groups =>
          -- A step that takes nothing could be repeated for ever.
          if j = i && least = 0 then none
          else repeatGreedy step goal (least - 1) (most.map (· - 1)) fuel j groups
    match further with
    | some groups => some groups
    | none => if least = 0 then goal i groups else none

/-- The first way to fit the expression to the text from a place on that reaches the goal. -/
def find (r : Reading) : Regex → Nat → Groups → Goal → Option Groups
  | one negated items, i, groups, goal =>
    match r.text[i]? with
    | some c => if r.fits negated items c then goal (i + 1) groups else none
    | none => none
  | seq a b, i, groups, goal => find r a i groups fun j groups => find r b j groups goal
  | either a b, i, groups, goal =>
    let at? := fun (j k : Nat) (groups : Groups) => if j = k then goal k groups else none
    -- Where a text is referred to, the ends of the branches are not known beforehand.
    if a.hasBack || b.hasBack then
      (find r a i groups goal).orElse fun _ => find r b i groups goal
    else
      -- The longer branch goes first, whichever it is.
      ((ends r (either a b) i).reverse).findSome? fun j =>
        (find r a i groups (at? j)).orElse fun _ => find r b i groups (at? j)
  | again least most inner, i, groups, goal =>
    repeatGreedy (fun i groups goal => find r inner i groups goal) goal least most
      (r.text.size + least + 2) i groups
  | group number inner, i, groups, goal =>
    find r inner i groups fun j groups =>
      goal j ((number, i, j) :: groups.filter (·.1 != number))
  | back number, i, groups, goal =>
    match groups.lookup number with
    | none => none
    | some (a, b) =>
      let same := fun (c d : Char) =>
        if r.ignoresCase then c.toLower = d.toLower else c = d
      let fits := (List.range (b - a)).all fun k =>
        match r.text[a + k]?, r.text[i + k]? with
        | some c, some d => same c d
        | _, _ => false
      if fits then goal (i + (b - a)) groups else none
  | place, i, groups, goal => if r.holdsAt i place then goal i groups else none

/-! ## Matches -/

/-- A part of a text that fits. -/
structure Match where
  /-- Where it begins. -/
  start : Nat
  /-- Where it ends. -/
  stop : Nat
  /-- Its texts with a number. -/
  groups : Groups

/-- The longest part that fits and begins at a place. -/
def matchAt? (e : Regex) (r : Reading) (i : Nat) : Option Match :=
  let exactly := fun (stop : Nat) =>
    (find r e i [] fun j groups => if j = stop then some groups else none).map fun groups =>
      (⟨i, stop, groups⟩ : Match)
  if e.hasBack then
    ((List.range (r.text.size + 1 - i)).reverse).findSome? fun k => exactly (i + k)
  else (ends r e i).getLast?.bind exactly

/-- The first part that fits and begins at a place or behind it. -/
def matchFrom? (e : Regex) (r : Reading) (i : Nat) : Option Match :=
  (List.range (r.text.size + 1 - i)).findSome? fun k => matchAt? e r (i + k)

/-- The end of the longest part that fits and begins at a place. -/
def endAt? (e : Regex) (r : Reading) (i : Nat) : Option Nat :=
  if e.hasBack then (matchAt? e r i).map Match.stop else (ends r e i).getLast?

/-- The beginning and the end of the first part that fits and begins at a place or behind it. -/
def spanFrom? (e : Regex) (r : Reading) (i : Nat) : Option (Nat × Nat) :=
  (List.range (r.text.size + 1 - i)).findSome? fun k => (endAt? e r (i + k)).map (i + k, ·)

/-- The text with the number in a part of a text that fits. -/
def Match.text (m : Match) (r : Reading) (number : Nat) : List Char :=
  let (start, stop) :=
    if number = 0 then (m.start, m.stop) else (m.groups.lookup number).getD (0, 0)
  (r.text.extract start stop).toList

end Regex

end BuildTrace
