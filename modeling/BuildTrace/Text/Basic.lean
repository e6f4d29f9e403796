import BuildTrace.Text.Blank

/-!
# Cutting texts

A text is a list of characters. Cutting a text at a known beginning, at a known end or at a
separator, finding one text inside another, the lines and the sizes of texts.
-/

namespace BuildTrace.Text

/-- What follows `lead` in a text that begins with it. -/
def strip? : (lead s : List Char) → Option (List Char)
  | [], s => some s
  | _ :: _, [] => none
  | p :: lead, c :: s => if p = c then strip? lead s else none

/-- A text is cut exactly when it begins with the given lead. -/
theorem strip?_eq_some_iff {lead s rest : List Char} :
    strip? lead s = some rest ↔ s = lead ++ rest := by
  induction lead generalizing s with
  | nil => simp [strip?, eq_comm]
  | cons p lead ih =>
    cases s with
    | nil => simp [strip?]
    | cons c s =>
      by_cases h : p = c
      · simp [strip?, h, ih]
      · simp [strip?, h, Ne.symm h]

/-- What precedes `tail` in a text that ends with it. -/
def stripEnd? (tail s : List Char) : Option (List Char) :=
  (strip? tail.reverse s.reverse).map List.reverse

/-- The text begins with `lead`. -/
def startsWith (lead s : List Char) : Bool := (strip? lead s).isSome

/-- The text ends with `tail`. -/
def endsWith (tail s : List Char) : Bool := (stripEnd? tail s).isSome

/-- The text has `part` somewhere inside. -/
def occurs (part : List Char) : List Char → Bool
  | [] => part.isEmpty
  | c :: s => startsWith part (c :: s) || occurs part s

/-- The pieces between the separators; one piece more than there are separators. -/
def splitOn (separator : Char) : List Char → List (List Char)
  | [] => [[]]
  | c :: s =>
    if c = separator then [] :: splitOn separator s
    else
      match splitOn separator s with
      | [] => [[c]]
      | piece :: pieces => (c :: piece) :: pieces

/-- The part before the first separator and the part after it. -/
def splitOnce? (separator : Char) : List Char → Option (List Char × List Char)
  | [] => none
  | c :: s =>
    if c = separator then some ([], s)
    else (splitOnce? separator s).map fun (before, after) => (c :: before, after)

/-- The part before the last separator and the part after it. -/
def splitLast? (separator : Char) : List Char → Option (List Char × List Char)
  | [] => none
  | c :: s =>
    match splitLast? separator s with
    | some (before, after) => some (c :: before, after)
    | none => if c = separator then some ([], s) else none

/-- The texts one after the other with `separator` between them. -/
def joinWith (separator : List Char) : List (List Char) → List Char
  | [] => []
  | [s] => s
  | s :: t :: rest => s ++ separator ++ joinWith separator (t :: rest)

/-!
## Lines

A line ends with a line feed, which a carriage return may precede. The last line of a text need
not be ended; an empty last line does not count.
-/

/-- The line without the carriage return that stood before its line feed. -/
def dropReturn (line : List Char) : List Char :=
  (stripEnd? ['\r'] line).getD line

/-- The lines among the pieces between line feeds. -/
def linesOfPieces : List (List Char) → List (List Char)
  | [] => []
  | [last] => if last.isEmpty then [] else [last]
  | piece :: rest => dropReturn piece :: linesOfPieces rest

/-- The lines of the text, without their ends. -/
def lines (s : List Char) : List (List Char) := linesOfPieces (splitOn '\n' s)

/-! ## Sizes -/

/-- The number of bytes of the text in UTF-8. -/
def byteLength (s : List Char) : Nat := s.foldl (fun n c => n + c.utf8Size) 0

/-- A number of steps that is enough to go through texts one after the other. -/
def stepsThrough (texts : List String) : Nat := texts.foldl (fun n s => n + s.length + 1) 1

/-- The number of values of 64 bits. -/
def wordLimit : Nat := 18446744073709551616

end BuildTrace.Text
