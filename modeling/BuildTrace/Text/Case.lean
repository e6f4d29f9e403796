import BuildTrace.Text.CaseTable

/-!
# Small letters

The full lower-case mapping of a text. Each character has a mapping of its own, except for the
capital sigma: at the end of a word it becomes the final small sigma, elsewhere the medial one.
-/

namespace BuildTrace.Text

/-- The letter is a capital of the run. -/
def CaseRun.contains (run : CaseRun) (n : Nat) : Bool :=
  run.first ≤ n && n ≤ run.last && (n - run.first) % run.step == 0

/-- The small form of one character, sigma taken as medial. -/
def lowerChar (c : Char) : List Char :=
  if c.toNat < 128 then [c.toLower]
  else if c.toNat = 0x130 then ['i', Char.ofNat 0x307]
  else
    match caseRuns.find? (·.contains c.toNat) with
    | some run => [Char.ofNat (c.toNat + run.shift).toNat]
    | none => [c]

/-- A letter with a case. -/
def isCased (c : Char) : Bool :=
  if c.toNat < 128 then c.isAlpha else inRanges casedRanges c

/-- A character that is passed over when the end of a word is looked for. -/
def isCaseIgnorable (c : Char) : Bool :=
  if c.toNat < 128 then ['\'', '.', ':', '^', (Char.ofNat 0x60)].contains c
  else inRanges caseIgnorableRanges c

/-- Behind the characters that are passed over stands a letter with a case. -/
def meetsCased (s : List Char) : Bool :=
  match s.dropWhile isCaseIgnorable with
  | [] => false
  | c :: _ => isCased c

/-- The text in small letters, where `before` is what precedes it, last character first. -/
def lowerFrom (before : List Char) : List Char → List Char
  | [] => []
  | c :: s =>
    let small :=
      if c = 'Σ' then (if meetsCased before && !meetsCased s then ['ς'] else ['σ'])
      else lowerChar c
    small ++ lowerFrom (c :: before) s

/-- The text in small letters. -/
def lower (s : List Char) : List Char := lowerFrom [] s

/-- Two texts are equal up to the case of the letters A to Z. -/
def eqIgnoringCase (s t : List Char) : Bool := s.map Char.toLower == t.map Char.toLower

end BuildTrace.Text
