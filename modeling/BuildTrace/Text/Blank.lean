/-!
# White space

White space is the Unicode property of that name. A text is a list of characters here; the words
of a text are its longest runs without white space.
-/

namespace BuildTrace.Text

/-- A white space character. -/
def isBlank (c : Char) : Bool :=
  let n := c.toNat
  (9 ≤ n && n ≤ 13) || n == 0x20 || n == 0x85 || n == 0xa0 || n == 0x1680 ||
    (0x2000 ≤ n && n ≤ 0x200a) || n == 0x2028 || n == 0x2029 || n == 0x202f || n == 0x205f ||
    n == 0x3000

/-- Every white space character of the core library is white space. -/
theorem isBlank_of_isWhitespace {c : Char} (h : c.isWhitespace = true) : isBlank c = true := by
  simp only [Char.isWhitespace, Bool.or_eq_true, decide_eq_true_eq] at h
  rcases h with ((rfl | rfl) | rfl) | rfl <;> decide

/-- Drop the longest final run of characters that satisfy `p`. -/
def dropEndWhile (p : Char → Bool) : List Char → List Char
  | [] => []
  | c :: s =>
    match dropEndWhile p s with
    | [] => if p c then [] else [c]
    | rest => c :: rest

/-- The text without its leading white space. -/
def trimStart (s : List Char) : List Char := s.dropWhile isBlank

/-- The text without its trailing white space. -/
def trimEnd (s : List Char) : List Char := dropEndWhile isBlank s

/-- The text without white space at its ends. -/
def trim (s : List Char) : List Char := trimEnd (trimStart s)

/-- The text has no character other than white space. -/
def isBlankText (s : List Char) : Bool := s.all isBlank

/-- Put a character in front of the first word, or start a word with it. -/
private def consWord (c : Char) (startsBlank : Bool) : List (List Char) → List (List Char)
  | [] => [[c]]
  | word :: words => if startsBlank then [c] :: word :: words else (c :: word) :: words

/-- The words of the text, in order. -/
def words : List Char → List (List Char)
  | [] => []
  | c :: s =>
    if isBlank c then words s
    else consWord c (match s with | [] => true | d :: _ => isBlank d) (words s)

end BuildTrace.Text
