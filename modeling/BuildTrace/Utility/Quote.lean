import BuildTrace.Shell.Bytes
import BuildTrace.Text.Basic

/-!
# Names in messages

How programs show the names that they are given, so that a shell would read them as they are.
-/

namespace BuildTrace.Utility

/-- The character has a meaning for a shell. -/
def hasMeaning (c : Char) : Bool :=
  [' ', '!', '"', '$', '&', '\'', '(', ')', '*', ':', ';', '<', '=', '>', '?', '[', '\\', '^',
    '\x60', '|'].contains c

/-- The character cannot be seen. -/
def isHidden (c : Char) : Bool := c < ' ' || '~' < c

/-- A character that cannot be seen, as a shell may read it. -/
def escapeHidden (c : Char) : List Char :=
  match c with
  | '\n' => ['\\', 'n']
  | '\t' => ['\\', 't']
  | '\r' => ['\\', 'r']
  | '\x07' => ['\\', 'a']
  | '\x08' => ['\\', 'b']
  | '\x0b' => ['\\', 'v']
  | '\x0c' => ['\\', 'f']
  | c =>
    let digits := Nat.toDigits 8 c.toNat
    '\\' :: List.replicate (3 - digits.length) '0' ++ digits

/-- The characters between single quotes, which are left for those that cannot be seen and for
quotes. -/
def quoteBody : List Char → List Char
  | [] => []
  | c :: rest =>
    if isHidden c then
      let hidden := c :: rest.takeWhile isHidden
      go hidden ++ quoteBody (rest.dropWhile isHidden)
    else if c = '\'' then "'\\''".toList ++ quoteBody rest
    else c :: quoteBody rest
termination_by s => s.length
decreasing_by
  · have : (rest.dropWhile isHidden).length ≤ rest.length := (List.dropWhile_sublist _).length_le
    simp only [List.length_cons]
    omega
  · simp
  · simp
where
  /-- The escapes of characters that cannot be seen. -/
  go (hidden : List Char) : List Char :=
    "'$'".toList ++ hidden.flatMap escapeHidden ++ "''".toList

/-- The name between quotes. -/
def quote (name : String) : String :=
  let s := name.toList
  let needsSingle := s.any fun c => isHidden c || ['"', '$', '\\', '\x60', '!'].contains c
  if s.contains '\'' && !needsSingle then "\"" ++ name ++ "\""
  else "'" ++ String.ofList (quoteBody s) ++ "'"

/-- The name, between quotes if a shell would read it otherwise. -/
def quoteIfNeeded (name : String) : String :=
  let s := name.toList
  let isBad := s.isEmpty || s.any (fun c => hasMeaning c || isHidden c) ||
    s.head? = some '#' || s.head? = some '~' || s = ['\x7b'] || s = ['\x7d']
  if isBad then quote name else name

end BuildTrace.Utility
