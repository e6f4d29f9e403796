import BuildTrace.Path.Normal
import BuildTrace.Text.Basic

/-!
# Directory history

A line of a trace may move to another directory: the shell words `cd`, `pushd` and `popd`, and
the announcements make prints when it enters or leaves a directory. The commands of a trace are
relative to the directory in which make printed them. The history holds that directory together
with the directories to return to.
-/

namespace BuildTrace

/-! ## Moves -/

/-- A change of the current directory. -/
inductive Directory.Move where
  /-- Back to the directory before, `cd -`. -/
  | back
  /-- Out of the directory entered last. -/
  | leave
  /-- To a directory, forgetting where to return. -/
  | change (written : String)
  /-- Into a directory, to be left again. -/
  | enter (written : String)
  deriving DecidableEq, Repr

namespace Directory.Move

/-- The quote characters make puts around a directory. -/
def isQuote (c : Char) : Bool := c = '\'' || c = '"' || c.toNat = 0x60

/-- The operand of a line that begins with `word` and white space. It must not run over the end
of a line. -/
def operand? (word line : List Char) : Option (List Char) :=
  match Text.strip? word line with
  | some (c :: rest) =>
    let operand := Text.trimStart rest
    if Text.isBlank c && !operand.isEmpty && !operand.contains '\n' then some operand else none
  | _ => none

/-- What stands before the last quote on the line. -/
def beforeLastQuote? : List Char → Option (List Char)
  | [] => none
  | c :: s =>
    if c = '\n' then none
    else
      match beforeLastQuote? s with
      | some before => some (c :: before)
      | none => if isQuote c then some [] else none

/-- The directory make announces to enter. -/
def entered? : List Char → Option (List Char)
  | [] => none
  | c :: s =>
    match Text.strip? "Entering directory ".toList (c :: s) with
    | some (q :: rest) =>
      match if isQuote q then beforeLastQuote? rest else none with
      | some directory => some directory
      | none => entered? s
    | _ => entered? s

/-- The move of a line, if it is one. -/
def ofLine? (line : String) : Option Move :=
  let line := Text.trim line.toList
  -- The first form that fits counts: going back looks like a change to a directory.
  if line = "cd -".toList then some back
  else if line = "popd".toList || Text.occurs "Leaving directory".toList line then some leave
  else
    match operand? "cd".toList line with
    | some operand => some (change (String.ofList operand))
    | none =>
      match operand? "pushd".toList line with
      | some operand => some (enter (String.ofList operand))
      | none => (entered? line).map fun directory => enter (String.ofList directory)

end Directory.Move

/-! ## Histories -/

/-- The current directory and the directories to return to. -/
structure Directory.History where
  /-- The directories to return to, the next one first. -/
  earlier : List Path
  /-- The current directory. -/
  current : Path
  deriving DecidableEq, Repr

namespace Directory.History

/-- The history of a run that starts in `root`. -/
def start (root : Path) : History := ⟨[], root⟩

/-- All directories, the current one last. -/
def entries (h : History) : List Path := h.earlier.reverse ++ [h.current]

/-- The history after a move. Where there is no directory to return to, leaving one and going
back change nothing. -/
def move (h : History) : Move → History
  | .back =>
    match h.earlier with
    | [] => h
    | previous :: rest => ⟨h.current :: rest, previous⟩
  | .leave =>
    match h.earlier with
    | [] => h
    | previous :: rest => ⟨rest, previous⟩
  -- Only the directory before the change can be returned to.
  | .change written => ⟨[h.current], Path.resolve written h.current⟩
  | .enter written => ⟨h.current :: h.earlier, Path.resolve written h.current⟩

/-- The history after the line, if the line moves. -/
def follow? (h : History) (line : String) : Option History := (Move.ofLine? line).map h.move

end Directory.History

end BuildTrace
