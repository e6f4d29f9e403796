import BuildTrace.Scan.Basic
import BuildTrace.Switch.Basic

/-!
# Command lines

The lines of a raw trace are brought into a form with one command on each line and the tool as
its first word: lines continued with a backslash are joined, compound commands are split, the
launchers in front of compilers are removed, and a compile command that also links is split into
its two halves.
-/

namespace BuildTrace.Command

/-- The pieces between the separators `&&` and `;`. -/
def splitCompound : List Char → List (List Char)
  | [] => [[]]
  | '&' :: '&' :: s => [] :: splitCompound s
  | ';' :: s => [] :: splitCompound s
  | c :: s =>
    match splitCompound s with
    | [] => [[c]]
    | piece :: pieces => (c :: piece) :: pieces

/-- What follows `word` and white space. -/
def afterWord? (word s : List Char) : Option (List Char) :=
  match Text.strip? word s with
  | some (c :: rest) => if Text.isBlank c then some (Text.trimStart rest) else none
  | _ => none

/-- The programs that run the compiler they are given. -/
def launchers : List (List Char) := ["ccache", "sccache", "distcc", "icecc"].map String.toList

/-- The command without the launchers in front of it. A launcher makes the text shorter, so as
many steps as there are characters are enough. -/
def dropLaunchers : Nat → List Char → List Char
  | 0, s => s
  | steps + 1, s =>
    match launchers.findSome? (afterWord? · s) with
    | some rest => dropLaunchers steps rest
    | none => s

/-- The command without the announcement of libtool's mode. -/
def dropLibtool (s : List Char) : List Char :=
  match afterWord? "libtool:".toList s with
  | none => s
  | some rest =>
    ((afterWord? "compile:".toList rest).or (afterWord? "link:".toList rest)).getD s

/-- The command itself. -/
def bare (s : List Char) : List Char :=
  let s := dropLibtool (Text.trimStart s)
  Text.trim (dropLaunchers s.length s)

/-- The switch that turns the rest of a compile command into arguments of the linker, at the
start of the text: what follows it. -/
def linkSwitch? (s : List Char) : Option (List Char) :=
  match s with
  | c :: rest =>
    if c = '/' || c = '-' then
      match Text.strip? "link".toList rest with
      | some [] => some []
      | some (d :: rest) => if Text.isBlank d then some rest else none
      | none => none
    else none
  | [] => none

/-- The text before and behind the first link switch that follows white space. -/
def splitLinkSwitch? : List Char → Option (List Char × List Char)
  | [] => none
  | c :: s =>
    match if Text.isBlank c then linkSwitch? (Text.trimStart s) else none with
    | some rest => some ([], rest)
    | none => (splitLinkSwitch? s).map fun (before, rest) => (c :: before, rest)

/-- The two halves of a compile command that also links. -/
def splitLinkMode? (command : List Char) : Option (List Char × List Char) :=
  match Switch.tokens command with
  | [] => none
  | tool :: _ =>
    if Switch.Style.ofTool (String.ofList (Path.unquote tool)) = .msvc then
      (splitLinkSwitch? command).map fun (compile, rest) =>
        let rest := Text.trim rest
        (Text.trim compile,
          if rest.isEmpty then "link".toList else "link ".toList ++ rest)
    else none

/-- The commands of one piece. -/
def ofPiece (piece : List Char) : List (List Char) :=
  let command := bare piece
  -- There is nothing between two separators in a row, or on an empty line.
  if command.isEmpty then []
  else
    match splitLinkMode? command with
    | some (compile, link) => [compile, link]
    | none => [command]

/-- The commands of a line, continuation lines already joined to it. -/
def ofLine (line : List Char) : List (List Char) :=
  (splitCompound line).flatMap fun piece => ofPiece (Text.trim piece)

/-- Read a line. A line that ends with a backslash waits for the next one. -/
def read (pending : Option (List Char)) (line : List Char) :
    List (List Char) × Option (List Char) :=
  let line := Text.dropEndWhile (· == '\r') line
  -- Two lines are joined by one blank, whatever stood between them.
  let joined :=
    match pending with
    | some before => before ++ ' ' :: Text.trimStart line
    | none => line
  let trimmed := Text.trimEnd joined
  match Text.stripEnd? ['\\'] trimmed with
  | some before => ([], some (Text.trimEnd before))
  | none => (ofLine trimmed, none)

/-- The recognizer of the commands of a raw trace. -/
def scanner {ω : Type} : LineScanner ω (Option (List Char)) String :=
  .ofPure
    (fun line pending =>
      let (commands, pending) := read pending line.toList
      (commands.map String.ofList, pending))
    (fun pending => (pending.elim [] ofLine).map String.ofList)

/-- The text with the commands, one on each line. -/
def text (commands : List String) : String :=
  let joined := "\n".intercalate commands
  if joined.isEmpty then joined else joined ++ "\n"

/-- The commands of a raw trace, one on each line, unless the scan was cancelled. -/
def normalize? {ω : Type} (isCancelled : ω → Bool) (chunkSize : Nat) (raw : String) (w : ω) :
    Option String × ω :=
  let (commands, w) := Scan.complete? scanner isCancelled chunkSize raw none w
  (commands.map text, w)

end BuildTrace.Command
