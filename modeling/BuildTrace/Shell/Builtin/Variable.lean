import BuildTrace.Shell.Builtin.Basic

/-!
# Variables, arguments and options

The commands of the shell that change its variables, its arguments, its options and its aliases.
-/

namespace BuildTrace.Shell.Builtin

/-! ## Variables -/

/-- Set variables, or print those that are marked; `mark` says how they are marked. -/
def declare (word : String) (mark : Variable → Variable) (isMarked : Variable → Bool) : Builtin :=
  fun arguments => do
    let (given, operands) ← letters "p" arguments
    if !given.isEmpty || operands.isEmpty then
      listVariables word isMarked
      return 0
    else
      operands.forM fun argument => do
        let (name, value) := splitAssignment argument
        if !isName name.toList then fail (name ++ ": bad variable name")
        match value with
        | some value => assign name value
        | none => pure ()
        modify fun s => s.putVariable name (mark ((s.binding? name).getD {}))
      return 0

/-- Let programs see variables. -/
def exporting : Builtin :=
  declare "export" ({ · with isExported := true }) (·.isExported)

/-- Let variables keep their values. -/
def protecting : Builtin :=
  declare "readonly" ({ · with isReadonly := true }) (·.isReadonly)

/-- Give variables back what they are at the end of the function. -/
def localizing : Builtin := fun arguments => do
  if (← get).saved.isEmpty then fail "not in a function"
  arguments.forM fun argument => do
    if argument = "-" then keep "-"
    else
      let (name, value) := splitAssignment argument
      if !isName name.toList then fail (name ++ ": bad variable name")
      keep name
      match value with
      | some value => assign name value
      | none =>
        -- Without a value of its own, the variable goes on with the one it has.
        modify fun s => if (s.binding? name).isSome then s else s.putVariable name {}
  return 0

/-- Remove variables or functions. -/
def unsetting : Builtin := fun arguments => do
  let (given, names) ← letters "vf" arguments
  if given.getLast? = some 'f' then
    modify fun s => { s with functions := s.functions.filter fun f => !names.contains f.1 }
  else names.forM unset
  return 0

/-! ## Arguments and options -/

/-- Drop arguments of the script. -/
def shift : Builtin := fun arguments => do
  let count ← match arguments with
    | [] => pure 1
    | a :: _ => number a
  if (← get).arguments.length < count then fail "can't shift that many"
  modify fun s => { s with arguments := s.arguments.drop count, optionPlace := (1, none) }
  return 0

/-- The options with their names and letters. -/
def optionNames : List (String × Option Char) :=
  [("errexit", some 'e'), ("noglob", some 'f'), ("ignoreeof", some 'I'),
    ("interactive", some 'i'), ("monitor", some 'm'), ("noexec", some 'n'), ("stdin", some 's'),
    ("xtrace", some 'x'), ("verbose", some 'v'), ("vi", some 'V'), ("emacs", some 'E'),
    ("noclobber", some 'C'), ("allexport", some 'a'), ("notify", some 'b'), ("nounset", some 'u'),
    ("privileged", some 'p'), ("nolog", none), ("debug", none)]

/-- Set or unset the option with a letter. Of the two ways to edit lines, one is set at most. -/
def setLetter (letter : Char) (value : Bool) : Shell Unit := do
  if optionNames.any (·.2 == some letter) then
    let other? := [('V', 'E'), ('E', 'V')].lookup letter
    if value then other?.forM fun other => modify fun s => s.setOption other false
    modify fun s => s.setOption letter value
  else fail ("Illegal option -" ++ letter.toString)

/-- Set or unset the option with a name. -/
def setName (name : String) (value : Bool) : Shell Unit := do
  match optionNames.lookup name with
  | none => fail ("Illegal option -o " ++ name)
  | some letter => letter.forM fun letter => modify fun s => s.setOption letter value

/-- Print which options are set, or the commands that set them. -/
def listOptions (asCommands : Bool) : Shell Unit := do
  let s ← get
  let isSet := fun (letter : Option Char) => letter.any s.hasOption
  if asCommands then
    print (String.join (optionNames.map fun (name, letter) =>
      "set " ++ (if isSet letter then "-o " else "+o ") ++ name ++ "\n"))
  else
    print ("Current option settings\n" ++ String.join (optionNames.map fun (name, letter) =>
      name ++ String.ofList (List.replicate (16 - name.length) ' ') ++
        (if isSet letter then "on" else "off") ++ "\n"))

/-- Set the options in an argument; what is left of the other arguments. -/
def setLetters (value : Bool) : List Char → List String → Shell (List String)
  | [], rest => return rest
  | c :: letters, rest => do
    if c = 'o' then
      match rest with
      | [] => listOptions (!value)
      | name :: _ => setName name value
      setLetters value letters (rest.drop 1)
    else
      setLetter c value
      setLetters value letters rest

/-- Set the options at the beginning of arguments; the other arguments, unless there are none. -/
def setOptions : Nat → List String → Shell (Option (List String))
  | 0, _ => return none
  | fuel + 1, arguments => do
    match arguments with
    | [] => return none
    | a :: rest =>
      if a = "--" then return some rest
      else if a = "-" then
        modify fun s => (s.setOption 'x' false).setOption 'v' false
        return if rest.isEmpty then none else some rest
      else
        match a.toList with
        | '-' :: letters => setOptions fuel (← setLetters true letters rest)
        | '+' :: letters => setOptions fuel (← setLetters false letters rest)
        | _ => return some arguments

/-- Jobs cannot be controlled, since there is no terminal. -/
def refuseJobControl : Shell Unit := do
  if (← get).hasOption 'm' then
    complain "can't access tty; job control turned off"
    modify fun s => s.setOption 'm' false

/-- Set options and the arguments of the script, or print the variables. -/
def set : Builtin := fun arguments => do
  if arguments.isEmpty then listVariables "" (·.value.isSome)
  else
    let operands ← setOptions (arguments.length + 1) arguments
    refuseJobControl
    match operands with
    | none => pure ()
    | some arguments => modify fun s => { s with arguments, optionPlace := (1, none) }
  return 0

/-- Remove a variable that an option has no use for. -/
def forgetArgument : Shell Unit := unset "OPTARG"

/-- Look for the next option in arguments. -/
def nextOption (known : List Char) (name : String) (arguments : List String) : Shell Nat := do
  let (index, offset) := (← get).optionPlace
  let isSilent := known.head? = some ':'
  let done := fun (index : Nat) (offset : Option Nat) (found : String) (status : Nat) => do
    assign "OPTIND" (toString index)
    modify fun s => { s with optionPlace := (index, offset) }
    assign name found
    -- Setting the variables may start the search anew, so the place is noted again.
    modify fun s => { s with optionPlace := (index, offset) }
    return status
  -- The characters that are left of an argument, and the number of the next one.
  let current : Option (List Char × Nat × Nat) :=
    match offset with
    | none => none
    | some offset =>
      let left := (arguments[index - 2]?.getD "").toList.drop offset
      if index ≤ 1 || left.isEmpty then none else some (left, index, offset)
  let begun : Option (List Char × Nat × Nat) × Nat :=
    match current with
    | some place => (some place, index)
    | none =>
      match (arguments[index - 1]?.getD "").toList with
      | '-' :: '-' :: [] => (none, index + 1)
      | '-' :: c :: rest => (some (c :: rest, index + 1, 1), index + 1)
      | _ => (none, index)
  match begun with
  | (none, index) => done index none "?" 1
  | (some ([], _, _), index) => done index none "?" 1
  | (some (c :: left, index, offset), _) =>
    let letters := if isSilent then known.drop 1 else known
    let behind? := (letters.dropWhile (· != c)).drop 1
    let isKnown := letters.contains c && c != ':'
    if !isKnown then
      -- The script wants to tell about mistakes itself.
      if isSilent then assign "OPTARG" c.toString
      else
        printError ("Illegal option -" ++ c.toString ++ "\n")
        forgetArgument
      done index (some (offset + 1)) "?" 0
    else if behind?.head? != some ':' then
      assign "OPTARG" ""
      done index (some (offset + 1)) c.toString 0
    else
      match left, arguments[index - 1]? with
      | [], none =>
        if isSilent then
          assign "OPTARG" c.toString
          done index none ":" 0
        else
          printError ("No arg for -" ++ c.toString ++ " option\n")
          forgetArgument
          done index none "?" 0
      | [], some value =>
        assign "OPTARG" value
        done (index + 1) none c.toString 0
      | left, _ =>
        assign "OPTARG" (String.ofList left)
        done index none c.toString 0

/-- Look for the next option. -/
def getopts : Builtin := fun arguments => do
  match arguments with
  | known :: name :: rest =>
    let s ← get
    let arguments := if rest.isEmpty then s.arguments else rest
    if arguments.length + 1 < s.optionPlace.1 then
      modify fun s => { s with optionPlace := (1, none) }
    nextOption known.toList name arguments
  | _ => fail "Usage: getopts optstring var [arg...]"

/-! ## Reading -/

/-- A line that is being cut into values. -/
structure LineCut where
  /-- The value that is being read, with its last character first. -/
  current : List Char := []
  /-- The values that have been read, the last one first. -/
  done : List String := []
  /-- The number of values that may still be read, this one included; none if it takes all that is
  left. -/
  left : Nat
  /-- White space has just ended a value. -/
  isBehindSpace : Bool := false
  /-- The number of characters of the value in front of separators that may not belong to it. -/
  kept : Option Nat := none
  /-- The character before was quoted. -/
  wasQuoted : Bool := false

namespace LineCut

/-- Add a character to the value. -/
def push (l : LineCut) (c : Char) : LineCut := { l with current := c :: l.current }

/-- Read a character that is not quoted. -/
def addPlain (separators : List Char) (l : LineCut) (c : Char) : LineCut :=
  let isSeparator := separators.contains c
  let isSpace := isSeparator && [' ', '\t', '\n'].contains c
  -- The last value takes all that is left, but for white space at its end.
  if l.left = 0 then
    if isSpace then { l.push c with kept := some (l.kept.getD l.current.length) }
    else
      let kept := if isSeparator && l.isBehindSpace then l.kept else none
      { l.push c with kept, isBehindSpace := false }
  else if l.isBehindSpace && isSpace then l
  else if l.isBehindSpace && isSeparator then { l with isBehindSpace := false }
  else if !isSeparator then { l.push c with isBehindSpace := false }
  else if l.current.isEmpty && isSpace then { l with isBehindSpace := false }
  -- This separator belongs to the last value only if something else follows.
  else if l.left = 1 then
    { l.push c with left := 0, kept := some l.current.length, isBehindSpace := isSpace }
  else
    { l with
      current := []
      done := String.ofList l.current.reverse :: l.done
      left := l.left - 1
      isBehindSpace := isSpace }

/-- Read a character. -/
def add (separators : List Char) (l : LineCut) (q : Quotable) : LineCut :=
  if q.2 then { l.push q.1 with wasQuoted := true }
  else if l.wasQuoted then
    addPlain separators { l with wasQuoted := false, isBehindSpace := false } q.1
  else addPlain separators l q.1

/-- The values. -/
def values (l : LineCut) : List String :=
  let last := l.current.reverse.take (l.kept.getD l.current.length)
  l.done.reverse ++ if last.isEmpty then [] else [String.ofList last]

end LineCut

/-- Read the characters of a line from the standard input, each of which may be quoted by a
backslash; whether the line is complete. -/
def readChars (isRaw : Bool) : Nat → (isEscaped : Bool) → List Quotable →
    Shell (List Quotable × Bool)
  | 0, _, _ => hang
  | fuel + 1, isEscaped, before => do
    match ← Shell.read 0 { limit := blockSize, isLine := true } with
    | .error _ | .ok [] => return (before, false)
    | .ok bytes =>
      let chars := (charsOf bytes).filter (· != '\x00')
      let step := fun (state : Bool × List Quotable × Bool) (c : Char) =>
        let (isEscaped, found, isDone) := state
        -- A backslash at the end of a line joins the next one to it.
        if isEscaped then (false, if c = '\n' then found else (c, true) :: found, isDone)
        else if c = '\\' && !isRaw then (true, found, isDone)
        else if c = '\n' then (false, found, true)
        else (false, (c, false) :: found, isDone)
      let (isEscaped, found, isDone) := chars.foldl step (isEscaped, before, false)
      if isDone then return (found, true) else readChars isRaw fuel isEscaped found

/-- Read a line into variables. -/
def reading : Builtin := fun arguments => do
  let size := Text.stepsThrough arguments
  let (given, names) ← options [('p', true), ('r', false)] size arguments
  if names.isEmpty then fail "arg count"
  let (chars, isComplete) ← readChars (given.any (·.1 = 'r')) manySteps false []
  let separators := (← get).separators
  let cut := chars.reverse.foldl (LineCut.add separators) { left := names.length }
  let values := cut.values
  (names.zip (values ++ List.replicate names.length "")).forM fun (name, value) =>
    assign name value
  return if isComplete then 0 else 1

/-! ## Aliases -/

/-- An alias as it is defined. -/
def aliasText (a : String × String) : String := a.1 ++ "=" ++ quoted a.2 ++ "\n"

/-- Define aliases, or print them. -/
def naming : Builtin := fun arguments => do
  let aliases := (← get).aliases
  if arguments.isEmpty then
    let ordered := (List.range State.chainCount).flatMap fun chain =>
      aliases.filter fun a => State.chainOf a.1 = chain
    print (String.join (ordered.map aliasText))
    return 0
  else
    let statuses ← arguments.mapM fun argument => do
      match argument.toList with
      | first :: rest =>
        match Text.splitOnce? '=' rest with
        | some (name, value) =>
          let name := String.ofList (first :: name)
          let value := String.ofList value
          modify fun s =>
            let aliases :=
              -- An alias with a new value keeps its place.
              if (s.aliases.lookup name).isSome then
                s.aliases.map fun a => if a.1 == name then (name, value) else a
              else s.aliases ++ [(name, value)]
            { s with aliases }
          return 0
        | none =>
          match (← get).aliases.lookup argument with
          | some value =>
            print (aliasText (argument, value))
            return 0
          | none =>
            printError ("alias: " ++ argument ++ " not found\n")
            return 1
      | [] =>
        printError "alias:  not found\n"
        return 1
    return statuses.foldl max 0

/-- Forget aliases. -/
def unnaming : Builtin := fun arguments => do
  let (given, names) ← letters "a" arguments
  if !given.isEmpty then
    modify fun s => { s with aliases := [] }
    return 0
  else
    let statuses ← names.mapM fun name => do
      if ((← get).aliases.lookup name).isSome then
        modify fun s => { s with aliases := s.aliases.filter (·.1 != name) }
        return 0
      else
        printError ("unalias: " ++ name ++ " not found\n")
        return 1
    return statuses.foldl max 0

end BuildTrace.Shell.Builtin
