import BuildTrace.Shell.Invocation
import BuildTrace.Shell.Parser
import BuildTrace.Shell.Redirection
import BuildTrace.Utility.Table

/-!
# Running shell scripts

A script is run command by command. A program, a pipeline, a command in brackets and a substitution
run in processes of their own. Where the result of a command is `tested`, its failure does not end
the script.
-/

namespace BuildTrace.Shell

open Machine (Fault Outcome)

namespace Evaluation

/-- A command that fails ends the script, if the script wants it and the result is not tested. -/
def checkFailure (tested : Bool) : Shell Unit := do
  let s ← get
  if s.hasOption 'e' && !tested && s.status != 0 then throw .exits

/-- What a name stands for in front of arguments. -/
inductive Meaning where
  /-- A function. -/
  | function (body : Script)
  /-- A command of the shell. -/
  | builtin (isSpecial : Bool)
  /-- A program. -/
  | program

/-- What the first of the fields of a command stands for; `command` hides functions. -/
def meaningOf (s : State) (hidesFunctions : Bool) (name : String) : Meaning :=
  match if hidesFunctions then none else s.functions.lookup name with
  | some body => .function body
  | none =>
    if name.toList.contains '/' then .program
    else if Builtin.isKnown name then .builtin (!hidesFunctions && specialCommands.contains name)
    else .program

/-- The command that is run by `command` with the arguments, and whether it is looked for on the
standard path. There is none if the command is only looked up. -/
def commandBehind? : Nat → Bool → List String → Option (Bool × List String)
  | 0, _, _ => none
  | fuel + 1, standard, arguments =>
    match arguments with
    | [] => none
    | a :: rest =>
      match a.toList with
      | '-' :: c :: letters =>
        if a = "--" then if rest.isEmpty then none else some (standard, rest)
        else if (c :: letters).all (· = 'p') then commandBehind? fuel true rest
        else none
      | _ => some (standard, arguments)

/-- The fields of a command that may begin with `command`: what is run, whether functions are
hidden, and whether it is looked for on the standard path. -/
def stripCommand : Nat → Bool → Bool → List String → List String × Bool × Bool
  | 0, hides, standard, fields => (fields, hides, standard)
  | fuel + 1, hides, standard, fields =>
    match fields with
    | "command" :: arguments =>
      match commandBehind? (arguments.length + 1) standard arguments with
      | some (standard, rest) => stripCommand fuel true standard rest
      | none => (fields, hides, standard)
    | _ => (fields, hides, standard)

/-- The fields of the words of a command. Behind a command that sets variables, settings are not
cut. -/
def commandFields (substitute : Substitution) (s : State) (before : List String) :
    List Word → Shell (List String)
  | [] => return before
  | word :: rest => do
    -- What the fields so far run decides about the next word.
    let (fields, hides, _) := stripCommand before.length false false before
    let declares :=
      match fields with
      | name :: _ =>
        Builtin.declaring.contains name && (hides || (s.functions.lookup name).isNone)
      | [] => false
    let more ←
      match if declares then word.assignment? else none with
      | some (name, value) => do
        let text ← Expansion.text substitute value true
        pure [name ++ "=" ++ text]
      | none => Expansion.fields substitute word
    commandFields substitute s (before ++ more) rest

/-- What is printed in front of a command before it is run. -/
def traceStart (substitute : Substitution) : Shell String := do
  let s ← get
  let text := (s.value? "PS4").getD ""
  let source : Source := { Source.ofText text.toList with nextDocument := s.nextDocument }
  let ctx : Lexer.Context := { closer := .document, isQuoted := true }
  match Lexer.parts (Parser.substitution Parser.depthLimit) (text.length + 2) ctx [] source with
  | .error _ => return text
  | .ok (word, _) =>
    -- What is run to expand the start is not traced itself.
    set { s with isTracing := true }
    let start ← Expansion.document substitute word
    modify fun s => { s with isTracing := false }
    return start

/-- Print a command before it is run. -/
def traceCommand (substitute : Substitution) (settings fields : List String) : Shell Unit := do
  let s ← get
  if s.hasOption 'x' && !s.isTracing then
    let start ← traceStart substitute
    discard (write (Redirection.errorStream (← get))
      (start ++ " ".intercalate (settings ++ fields) ++ "\n"))

/-- Set a variable in front of a command; with `isLocal`, for the command only. -/
def assignFor (isLocal isExported : Bool) (name value : String) : Shell Unit := do
  if isLocal then Builtin.keep name
  Builtin.checkWritable name
  modify fun s =>
    let s := s.assign name value
    if isExported then
      s.putVariable name { (s.binding? name).getD {} with isExported := true }
    else s

/-- What a shell that is started for a command does not take over. -/
def enterChild : Shell Unit := modify fun s =>
  { s with traps := s.traps.filter fun t => t.2.isEmpty, jobs := [] }

/-- How a command is run. -/
structure Manner where
  /-- Somebody asks whether it fails, so that does not end the script. -/
  isTested : Bool := false
  /-- The process has nothing to do behind it. -/
  isLast : Bool := false

namespace Manner

/-- A command that decides on others. -/
def tested : Manner := { isTested := true }

/-- A command inside another one that goes on behind it. -/
def inside (m : Manner) : Manner := { m with isLast := false }

/-- A command with a process of its own. -/
def atEnd (m : Manner) : Manner := { m with isLast := true }

end Manner

/-- There is something to do at signals or at the end. -/
def hasTraps : Shell Bool := return (← get).traps.any fun t => !t.2.isEmpty

/-- Let the standard input of a process hold nothing. -/
def dropInput : Shell Unit := do
  let process := (← get).process
  onMachine fun m => ((), m.addStream process 0 { target := .null, reads := true })

/-- The signals that do nothing to a process that runs while the script goes on. -/
def interrupts : List Machine.Signal := [2, 3]

/-- A process that runs while the script goes on does not care for interrupts. -/
def ignoreInterrupts : Shell Unit := do
  let process := (← get).process
  modify fun s => { s with deaf := interrupts ++ s.deaf }
  onMachine fun m =>
    ((), m.modifyProcess process fun p => { p with ignored := interrupts ++ p.ignored })

/-- Wait for processes, one after the other; how the last one ends. -/
def waitForAll : List Nat → Shell Outcome
  | [] => return .exited 0
  | number :: rest => do
    let outcome ← waitFor number
    Builtin.tellOutcome outcome
    if rest.isEmpty then return outcome else waitForAll rest

/-- The content of a file of scripts. -/
def readFile (name : String) : Shell (Except Fault (List UInt8)) := do
  let s ← get
  let number ← look fun m => m.freeNumber s.process 10
  let result ← tryMachine fun m =>
    m.openAs s.process number s.directoryPath (State.pathOf name) .toRead
  match result with
  | .error fault => return .error fault
  | .ok () =>
    let bytes ← readAll number manySteps []
    close number
    return .ok (bytes.toOption.getD [])

/-- The script that bytes are. -/
def scriptOf (bytes : List UInt8) : List Char := (charsOf bytes).filter (· != '\x00')

/-- The characters between two states of a source. -/
def consumed (before after : Source) : List Char :=
  let left := fun (s : Source) => (s.layers.getLast?.map (·.chars)).getD []
  (left before).take ((left before).length - (left after).length)

/-- The signals that the process has still to take care of, which it does now. -/
def takeSignals : Shell (List Machine.Signal) := do
  let process := (← get).process
  onMachine fun m =>
    match m.process? process with
    | none => ([], m)
    | some p =>
      if p.pending.isEmpty then ([], m)
      else (p.pending, m.modifyProcess process fun p => { p with pending := [] })

/-- Behind a loop's turn: whether the loop goes on, or its ending is passed on. -/
def afterTurn (result : Except Ending Unit) : Shell Bool := do
  match result with
  | .ok () => return true
  | .error (.breaks n) => if n ≤ 1 then return false else throw (.breaks (n - 1))
  | .error (.continues n) => if n ≤ 1 then return true else throw (.continues (n - 1))
  | .error ending => throw ending

/-- The number of loops around what is run inside. -/
def inLoop (body : Shell Unit) : Shell Unit := do
  modify fun s => { s with loops := s.loops + 1 }
  let result ← outcomeOf body
  modify fun s => { s with loops := s.loops - 1 }
  give result

/-- Search for the image of a program. -/
def findImage (path : String) (arguments : List String) :
    Shell (Except Fault (String × Image)) := do
  let s ← get
  look fun m => Program.find m s.directoryPath path true (arguments.headD "") arguments

/-- The exit status for a program that cannot be run. -/
def faultStatus (fault : Fault) : Nat :=
  if [Fault.missing, .notDirectory, .nameTooLong, .tooDeep].contains fault then 127 else 126

/-- What is said about a program that cannot be run. -/
def faultText : Fault → String
  | .missing | .notDirectory => "not found"
  | fault => fault.message

/-- The process becomes that of a program. -/
def becomeProgram (environment : List (String × String)) : Shell Unit := do
  let s ← get
  let kept := s.kept.flatMap fun frame => frame.filterMap Prod.snd
  onMachine fun m =>
    -- The streams that redirections keep aside are not handed over.
    let m := m.release s.process kept.contains
    ((), m.modifyProcess s.process fun p => { p with caught := [] })
  set
    ({ process := s.process, main := s.process, directory := s.directory, umask := s.umask
       environment } : State)

mutual

/-- Run a command. -/
def run : Nat → Manner → Script → Shell Unit
  | 0, _, _ => hang
  | fuel + 1, manner, script => do
    traps fuel
    if (← get).hasOption 'n' then return
    match script with
    | .empty => pure ()
    | .simple line settings words redirections =>
      simple fuel manner line settings words redirections
      checkFailure manner.isTested
    | .pipeline commands =>
      let numbers ← pipeline fuel manner.isTested false none commands
      setStatus (← waitForAll numbers).status
      checkFailure manner.isTested
    | .negation command =>
      run fuel .tested command
      modify fun s => { s with status := if s.status = 0 then 1 else 0 }
    | .both first second =>
      run fuel .tested first
      if (← get).status = 0 then run fuel manner second
    | .either first second =>
      run fuel .tested first
      if (← get).status != 0 then run fuel manner second
    | .background command =>
      background fuel command
      setStatus 0
    | .sequence first second =>
      run fuel manner.inside first
      run fuel manner second
    | .subshell line command redirections =>
      modify fun s => { s with line }
      let wirings ← redirections.mapM (Redirection.resolve (substitute fuel))
      let body : Shell Unit := do
        if ← Redirection.applyAll wirings then run fuel manner.atEnd command
        else setStatus 2
        throw .exits
      -- A process that has nothing else to do needs no other one for the command.
      if manner.isLast && !(← hasTraps) then body
      else
        let number ← start (child fuel body)
        setStatus (← waitForAll [number]).status
        checkFailure manner.isTested
    | .branch condition first second =>
      run fuel .tested condition
      if (← get).status = 0 then run fuel manner first
      else
        match second with
        | some second => run fuel manner second
        | none => setStatus 0
    | .loop untilSuccess condition body =>
      inLoop (loop fuel manner.inside untilSuccess condition body 0)
    | .each line name words body =>
      modify fun s => { s with line }
      let values ← Expansion.allFields (substitute fuel) words
      setStatus 0
      inLoop (each fuel manner.inside name values body)
    | .choice line subject branches =>
      modify fun s => { s with line }
      let text ← Expansion.text (substitute fuel) subject
      setStatus 0
      choice fuel manner text.toList branches
    | .function _ name body =>
      modify fun s =>
        { s with
          functions := (name, body) :: s.functions.filter (·.1 != name)
          status := 0 }
    | .redirected line command redirections =>
      modify fun s => { s with line }
      let wirings ← redirections.mapM (Redirection.resolve (substitute fuel))
      let depth := (← get).kept.length
      Redirection.begin
      if ← Redirection.applyAll wirings then
        let result ← outcomeOf (run fuel manner.inside command)
        match result with
        -- Where the script goes on, it has its streams back. Elsewhere the shell ends anyway.
        | .ok () | .error (.breaks _) | .error (.continues _) | .error .returns =>
          Redirection.unwind depth
        | .error _ => pure ()
        give result
      else
        setStatus 2
        Redirection.unwind depth
    traps fuel

/-- Run a loop; `last` is the exit status of the last turn. -/
def loop : Nat → Manner → (untilSuccess : Bool) → Script → Script → (last : Nat) → Shell Unit
  | 0, _, _, _, _, _ => hang
  | fuel + 1, manner, untilSuccess, condition, body, last => do
    match ← outcomeOf (run fuel .tested condition) with
    | .ok () =>
      if ((← get).status = 0) == untilSuccess then setStatus last
      else
        let goesOn ← afterTurn (← outcomeOf (run fuel manner body))
        if goesOn then loop fuel manner untilSuccess condition body (← get).status
    | .error .returns => throw .returns
    | .error ending =>
      let goesOn ← afterTurn (.error ending)
      if goesOn then loop fuel manner untilSuccess condition body last else setStatus last

/-- Run the body of a loop for each value. -/
def each : Nat → Manner → String → List String → Script → Shell Unit
  | 0, _, _, _, _ => hang
  | _, _, _, [], _ => return
  | fuel + 1, manner, name, value :: rest, body => do
    Builtin.assign name value
    let goesOn ← afterTurn (← outcomeOf (run fuel manner body))
    if goesOn then each fuel manner name rest body

/-- Run the first branch with a pattern that fits. -/
def choice : Nat → Manner → List Char → List (List Word × Option Script) → Shell Unit
  | 0, _, _, _ => hang
  | _, _, _, [] => return
  | fuel + 1, manner, text, (patterns, body) :: rest => do
    if ← fitsOne fuel text patterns then
      match body with
      | some body => run fuel manner body
      | none => pure ()
    else choice fuel manner text rest

/-- The text fits one of the patterns; those behind it are not looked at. -/
def fitsOne : Nat → List Char → List Word → Shell Bool
  | 0, _, _ => hang
  | _, _, [] => return false
  | fuel + 1, text, word :: rest => do
    let pattern ← Expansion.pattern (substitute fuel) word
    if pattern.fits text then return true else fitsOne fuel text rest

/-- Start the commands of a pipeline, of which each reads what the one before writes; the numbers of
the processes. -/
def pipeline : Nat → (tested isBackground : Bool) → (input : Option Nat) → List Script →
    Shell (List Nat)
  | 0, _, _, _, _ => hang
  | _, _, _, _, [] => return []
  | fuel + 1, tested, isBackground, input, command :: rest => do
    let takeInput : Shell Unit := do
      if isBackground then ignoreInterrupts
      match input with
      | some reader =>
        discard (duplicate reader 0)
        close reader
      | none => if isBackground then dropInput
    let ends ← if rest.isEmpty then pure none else some <$> pipe
    let number ← start (child fuel do
      takeInput
      match ends with
      | some (reader, writer) =>
        close reader
        discard (duplicate writer 1)
        close writer
      | none => pure ()
      run fuel { isTested := tested && !isBackground, isLast := true } command)
    -- The ends of the pipes belong to the commands now.
    input.forM close
    ends.forM fun (_, writer) => close writer
    return number :: (← pipeline fuel tested isBackground (ends.map Prod.fst) rest)

/-- Start a command, while the script goes on. -/
def background : Nat → Script → Shell Unit
  | 0, _ => hang
  | fuel + 1, command => do
    let commands :=
      match command with
      | .pipeline commands => commands
      | command => [command]
    let numbers ← pipeline fuel false true none commands
    Builtin.addJob numbers

/-- A shell that is started for a command, up to its end. -/
def child : Nat → Shell Unit → Shell Unit
  | 0, _ => hang
  | fuel + 1, body => do
    enterChild
    endShell fuel (← outcomeOf body)

/-- What is done at the end of a shell. -/
def endShell : Nat → Except Ending Unit → Shell Unit
  | 0, _ => hang
  | fuel + 1, _ => do
    Redirection.unwind 0
    let s ← get
    match s.traps.lookup 0 with
    | none => finish (.exited (s.status % 256))
    | some action =>
      set { s with traps := s.traps.filter (·.1 != 0), loops := 0 }
      let result ← outcomeOf (text fuel {} action)
      let last := (← get).status
      -- The action does not change how the shell ends, unless it ends the shell itself.
      let status := if result matches .error .exits then last else s.status
      finish (.exited (status % 256))

/-- Run what is to be done at signals that have come. -/
def traps : Nat → Shell Unit
  | 0 => hang
  | fuel + 1 => do
    trapsOf fuel (← takeSignals)

/-- Run what is to be done at signals. -/
def trapsOf : Nat → List Machine.Signal → Shell Unit
  | 0, _ => hang
  | _, [] => return
  | fuel + 1, signal :: rest => do
    let s ← get
    match s.traps.lookup signal with
    | none => pure ()
    | some action =>
      let result ← outcomeOf (text fuel {} action)
      match result with
      -- The action leaves the exit status as it was.
      | .ok () => setStatus s.status
      | .error .returns => throw .returns
      | .error ending => throw ending
    trapsOf fuel rest

/-- Run the commands of a text. -/
def text : Nat → Manner → String → Shell Unit
  | 0, _, _ => hang
  | fuel + 1, manner, script => do
    let status ← lines fuel manner false (Source.ofText script.toList) 0
    setStatus status

/-- Run the commands of a source, line by line; the exit status of the last one. With `echoes`, the
lines are printed if the script wants it. -/
def lines : Nat → Manner → (echoes : Bool) → Source → (last : Nat) → Shell Nat
  | 0, _, _, _, _ => hang
  | fuel + 1, manner, echoes, source, last => do
    traps fuel
    let s ← get
    -- The lines before this one may have defined aliases for it.
    let source :=
      { source with
        aliases := s.aliases, documents := s.documents, nextDocument := s.nextDocument }
    match Parser.nextLine source with
    | .error mistake =>
      modify fun s => { s with line := mistake.line }
      fail mistake.error.message
    | .ok (script, rest) =>
      modify fun s => { s with documents := rest.documents, nextDocument := rest.nextDocument }
      if echoes && s.hasOption 'v' then
        printError (String.ofList (consumed source rest))
      match script with
      | none => return last
      | some .empty => lines fuel manner echoes rest last
      | some script =>
        run fuel manner script
        lines fuel manner echoes rest (← get).status

/-- Run a script in a process of its own and give what it writes. -/
def substitute : Nat → Script → Shell (List Char)
  | 0, _ => hang
  | fuel + 1, script => do
    let (bytes, outcome) ← outputOf (child fuel (run fuel { isLast := true } script))
    Builtin.tellOutcome outcome
    modify fun s => { s with inner := some outcome.status }
    return charsOf bytes

/-- Run a simple command. -/
def simple : Nat → Manner → (line : Nat) → List (String × Word) → List Word →
    List Redirection → Shell Unit
  | 0, _, _, _, _, _ => hang
  | fuel + 1, manner, line, settings, words, redirections => do
    modify fun s => { s with line, inner := none }
    let all ← commandFields (substitute fuel) (← get) [] words
    let (fields, hides, standard) := stripCommand all.length false false all
    let s ← get
    let meaning := fields.head?.map (meaningOf s hides)
    let isSpecial := match meaning with
      | some (.builtin isSpecial) => isSpecial
      | _ => false
    -- Settings in front of a special command, or of none at all, stay.
    let isLocal := fields.length != 0 && !isSpecial
    let isExec := fields.head? = some "exec"
    let streams := s.kept.length
    let frames := s.saved.length
    if isLocal then modify fun s => { s with saved := [] :: s.saved }
    let unwind : Shell Unit := do
      Redirection.unwind streams
      Builtin.unwindVariables frames
    let wirings ← redirections.mapM (Redirection.resolve (substitute fuel))
    Redirection.begin
    if !(← Redirection.applyAll wirings) then
      setStatus 2
      -- A mistake in a special command ends the script.
      if isSpecial then throw .fails
      unwind
    else
      let shown ← settings.mapM fun (name, value) => do
        let value ← Expansion.text (substitute fuel) value true
        assignFor isLocal (isLocal || (isExec && 1 < fields.length)) name value
        return name ++ "=" ++ value
      traceCommand (substitute fuel) shown all
      let result ← outcomeOf (match fields, meaning with
        | name :: arguments, some meaning =>
          named fuel manner name arguments meaning standard
        | _, _ => modify fun s => { s with status := s.inner.getD 0 })
      -- Without a program to run, `exec` leaves its redirections in place.
      let keepsStreams := isExec && fields.length = 1 && result matches .ok ()
      if keepsStreams then Redirection.retain
      match result with
      | .ok () | .error (.breaks _) | .error (.continues _) | .error .returns => unwind
      | .error _ => pure ()
      give result

/-- Run what a name stands for. -/
def named : Nat → Manner → (name : String) → (arguments : List String) → Meaning →
    (standard : Bool) → Shell Unit
  | 0, _, _, _, _, _ => hang
  | fuel + 1, manner, name, arguments, meaning, standard => do
    let s ← get
    let path := if standard then Builtin.standardPath else Builtin.searchPath s
    match meaning with
    | .function body => function fuel manner.inside arguments body
    | .builtin isSpecial =>
      Builtin.call name isSpecial (do
        match Builtin.simple? name with
        | some builtin => builtin arguments
        | none => evaluating fuel manner.inside name arguments path)
    | .program =>
      match name.toList.contains '/', ← findImage path (name :: arguments) with
      | false, .error .missing =>
        complain (name ++ ": not found")
        setStatus 127
      | _, _ =>
        let body : Shell Unit := do
          let fault ← handOver fuel path (← get).exported (name :: arguments)
          complain (name ++ ": " ++ faultText fault)
          setStatus (faultStatus fault)
          throw .exits
        if manner.isLast && !(← hasTraps) then body
        else
          let number ← start (child fuel body)
          setStatus (← waitForAll [number]).status

/-- Run a function. -/
def function : Nat → Manner → (arguments : List String) → Script → Shell Unit
  | 0, _, _, _ => hang
  | fuel + 1, manner, arguments, body => do
    let s ← get
    set { s with arguments, loops := 0, depth := s.depth + 1, optionPlace := (1, none) }
    let result ← outcomeOf (run fuel manner body)
    modify fun t =>
      { t with
        arguments := s.arguments
        loops := s.loops
        depth := s.depth
        optionPlace := s.optionPlace }
    match result with
    | .error .returns => pure ()
    | result => give result

/-- Run a command of the shell that runs other commands. -/
def evaluating : Nat → Manner → (name : String) → (arguments : List String) →
    (path : String) → Shell Nat
  | 0, _, _, _, _ => hang
  | fuel + 1, manner, name, arguments, path => do
    match name with
    | "eval" =>
      text fuel manner (" ".intercalate arguments)
      return (← get).status
    | "." =>
      let (_, operands) ← Builtin.letters "" arguments
      match operands with
      | [] => return 0
      | file :: _ => dot fuel file
    | "exec" =>
      match arguments with
      | [] => return 0
      | operands =>
        let fault ← handOver fuel path (← get).exported operands
        complain (operands.headD "" ++ ": " ++ faultText fault)
        setStatus (faultStatus fault)
        throw .exits
    | _ =>
      let (given, operands) ← Builtin.letters "pvV" arguments
      let path := if given.contains 'p' then Builtin.standardPath else path
      match operands with
      | [] => return 0
      | name :: _ => Builtin.describe (given.contains 'V') path name

/-- Run the commands of a file in this shell. -/
def dot : Nat → (name : String) → Shell Nat
  | 0, _ => hang
  | fuel + 1, name => do
    let file? ←
      if name.toList.contains '/' then pure (some name)
      else Builtin.found? (Builtin.searchPath (← get)) name
    match file? with
    | none => fail (name ++ ": not found")
    | some file =>
      match ← readFile file with
      | .error fault => fail ("cannot open " ++ file ++ ": " ++ Redirection.reason false fault)
      | .ok bytes =>
        modify fun s => { s with command := some file }
        match ← outcomeOf (lines fuel {} true (Source.ofText (scriptOf bytes)) 0) with
        | .ok status => return status
        | .error .returns => return (← get).status
        | .error ending => throw ending

/-- Let a program take the place of the process; there is a result only if that is not possible. -/
def handOver : Nat → (path : String) → (environment : List (String × String)) →
    (arguments : List String) → Shell Fault
  | 0, _, _, _ => hang
  | fuel + 1, path, environment, arguments => do
    match ← findImage path arguments with
    | .error fault => return fault
    | .ok (_, image) =>
      becomeProgram environment
      runImage fuel image

/-- Run a program up to the end of its process. -/
def runImage : Nat → Image → Shell Fault
  | 0, _ => hang
  | fuel + 1, image => do
    let name := image.arguments.headD ""
    if Invocation.names.contains image.program then shell fuel image.arguments
    else
      match Utility.all.lookup image.program with
      | none => finish (.exited 127)
      | some utility =>
        let handOver : Handover := fun arguments => do
          let s ← get
          let path := (s.environment.lookup "PATH").getD Program.defaultPath
          if arguments.head? = some "" then return .missing
          else handOver fuel path s.environment arguments
        let status ← utility handOver name (image.arguments.drop 1)
        finish (.exited (status % 256))

/-- Run a shell up to its end. -/
def shell : Nat → (arguments : List String) → Shell Fault
  | 0, _ => hang
  | fuel + 1, arguments => do
    let s ← get
    let parent ← look fun m => ((m.process? s.process).map (·.parent)).getD 0
    let deaf ← look fun m => ((m.process? s.process).map (·.ignored)).getD []
    -- What is ignored from the start cannot be taken care of later.
    set { Invocation.startState parent s (arguments.headD "") with deaf }
    let result ← outcomeOf (do
      match ← Invocation.task (arguments.drop 1) with
      | .script script => discard (lines fuel {} false (Source.ofText script.toList) 0)
      | .file name =>
        match ← readFile name with
        | .error fault =>
          modify fun s => { s with line := 0 }
          fail ("cannot open " ++ name ++ ": " ++ Redirection.reason false fault)
        | .ok bytes =>
          modify fun s => { s with name }
          discard (lines fuel {} true (Source.ofText (scriptOf bytes)) 0)
      | .input =>
        let bytes ← readAll 0 manySteps []
        let source := Source.ofText (scriptOf (bytes.toOption.getD []))
        discard (lines fuel {} true source 0))
    endShell fuel result
    hang

end

/-- The number of steps in which commands may stand inside one another. -/
def depthLimit : Nat := 1000000000000

/-- Run a program in the place of a process. -/
def start (image : Image) : Shell Fault := runImage depthLimit image

end Evaluation

end BuildTrace.Shell
