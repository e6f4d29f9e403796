import BuildTrace.Shell.Real
import BuildTrace.Utility.Change
import BuildTrace.Utility.Input

/-!
# Other programs

The programs that run other programs, and those about processes.
-/

namespace BuildTrace.Utility

open Shell
open Machine (Fault Outcome Signal)

/-- The exit status after a program could not be run. -/
def faultStatus (fault : Fault) : Nat :=
  if fault = .missing || fault = .notDirectory || fault = .nameTooLong then 127 else 126

/-- Hand over to another program, or end with a message. -/
def handOverOr {α : Type} (handOver : Handover) (command : List String)
    (message : Fault → Shell Unit) : Shell α := do
  let fault ← handOver command
  message fault
  quit (faultStatus fault)

/-- The options of a program that hands over to another one. -/
def runnerForms (letters : String) (words : List (String × String × Takes)) (status : Nat) :
    OptionForms :=
  { OptionForms.make letters words status with stopsEarly := true }

/-! ## Environments -/

/-- Run a program with other variables, or put out all variables. -/
def env : Utility := fun handOver name arguments => do
  let forms := runnerForms "C:iu:vS:0"
    [("chdir", "C", .value), ("ignore-environment", "i", .nothing), ("null", "0", .nothing),
      ("split-string", "S", .value), ("unset", "u", .value)] 125
  let g ← forms.given name arguments
  let operands := match g.operands with
    | "-" :: rest => rest
    | operands => operands
  let isEmpty := g.has "i" || g.operands.head? = some "-"
  let splitWords := (g.values "S").flatMap fun text =>
    ((Text.splitOn ' ' (text.toList.map fun c => if isSpace c then ' ' else c)).filter
      (!·.isEmpty)).map String.ofList
  let operands := splitWords ++ operands
  let isSetting := fun (a : String) => a.toList.contains '='
  let settings := operands.takeWhile isSetting
  let command := operands.drop settings.length
  modify fun s =>
    let start := if isEmpty then [] else s.environment
    let start := start.filter fun v => !(g.values "u").contains v.1
    let environment := settings.foldl
      (fun (environment : List (String × String)) setting =>
        let key := (setting.toList.takeWhile (· != '='))
        let value := String.ofList (setting.toList.drop (key.length + 1))
        let key := String.ofList key
        if environment.any (·.1 == key) then
          environment.map fun v => if v.1 == key then (key, value) else v
        else environment ++ [(key, value)])
      start
    { s with environment }
  match g.value? "C" with
  | none => pure ()
  | some directory =>
    if command.isEmpty then misuse name "must specify command with --chdir (-C)" 125
    match ← entryOf directory with
    | .ok (place, .directory) =>
      modify fun s => { s with directory := "/" ++ "/".intercalate (place.map Shell.encode) }
    | result =>
      let fault := match result with
        | .ok _ => Fault.notDirectory
        | .error fault => fault
      fail name ("cannot change directory to " ++ quote directory ++ ": " ++ fault.message) 125
  let s ← get
  if command.isEmpty then
    let ending := if g.has "0" then "\x00" else "\n"
    say name (String.join (s.environment.map fun (key, value) => key ++ "=" ++ value ++ ending))
    return 0
  else if g.has "0" then misuse name "cannot specify --null (-0) with command" 125
  else
    handOverOr handOver command fun fault => do
      let program := command.headD ""
      complain name (quote program ++ ": " ++ fault.message)
      if fault = .missing && program.toList.any isSpace then
        complain name "use -[v]S to pass options in shebang lines"

/-- Put out variables. -/
def printenv : Utility :=
  { OptionForms.make "0" [("null", "0", .nothing)] 2 with stopsEarly := true }.program
    fun name g => do
      let s ← get
      let ending := if g.has "0" then "\x00" else "\n"
      if g.operands.isEmpty then
        say name (String.join (s.environment.map fun (key, value) => key ++ "=" ++ value ++ ending))
        return 0
      else
        forAll g.operands fun key => do
          match s.environment.lookup key with
          | some value =>
            say name (value ++ ending)
            return 0
          | none => return 1

/-! ## Time -/

/-- The time that a text stands for; nothing inside for all time. -/
def duration? (text : String) : Option (Option Nat) :=
  let unit : List Char → Option Nat
    | [] | ['s'] => some 1000
    | ['m'] => some 60000
    | ['h'] => some 3600000
    | ['d'] => some 86400000
    | _ => none
  match Real.ofText? text.toList with
  | some (.finite negative n d, rest) =>
    if negative && n != 0 then none
    else (unit rest).map fun u => some ((n * u + d - 1) / d)
  | some (.infinite false, rest) => (unit rest).map fun _ => none
  | _ => none

/-- Wait for a time. -/
def pause : Option Nat → Shell Unit
  | none => hang
  | some time => do
    let finish := (← look fun m => m.time) + time
    await (some finish) fun m => if finish ≤ m.time then some ((), m) else none

/-- Wait for a time. -/
def sleep : Utility := (OptionForms.make "" []).program fun name g => do
  needOperand name g
  let bad := g.operands.filter fun text => (duration? text).isNone
  match bad.getLast? with
  | some last =>
    bad.dropLast.forM fun text => complain name ("invalid time interval " ++ quote text)
    misuse name ("invalid time interval " ++ quote last)
  | none =>
    let times := g.operands.filterMap duration?
    pause (if times.any Option.isNone then none else some (times.foldl (fun n t => n + t.getD 0) 0))
    return 0

/-- The processes that a process has started, and those that they have started. -/
def descendants (m : Machine) (process : Nat) : List Nat :=
  -- A process has a greater number than the one that started it.
  (m.processes.mergeSort fun p q => p.number ≤ q.number).foldl
    (fun (found : List Nat) p =>
      if found.contains p.parent then found ++ [p.number] else found)
    [process]

/-- Send a signal to a process and to all that it has started. -/
def sendAll (process : Nat) (signal : Signal) : Shell Unit :=
  onMachine fun m =>
    ((), (descendants m process).foldl (fun m p => (m.send p signal).toOption.getD m) m)

/-- Wait for the end of a process, but not longer than for a time. -/
def waitAtMost (process : Nat) (time : Option Nat) : Shell (Option Outcome) := do
  let now ← look fun m => m.time
  let finish := time.map (now + ·)
  await finish fun m =>
    match (m.process? process).bind (·.outcome) with
    | some outcome => some (some outcome, m)
    -- Not yet over: go on waiting unless the time is up.
    | none => if finish.any (· ≤ m.time) then some (none, m) else none

/-- The signal with a name or a number. -/
def signalOf? (text : String) : Option Signal :=
  match number? text.toList with
  | some n => if n < Signal.limit then some n else none
  | none =>
    Signal.ofName? (if text.startsWith "SIG" then String.ofList (text.toList.drop 3) else text)

/-- Run a program that is ended when it takes too long. -/
def timeout : Utility := fun handOver name arguments => do
  let forms := runnerForms "fk:ps:v"
    [("foreground", "f", .nothing), ("kill-after", "k", .value),
      ("preserve-status", "p", .nothing), ("signal", "s", .value), ("verbose", "v", .nothing)] 125
  let g ← forms.given name arguments
  let timeOf := fun (text : String) => do
    match duration? text with
    | some time => pure time
    | none => misuse name ("invalid time interval " ++ quote text) 125
  let killTime ← match g.value? "k" with
    | none => pure none
    | some text => timeOf text
  let signal ← match g.value? "s" with
    | none => pure Signal.term
    | some text =>
      match signalOf? text with
      | some signal => pure signal
      | none => misuse name (quote text ++ ": invalid signal") 125
  match g.operands with
  | [] | [_] =>
    printError (helpLine name ++ "\n")
    quit 125
  | text :: command =>
    let time ← timeOf text
    let time := if time = some 0 then none else time
    let child ← start do
      handOverOr handOver command fun fault =>
        complain name
          ("failed to run command " ++ quote (command.headD "") ++ ": " ++ fault.message)
    let tell := fun (signal : Signal) =>
      if g.has "v" then
        complain name ("sending signal " ++ Signal.name signal ++ " to command " ++
          quote (command.headD ""))
      else pure ()
    match ← waitAtMost child time with
    | some outcome =>
      discard (waitFor child)
      match outcome with
      | .exited status => return status
      | .killed signal => finish (.killed signal)
    | none =>
      tell signal
      sendAll child signal
      if signal = Signal.kill then finish (.killed signal)
      let outcome ← do
        match ← waitAtMost child killTime with
        | some outcome => pure outcome
        | none =>
          tell Signal.kill
          sendAll child Signal.kill
          finish (.killed Signal.kill)
      discard (waitFor child)
      return if g.has "p" then outcome.status else 124

/-! ## Circumstances -/

/-- Run a program that goes on when nobody listens. -/
def nohup : Utility := fun handOver name arguments => do
  let g ← (runnerForms "" [] 125).given name arguments
  if g.operands.isEmpty then misuse name "missing operand" 125
  let process := (← get).process
  onMachine fun m => ((), m.modifyProcess process fun p => { p with ignored := 1 :: p.ignored })
  handOverOr handOver g.operands fun fault =>
    complain name ("failed to run command " ++ quote (g.operands.headD "") ++ ": " ++ fault.message)

/-- Run a program that does not hurry. -/
def nice : Utility := fun handOver name arguments => do
  let forms : OptionForms :=
    { runnerForms "n:" [("adjustment", "n", .value)] 125 with numbers := some 'n' }
  let g ← forms.given name arguments
  match g.value? "n" with
  | some text =>
    if (signedNumber? text.toList).isNone then fail name ("invalid adjustment " ++ quote text) 125
  | none => pure ()
  if g.operands.isEmpty then
    if g.has "n" then misuse name "a command must be given with an adjustment" 125
    say name "0\n"
    return 0
  else
    handOverOr handOver g.operands fun fault =>
      complain name (quote (g.operands.headD "") ++ ": " ++ fault.message)

/-- Run a program as it is, after options. -/
def runPlain (letters : String) (words : List (String × String × Takes)) (status : Nat)
    (what : String) : Utility := fun handOver name arguments => do
  let g ← (runnerForms letters words status).given name arguments
  if g.operands.isEmpty then misuse name what status
  handOverOr handOver g.operands fun fault =>
    complain name ("failed to run command " ++ quote (g.operands.headD "") ++ ": " ++ fault.message)

/-! ## Arguments from the input -/

namespace ArgumentInput

/-- The words of a text, with quotes, and the lines in which they end; or the kind of quotes that
are not closed. The words in front of an unclosed quote are given, too. -/
def words : Nat → (line : Nat) → (word : Option (List Char)) → List Char →
    List (String × Nat) × Option String
  | 0, _, _, _ => ([], none)
  | fuel + 1, line, word, s =>
    let done : List (String × Nat) := word.elim [] fun w => [(String.ofList w.reverse, line)]
    let ends := fun (line' : Nat) (rest : List Char) =>
      let (more, fault) := words fuel line' none rest
      (done ++ more, fault)
    match s with
    | [] => (done, none)
    | '\n' :: rest => ends (line + 1) rest
    | '\\' :: c :: rest => words fuel line (some (c :: word.getD [])) rest
    | c :: rest =>
      if isSpace c then ends line rest
      else if c = '\'' || c = '"' then
        let inner := rest.takeWhile fun d => d != c && d != '\n'
        match rest.drop inner.length with
        | d :: behind =>
          if d = c then words fuel line (some (inner.reverse ++ word.getD [])) behind
          else ([], some (if c = '"' then "double" else "single"))
        | [] => ([], some (if c = '"' then "double" else "single"))
      else words fuel line (some (c :: word.getD [])) rest

/-- Lists of at most a number of words. -/
def batches (count : Nat) : Nat → List String → List (List String)
  | 0, _ => []
  | _, [] => []
  | fuel + 1, list => list.take count :: batches count fuel (list.drop count)

/-- The words of each number of lines. -/
def byLines (count : Nat) (list : List (String × Nat)) : List (List String) :=
  let lines := (list.map Prod.snd).eraseDups
  let groups := lines.zipIdx.map fun (line, i) =>
    (i / count, (list.filter (·.2 = line)).map Prod.fst)
  ((groups.map Prod.fst).eraseDups).map fun k =>
    (groups.filter (·.1 = k)).flatMap Prod.snd

/-- The text with another one in the place of a mark. -/
def fill (mark own : List Char) : Nat → List Char → List Char
  | 0, s => s
  | _, [] => []
  | fuel + 1, c :: s =>
    match Text.strip? mark (c :: s) with
    | some rest => if mark.isEmpty then c :: s else own ++ fill mark own fuel rest
    | none => c :: fill mark own fuel s

end ArgumentInput

open ArgumentInput in
/-- Run a program with arguments that are read. -/
def xargs : Utility := fun handOver name arguments => do
  let forms := runnerForms "a:d:E:I:L:n:oP:prs:tx0"
    [("arg-file", "a", .value), ("delimiter", "d", .value), ("max-args", "n", .value),
      ("max-lines", "L", .value), ("max-procs", "P", .value), ("no-run-if-empty", "r", .nothing),
      ("null", "0", .nothing), ("replace", "replace", .optional), ("verbose", "t", .nothing)] 1
  let g ← forms.given name arguments
  let numberOf := fun (key : String) => do
    match g.value? key with
    | none => pure none
    | some text =>
      match signedNumber? text.toList with
      | none => misuse name ("invalid number \"" ++ text ++ "\" for -" ++ key ++ " option")
      | some n =>
        if n < 1 then
          misuse name ("value " ++ text ++ " for -" ++ key ++ " option should be >= 1")
        pure (some n.toNat)
  let most ← numberOf "n"
  let lines ← numberOf "L"
  let command := if g.operands.isEmpty then ["echo"] else g.operands
  let text ← match ← textOfInput ((g.value? "a").getD "-") with
    | .ok text => pure text.toList
    | .error fault =>
      fail name ("Cannot open input file " ++ quote ((g.value? "a").getD "-") ++ ": " ++
        fault.message)
  let sign? := if g.has "0" then some '\x00'
    else (g.value? "d").map fun d => match d.toList with
      | '\\' :: 'n' :: _ => '\n'
      | '\\' :: 't' :: _ => '\t'
      | '\\' :: '0' :: _ => '\x00'
      | c :: _ => c
      | [] => '\x00'
  let mark? := (g.value? "I") <|>
    if g.has "replace" then some ((g.value? "replace").getD "\x7b\x7d") else none
  let (found, openQuote) : List (String × Nat) × Option String :=
    match sign?, mark? with
    | some sign, _ =>
      ((linesOf sign text).zipIdx.map fun (line, i) => (String.ofList line, i), none)
    | none, some _ =>
      (((linesOf '\n' text).filter fun line => !(line.all isSpace)).zipIdx.map fun (line, i) =>
        (String.ofList (line.dropWhile isSpace), i), none)
    | none, none => words (text.length + 2) 0 none text
  let found := match g.value? "E" with
    | some stop => found.takeWhile (·.1 != stop)
    | none => found
  let runs : List (List String) :=
    match mark? with
    | some mark => found.map fun (own, _) =>
        command.map fun a => String.ofList (fill mark.toList own.toList (a.length + 1) a.toList)
    | none =>
      let groups := match most, lines with
        | some n, _ => batches n (found.length + 1) (found.map Prod.fst)
        | none, some n => byLines n found
        | none, none => if found.isEmpty then [] else [found.map Prod.fst]
      -- Without any words, the command is run once as it is.
      let groups := if groups.isEmpty && !g.has "r" && openQuote.isNone then [[]] else groups
      groups.map (command ++ ·)
  let mut status := 0
  for run in runs do
    if g.has "t" then
      printError (" ".intercalate (run.map quoteIfNeeded) ++ "\n")
    let child ← start do
      close 0
      let process := (← get).process
      discard (tryMachine fun m => m.openAs process 0 ⟨"/"⟩ ⟨"/dev/null"⟩ .toRead)
      handOverOr handOver run fun fault => complain name (run.headD "" ++ ": " ++ fault.message)
    match ← waitFor child with
    | .exited 0 => pure ()
    | .exited 255 =>
      fail name (run.headD "" ++ ": exited with status 255; aborting") 124
    | .exited n =>
      if n = 126 || n = 127 then quit n
      status := 123
    | .killed signal => fail name (run.headD "" ++ ": terminated by signal " ++ toString signal) 125
  match openQuote with
  | some kind =>
    fail name ("unmatched " ++ kind ++
      " quote; by default quotes are special to xargs unless you use the -0 option")
  | none => return status

end BuildTrace.Utility
