import BuildTrace.Shell.Builtin.Basic

/-!
# Processes and directories

The commands of the shell that deal with other processes, with signals, and with the working
directory.
-/

namespace BuildTrace.Shell.Builtin

open Machine (Outcome Signal)

/-! ## Signals -/

/-- The signal that is meant by a number, or by a name from that of the signal `least` on. -/
def signal? (text : String) (least : Nat) : Option Signal :=
  match Condition.number text with
  | .ok n => if 0 ≤ n && n < Signal.limit then some n.toNat else none
  | .error _ => (Signal.ofName? text).filter (least ≤ ·)

/-- What is done at a signal; nothing if there is no arrangement. -/
def setTrap (signal : Signal) (action : Option String) : Shell Unit := do
  modify fun s =>
    let others := s.traps.filter (·.1 != signal)
    { s with traps := (action.map (signal, ·)).toList ++ others }
  let s ← get
  -- A signal that was ignored from the start stays ignored.
  if s.deaf.contains signal then return
  onMachine fun m => ((), m.modifyProcess s.process fun p =>
    { p with
      caught := ((s.traps.filter fun t => !t.2.isEmpty).map Prod.fst).filter (!s.deaf.contains ·)
      ignored :=
        if action = some "" then signal :: p.ignored.filter (· != signal)
        else p.ignored.filter (· != signal) })

/-- Set what is done at signals, or print it. -/
def trap : Builtin := fun arguments => do
  let (_, operands) ← letters "" arguments
  match operands with
  | [] =>
    let traps := (← get).traps.mergeSort fun a b => a.1 ≤ b.1
    print (String.join (traps.map fun (signal, action) =>
      "trap -- " ++ quoted action ++ " " ++ Signal.name signal ++ "\n"))
    return 0
  | first :: rest =>
    -- A number in front is a signal already: what was arranged for it is undone.
    let isAction := !rest.isEmpty && !(Condition.number first).isOk
    let action := if isAction && first != "-" then some first else none
    go action (if isAction then rest else operands)
where
  /-- Set what is done at the signals, up to the first that is none. -/
  go (action : Option String) : List String → Shell Nat
    | [] => return 0
    | name :: names => do
      match signal? name 0 with
      | none =>
        printError ("trap: " ++ name ++ ": bad trap\n")
        return 1
      | some signal =>
        setTrap signal action
        go action names

/-- How `kill` is called. -/
def killUsage : String :=
  "Usage: kill [-s sigspec | -signum | -sigspec] [pid | job]... or\nkill -l [exitstatus]"

/-- The job with a number. -/
def jobOf (text : String) : Shell Job := do
  let jobs := (← get).jobs
  let found :=
    match text.toList with
    | ['%'] | ['%', '+'] | ['%', '%'] => jobs.head?
    | ['%', '-'] => jobs[1]?
    | '%' :: digits => jobs.find? fun j => (toString j.number).toList = digits
    | _ => none
  match found with
  | some job => return job
  | none => fail ("No such job: " ++ text)

/-- Send a signal to processes. -/
def sendAll (signal : Signal) : List String → (status : Nat) → Shell Nat
  | [], status => return status
  | target :: rest, status => do
    let complainMissing : Shell Nat := do
      complain (Machine.Fault.noProcess.message ++ "\n")
      sendAll signal rest 1
    if target.startsWith "%" then
      -- A job has no group of processes of its own, to which a signal could be sent.
      discard (jobOf target)
      complainMissing
    else
      let toGroup := target.startsWith "-"
      let number ← number (if toGroup then String.ofList (target.toList.drop 1) else target)
      if toGroup then complainMissing
      else
        let isSent ← onMachine fun m =>
          -- Zero stands for the group of the shell, which all processes belong to.
          if number = 0 then
            let numbers := (m.processes.filter (·.outcome.isNone)).map (·.number)
            (true, numbers.foldl (fun m n => (m.send n signal).toOption.getD m) m)
          else
            match m.send number signal with
            | .ok m => (true, m)
            | .error _ => (false, m)
        if isSent then sendAll signal rest status else complainMissing

/-- Print the names of signals. -/
def listSignals : List String → Shell Nat
  | [] => do
    print (String.join ("0\n" :: (List.range Signal.limit).tail.map fun s => Signal.name s ++ "\n"))
    return 0
  | text :: _ => do
    let n ← number text
    -- The exit status of a process that a signal has ended names the signal, too.
    let signal := if 128 < n then n - 128 else n
    if 0 < signal && signal < Signal.limit then
      print (Signal.name signal ++ "\n")
      return 0
    else fail ("invalid signal number or exit status: " ++ text)

/-- Send a signal to processes, or print the names of signals. -/
def kill : Builtin := fun arguments => do
  match arguments with
  | [] => fail killUsage
  | first :: rest =>
    -- The first argument may be a signal in the place of an option.
    let named :=
      match first.toList with
      | '-' :: name => signal? (String.ofList name) 1
      | _ => none
    match named with
    | some signal => if rest.isEmpty then fail killUsage else sendAll signal rest 0
    | none =>
      let size := Text.stepsThrough arguments
      let (given, operands) ← options [('l', false), ('s', true)] size arguments
      let isList := given.any (·.1 = 'l')
      let wanted := (given.filter (·.1 = 's')).map Prod.snd
      wanted.forM fun name => do
        if (signal? name 1).isNone then fail ("invalid signal number or name: " ++ name)
      let chosen := wanted.getLast?.bind fun name => signal? name 1
      if isList then if chosen.isSome then fail killUsage else listSignals operands
      else if operands.isEmpty then fail killUsage
      else sendAll (chosen.getD Signal.term) operands 0

/-! ## Jobs -/

/-- The ends of processes that have ended, which the machine forgets. -/
def collect (m : Machine) (j : Job) : Job × Machine :=
  let ended := fun number => (m.process? number).bind (·.outcome)
  let processes := j.processes.map fun (number, outcome) =>
    (number, outcome.orElse fun _ => ended number)
  let known := (processes.filter fun p => p.2.isSome).map Prod.fst
  ({ j with processes },
    { m with processes := m.processes.filter fun p => !known.contains p.number })

/-- Find out which jobs have ended. -/
def updateJobs : Shell Unit := do
  let jobs := (← get).jobs
  let jobs ← onMachine fun m =>
    jobs.foldr
      (fun job (jobs, m) =>
        let (job, m) := collect m job
        (job :: jobs, m))
      (([] : List Job), m)
  modify fun s => { s with jobs }

/-- Add a job with the processes. -/
def addJob (processes : List Nat) : Shell Unit := do
  modify fun s =>
    -- A job that has ended is forgotten once its end was told.
    let jobs := s.jobs.filter fun j => !(j.isTold && j.outcome?.isSome)
    let used := jobs.map (·.number)
    let number := ((List.range (used.length + 1)).map (· + 1)).find? (!used.contains ·)
    { s with
      jobs := ⟨number.getD 1, processes.map (·, none), false⟩ :: jobs
      background := processes.getLast? }

/-- What is said about an end: only what a signal has done, if `onlySignals` says so. -/
def outcomeText (onlySignals : Bool) : Outcome → String
  | .exited 0 => if onlySignals then "" else "Done"
  | .exited status => if onlySignals then "" else "Done(" ++ toString status ++ ")"
  | .killed signal =>
    if onlySignals && (signal = 2 || signal = Signal.pipe) then "" else Signal.description signal

/-- Say what a signal has done to a process. -/
def tellOutcome (outcome : Outcome) : Shell Unit := do
  let text := outcomeText true outcome
  if !text.isEmpty then printError (text ++ "\n")

/-- Wait until `p` holds of the machine, or until a signal comes that the shell takes care of. The
signal is given. -/
def waitUntil (p : Machine → Bool) : Shell (Option Signal) := do
  let process := (← get).process
  await none fun m =>
    match (m.process? process).bind fun p => p.pending.head? with
    | some signal => some (some signal, m)
    | none => if p m then some (none, m) else none

/-- All processes of the job have ended. -/
def hasEnded (m : Machine) (j : Job) : Bool :=
  j.processes.all fun (number, outcome) => outcome.isSome || !m.isAlive number

/-- Wait for a job; its exit status, or that for a signal. -/
def waitForJob (number : Nat) : Shell (Except Nat Nat) := do
  match (← get).jobs.find? (·.number = number) with
  | none => return .ok 127
  | some job =>
    match ← waitUntil fun m => hasEnded m job with
    | some signal => return .error (128 + signal)
    | none =>
      -- An end is told once.
      let known := job.outcome?.isSome
      updateJobs
      modify fun s =>
        let jobs := s.jobs.map fun j => if j.number = number then { j with isTold := true } else j
        { s with jobs }
      match ((← get).jobs.find? (·.number = number)).bind Job.outcome? with
      | none => return .ok 127
      | some outcome =>
        if !known then tellOutcome outcome
        return .ok outcome.status

/-- Wait for jobs. -/
def wait : Builtin := fun arguments => do
  let (_, operands) ← letters "" arguments
  match operands with
  | [] =>
    let jobs := (← get).jobs
    match ← waitUntil fun m => jobs.all (hasEnded m) with
    | some signal => return 128 + signal
    | none =>
      updateJobs
      modify fun s => { s with jobs := s.jobs.map ({ · with isTold := true }) }
      return 0
  | operands => go operands 127
where
  /-- Wait for one job after the other. -/
  go : List String → (status : Nat) → Shell Nat
    | [], status => return status
    | target :: rest, status => do
      let job? ←
        if target.startsWith "%" then do
          pure (some (← jobOf target))
        else do
          -- A job goes by the number of its last process.
          let process ← number target
          let jobs := (← get).jobs
          pure (jobs.find? fun j => (j.processes.getLast?.map Prod.fst) = some process)
      match job? with
      | none => go rest status
      | some job =>
        match ← waitForJob job.number with
        | .ok status => go rest status
        | .error status => return status

/-- Print the jobs. -/
def jobs : Builtin := fun arguments => do
  let (given, _) ← letters "lp" arguments
  updateJobs
  let jobs := (← get).jobs
  let line := fun (j : Job) (mark : Char) =>
    let number := ((j.processes.head?.map Prod.fst).getD 0)
    if given.getLast? = some 'p' then toString number ++ "\n"
    else
      let start := "[" ++ toString j.number ++ "] " ++ mark.toString ++ " "
      let start := if given.contains 'l' then start ++ toString number ++ " " else start
      let text := start ++ (j.outcome?.map (outcomeText false)).getD "Running"
      text ++ String.ofList (List.replicate (33 - text.length) ' ') ++ "\n"
  -- The two jobs that were started last are marked.
  let marked := jobs.zip ('+' :: '-' :: List.replicate jobs.length ' ')
  print (String.join (marked.map fun (j, mark) => line j mark))
  modify fun s => { s with jobs := s.jobs.filter fun j => j.outcome?.isNone }
  return 0

/-- Go on with a job, which is refused since jobs are not controlled. -/
def resume : Builtin := fun arguments => do
  let (_, operands) ← letters "" arguments
  let jobs := (← get).jobs
  match operands with
  | [] =>
    if jobs.isEmpty then fail "No current job"
    else fail "job (null) not created under job control"
  | target :: _ =>
    discard (jobOf target)
    fail ("job " ++ target ++ " not created under job control")

/-! ## The working directory -/

/-- The steps of a path without those that lead back. -/
def normalSteps (text : List Char) : List (List Char) :=
  (Text.splitOn '/' text).foldl
    (fun steps step =>
      if step.isEmpty || step = ['.'] then steps
      else if step = ['.', '.'] then steps.dropLast
      else steps ++ [step])
    []

/-- The path of a directory as it is shown, taken from the working directory. -/
def shownDirectory (current target : String) : String :=
  let whole := if target.startsWith "/" then target else current ++ "/" ++ target
  let steps := normalSteps whole.toList
  let start := if whole.startsWith "//" && !whole.startsWith "///" then "//" else "/"
  start ++ String.ofList (Text.joinWith ['/'] steps)

/-- Go to a directory; whether that is possible. -/
def enter (target : String) : Shell Bool := do
  let s ← get
  let shown := shownDirectory s.directory target
  let isThere ← look fun m =>
    match m.entry s.directoryPath (State.pathOf shown) with
    | .ok (_, entry) => entry.isDirectory
    | .error _ => false
  if isThere then
    let old := s.directory
    modify fun s => { s with directory := shown }
    assign "OLDPWD" old
    assign "PWD" shown
    modify fun s =>
      ["OLDPWD", "PWD"].foldl
        (fun s name => s.putVariable name { (s.binding? name).getD {} with isExported := true }) s
    return true
  else return false

/-- Go to another directory. -/
def cd : Builtin := fun arguments => do
  let (_, operands) ← letters "LP" arguments
  let s ← get
  let (target, prints) :=
    match operands with
    | [] => ((s.value? "HOME").getD "", false)
    | "-" :: _ => ((s.value? "OLDPWD").getD "", true)
    | target :: _ => (target, false)
  -- Paths that say where they begin are not searched for.
  let isFixed := target.startsWith "/" || target = "." || target = ".." ||
    target.startsWith "./" || target.startsWith "../"
  let searched := if isFixed then none else s.value? "CDPATH"
  let target := if target.isEmpty then "." else target
  let rec tryAll : List String → Shell (Option Bool)
    | [] => return none
    | d :: rest => do
      let path := if d.isEmpty then target else d ++ "/" ++ target
      let isThere ← look fun m =>
        match m.entry s.directoryPath (State.pathOf path) with
        | .ok (_, entry) => entry.isDirectory
        | .error _ => false
      -- The new directory is printed if it was found elsewhere than here.
      if isThere then return if ← enter path then some !d.isEmpty else none
      else tryAll rest
  let found ←
    match searched with
    | some path => tryAll ((Text.splitOn ':' path.toList).map String.ofList)
    | none => pure none
  let found ←
    match found with
    | some prints => pure (some prints)
    | none => do
      pure (if ← enter target then some false else none)
  match found with
  | none => fail ("can't cd to " ++ target)
  | some isFar =>
    if prints || isFar then print ((← get).directory ++ "\n")
    return 0

/-- Print the working directory. -/
def pwd : Builtin := fun arguments => do
  let (_, _) ← letters "LP" arguments
  print ((← get).directory ++ "\n")
  return 0

/-! ## Limits -/

/-- A number in octal digits. -/
def octalText (count n : Nat) : String :=
  let digits := Nat.toDigits 8 n
  String.ofList (List.replicate (count - digits.length) '0' ++ digits)

/-- The rights of a class of users in letters. -/
def rightsText (rights : Nat) : String :=
  String.ofList ([('r', 4), ('w', 2), ('x', 1)].filterMap fun (c, bit) =>
    if rights / bit % 2 = 1 then some c else none)

/-- The rights of a class of users behind a clause of a mode in letters. -/
def changedRights (operator : Char) (bits now : Nat) : Nat :=
  if operator = '=' then bits
  else if operator = '+' then Nat.lor now bits
  else Nat.land now (7 - bits)

/-- What a clause of a mode in letters makes of the rights that new files do not get. -/
def clauseChange? (clause : List Char) : Option (Nat → Nat) :=
  let who := clause.takeWhile ['u', 'g', 'o', 'a'].contains
  let isMeant := fun (c : Char) => who.isEmpty || who.contains c || who.contains 'a'
  match clause.drop who.length with
  | operator :: rights =>
    if ['+', '-', '='].contains operator && rights.all ['r', 'w', 'x'].contains then
      let bit := fun (c : Char) (value : Nat) => if rights.contains c then value else 0
      let bits := bit 'r' 4 + bit 'w' 2 + bit 'x' 1
      -- The rights are changed, and the mask has those that are missing.
      let change := fun (mask : Nat) (c : Char) (unit : Nat) =>
        let now := 7 - mask / unit % 8
        (7 - if isMeant c then changedRights operator bits now else now) * unit
      some fun mask => change mask 'u' 64 + change mask 'g' 8 + change mask 'o' 1
    else none
  | [] => none

/-- Set or print the rights that new files do not get. -/
def umask : Builtin := fun arguments => do
  let (given, operands) ← letters "S" arguments
  let mask := (← get).umask
  match operands with
  | [] =>
    if given.isEmpty then print (octalText 4 mask ++ "\n")
    else
      let rights := 511 - mask
      print ("u=" ++ rightsText (rights / 64) ++ ",g=" ++ rightsText (rights / 8 % 8) ++ ",o=" ++
        rightsText (rights % 8) ++ "\n")
    return 0
  | mode :: _ =>
    let digits := mode.toList
    if digits.head?.any Char.isDigit then
      if digits.all Arithmetic.isOctalDigit then
        modify fun s => { s with umask := digitsValue 8 digits % 512 }
        return 0
      else fail ("Illegal number: " ++ mode)
    else
      match (Text.splitOn ',' digits).mapM clauseChange? with
      | some changes =>
        modify fun s => { s with umask := changes.foldl (fun mask change => change mask) s.umask }
        return 0
      | none => fail ("Illegal mode: " ++ mode)

/-- Print a limit, of which there is none. -/
def ulimit : Builtin := fun arguments => do
  if arguments.all (·.startsWith "-") then print "unlimited\n"
  return 0

/-- Print the time that was used, which is none. -/
def times : Builtin := fun _ => do
  print "0m0.000000s 0m0.000000s\n0m0.000000s 0m0.000000s\n"
  return 0

end BuildTrace.Shell.Builtin
