import BuildTrace.Proofs.Configure.Effect
import BuildTrace.Proofs.FileTree.Agreement
import BuildTrace.Proofs.LaunchTarget.Extraction
import BuildTrace.Proofs.Scan.Chunk
import Mathlib.Data.List.Basic

/-!
# What is recognized in a trace

A stage that is not cancelled finds what is recognized in its trace when the lines are read one
after the other. That is a function of the trace and of the files; of the files, it sees only those
whose paths the commands of the trace name, and those the search for executables sees.

## Main definitions

* `Directory.still`: the lines that do not move, with their directories;
* `Command.normal`, `Equipment.unitsIn`, `LaunchTarget.Extractor.targetsIn` and
  `BuildTarget.namesIn`: what is recognized;
* `Equipment.asked` and `Equipment.searched`: the paths that are looked at, and the names that are
  searched.

## Main results

* `Equipment.eq_normal_of_preprocess`, `Equipment.scanUnits_ok`,
  `LaunchTarget.Extractor.extract?_some` and `BuildTarget.extract?_some`: the stages find what is
  recognized;
* `Equipment.unitsIn_congr` and `Equipment.targetsIn_congr`: files that are not looked at do not
  matter.
-/

namespace BuildTrace

/-! ## Lines that do not move -/

/-- The lines that do not move, each with the directory in which it is run. -/
def Directory.still : List String → Directory.History → List (String × Path)
  | [], _ => []
  | line :: rest, history =>
    match history.follow? line with
    | some history => still rest history
    | none => (line, history.current) :: still rest history

/-- A recognizer that follows the moves and finds something in the other lines, without a change of
its surroundings, finds it in one line after the other. -/
theorem LineScanner.recognize_still {ω ι : Type} {scanner : LineScanner ω Directory.History ι}
    (found : String → Path → List ι) {w : ω}
    (hmove : ∀ line history next, history.follow? line = some next →
      scanner.scanLine line history w = ([], next, w))
    (hstill : ∀ line history, history.follow? line = none →
      scanner.scanLine line history w = (found line history.current, history, w))
    (hfinish : ∀ history, scanner.finish history = []) (lines : List String)
    (history : Directory.History) :
    scanner.recognize lines history w
      = (Directory.still lines history).flatMap fun command => found command.1 command.2 := by
  simp only [recognize, hfinish, List.append_nil]
  -- A line is read with the history the lines before it have left.
  induction lines generalizing history with
  | nil => rfl
  | cons line lines ih =>
    rw [scanLines, Directory.still]
    cases hfollow : history.follow? line with
    | some next =>
      rw [hmove line history next hfollow]
      exact ih next
    | none =>
      rw [hstill line history hfollow, List.flatMap_cons]
      exact congrArg _ (ih history)

namespace Tool.Matcher

/-- The path at which a line that invokes a tool expects it. -/
def asked? (m : Matcher) (line : String) (base : Path) : Option Path :=
  (m.command? line.toList).map fun c =>
    Path.resolve (String.ofList (c.directory ++ m.fileName c)) base

/-- An invocation is recognized by what is at that path. -/
theorem invocation?_congr {m : Matcher} {isFile isFile' : Path → Bool} {line : String} {base : Path}
    (h : ∀ p, m.asked? line base = some p → isFile' p = isFile p) :
    m.invocation? isFile' line base = m.invocation? isFile line base := by
  rw [invocation?, invocation?]
  rw [asked?] at h
  cases hcommand : m.command? line.toList with
  | none => rfl
  | some c =>
    have hsame := h _ (by rw [hcommand]; rfl)
    simp only [Option.bind_some, hsame]

end Tool.Matcher

/-! ## Commands, launch targets and build targets -/

/-- The commands of a raw trace, one on each line. -/
def Command.normal (raw : String) : String :=
  text ((scanner (ω := Unit)).recognize (Scan.linesOf raw) none ())

/-- Preparing a trace that is not cancelled finds its commands. -/
theorem Command.normalize?_some {ω : Type} {isCancelled : ω → Bool} {chunkSize : Nat}
    {raw trace : String} {w : ω}
    (h : (normalize? isCancelled chunkSize raw w).1 = some trace) : trace = normal raw := by
  obtain ⟨commands, hcommands, htrace⟩ := Option.map_eq_some_iff.mp h
  have hfound := Scan.eq_recognize_of_complete? hcommands
  rw [scanner, LineScanner.recognize_ofPure] at hfound
  rw [← htrace, normal, scanner, ← hfound]

namespace LaunchTarget.Extractor

variable {ω : Type} (x : Extractor)

/-- The binaries a trace produces. -/
def binariesIn (trace : String) : List LaunchTarget :=
  dedup ((x.binaryScanner (ω := Unit)).recognize (Scan.linesOf trace) (.start x.root) ())

/-- The launch targets of a trace. -/
def targetsIn (trace : String) : List LaunchTarget :=
  let binaries := x.binariesIn trace
  if binaries.isEmpty then []
  else
    dedup (binaries ++
      (x.invocationScanner (ω := Unit) binaries).recognize (Scan.linesOf trace) (.start x.root) ())

/-- An extraction that is not cancelled finds the launch targets of the trace. -/
theorem extract?_some {isCancelled : ω → Bool} {chunkSize : Nat} {trace : String} {w : ω}
    {found : List LaunchTarget} (h : (x.extract? isCancelled chunkSize trace w).1 = some found) :
    found = x.targetsIn trace := by
  obtain ⟨binaries, v, hfirst, hfound⟩ := exists_of_extract? h
  have hbinaries := Scan.eq_recognize_of_complete? (congrArg Prod.fst hfirst)
  rw [binaryScanner, LineScanner.recognize_ofPure] at hbinaries
  rw [targetsIn, binariesIn, binaryScanner, ← hbinaries]
  rcases hfound with ⟨hempty, rfl⟩ | ⟨hempty, runs, hsecond, rfl⟩
  · rw [if_pos hempty]
  · have hruns := Scan.eq_recognize_of_complete? hsecond
    rw [invocationScanner, LineScanner.recognize_ofPure] at hruns
    rw [if_neg (Bool.eq_false_iff.mp hempty), invocationScanner, ← hruns]

/-- The paths that are looked at for launch targets. -/
def asked (trace : String) : List Path :=
  (Directory.still (Scan.linesOf trace) (.start x.root)).flatMap fun command =>
    (x.compilers.asked? command.1 command.2).toList ++
      (x.linkers.asked? command.1 command.2).toList ++
      ((x.runMatcher (x.binariesIn trace)).asked? command.1 command.2).toList

/-- The binary of a line as a launch target without arguments. -/
def binaryAt (line : String) (base : Path) : List LaunchTarget :=
  ((x.binaryOf? line base).map (⟨·, x.root, []⟩)).toList

/-- The launch target of a line that runs one of the binaries. -/
def runAt (binaries : List LaunchTarget) (line : String) (base : Path) : List LaunchTarget :=
  (((x.runMatcher binaries).invocation? x.isFile line base).map fun i =>
    ⟨i.fullPath, base, runArguments i.arguments⟩).toList

/-- The lines that do not move are asked for the binaries they produce. -/
theorem recognize_binaryScanner (lines : List String) (history : Directory.History) :
    (x.binaryScanner (ω := Unit)).recognize lines history ()
      = (Directory.still lines history).flatMap fun command => x.binaryAt command.1 command.2 := by
  refine LineScanner.recognize_still x.binaryAt ?_ ?_ ?_ lines history
  · intro line history next hfollow
    simp only [binaryScanner, LineScanner.ofPure, hfollow]
  · intro line history hfollow
    simp only [binaryScanner, LineScanner.ofPure, hfollow]
    rfl
  · intro history
    rfl

/-- They are asked for the binaries they run. -/
theorem recognize_invocationScanner (binaries : List LaunchTarget) (lines : List String)
    (history : Directory.History) :
    (x.invocationScanner (ω := Unit) binaries).recognize lines history ()
      = (Directory.still lines history).flatMap fun command =>
        x.runAt binaries command.1 command.2 := by
  refine LineScanner.recognize_still (x.runAt binaries) ?_ ?_ ?_ lines history
  · intro line history next hfollow
    simp only [invocationScanner, LineScanner.ofPure, hfollow]
  · intro line history hfollow
    simp only [invocationScanner, LineScanner.ofPure, hfollow]
    rfl
  · intro history
    rfl

variable {x} {isFile : Path → Bool} {trace : String}

/-- The binaries depend on the files only that are looked at. -/
theorem binariesIn_congr (h : ∀ p ∈ x.asked trace, isFile p = x.isFile p) :
    ({ x with isFile } : Extractor).binariesIn trace = x.binariesIn trace := by
  rw [binariesIn, binariesIn, recognize_binaryScanner, recognize_binaryScanner]
  refine congrArg dedup (List.flatMap_congr fun ⟨line, base⟩ hline => ?_)
  have hasked : ∀ p, p ∈ x.compilers.asked? line base ∨ p ∈ x.linkers.asked? line base →
      isFile p = x.isFile p := by
    intro p hp
    refine h p (List.mem_flatMap.mpr ⟨(line, base), hline, List.mem_append_left _ ?_⟩)
    exact List.mem_append.mpr (hp.imp Option.mem_toList.mpr Option.mem_toList.mpr)
  have hcompiler := Tool.Matcher.invocation?_congr fun p hp => hasked p (.inl hp)
  have hlinker := Tool.Matcher.invocation?_congr fun p hp => hasked p (.inr hp)
  rw [binaryAt, binaryAt, binaryOf?, binaryOf?, ← hcompiler, ← hlinker]
  rfl

/-- So do the launch targets. -/
theorem targetsIn_congr (h : ∀ p ∈ x.asked trace, isFile p = x.isFile p) :
    ({ x with isFile } : Extractor).targetsIn trace = x.targetsIn trace := by
  have hruns : (Directory.still (Scan.linesOf trace) (.start x.root)).flatMap
        (fun command => ({ x with isFile } : Extractor).runAt (x.binariesIn trace) command.1
          command.2)
      = (Directory.still (Scan.linesOf trace) (.start x.root)).flatMap fun command =>
        x.runAt (x.binariesIn trace) command.1 command.2 := by
    refine List.flatMap_congr fun ⟨line, base⟩ hline => ?_
    have hrun : (x.runMatcher (x.binariesIn trace)).invocation? isFile line base
        = (x.runMatcher (x.binariesIn trace)).invocation? x.isFile line base :=
      Tool.Matcher.invocation?_congr fun p hp => h p (List.mem_flatMap.mpr
        ⟨(line, base), hline, List.mem_append_right _ (Option.mem_toList.mpr hp)⟩)
    rw [runAt, runAt, ← hrun]
    rfl
  rw [targetsIn, targetsIn, binariesIn_congr h, recognize_invocationScanner,
    recognize_invocationScanner]
  dsimp only at hruns ⊢
  rw [hruns]

end LaunchTarget.Extractor

/-- The build targets of a database. -/
def BuildTarget.namesIn (dump : String) : List String :=
  (scanner (ω := Unit)).recognize (Scan.linesOf dump) {} ()

/-- An extraction that is not cancelled finds the build targets of the database. -/
theorem BuildTarget.extract?_some {ω : Type} {isCancelled : ω → Bool} {chunkSize : Nat}
    {dump : String} {w : ω} {found : List String}
    (h : (extract? isCancelled chunkSize dump w).1 = some found) : found = namesIn dump := by
  have hfound := Scan.eq_recognize_of_complete? h
  rw [scanner, LineScanner.recognize_ofPure] at hfound
  exact hfound

namespace Configure.Equipment

variable {τ σ : Type} (e : Equipment τ σ) {files other : FileTree} {raw trace : String}
  {s : Session τ σ}

/-! ## The stages of a run -/

/-- A trace that was prepared is one with a command on each line. -/
theorem eq_normal_of_preprocess (h : (e.preprocess raw s).1 = .ok trace) :
    trace = Command.normal raw := by
  rw [preprocess_eq] at h
  cases hnormal : (Command.normalize? Session.cancelled e.settings.trace.chunkSize raw s).1 with
  | none =>
    rw [hnormal] at h
    cases h
  | some commands =>
    rw [hnormal] at h
    rw [← Command.normalize?_some hnormal]
    exact (Except.ok.inj h).symm

/-- The extractor of compile units whose surroundings are the files alone. -/
def plainExtractor (files : FileTree) : CompileUnit.Extractor FileTree :=
  { e.unitExtractor files with lookup := fun name files => (e.search name files, files) }

/-- The compile units of a trace. -/
def unitsIn (files : FileTree) (trace : String) : List CompileUnit :=
  (e.plainExtractor files).scanner.recognize (Scan.linesOf trace) (.start e.root) files

/-- Of a session, the extraction of compile units sees the files only. -/
theorem shows_unitExtractor (files : FileTree) :
    LineScanner.Shows Session.files (e.unitExtractor files).scanner
      (e.plainExtractor files).scanner := by
  refine ⟨fun line history w => ?_, rfl⟩
  simp only [CompileUnit.Extractor.scanner, CompileUnit.Extractor.extract,
    CompileUnit.Extractor.compiler, plainExtractor, unitExtractor, lookup]
  split
  · rfl
  · split
    · rfl
    · split
      · rfl
      · split <;> rfl

/-- A scan of the compile units that is not cancelled finds those of the trace. -/
theorem scanUnits_ok (h : (e.scanUnits trace s).2.1.status ≠ .cancelled) :
    (e.scanUnits trace s).1 = e.unitsIn s.files trace := by
  have hkept : ∀ unit (s : Session τ σ), (countUnit unit s).files = s.files := fun _ _ => rfl
  exact Scan.items_of_ne_cancelled (e.shows_unitExtractor s.files) hkept Session.cancelled
    e.settings.trace.chunkSize trace (.start e.root) s h

/-- The extractor of launch targets, with the files as they are. -/
def launchExtractor (files : FileTree) : LaunchTarget.Extractor :=
  .ofTools e.tools files.isFile e.root

/-- The paths that are looked at for compile units and launch targets. -/
def asked (files : FileTree) (trace : String) : List Path := (e.launchExtractor files).asked trace

/-- The names of the compilers that are searched, for there is no file where they are expected. -/
def searched (files : FileTree) (trace : String) : List String :=
  (Directory.still (Scan.linesOf trace) (.start e.root)).flatMap fun command =>
    let invocation :=
      (e.plainExtractor files).compilers.invocation? files.isFile command.1 command.2
    ((invocation.filter (!·.found)).map Tool.Invocation.fileName).toList

/-- The lines that do not move are asked for their compile units. -/
theorem unitsIn_eq (files : FileTree) (trace : String) :
    e.unitsIn files trace = (Directory.still (Scan.linesOf trace) (.start e.root)).flatMap
      fun command => ((e.plainExtractor files).extract command.1 command.2 files).1 := by
  -- A search in the files leaves them alone.
  have hextract : ∀ line base,
      ((e.plainExtractor files).extract line base files).2 = files := by
    intro line base
    rcases (e.plainExtractor files).snd_extract_cases line base files with heq | ⟨name, heq⟩
    · exact heq
    · exact heq
  refine LineScanner.recognize_still
    (fun line base => ((e.plainExtractor files).extract line base files).1) ?_ ?_ ?_ _ _
  · intro line history next hfollow
    simp only [CompileUnit.Extractor.scanner, hfollow]
  · intro line history hfollow
    simp only [CompileUnit.Extractor.scanner, hfollow, hextract]
  · intro history
    rfl

variable {e}

/-- The compile units depend on the files only that are looked at, or that a search for a compiler
sees. -/
theorem unitsIn_congr
    (hsearch : ∀ name ∈ e.searched files trace, e.search name other = e.search name files)
    (h : ∀ p ∈ e.asked files trace, other.isFile p = files.isFile p) :
    e.unitsIn other trace = e.unitsIn files trace := by
  rw [unitsIn_eq, unitsIn_eq]
  refine List.flatMap_congr fun ⟨line, base⟩ hline => ?_
  have hinvocation : (e.plainExtractor other).compilers.invocation? other.isFile line base
      = (e.plainExtractor files).compilers.invocation? files.isFile line base := by
    refine Tool.Matcher.invocation?_congr fun p hp => h p ?_
    refine List.mem_flatMap.mpr ⟨(line, base), hline, List.mem_append_left _ ?_⟩
    exact List.mem_append_left _ (Option.mem_toList.mpr hp)
  cases heq : (e.plainExtractor files).compilers.invocation? files.isFile line base with
  | none =>
    rw [CompileUnit.Extractor.extract_none heq,
      CompileUnit.Extractor.extract_none (hinvocation.trans heq)]
  | some i =>
    have hcompiler : ((e.plainExtractor other).compiler i other).1
        = ((e.plainExtractor files).compiler i files).1 := by
      rw [CompileUnit.Extractor.compiler, CompileUnit.Extractor.compiler]
      split
      · rfl
      -- A compiler is searched only if there is no file where it is expected.
      next hmissing =>
        refine congrArg (Option.getD · _) (hsearch i.fileName ?_)
        refine List.mem_flatMap.mpr ⟨(line, base), hline, ?_⟩
        simp [heq, hmissing]
    rw [CompileUnit.Extractor.fst_extract heq,
      CompileUnit.Extractor.fst_extract (hinvocation.trans heq), hcompiler]
    rfl

/-- So do the launch targets, without the searches. -/
theorem targetsIn_congr (h : ∀ p ∈ e.asked files trace, other.isFile p = files.isFile p) :
    (e.launchExtractor other).targetsIn trace = (e.launchExtractor files).targetsIn trace := by
  have hother : e.launchExtractor other
      = { e.launchExtractor files with isFile := other.isFile } := by
    rw [launchExtractor, launchExtractor, LaunchTarget.Extractor.ofTools,
      LaunchTarget.Extractor.ofTools]
  rw [asked] at h
  rw [hother]
  exact LaunchTarget.Extractor.targetsIn_congr h

end Configure.Equipment

end BuildTrace
