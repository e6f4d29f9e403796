import BuildTrace.Proofs.Configuration.Update
import BuildTrace.Proofs.Configure.Change
import BuildTrace.Proofs.Configure.Ending
import BuildTrace.Proofs.Configure.Recognition
import BuildTrace.Proofs.Store.Sink

/-!
# What a clean run finds

A clean run in which nothing goes wrong comes to a result that is a function of the selections and
of the files it sees: what is known from earlier runs does not count. What the run does not see are
places of the file system that no path leads over at which it looks, among them the file of the
cache, which is only looked at when the snapshot of an earlier run is loaded.

## Main definitions

* `Context.gist`: what a context says about the workspace;
* `AllWell`: nothing went wrong, but for the loading of an earlier snapshot;
* `Equipment.cleanPass` and `Equipment.cleanRun`: what a clean pass and a clean run come to;
* `Equipment.Blind`, `Equipment.Overlooks` and `Equipment.Sees`: neither the equipment nor the
  commands of the trace lead to hidden places, and a session differs at those only.

## Main results

* `Equipment.loadOnce_sees`: loading an earlier snapshot is not seen, whatever becomes of it;
* `Equipment.obtainTrace_ok`, `Equipment.preprocess_ok`, `Equipment.parseForConfiguration_ok`,
  `Equipment.parseForLaunchTargets_ok` and `Equipment.parseForBuildTargets_ok`: what a stage comes
  to that succeeds, over any session that sees the files.
-/

namespace BuildTrace.Configure

open FileTree (AgreeOutside Clear Retains)

variable {τ σ α : Type}

/-- What the context says about the workspace: the snapshot and the selections. -/
def Context.gist (c : Context) : Context :=
  { buildTarget := c.buildTarget, launchTarget := c.launchTarget, snapshot := c.snapshot }

/-- Nothing went wrong, but perhaps an earlier snapshot was not loaded. -/
def AllWell (entries : List Entry) : Prop :=
  ∀ entry ∈ entries, entry.subphase ≠ .loadFromCache → entry.outcome = .success

/-- What went well to the end went well before. -/
theorem AllWell.of_continues {s t : Session τ σ} (h : AllWell t.report.entries)
    (hcontinues : s.Continues t) : AllWell s.report.entries := by
  obtain ⟨more, hmore, -⟩ := hcontinues
  exact fun entry hentry => h entry (hmore ▸ List.mem_append_left more hentry)

/-- What a clean run comes to. -/
structure Findings where
  /-- What is known about the workspace. -/
  context : Context
  /-- The files when the trace has been obtained. -/
  files : FileTree
  /-- The paths at which the run has looked for the tools and binaries of the trace. -/
  asked : List Path
  /-- The names of the compilers it has searched. -/
  searched : List String

namespace Equipment

/-! ## Results -/

section Results

variable (e : Equipment τ σ) (run : Command → Command.Run)

/-- The files with a copy of the trace, unless that is impossible. -/
def copied (trace : String) (files : FileTree) : FileTree :=
  (e.tracePath.parent?.elim (some files) files.makeDirectories).elim files fun made =>
    (made.write e.tracePath (.text trace)).getD made

/-- The trace for the build target, with the files when it has been obtained. -/
def traced (target : Option String) (files : FileTree) : String × FileTree :=
  match e.logPath?.bind files.readText? with
  | some raw => (raw, files)
  | none =>
    let raw := (run ⟨e.settings.make.program, e.dryRunArguments true target, e.root⟩).text
    (raw, e.copied raw files)

/-- What a clean pass finds in a trace. Of the context, only the selections count. -/
def foundIn (c : Context) (raw : String) (files : FileTree) : Findings :=
  let trace := Command.normal raw
  let dump := (run ⟨e.settings.make.program, e.databaseArguments, e.root⟩).text
  let snapshot : Snapshot :=
    { configuration := .ofUnits (e.unitsIn files trace)
      launchTargets := (e.launchExtractor files).targetsIn trace
      buildTargets := sortNames (BuildTarget.namesIn dump) }
  { context :=
      -- A selection that is not among the targets any more is given up.
      { snapshot
        buildTarget := c.buildTarget.filter snapshot.hasBuildTarget
        launchTarget := c.launchTarget.filter snapshot.hasLaunchTarget }
    files
    asked := e.asked files trace
    searched := e.searched files trace }

/-- What a clean pass comes to. -/
def cleanPass (c : Context) (files : FileTree) : Findings :=
  let traced := e.traced run c.buildTarget files
  e.foundIn run c traced.1 traced.2

/-- What a clean run comes to: there is a second pass if the selected build target is gone. -/
def cleanRun (c : Context) (files : FileTree) : Findings :=
  let first := e.cleanPass run c files
  if c.buildTarget.isSome && first.context.buildTarget.isNone then
    -- The trace was that of the target that is gone.
    let second := e.cleanPass run first.context first.files
    { second with
      asked := first.asked ++ second.asked
      searched := first.searched ++ second.searched }
  else first

/-- The build tool is a function of the command, and neither the build log nor the directory of the
copy of the trace lies at a hidden place, or beyond one. -/
structure Blind (hidden : Place → Prop) (files : FileTree) : Prop where
  /-- What the build tool does depends on the command only. -/
  tool : ∀ command files tool, (e.runTool command false files tool).1 = run command
  /-- It leaves the files alone. -/
  spares : ∀ command files tool, (e.runTool command false files tool).2.1 = files
  /-- The way to the build log is clear. -/
  log : ∀ p, e.logPath? = some p → Clear hidden files.start p.components
  /-- The way to the directory of the copy of the trace is clear. -/
  copy : Clear hidden files.start e.tracePath.components.dropLast

/-- What the trace names is not at a hidden place, or beyond one. -/
structure Overlooks (hidden : Place → Prop) (start : Option Place) (findings : Findings) :
    Prop where
  /-- The ways to the tools and binaries are clear. -/
  asked : ∀ p ∈ findings.asked, Clear hidden start p.components
  /-- The searches for compilers do not see hidden places. -/
  searched : ∀ name ∈ findings.searched, ∀ tree other : FileTree, tree.start = start →
    AgreeOutside hidden tree other → e.search name other = e.search name tree

/-- The session has the files of the tree, but for hidden places, and a sink that keeps to those. -/
structure Sees (hidden : Place → Prop) (files : FileTree) (s : Session τ σ) : Prop where
  /-- The files agree. -/
  agree : AgreeOutside hidden files s.files
  /-- The sink writes to hidden places only. -/
  confined : e.sink.Confined hidden files s.sink

end Results

variable {e : Equipment τ σ} {run : Command → Command.Run} {hidden : Place → Prop}
  {files : FileTree} {s t : Session τ σ}

theorem keepTrace_eq (e : Equipment τ σ) (trace : String) (s : Session τ σ) :
    e.keepTrace trace s = { s with files := e.copied trace s.files } := by
  unfold keepTrace copied
  generalize e.tracePath.parent?.elim (some s.files) s.files.makeDirectories = made
  cases made <;> rfl

/-! ## Files -/

/-- The copy of a trace is written when the directories above it are there or have been made. -/
theorem copied_cases (e : Equipment τ σ) (trace : String) (files : FileTree) :
    e.copied trace files = files ∨
      ∃ made, (made = files ∨ ∃ parent, e.tracePath.parent? = some parent ∧
          files.makeDirectories parent = some made) ∧
        (e.copied trace files = made ∨
          made.write e.tracePath (.text trace) = some (e.copied trace files)) := by
  rw [copied]
  cases hmade : e.tracePath.parent?.elim (some files) files.makeDirectories with
  | none => exact .inl rfl
  | some made =>
    refine .inr ⟨made, ?_, ?_⟩
    · cases hparent : e.tracePath.parent? with
      | none =>
        rw [hparent] at hmade
        exact .inl (Option.some.inj hmade).symm
      | some parent =>
        rw [hparent] at hmade
        exact .inr ⟨parent, rfl, hmade⟩
    · rw [Option.elim_some]
      cases made.write e.tracePath (.text trace) with
      | none => exact .inl rfl
      | some written => exact .inr rfl

/-- Trees that agree do so with a copy of the trace. -/
theorem agree_copied {other : FileTree} (h : AgreeOutside hidden files other)
    (hclear : Clear hidden files.start e.tracePath.components.dropLast) (trace : String) :
    AgreeOutside hidden (e.copied trace files) (e.copied trace other) := by
  rw [copied, copied]
  cases hparent : e.tracePath.parent? with
  | none => exact h.write hclear _
  | some parent =>
    -- The directories above can be made in both trees or in none.
    have hmade : Option.Rel (AgreeOutside hidden) (files.makeDirectories parent)
        (other.makeDirectories parent) :=
      h.makeDirectories (Path.components_of_parent? hparent ▸ hclear)
    have hstart : ∀ made, files.makeDirectories parent = some made → made.start = files.start :=
      fun _ heq => (FileTree.spares_makeDirectories (p := parent) heq).start
    rw [Option.elim_some, Option.elim_some]
    generalize files.makeDirectories parent = made at hmade hstart
    generalize other.makeDirectories parent = made' at hmade
    cases hmade with
    | none => exact h
    | some hagree => exact hagree.write (by rwa [hstart _ rfl]) _

/-- No directory is lost when a copy of the trace is kept. -/
theorem retains_copied (e : Equipment τ σ) (trace : String) (files : FileTree) :
    Retains hidden files (e.copied trace files) := by
  rcases e.copied_cases trace files with heq | ⟨made, hmade, hend⟩
  · rw [heq]
    exact (AgreeOutside.refl files).retains
  have hretains : Retains hidden files made := by
    rcases hmade with rfl | ⟨parent, -, hmade⟩
    · exact (AgreeOutside.refl made).retains
    · exact FileTree.retains_makeDirectories hmade
  rcases hend with heq | hwrite
  · rwa [heq]
  · exact hretains.trans (FileTree.retains_write hwrite)

/-- Nor is one lost when the trace is obtained. -/
theorem retains_traced (e : Equipment τ σ) (run : Command → Command.Run) (target : Option String)
    (files : FileTree) : Retains hidden files (e.traced run target files).2 := by
  rw [traced]
  split
  · exact (AgreeOutside.refl files).retains
  · dsimp only
    exact e.retains_copied _ files

theorem Blind.of_retains (h : e.Blind run hidden files) {other : FileTree}
    (hretains : Retains hidden files other) : e.Blind run hidden other :=
  { h with log := hretains.start ▸ h.log, copy := hretains.start ▸ h.copy }

theorem Sees.of_alike (h : e.Sees hidden files s) (halike : s.Alike t) : e.Sees hidden files t :=
  ⟨halike.files ▸ h.agree, halike.sink ▸ h.confined⟩

/-! ## Stages that succeed -/

/-- A subphase that succeeds is what is done in it, but for the notes. -/
theorem subphase_ok {which : Subphase} {action : Action τ σ α} {value : α}
    (h : e.subphase which action s = (.ok value, t)) :
    ∃ begun acted, action begun = (.ok value, acted) ∧
      (s.Alike begun ∧ begun.context = s.context) ∧
      (acted.Alike t ∧ t.context = acted.context) := by
  rw [subphase_eq] at h
  rcases hacted : action (e.tell (.status which) s) with ⟨problem | found, acted⟩
  · rw [hacted] at h
    cases congrArg Prod.fst h
  · rw [hacted] at h
    obtain ⟨hresult, rfl⟩ := Prod.mk.inj h
    cases hresult
    exact ⟨_, acted, hacted, ⟨⟨rfl, rfl, rfl⟩, rfl⟩, ⟨rfl, rfl, rfl⟩, rfl⟩

/-- What is handed to the sink makes no difference to what is seen. -/
theorem Sees.deliver (h : e.Sees hidden files s) (c : Configuration) (mode : UpdateMode)
    (accepted : Session τ σ → Session τ σ) (haccepted : ∀ s, (accepted s).files = s.files ∧
      (accepted s).sink = s.sink) : e.Sees hidden files (e.deliver c mode accepted s).2 := by
  obtain ⟨hsink, hfiles⟩ := e.pushed_deliver c mode haccepted s
  refine ⟨?_, ?_⟩
  · rw [hfiles]
    exact h.agree.trans (h.confined.agree c mode h.agree.retains)
  · rw [hsink]
    exact h.confined.push c mode s.files

/-- Loading an earlier snapshot leaves the selections alone and is not seen, whatever becomes of
it. -/
theorem loadOnce_sees (h : e.Sees hidden files s) :
    (e.loadOnce s).context.buildTarget = s.context.buildTarget ∧
      (e.loadOnce s).context.launchTarget = s.context.launchTarget ∧
      e.Sees hidden files (e.loadOnce s) := by
  rw [loadOnce]
  split
  · exact ⟨rfl, rfl, h⟩
  · rw [subphase_eq]
    generalize hbegin : e.tell (.status .loadFromCache)
      { s with context := { s.context with cacheTried := true } } = begun
    have hbuild : begun.context.buildTarget = s.context.buildTarget := by rw [← hbegin]; rfl
    have hlaunch : begun.context.launchTarget = s.context.launchTarget := by rw [← hbegin]; rfl
    have hbegun : e.Sees hidden files begun := by rw [← hbegin]; exact ⟨h.agree, h.confined⟩
    have hloaded : (e.loadFromCache begun).2.context.buildTarget = begun.context.buildTarget ∧
        (e.loadFromCache begun).2.context.launchTarget = begun.context.launchTarget ∧
        e.Sees hidden files (e.loadFromCache begun).2 := by
      rcases e.loadFromCache_cases begun with heq | ⟨snapshot, -, heq⟩
      · rw [heq]
        exact ⟨rfl, rfl, hbegun⟩
      -- What was loaded is handed to the sink, whether or not the sink takes it.
      · have hsees := hbegun.deliver snapshot.configuration .replace (withLoaded snapshot)
          fun _ => ⟨rfl, rfl⟩
        rw [heq]
        rcases e.deliver_snd snapshot.configuration .replace (withLoaded snapshot) begun with
          hsnd | hsnd
        · rw [hsnd] at hsees ⊢
          exact ⟨rfl, rfl, hsees⟩
        · rw [hsnd] at hsees ⊢
          exact ⟨rfl, rfl, hsees⟩
    rw [hbuild, hlaunch] at hloaded
    generalize e.loadFromCache begun = loaded at hloaded ⊢
    exact ⟨hloaded.1, hloaded.2.1, hloaded.2.2.agree, hloaded.2.2.confined⟩

/-- If the build tool is a function of the command, so is what it prints. -/
theorem runForText_ok (htool : ∀ command files tool, (e.runTool command false files tool).1
    = run command) {arguments : List String} {text : String}
    (h : e.runForText arguments s = (.ok text, t)) :
    let command : Command := ⟨e.settings.make.program, arguments, e.root⟩
    text = (run command).text ∧ t.context = s.context ∧
      t.files = (e.runTool command false s.files s.tool).2.1 ∧ t.sink = s.sink := by
  -- A run that was cancelled before does not succeed, so nobody has cancelled this one.
  have hcancelled : s.cancelled = false := by
    rw [← Bool.not_eq_true]
    intro hcancelled
    simp only [runForText, hcancelled, Bool.true_or, Bool.or_true, if_true] at h
    split at h <;> cases h
  have hcontext : (e.runForText arguments s).2.context = s.context := by rw [runForText_snd]
  have hsink : (e.runForText arguments s).2.sink = s.sink := by rw [runForText_snd]
  have hfiles : (e.runForText arguments s).2.files
      = (e.runTool ⟨e.settings.make.program, arguments, e.root⟩ false s.files s.tool).2.1 := by
    rw [runForText_snd, hcancelled]
  rw [h] at hcontext hsink hfiles
  refine ⟨?_, hcontext, hfiles, hsink⟩
  simp only [runForText, hcancelled, htool] at h
  split at h
  · cases h
  · split at h
    · cases h
    · exact (Except.ok.inj (congrArg Prod.fst h)).symm

/-- The trace that is obtained is the one to be expected. -/
theorem obtainTrace_ok (hblind : e.Blind run hidden files) (hsees : e.Sees hidden files s)
    {raw : String} (h : e.subphase .obtainTrace (e.obtainTrace true) s = (.ok raw, t)) :
    let traced := e.traced run s.context.buildTarget files
    raw = traced.1 ∧ e.Sees hidden traced.2 t ∧ t.context = s.context := by
  obtain ⟨begun, acted, hacted, ⟨hbegun, hcontext⟩, hend, hcontext'⟩ := subphase_ok h
  have hsees := hsees.of_alike hbegun
  rw [hcontext', ← hcontext]
  -- Whether there is a build log, and what is in it, is the same over both trees.
  have hlog : e.logPath?.bind begun.files.readText? = e.logPath?.bind files.readText? := by
    cases hpath : e.logPath? with
    | none => rfl
    | some p => exact hsees.agree.readText?_eq (hblind.log p hpath)
  rw [obtainTrace, hlog] at hacted
  rw [traced]
  generalize e.logPath?.bind files.readText? = log at hacted
  cases log with
  | some log =>
    cases hacted
    exact ⟨rfl, hsees.of_alike hend, rfl⟩
  | none =>
    dsimp only at hacted ⊢
    rcases hrun : e.runForText (e.dryRunArguments true begun.context.buildTarget) begun with
      ⟨problem | printed, u⟩
    · rw [hrun] at hacted
      cases hacted
    · rw [hrun] at hacted
      obtain ⟨hprinted, hkept, hfiles, hsink⟩ := runForText_ok hblind.tool hrun
      rw [hblind.spares] at hfiles
      cases hacted
      have hcopied : e.Sees hidden (e.copied raw files) (e.keepTrace raw u) := by
        have hsees := hsees.of_alike ⟨hfiles, hsink, congrArg Context.snapshot hkept⟩
        rw [keepTrace_eq]
        exact ⟨agree_copied hsees.agree hblind.copy raw,
          hsees.confined.of_retains (e.retains_copied raw files)⟩
      rw [← hprinted]
      refine ⟨rfl, hcopied.of_alike hend, ?_⟩
      rw [keepTrace_eq, hkept]

/-- The prepared trace has a command on each line. -/
theorem preprocess_ok {raw trace : String}
    (h : e.subphase .preprocess (e.preprocess raw) s = (.ok trace, t)) :
    trace = Command.normal raw ∧ s.Alike t ∧ t.context = s.context := by
  obtain ⟨begun, acted, hacted, ⟨hbegun, hcontext⟩, hend, hcontext'⟩ := subphase_ok h
  have hsession : acted = begun := by
    rw [preprocess_eq] at hacted
    exact (congrArg Prod.snd hacted).symm
  rw [hsession] at hend hcontext'
  exact ⟨e.eq_normal_of_preprocess (congrArg Prod.fst hacted), hbegun.trans hend,
    hcontext'.trans hcontext⟩

/-- The configuration is brought up to date with the compile units of the trace. -/
theorem parseForConfiguration_ok {trace : String} {mode : UpdateMode}
    (h : e.subphase .parseForConfiguration (e.parseForConfiguration trace mode) s = (.ok (), t)) :
    t.context = (Change.configured (.ofUnits (e.unitsIn s.files trace)) mode).apply s.context ∧
      ∀ {hidden : Place → Prop} {files : FileTree},
        e.Sees hidden files s → e.Sees hidden files t := by
  obtain ⟨begun, acted, hacted, ⟨hbegun, hcontext⟩, hend, hcontext'⟩ := subphase_ok h
  rw [hcontext', ← hcontext, ← hbegun.files]
  rcases hscan : e.scanUnits trace begun with ⟨units, scan, u⟩
  have halike := e.alike_scanUnits trace begun
  have hcontext := e.context_scanUnits trace begun
  have hfound : (e.scanUnits trace begun).2.1.status ≠ .cancelled →
      (e.scanUnits trace begun).1 = e.unitsIn begun.files trace := e.scanUnits_ok
  rw [hscan] at halike hcontext hfound
  rw [scanUnits] at hscan
  simp only [parseForConfiguration, hscan] at hacted
  split at hacted
  · cases hacted
  next hstatus =>
    have hunits : units = e.unitsIn begun.files trace := hfound hstatus
    -- What is done with the units that were found is a delivery.
    change e.deliver (.ofUnits units) mode (withConfiguration (.ofUnits units) mode) u
      = (.ok (), acted) at hacted
    rw [hunits] at hacted
    generalize Configuration.ofUnits (e.unitsIn begun.files trace) = found at hacted ⊢
    constructor
    · rcases e.deliver_cases found mode (withConfiguration found mode) u with ⟨error, heq⟩ | heq
      · rw [heq] at hacted
        cases hacted
      · rw [heq] at hacted
        cases hacted
        rw [← hcontext]
        rfl
    · intro hidden files hsees
      have hdelivered := ((hsees.of_alike hbegun).of_alike halike).deliver found mode
        (withConfiguration found mode) fun _ => ⟨rfl, rfl⟩
      rw [hacted] at hdelivered
      exact hdelivered.of_alike hend

/-- The launch targets are brought up to date with those of the trace. -/
theorem parseForLaunchTargets_ok {trace : String} {mode : UpdateMode}
    (h : e.subphase .parseForLaunchTargets (e.parseForLaunchTargets trace mode) s = (.ok (), t)) :
    t.context
        = (Change.launched ((e.launchExtractor s.files).targetsIn trace) mode).apply s.context ∧
      t.files = s.files ∧ t.sink = s.sink := by
  obtain ⟨begun, acted, hacted, ⟨hbegun, hcontext⟩, hend, hcontext'⟩ := subphase_ok h
  rw [hcontext', hend.files, hend.sink, ← hcontext, ← hbegun.files, ← hbegun.sink]
  have hsnd := (e.launchExtractor begun.files).extract?_snd Session.cancelled
    e.settings.trace.chunkSize trace begun
  rw [parseForLaunchTargets] at hacted
  dsimp only at hacted
  rw [← launchExtractor] at hacted
  split at hacted
  · cases hacted
  next found u heq =>
    rw [heq] at hsnd
    obtain rfl : u = begun := hsnd
    cases hacted
    rw [← LaunchTarget.Extractor.extract?_some _ (congrArg Prod.fst heq)]
    exact ⟨rfl, rfl, rfl⟩

/-- The build targets are brought up to date with those of the database. -/
theorem parseForBuildTargets_ok (htool : ∀ command files tool,
    (e.runTool command false files tool).1 = run command) {mode : UpdateMode} {vanished : Bool}
    (h : e.subphase .parseForBuildTargets (e.parseForBuildTargets mode) s = (.ok vanished, t)) :
    let dump := (run ⟨e.settings.make.program, e.databaseArguments, e.root⟩).text
    t.context = (Change.built (BuildTarget.namesIn dump) mode).apply s.context ∧
      ((∃ command tool, t.files = (e.runTool command false s.files tool).2.1) ∧
        t.sink = s.sink) ∧
      vanished = (s.context.buildTarget.isSome && t.context.buildTarget.isNone) := by
  obtain ⟨begun, acted, hacted, ⟨hbegun, hcontext⟩, hend, hcontext'⟩ := subphase_ok h
  rw [hcontext', hend.files, hend.sink, ← hcontext, ← hbegun.files, ← hbegun.sink]
  rw [parseForBuildTargets] at hacted
  rcases hrun : e.runForText e.databaseArguments begun with ⟨problem | dump, u⟩
  · rw [hrun] at hacted
    cases hacted
  · rw [hrun] at hacted
    dsimp only at hacted
    obtain ⟨hdump, hkept, hfiles, hsink⟩ := runForText_ok htool hrun
    have hsnd := BuildTarget.extract?_snd Session.cancelled e.settings.trace.chunkSize dump u
    split at hacted
    · cases hacted
    next found v heq =>
      rw [heq] at hsnd
      obtain rfl := BuildTarget.extract?_some (congrArg Prod.fst heq)
      obtain rfl : v = u := hsnd
      cases hacted
      rw [← hdump, ← hkept]
      exact ⟨rfl, ⟨⟨_, _, hfiles⟩, hsink⟩, rfl⟩

end Equipment

end BuildTrace.Configure
