import BuildTrace.Proofs.Configuration.Lookup
import BuildTrace.Proofs.Configure.Calm
import BuildTrace.Proofs.Configure.Forgetting
import BuildTrace.Proofs.LaunchTarget.Extraction

/-!
# Runs that are repeated

A run that is repeated at once comes to nothing new. The two runs need not take the same way: only
the first one looks at the cache, only the first one may begin again because the selected build
target is gone, and build targets that the first one has found are not looked for by the second one,
unless it is clean. But what the last pass of the first run has taken in can be taken in again, and
the second run finds the same, as long as the trace and the files it names are not changed by the
runs themselves.

## Main definitions

* `Found` and `Context.takeIn`: what a pass finds, and the context when it has been taken in;
* `Equipment.Unchanged`: the trace and the files it names are as they were wherever it is calm.

## Main results

* `Context.takeIn_self`: what was taken in last can be taken in again;
* `Equipment.Steady.configure_settles` and `Equipment.Steady.configure_self`: a run has taken in
  what is found at its end, and where that has been taken in, a run comes to nothing new;
* `Equipment.configure_repeats`: a repeated run ends with the same snapshot, the same selections and
  the same cache;
* `Equipment.configure_drifts`: repeated runs that do not.
-/

namespace BuildTrace.Configure

open FileTree (AgreeOutside Clear)

variable {τ σ α : Type}

/-! ## Taking in what was found -/

/-- What a pass has found. -/
structure Found where
  /-- The compile units of the trace. -/
  units : List CompileUnit
  /-- Its launch targets. -/
  launchTargets : List LaunchTarget
  /-- The build targets of the database. -/
  buildTargets : List String

/-- The context when a pass has taken in what was found in the trace. -/
def Context.readTrace (c : Context) (found : Found) (mode : UpdateMode) : Context :=
  let configured := (Change.configured (.ofUnits found.units) mode).apply c
  (Change.launched found.launchTargets mode).apply configured

/-- The context when a pass has taken in all it has found. Build targets that are known are not
looked for, unless the run is clean. -/
def Context.takeIn (c : Context) (found : Found) (clean : Bool) : Context :=
  let mode := Equipment.modeOf clean
  let read := c.readTrace found mode
  if clean || c.snapshot.buildTargets.isEmpty then
    (Change.built found.buildTargets mode).apply read
  else read

variable {c : Context} {found : Found} {clean : Bool} {mode : UpdateMode}

/-- Reading a trace is nothing to the build targets. -/
theorem Context.buildTarget_readTrace (c : Context) (found : Found) (mode : UpdateMode) :
    (c.readTrace found mode).buildTarget = c.buildTarget ∧
      (c.readTrace found mode).snapshot.buildTargets = c.snapshot.buildTargets := ⟨rfl, rfl⟩

/-- A selected build target that is not gone stays selected. -/
theorem Context.buildTarget_takeIn
    (h : (c.buildTarget.isSome && (c.takeIn found clean).buildTarget.isNone) = false) :
    (c.takeIn found clean).buildTarget = c.buildTarget := by
  rw [takeIn] at h ⊢
  split at h
  next hlook =>
    rw [if_pos hlook]
    simp only [Change.apply, (c.buildTarget_readTrace found _).1] at h ⊢
    cases hselected : c.buildTarget with
    | none => rfl
    | some target =>
      rw [hselected] at h
      simpa using h
  next hknown => rw [if_neg hknown, (c.buildTarget_readTrace found _).1]

/-- Guards make no difference to what is taken in. -/
theorem Context.takeIn_guards (guards : Guards) :
    ({ c with guards } : Context).takeIn found clean = { c.takeIn found clean with guards } := by
  simp only [Context.takeIn]
  split <;> rfl

/-- A configuration that was taken in can be taken in again. -/
theorem Change.configured_self (units : List CompileUnit) (mode : UpdateMode) (c : Context) :
    let change := Change.configured (.ofUnits units) mode
    change.apply (change.apply c) = change.apply c := by
  cases mode with
  | replace => simp only [Change.apply, Configuration.update_replace_ofUnits]
  | merge =>
    simp only [Change.apply, Configuration.update_merge_self (Configuration.normal_ofUnits units)]

/-- So can launch targets. -/
theorem Change.launched_self (targets : List LaunchTarget) (mode : UpdateMode) (c : Context) :
    let change := Change.launched targets mode
    change.apply (change.apply c) = change.apply c := by
  cases mode with
  | replace => simp only [Change.apply, Option.filter_filter, Bool.and_self]
  | merge =>
    simp only [Change.apply, LaunchTarget.dedup_append_self, Option.filter_filter, Bool.and_self]

/-- So can build targets, if none were known, and those that were taken in are not known now. -/
theorem Change.built_self (names : List String) {mode : UpdateMode} {c : Context}
    (h : mode = .replace ∨ c.snapshot.buildTargets = [] ∧
      ((Change.built names mode).apply c).snapshot.buildTargets = []) :
    let change := Change.built names mode
    change.apply (change.apply c) = change.apply c := by
  cases mode with
  | replace => simp only [Change.apply, Option.filter_filter, Bool.and_self]
  | merge =>
    obtain ⟨hunknown, hnone⟩ := h.resolve_left (by decide)
    simp only [Change.apply, hunknown] at hnone ⊢
    simp only [hnone, Option.filter_filter, Bool.and_self]

/-- A trace that was read can be read again. -/
theorem Context.readTrace_self :
    (c.readTrace found mode).readTrace found mode = c.readTrace found mode := by
  let configured := Change.configured (.ofUnits found.units) mode
  let launched := Change.launched found.launchTargets mode
  calc launched.apply (configured.apply (launched.apply (configured.apply c)))
      = launched.apply (launched.apply (configured.apply (configured.apply c))) := rfl
    _ = launched.apply (configured.apply c) := by
      rw [Change.configured_self, Change.launched_self]

/-- The build targets are not those of the trace, so they may as well be taken in later. -/
theorem Context.readTrace_built (c : Context) (found : Found) (mode : UpdateMode) :
    let built := Change.built found.buildTargets mode
    (built.apply c).readTrace found mode = built.apply (c.readTrace found mode) := rfl

/-- What was taken in last can be taken in again. -/
theorem Context.takeIn_self :
    (c.takeIn found clean).takeIn found clean = c.takeIn found clean := by
  cases clean with
  | true =>
    have hlooked : ∀ c : Context, c.takeIn found true
        = (Change.built found.buildTargets .replace).apply (c.readTrace found .replace) :=
      fun _ => rfl
    rw [hlooked, hlooked, readTrace_built, readTrace_self, Change.built_self _ (.inl rfl)]
  | false =>
    have hlooked : ∀ {c : Context}, c.snapshot.buildTargets = [] → c.takeIn found false
        = (Change.built found.buildTargets .merge).apply (c.readTrace found .merge) :=
      fun h => if_pos (by rw [h]; rfl)
    have hknown : ∀ {c : Context}, c.snapshot.buildTargets ≠ [] →
        c.takeIn found false = c.readTrace found .merge :=
      fun h => if_neg (by simpa using h)
    by_cases hnone : c.snapshot.buildTargets = []
    · rw [hlooked hnone]
      generalize hread : c.readTrace found .merge = read
      have hself : read.readTrace found .merge = read := hread ▸ readTrace_self
      have hnone : read.snapshot.buildTargets = [] := hread ▸ hnone
      by_cases hfound :
          ((Change.built found.buildTargets .merge).apply read).snapshot.buildTargets = []
      · rw [hlooked hfound, readTrace_built, hself, Change.built_self _ (.inr ⟨hnone, hfound⟩)]
      · rw [hknown hfound, readTrace_built, hself]
    · rw [hknown hnone, hknown (c := c.readTrace found .merge) hnone, readTrace_self]

namespace Equipment

/-! ## What is found -/

section Found

variable (e : Equipment τ σ) (run : Command → Command.Run) (clean : Bool)

/-- The trace for the build target: the build log, or else what a dry run prints. -/
def rawTrace (target : Option String) (files : FileTree) : String :=
  (e.logPath?.bind files.readText?).getD
    (run ⟨e.settings.make.program, e.dryRunArguments clean target, e.root⟩).text

/-- What is found where the files are as given, with the build target selected. -/
def foundWith (target : Option String) (files : FileTree) : Found :=
  let trace := Command.normal (e.rawTrace run clean target files)
  let dump := (run ⟨e.settings.make.program, e.databaseArguments, e.root⟩).text
  { units := e.unitsIn files trace
    launchTargets := (e.launchExtractor files).targetsIn trace
    buildTargets := BuildTarget.namesIn dump }

/-- As long as the surroundings are calm, the trace for the build target is the one that is read
from the files as given, and what it names is as it is there. -/
structure Unchanged (calm : σ → FileTree → Prop) (target : Option String) (files : FileTree) :
    Prop where
  /-- The trace is the same. -/
  trace : ∀ {sink tree}, calm sink tree →
    e.rawTrace run clean target tree = e.rawTrace run clean target files
  /-- The paths it asks for lead to files or do not, as before. -/
  asked : ∀ {sink tree}, calm sink tree →
    ∀ p ∈ e.asked files (Command.normal (e.rawTrace run clean target files)),
      tree.isFile p = files.isFile p
  /-- The searches for its compilers come to the same. -/
  searched : ∀ {sink tree}, calm sink tree →
    ∀ name ∈ e.searched files (Command.normal (e.rawTrace run clean target files)),
      e.search name tree = e.search name files

end Found

variable {e : Equipment τ σ} {run : Command → Command.Run} {calm : σ → FileTree → Prop}
  {s t : Session τ σ}

/-- In calm surroundings it does not matter where the trace is from, and which files are read. -/
theorem Unchanged.finds {target : Option String} {files first second third : FileTree}
    (h : e.Unchanged run clean calm target files) {sink₁ sink₂ sink₃ : σ}
    (hfirst : calm sink₁ first) (hsecond : calm sink₂ second) (hthird : calm sink₃ third) :
    let trace := Command.normal (e.rawTrace run clean target first)
    let dump := (run ⟨e.settings.make.program, e.databaseArguments, e.root⟩).text
    { units := e.unitsIn second trace
      launchTargets := (e.launchExtractor third).targetsIn trace
      buildTargets := BuildTarget.namesIn dump } = e.foundWith run clean target files := by
  have hunits := unitsIn_congr (h.searched hsecond) (h.asked hsecond)
  have htargets := targetsIn_congr (h.asked hthird)
  rw [foundWith, h.trace hfirst]
  dsimp only
  rw [hunits, htargets]

/-- Undisturbed files are unchanged if no way on which the build log or the tools and binaries of
the trace are looked for leads over a hidden place. -/
theorem unchanged_of_clear {hidden : Place → Prop} {target : Option String} {files : FileTree}
    (hlog : ∀ p, e.logPath? = some p → Clear hidden files.start p.components)
    (hasked : ∀ p ∈ e.asked files (Command.normal (e.rawTrace run clean target files)),
      Clear hidden files.start p.components)
    (hsearched : ∀ name ∈ e.searched files (Command.normal (e.rawTrace run clean target files)),
      ∀ tree, AgreeOutside hidden files tree → e.search name tree = e.search name files) :
    e.Unchanged run clean (e.Undisturbed hidden files) target files where
  trace := by
    rintro sink tree ⟨hagree, -⟩
    rw [rawTrace, rawTrace]
    cases hpath : e.logPath? with
    | none => rfl
    | some p =>
      rw [Option.bind_some, Option.bind_some, hagree.readText?_eq (hlog p hpath)]
  asked := fun ⟨hagree, _⟩ p hp => hagree.isFile_eq (hasked p hp)
  searched := fun ⟨hagree, _⟩ name hname => hsearched name hname _ hagree

namespace Steady

/-! ## What a pass finds -/

/-- The trace that is obtained is the one to be expected of the files. -/
theorem obtainTrace_ok (h : e.Steady run clean calm) {raw : String}
    (hobtain : e.subphase .obtainTrace (e.obtainTrace clean) s = (.ok raw, t)) :
    raw = e.rawTrace run clean s.context.buildTarget s.files ∧ t.context = s.context := by
  obtain ⟨begun, acted, hacted, ⟨hbegun, hcontext⟩, -, hcontext'⟩ := subphase_ok hobtain
  rw [hcontext', ← hcontext, ← hbegun.files]
  rw [obtainTrace] at hacted
  rw [rawTrace]
  generalize e.logPath?.bind begun.files.readText? = log at hacted
  cases log with
  | some log =>
    cases hacted
    exact ⟨rfl, rfl⟩
  | none =>
    dsimp only at hacted
    rcases hrun : e.runForText (e.dryRunArguments clean begun.context.buildTarget) begun with
      ⟨problem | printed, u⟩
    · rw [hrun] at hacted
      cases hacted
    · rw [hrun] at hacted
      obtain ⟨hprinted, hkept, -⟩ := runForText_ok h.tool hrun
      cases hacted
      exact ⟨hprinted, hkept⟩

/-- A survey in which all goes well takes in what it finds. -/
theorem takes (h : e.Steady run clean calm) {result : Except Outcome (Outcome × Bool)}
    (hsurveyed : e.Surveyed clean (modeOf clean) s result t) (hcalm : calm s.sink s.files)
    (hwell : AllWell t.report.entries) :
    calm t.sink t.files ∧
    result = .ok (.success, s.context.buildTarget.isSome && t.context.buildTarget.isNone) ∧
    ∃ found, t.context = s.context.takeIn found clean ∧
      ∀ files, e.Unchanged run clean calm s.context.buildTarget files →
        found = e.foundWith run clean s.context.buildTarget files := by
  obtain ⟨raw, r, trace, u, v, w, hobtain, hprepare, hconfigure, hlaunch, hend⟩ :=
    hsurveyed.succeeds hwell
  -- Each subphase leaves the surroundings calm for the next one.
  have hr := h.subphase .obtainTrace hobtain hcalm
  have hu : calm (counted trace u).sink (counted trace u).files :=
    (h.subphase (.preprocess raw) hprepare hr : calm u.sink u.files)
  have hv := h.subphase (.parseForConfiguration trace) hconfigure hu
  have hw := h.subphase (.parseForLaunchTargets trace) hlaunch hv
  -- Each also says what it has made of the context.
  obtain ⟨hraw, hrcontext⟩ := h.obtainTrace_ok hobtain
  obtain ⟨htrace, -, hucontext⟩ := preprocess_ok hprepare
  obtain ⟨hvcontext, -⟩ := parseForConfiguration_ok hconfigure
  obtain ⟨hwcontext, -, -⟩ := parseForLaunchTargets_ok hlaunch
  have hscontext : (counted trace u).context = s.context := hucontext.trans hrcontext
  rw [hscontext] at hvcontext
  rw [hvcontext] at hwcontext
  generalize hfound : ({
      units := e.unitsIn (counted trace u).files trace
      launchTargets := (e.launchExtractor v.files).targetsIn trace
      buildTargets := BuildTarget.namesIn
        (run ⟨e.settings.make.program, e.databaseArguments, e.root⟩).text } : Found) = found
  have hread : w.context = s.context.readTrace found (modeOf clean) := by
    rw [hwcontext, ← hfound, Context.readTrace]
  -- Whatever files the surroundings stay unchanged in, the trace and what is found in it are the
  -- same.
  have hfinds : ∀ files, e.Unchanged run clean calm s.context.buildTarget files →
      found = e.foundWith run clean s.context.buildTarget files := by
    intro files hunchanged
    rw [← hfound, ← hunchanged.finds hcalm hu hv, ← hraw, ← htrace]
  obtain ⟨hselected, hlook⟩ := s.context.buildTarget_readTrace found (modeOf clean)
  rw [← hread] at hselected hlook
  rw [hlook] at hend
  -- The data base is read in a clean survey, and in any other only if no build target is known.
  rcases hend with ⟨hknown, rfl, rfl⟩ | ⟨hunknown, vanished, hbuild, rfl⟩
  · refine ⟨hw, ?_, found, ?_, hfinds⟩
    · rw [hselected]
      cases s.context.buildTarget <;> rfl
    · rw [hread, Context.takeIn, if_neg (Bool.eq_false_iff.mp hknown)]
  · obtain ⟨htcontext, -, hvanished⟩ := parseForBuildTargets_ok h.tool hbuild
    refine ⟨h.subphase .parseForBuildTargets hbuild hw, ?_, found, ?_, hfinds⟩
    · rw [hvanished, hselected]
    · rw [htcontext, hread, ← hfound, Context.takeIn, if_pos hunknown]

/-- A survey begins with the cache, unless that was tried before. -/
theorem survey_takes (h : e.Steady run clean calm) {result : Except Outcome (Outcome × Bool)}
    (hsurvey : e.survey clean s = (result, t)) (hcalm : calm s.sink s.files)
    (hwell : AllWell t.report.entries) :
    calm t.sink t.files ∧ ∃ c : Context, (s.context.cacheTried = true → c = s.context) ∧
      result = .ok (.success, c.buildTarget.isSome && t.context.buildTarget.isNone) ∧
      ∃ found, t.context = c.takeIn found clean ∧
        ∀ files, e.Unchanged run clean calm c.buildTarget files →
          found = e.foundWith run clean c.buildTarget files := by
  have hsurveyed := e.surveyed clean s
  rw [hsurvey] at hsurveyed
  have hloaded : calm (e.loadOnce { s with statistics := {} }).sink
      (e.loadOnce { s with statistics := {} }).files := h.loadOnce hcalm
  obtain ⟨hcalm', hresult, hfound⟩ := h.takes hsurveyed hloaded hwell
  refine ⟨hcalm', _, fun htried => ?_, hresult, hfound⟩
  rw [Equipment.loadOnce, if_pos htried]

/-- An exploration in which all goes well takes in at the end what is found for the build target
that is selected then. -/
theorem explored_takes (h : e.Steady run clean calm) {reruns : Nat}
    {result : Except Outcome Outcome} (hexplored : e.Explored clean reruns s result t)
    (hlast : reruns = 0 → s.context.cacheTried = true ∧ s.context.buildTarget = none)
    (hcalm : calm s.sink s.files) (hwell : AllWell t.report.entries) :
    ∃ c found, t.context = Context.takeIn c found clean ∧
      ∀ files, e.Unchanged run clean calm t.context.buildTarget files →
        found = e.foundWith run clean t.context.buildTarget files := by
  induction hexplored with
  | ended hsurvey =>
    obtain ⟨-, _, -, hok, -⟩ := h.survey_takes hsurvey hcalm hwell
    cases hok
  | @complete reruns s outcome vanished t hsurvey hvanished =>
    obtain ⟨-, c, hc, hok, found, hcontext, hfound⟩ := h.survey_takes hsurvey hcalm hwell
    obtain ⟨rfl, rfl⟩ := Prod.mk.inj (Except.ok.inj hok)
    -- In the last survey that there can be, no build target is selected that could be gone.
    have hkept : (c.buildTarget.isSome && t.context.buildTarget.isNone) = false := by
      rw [← Bool.not_eq_true]
      intro hgone
      obtain ⟨htried, hnone⟩ := hlast (hvanished hgone)
      rw [hc htried, hnone] at hgone
      cases hgone
    have hselected : t.context.buildTarget = c.buildTarget := by
      rw [hcontext] at hkept ⊢
      exact Context.buildTarget_takeIn hkept
    rw [← hselected] at hfound
    exact ⟨c, found, hcontext, hfound⟩
  | @again reruns s outcome t result u hsurvey hexplored ih =>
    have hcontinues := (across_continues e).of_explored hexplored
    have hwell' : AllWell t.report.entries := hwell.of_continues hcontinues
    obtain ⟨hcalm', c, -, hok, -⟩ := h.survey_takes hsurvey hcalm hwell'
    -- The build target is gone, so none is selected any more.
    have hvanished := (congrArg Prod.snd (Except.ok.inj hok)).symm
    rw [Bool.and_eq_true] at hvanished
    have hnone : t.context.buildTarget = none := Option.isNone_iff_eq_none.mp hvanished.2
    have htried : t.context.cacheTried = true := tried_survey hsurvey
    exact ih (fun _ => ⟨htried, hnone⟩) hcalm' hwell

/-- An exploration in which all goes well comes to nothing new where what it finds has been taken in
already. -/
theorem explored_self (h : e.Steady run clean calm) {reruns : Nat}
    {result : Except Outcome Outcome} (hexplored : e.Explored clean reruns s result t)
    {files : FileTree} (hunchanged : e.Unchanged run clean calm s.context.buildTarget files)
    (htried : s.context.cacheTried = true)
    (hself : s.context.takeIn (e.foundWith run clean s.context.buildTarget files) clean = s.context)
    (hcalm : calm s.sink s.files) (hwell : AllWell t.report.entries) : t.context = s.context := by
  have hsurvey : ∀ {result u}, e.survey clean s = (result, u) → AllWell u.report.entries →
      u.context = s.context ∧ result = .ok (.success, false) := by
    intro result u hsurvey hwell
    obtain ⟨-, c, hc, hok, found, hcontext, hfound⟩ := h.survey_takes hsurvey hcalm hwell
    obtain rfl := hc htried
    obtain rfl := hfound files hunchanged
    rw [hself] at hcontext
    refine ⟨hcontext, ?_⟩
    rw [hok, hcontext]
    cases s.context.buildTarget <;> rfl
  cases hexplored with
  | ended hended => cases (hsurvey hended hwell).2
  | complete hcomplete => exact (hsurvey hcomplete hwell).1
  | again hagain hexplored =>
    have hcontinues := (across_continues e).of_explored hexplored
    cases (hsurvey hagain (hwell.of_continues hcontinues)).2

/-! ## Runs -/

/-- A run in which all goes well has taken in what is found for the build target that is selected at
its end. -/
theorem configure_settles (h : e.Steady run clean calm) (hcalm : calm s.sink s.files)
    (hrun : (e.configure clean s).1.outcome ≠ .blocked)
    (hwell : AllWell (e.configure clean s).1.entries) {files : FileTree}
    (hunchanged : e.Unchanged run clean calm (e.configure clean s).2.context.buildTarget files) :
    (e.configure clean s).2.context.takeIn
        (e.foundWith run clean (e.configure clean s).2.context.buildTarget files) clean
      = (e.configure clean s).2.context := by
  obtain ⟨guards, result, t, hexplore, hends, hwell'⟩ := exists_explored hrun
  have hexplored := e.explored clean 1 (begun guards s)
  rw [hexplore] at hexplored
  obtain ⟨c, found, htaken, hfound⟩ := h.explored_takes hexplored nofun hcalm (hwell' hwell)
  rw [hends] at hunchanged ⊢
  have hself : t.context.takeIn found clean = t.context := by
    rw [htaken]
    exact Context.takeIn_self
  rw [hfound files hunchanged] at hself
  rw [Context.takeIn_guards, hself]

/-- A run in which all goes well comes to nothing new where what it finds has been taken in
already. -/
theorem configure_self (h : e.Steady run clean calm) (hcalm : calm s.sink s.files)
    {files : FileTree} (hunchanged : e.Unchanged run clean calm s.context.buildTarget files)
    (htried : s.context.cacheTried = true) (hwell : AllWell (e.configure clean s).1.entries)
    (hself : s.context.takeIn (e.foundWith run clean s.context.buildTarget files) clean
      = s.context) : (e.configure clean s).2.context.gist = s.context.gist := by
  by_cases hrun : (e.configure clean s).1.outcome = .blocked
  · rw [configure_of_blocked hrun]
  · obtain ⟨guards, result, t, hexplore, hends, hwell'⟩ := exists_explored hrun
    have hexplored := e.explored clean 1 (begun guards s)
    rw [hexplore] at hexplored
    have hbegun : (begun guards s).context = { s.context with guards } := rfl
    have hsame : t.context = (begun guards s).context := by
      refine h.explored_self hexplored hunchanged htried ?_ hcalm (hwell' hwell)
      rw [hbegun, Context.takeIn_guards, hself]
    rw [hends, hsame, hbegun]
    rfl

end Steady

/-- A run that is repeated at once comes to nothing new. The build tool is a function of the
command, and whatever the runs do to the sink and the files, the trace for the build target that is
selected in the end and what it names stay as they are when the first run begins. All goes well in a
run, but for the loading of an earlier snapshot, and in another run over the context, the sink and
the files it leaves behind, whenever either of them may get cancelled. Then both end with the same
snapshot and the same selections. If both have kept the snapshot, the cache has the same text. -/
theorem configure_repeats (interrupts : Moment → Bool) {s' : Session τ σ}
    (hsteady : e.Steady run clean calm) (hcalm : calm s.sink s.files)
    (hunchanged : e.Unchanged run clean calm (e.configure clean s).2.context.buildTarget s.files)
    (hcontext : s'.context = (e.configure clean s).2.context)
    (hsink : s'.sink = (e.configure clean s).2.sink)
    (hfiles : s'.files = (e.configure clean s).2.files)
    (hwell : AllWell (e.configure clean s).1.entries)
    (hwell' : AllWell (({ e with interrupts }).configure clean s').1.entries) :
    let ends := e.configure clean s
    let ends' := ({ e with interrupts }).configure clean s'
    (ends'.2.context.snapshot = ends.2.context.snapshot ∧
      ends'.2.context.buildTarget = ends.2.context.buildTarget ∧
      ends'.2.context.launchTarget = ends.2.context.launchTarget) ∧
    (⟨.persist, .success⟩ ∈ ends.1.entries → ⟨.persist, .success⟩ ∈ ends'.1.entries →
      ∃ text, ends.2.files.readText? e.cachePath = some text ∧
        ends'.2.files.readText? e.cachePath = some text) := by
  intro ends ends'
  -- The moments at which a run is cancelled are nothing to its surroundings.
  have hsteady' : ({ e with interrupts } : Equipment τ σ).Steady run clean calm :=
    ⟨hsteady.tool, hsteady.spares, hsteady.copy, hsteady.push, hsteady.keep⟩
  have hgist : ends'.2.context.gist = ends.2.context.gist := by
    by_cases hrun : ends.1.outcome = .blocked
    · -- The guards are as they were, so the second run is blocked, too.
      have hrefused : s'.context.guards.begin? .configure = none := by
        rw [hcontext, configure_of_blocked hrun]
        exact blocked_iff.mp hrun
      rw [← hcontext]
      exact congrArg (fun ends => ends.2.context.gist) (configure_of_refused hrefused)
    · obtain ⟨_, _, _, hshape⟩ := e.exists_shape hrun
      have hself := hsteady.configure_settles hcalm hrun hwell hunchanged
      have hafter := hsteady.configure hcalm
      rw [← hsink, ← hfiles] at hafter
      have htried := hshape.tried
      rw [← hcontext] at hunchanged hself htried ⊢
      have hunchanged' : ({ e with interrupts } : Equipment τ σ).Unchanged run clean calm
          s'.context.buildTarget s.files :=
        ⟨hunchanged.trace, hunchanged.asked, hunchanged.searched⟩
      exact hsteady'.configure_self hafter hunchanged' htried hwell' hself
  have hsnapshot : ends'.2.context.snapshot = ends.2.context.snapshot :=
    congrArg (fun c => c.snapshot) hgist
  refine ⟨⟨hsnapshot, ?_, ?_⟩, fun hkept hkept' => ?_⟩
  · exact congrArg (fun c => c.buildTarget) hgist
  · exact congrArg (fun c => c.launchTarget) hgist
  · refine ⟨_, configure_keeps hkept, ?_⟩
    rw [← hsnapshot]
    exact configure_keeps hkept'

/-- The equipment for runs that are not cancelled. -/
def uninterrupted (e : Equipment τ σ) : Equipment τ σ := { e with interrupts := fun _ => false }

/-- The session for a run that nobody has cancelled yet. -/
def uncancelled (s : Session τ σ) : Session τ σ := { s with cancelled := false }

theorem uncancelled_eq (s : Session τ σ) : (uncancelled s).context = s.context ∧
    (uncancelled s).sink = s.sink ∧ (uncancelled s).files = s.files := ⟨rfl, rfl, rfl⟩

/-- A build tool that prints a command that compiles and links, and has a target in its database. -/
def printsApp (command : Command) : Command.Run :=
  let lines :=
    if command.arguments.contains "--question" then ["# Files", "app: a"] else ["gcc a.c -o a"]
  ⟨lines.map (.output, ·), false, .ok ⟨some 0, false⟩⟩

/-- A workspace in `/w` with this build tool. The configuration goes to the default file. -/
def linkingApp : Equipment Unit Store.FileSink :=
  { linking with runTool := fun command _ tree tool => (printsApp command, tree, tool) }

/-- What is below the directory of the cache. -/
def belowCache (place : Place) : Prop :=
  ["w", ".mktrace"] <+: place ∧ place ≠ ["w", ".mktrace"]

instance : DecidablePred belowCache := fun _ => inferInstanceAs (Decidable (_ ∧ _))

theorem belowCache_of_prefix {origin place : Place} (h : belowCache origin)
    (hbelow : origin <+: place) : belowCache place := by
  refine ⟨h.1.trans hbelow, ?_⟩
  rintro rfl
  exact h.2 (hbelow.eq_of_length_le h.1.length_le)

/-- The file of the configuration is below the directory of the cache. -/
theorem confined_linkingApp :
    linkingApp.sink.Confined belowCache firstOver.files firstOver.sink := by
  refine Store.FileSink.confined (by decide +kernel) ?_ ?_
  · have hplace : firstOver.files.destination? firstOver.sink.path
        = some ["w", ".mktrace", "configuration.json"] := by decide +kernel
    intro place h
    rw [hplace] at h
    obtain rfl := Option.some.inj h
    decide
  · have hplace : firstOver.files.destination? (Store.temporaryPath firstOver.sink.path)
        = some ["w", ".mktrace", "configuration.json.tmp"] := by decide +kernel
    intro origin place h hbelow
    rw [hplace] at h
    obtain rfl := Option.some.inj h
    exact belowCache_of_prefix (by decide) hbelow

/-- So are the cache and the copy of the trace. -/
theorem conceals_linkingApp : linkingApp.Conceals belowCache firstOver.files where
  tool _ _ tree _ := .refl tree
  traceWay := by decide +kernel
  trace := by
    have hplace : firstOver.files.destination? linkingApp.tracePath
        = some ["w", ".mktrace", "dryrun.log"] := by decide +kernel
    intro place h
    rw [hplace] at h
    obtain rfl := Option.some.inj h
    decide
  cacheWay := by decide +kernel
  cache := by
    have hplace : firstOver.files.destination? linkingApp.cachePath
        = some ["w", ".mktrace", "cache.json"] := by decide +kernel
    intro place h
    rw [hplace] at h
    obtain rfl := Option.some.inj h
    decide
  temporary := by
    have hplace : firstOver.files.destination? (Store.temporaryPath linkingApp.cachePath)
        = some ["w", ".mktrace", "cache.json.tmp"] := by decide +kernel
    intro origin place h hbelow
    rw [hplace] at h
    obtain rfl := Option.some.inj h
    exact belowCache_of_prefix (by decide) hbelow

/-- The trace asks for `/w/gcc`, and the compiler is searched in `/bin`. -/
theorem unchanged_linkingApp : linkingApp.Unchanged printsApp false
    (linkingApp.Undisturbed belowCache firstOver.files) none firstOver.files := by
  have hsearched : ∀ name ∈ linkingApp.searched firstOver.files
      (Command.normal (linkingApp.rawTrace printsApp false none firstOver.files)),
      ∀ p ∈ searchBin.candidates name, Clear belowCache none p.components := by decide +kernel
  refine unchanged_of_clear nofun (by decide +kernel) fun name hname tree hagree => ?_
  exact Environment.Search.find?_eq_of_agree hagree (hsearched name hname)

/-- The first run finds a broken cache and goes through two passes, since the selected build target
is gone; the second pass knows the build targets. The second run does the same as that pass. -/
theorem configure_repeats_linking :
    let ends := linkingApp.configure false firstOver
    let ends' := linkingApp.uninterrupted.configure false (uncancelled ends.2)
    (ends.1.entries = ⟨.loadFromCache, .failed⟩ ::
        (surveyPlan ++ surveyPlan.dropLast ++ [Subphase.persist]).map (⟨·, .success⟩) ∧
      ends'.1.entries = (surveyPlan.dropLast ++ [Subphase.persist]).map (⟨·, .success⟩)) ∧
    ends'.2.context.snapshot = ends.2.context.snapshot ∧
    ∃ text, ends.2.files.readText? linkingApp.cachePath = some text ∧
      ends'.2.files.readText? linkingApp.cachePath = some text := by
  dsimp only
  have hruns : (linkingApp.configure false firstOver).1.entries = ⟨.loadFromCache, .failed⟩ ::
        (surveyPlan ++ surveyPlan.dropLast ++ [Subphase.persist]).map (⟨·, .success⟩) ∧
      (linkingApp.uninterrupted.configure false
        (uncancelled (linkingApp.configure false firstOver).2)).1.entries
          = (surveyPlan.dropLast ++ [Subphase.persist]).map (⟨·, .success⟩) ∧
      (linkingApp.configure false firstOver).2.context.buildTarget = none := by decide +kernel
  obtain ⟨hentries, hentries', hselected⟩ := hruns
  obtain ⟨hcontext, hsink, hfiles⟩ := uncancelled_eq (linkingApp.configure false firstOver).2
  -- From here on, it does not matter how the second run begins.
  generalize uncancelled (linkingApp.configure false firstOver).2 = again at *
  have hwell : AllWell (linkingApp.configure false firstOver).1.entries := by
    rw [hentries]
    decide
  have hwell' : AllWell (linkingApp.uninterrupted.configure false again).1.entries := by
    rw [hentries']
    decide
  have hkept : ⟨.persist, .success⟩ ∈ (linkingApp.configure false firstOver).1.entries := by
    rw [hentries]
    decide
  have hkept' : ⟨.persist, .success⟩
      ∈ (linkingApp.uninterrupted.configure false again).1.entries := by
    rw [hentries']
    decide
  have hunchanged := unchanged_linkingApp
  rw [← hselected] at hunchanged
  have hsteady : linkingApp.Steady printsApp false
      (linkingApp.Undisturbed belowCache firstOver.files) :=
    conceals_linkingApp.steady fun _ _ _ => rfl
  have hcalm : linkingApp.Undisturbed belowCache firstOver.files firstOver.sink firstOver.files :=
    ⟨.refl _, confined_linkingApp⟩
  obtain ⟨⟨hsnapshot, -⟩, hcache⟩ := configure_repeats (fun _ => false) hsteady hcalm hunchanged
    hcontext hsink hfiles hwell hwell'
  exact ⟨⟨hentries, hentries'⟩, hsnapshot, hcache hkept hkept'⟩

/-- If all goes well in a run, but for the loading of an earlier snapshot, and in another run that
is not cancelled and follows at once, then both end with the same snapshot, the same selections and
the same cache. -/
def Repeats (e : Equipment τ σ) (clean : Bool) (s : Session τ σ) : Prop :=
  let ends := e.configure clean s
  let ends' := e.uninterrupted.configure clean (uncancelled ends.2)
  AllWell ends.1.entries → AllWell ends'.1.entries →
    ends'.2.context.gist = ends.2.context.gist ∧
      ends'.2.files.readText? e.cachePath = ends.2.files.readText? e.cachePath

instance (e : Equipment τ σ) (clean : Bool) (s : Session τ σ) : Decidable (e.Repeats clean s) :=
  inferInstanceAs (Decidable (_ → _ → _ ∧ _))

/-- Runs that come to something new when they are repeated. The build log is the file of the cache,
so the first run, which finds no log, writes the one that the second run reads. A cancellation comes
when all has been found, so only the second run keeps the snapshot. -/
theorem configure_drifts :
    ¬{ recalling ["gcc a.o -o a"] with logFile := some ⟨".mktrace/cache.json"⟩ }.Repeats true
      (firstWith { entries := [(["w"], .directory)] }) ∧
    ¬{ recalling [] with interrupts := fun moment => moment == Moment.report 12 }.Repeats true
      (firstWith (withCache "first")) := by
  refine ⟨?_, ?_⟩
  · decide +kernel
  · decide +kernel

end Equipment

end BuildTrace.Configure
