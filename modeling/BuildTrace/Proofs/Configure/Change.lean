import BuildTrace.Proofs.Configure.Effect

/-!
# Changes of the context

A subphase that succeeds makes one change to the context, and a subphase that does not succeed
makes none, whatever it has done before it failed. This module names the changes, and proves that
for what is done in each subphase.

## Main definitions

* `Change`: what a subphase can do to the context, and `Change.Suits`, which change it makes when it
  succeeds;
* `AllOrNothing`: how a context before and after a subphase are related;
* `Equipment.Act`: all subphases of a run with what is done in them.

## Main results

* `Equipment.Act.allOrNothing`: each subphase is all or nothing.
-/

namespace BuildTrace.Configure

variable {τ σ α : Type}

/-! ## Changes -/

/-- What a subphase can do to the context. -/
inductive Change where
  /-- Nothing is changed. -/
  | nothing
  /-- The snapshot is taken from the cache. -/
  | loaded (snapshot : Snapshot)
  /-- The configuration is brought up to date with what was found. -/
  | configured (found : Configuration) (mode : UpdateMode)
  /-- The launch targets are brought up to date, and a selected one that is gone is given up. -/
  | launched (found : List LaunchTarget) (mode : UpdateMode)
  /-- The build targets are brought up to date, and a selected one that is gone is given up. -/
  | built (found : List String) (mode : UpdateMode)

namespace Change

/-- The context after the change. -/
def apply : Change → Context → Context
  | nothing, c => c
  | loaded snapshot, c => { c with snapshot, loadedFromCache := true }
  | configured found mode, c =>
    let configuration := c.snapshot.configuration.update found mode
    { c with snapshot := { c.snapshot with configuration } }
  | launched found mode, c =>
    let launchTargets :=
      match mode with
      | .replace => found
      | .merge => LaunchTarget.dedup (c.snapshot.launchTargets ++ found)
    let snapshot := { c.snapshot with launchTargets }
    { c with snapshot, launchTarget := c.launchTarget.filter snapshot.hasLaunchTarget }
  | built found mode, c =>
    let known := match mode with | .replace => [] | .merge => c.snapshot.buildTargets
    let snapshot := { c.snapshot with buildTargets := Equipment.sortNames (known ++ found) }
    { c with snapshot, buildTarget := c.buildTarget.filter snapshot.hasBuildTarget }

/-- The change is one that the subphase makes when it succeeds in a run of the mode. -/
inductive Suits (mode : UpdateMode) : Subphase → Change → Prop where
  /-- There is nothing in the cache. -/
  | uncached : Suits mode .loadFromCache nothing
  /-- There is a snapshot in the cache. -/
  | loaded (snapshot : Snapshot) : Suits mode .loadFromCache (loaded snapshot)
  /-- The trace is not kept in the context. -/
  | traced : Suits mode .obtainTrace nothing
  /-- Nor is the prepared trace. -/
  | prepared : Suits mode .preprocess nothing
  /-- Compile units were looked for. -/
  | configured (found : Configuration) : Suits mode .parseForConfiguration (configured found mode)
  /-- Launch targets were looked for. -/
  | launched (found : List LaunchTarget) : Suits mode .parseForLaunchTargets (launched found mode)
  /-- Build targets were looked for. -/
  | built (found : List String) : Suits mode .parseForBuildTargets (built found mode)
  /-- The snapshot is written as it is. -/
  | persisted : Suits mode .persist nothing

variable {mode : UpdateMode} {which : Subphase} {change : Change}

/-- Only the subphase of the build targets touches the selected build target. -/
theorem Suits.buildTarget (h : change.Suits mode which) (hne : which ≠ .parseForBuildTargets)
    (c : Context) : (change.apply c).buildTarget = c.buildTarget := by
  cases h with
  | built => exact absurd rfl hne
  | uncached | loaded | traced | prepared | configured | launched | persisted => rfl

/-- Only the subphase of the cache touches the mark that says where the snapshot is from. -/
theorem Suits.loadedFromCache (h : change.Suits mode which) (hne : which ≠ .loadFromCache)
    (c : Context) : (change.apply c).loadedFromCache = c.loadedFromCache := by
  cases h with
  | loaded => exact absurd rfl hne
  | uncached | traced | prepared | configured | launched | built | persisted => rfl

/-- No change selects a build target. -/
theorem buildTarget_apply_of_none (change : Change) {c : Context} (h : c.buildTarget = none) :
    (change.apply c).buildTarget = none := by
  cases change with
  | nothing | loaded | configured | launched => exact h
  | built found mode => simp [apply, h]

/-- No change concerns the marks of the context: whether the cache was tried, and the guards. -/
theorem marks_apply (change : Change) (c : Context) :
    (change.apply c).cacheTried = c.cacheTried ∧ (change.apply c).guards = c.guards := by
  cases change <;> exact ⟨rfl, rfl⟩

end Change

/-- What a subphase of a run of the mode makes of a context: nothing if it fails, and otherwise one
of its changes. -/
inductive AllOrNothing (mode : UpdateMode) (which : Subphase) {α : Type} :
    Except Problem α → Context → Context → Prop where
  /-- The subphase has failed. -/
  | nothing {problem : Problem} {c : Context} : AllOrNothing mode which (.error problem) c c
  /-- The subphase has succeeded. -/
  | all {value : α} {c : Context} {change : Change} :
      change.Suits mode which → AllOrNothing mode which (.ok value) c (change.apply c)

namespace Equipment

variable {e : Equipment τ σ} {clean : Bool}

/-! ## Cases of the subphases -/

/-- The sink takes a configuration or refuses it. -/
theorem deliver_cases (e : Equipment τ σ) (c : Configuration) (mode : UpdateMode)
    (accepted : Session τ σ → Session τ σ) (s : Session τ σ) :
    let pushed := e.sink.push c mode s.sink s.files
    let after : Session τ σ := { s with sink := pushed.2.1, files := pushed.2.2 }
    (∃ error, e.deliver c mode accepted s = (.error (.sink error), after)) ∨
      e.deliver c mode accepted s = (.ok (), accepted after) := by
  rcases hpush : e.sink.push c mode s.sink s.files with ⟨error | _, sink, files⟩
  · exact .inl ⟨error, by simp only [deliver, hpush]⟩
  · exact .inr (by simp only [deliver, hpush])

/-- The scan of the compile units leaves the context alone. -/
theorem context_scanUnits (e : Equipment τ σ) (trace : String) (s : Session τ σ) :
    (e.scanUnits trace s).2.2.context = s.context :=
  scanUnits_rel (R := fun s t => t.context = s.context) (fun _ => rfl) (fun _ _ => rfl)
    (fun hst htu => htu.trans hst) (fun _ _ => rfl) trace s

/-- The stage of the launch targets is cancelled and changes nothing, or makes its change. -/
theorem parseForLaunchTargets_cases (e : Equipment τ σ) (trace : String) (mode : UpdateMode)
    (s : Session τ σ) :
    e.parseForLaunchTargets trace mode s = (.error .cancelled, s) ∨
      ∃ found, ((LaunchTarget.Extractor.ofTools e.tools s.files.isFile e.root).extract?
          Session.cancelled e.settings.trace.chunkSize trace s).1 = some found ∧
        (e.parseForLaunchTargets trace mode s).1 = .ok () ∧
        (e.parseForLaunchTargets trace mode s).2.context
          = (Change.launched found mode).apply s.context := by
  have hextract := (LaunchTarget.Extractor.ofTools e.tools s.files.isFile e.root).extract?_snd
    Session.cancelled e.settings.trace.chunkSize trace s
  simp only [parseForLaunchTargets]
  split
  next t heq =>
    obtain rfl : t = s := (congrArg Prod.snd heq).symm.trans hextract
    exact .inl rfl
  next found t heq =>
    obtain rfl : t = s := (congrArg Prod.snd heq).symm.trans hextract
    exact .inr ⟨found, congrArg Prod.fst heq, rfl, rfl⟩

/-- The stage of the build targets fails and leaves the context alone, or makes its change and
tells whether a build target was selected and is not any more. -/
theorem parseForBuildTargets_cases (e : Equipment τ σ) (mode : UpdateMode) (s : Session τ σ) :
    (∃ problem, (e.parseForBuildTargets mode s).1 = .error problem) ∧
        (e.parseForBuildTargets mode s).2.context = s.context ∨
      ∃ found, (e.parseForBuildTargets mode s).2.context
          = (Change.built found mode).apply s.context ∧
        (e.parseForBuildTargets mode s).1 = .ok (s.context.buildTarget.isSome &&
          (e.parseForBuildTargets mode s).2.context.buildTarget.isNone) := by
  have hrun : (e.runForText e.databaseArguments s).2.context = s.context := by rw [runForText_snd]
  simp only [parseForBuildTargets]
  split
  next problem t heq =>
    rw [heq] at hrun
    exact .inl ⟨⟨problem, rfl⟩, hrun⟩
  next dump t heq =>
    have hextract := BuildTarget.extract?_snd Session.cancelled e.settings.trace.chunkSize dump t
    rw [heq] at hrun
    split
    next u hfound =>
      obtain rfl : u = t := (congrArg Prod.snd hfound).symm.trans hextract
      exact .inl ⟨⟨_, rfl⟩, hrun⟩
    next found u hfound =>
      obtain rfl : u = t := (congrArg Prod.snd hfound).symm.trans hextract
      rw [← hrun]
      exact .inr ⟨found, rfl, rfl⟩

/-! ## All subphases -/

/-- The subphases of a run with what is done in them. -/
inductive Act (e : Equipment τ σ) (clean : Bool) :
    (α : Type) → Subphase → Action τ σ α → Prop where
  | loadFromCache : Act e clean Unit .loadFromCache e.loadFromCache
  | obtainTrace : Act e clean String .obtainTrace (e.obtainTrace clean)
  | preprocess (raw : String) : Act e clean String .preprocess (e.preprocess raw)
  | parseForConfiguration (trace : String) :
      Act e clean Unit .parseForConfiguration (e.parseForConfiguration trace (modeOf clean))
  | parseForLaunchTargets (trace : String) :
      Act e clean Unit .parseForLaunchTargets (e.parseForLaunchTargets trace (modeOf clean))
  | parseForBuildTargets :
      Act e clean Bool .parseForBuildTargets (e.parseForBuildTargets (modeOf clean))
  | persist : Act e clean Unit .persist e.persist

/-- What is done in a subphase leaves the notes on the run alone. -/
theorem Act.kept {which : Subphase} {action : Action τ σ α} (h : e.Act clean α which action)
    (s : Session τ σ) : e.Kept s (action s).2 := by
  cases h with
  | loadFromCache => exact Stage.loadFromCache.kept s
  | obtainTrace => exact (Stage.obtainTrace clean).kept s
  | preprocess raw => exact (Stage.preprocess raw).kept s
  | parseForConfiguration trace => exact (Stage.parseForConfiguration trace _).kept s
  | parseForLaunchTargets trace => exact (Stage.parseForLaunchTargets trace _).kept s
  | parseForBuildTargets => exact (Stage.parseForBuildTargets _).kept s
  | persist =>
    rw [persist_eq]
    exact .of_eq rfl rfl id rfl

/-- Handing over a configuration is all or nothing if what follows when the sink takes it is one of
the changes of the subphase. -/
theorem allOrNothing_deliver {c : Configuration} {mode push : UpdateMode} {which : Subphase}
    {accepted : Session τ σ → Session τ σ} {change : Change} (hsuits : change.Suits mode which)
    (haccepted : ∀ s, (accepted s).context = change.apply s.context) (s : Session τ σ) :
    AllOrNothing mode which (e.deliver c push accepted s).1 s.context
      (e.deliver c push accepted s).2.context := by
  rcases e.deliver_cases c push accepted s with ⟨error, heq⟩ | heq
  · rw [heq]
    exact .nothing
  · rw [heq, haccepted]
    exact .all hsuits

/-- A result that comes with no change at all. -/
theorem allOrNothing_same {mode : UpdateMode} {which : Subphase} (result : Except Problem α)
    (hsuits : Change.nothing.Suits mode which) (c : Context) :
    AllOrNothing mode which result c c := by
  cases result with
  | error problem => exact .nothing
  | ok value => exact .all hsuits

/-- Each subphase is all or nothing. -/
theorem Act.allOrNothing {which : Subphase} {action : Action τ σ α}
    (h : e.Act clean α which action) (s : Session τ σ) :
    AllOrNothing (modeOf clean) which (action s).1 s.context (action s).2.context := by
  cases h with
  | loadFromCache =>
    rcases e.loadFromCache_cases s with heq | ⟨snapshot, _, heq⟩
    -- There is nothing in the cache, or nothing that can be read.
    · rw [heq]
      exact allOrNothing_same _ .uncached _
    · rw [heq]
      exact allOrNothing_deliver (.loaded snapshot) (fun _ => rfl) s
  | obtainTrace =>
    have hrun : (e.runForText (e.dryRunArguments clean s.context.buildTarget) s).2.context
        = s.context := by rw [runForText_snd]
    -- Neither running the build tool nor keeping a copy of the trace concerns the context.
    have hcontext : (e.obtainTrace clean s).2.context = s.context := by
      rcases e.obtainTrace_snd clean s with heq | heq | ⟨trace, heq⟩
      · rw [heq]
      · rw [heq, hrun]
      · rw [heq]
        exact hrun
    rw [hcontext]
    exact allOrNothing_same _ .traced _
  | preprocess raw =>
    rw [preprocess_eq]
    exact allOrNothing_same _ .prepared _
  | parseForConfiguration trace =>
    -- The scan leaves the context alone, so only the delivery at its end matters.
    rw [← e.context_scanUnits trace s]
    rcases e.parseForConfiguration_cases trace (modeOf clean) s with heq | heq
    · rw [heq]
      exact .nothing
    · rw [heq]
      exact allOrNothing_deliver (.configured _) (fun _ => rfl) _
  | parseForLaunchTargets trace =>
    rcases e.parseForLaunchTargets_cases trace (modeOf clean) s with heq | ⟨found, -, hok, heq⟩
    · rw [heq]
      exact .nothing
    · rw [hok, heq]
      exact .all (.launched found)
  | parseForBuildTargets =>
    rcases e.parseForBuildTargets_cases (modeOf clean) s with ⟨⟨problem, herror⟩, heq⟩ |
      ⟨found, heq, hok⟩
    · rw [herror, heq]
      exact .nothing
    · rw [hok, heq]
      exact .all (.built found)
  | persist =>
    rw [persist_eq]
    exact allOrNothing_same _ .persisted _

end Equipment

end BuildTrace.Configure
