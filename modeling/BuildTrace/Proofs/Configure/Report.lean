import BuildTrace.Proofs.Configure.Life
import BuildTrace.Proofs.Configure.Pass
import Mathlib.Data.List.Infix

/-!
# What the report tells

The report on a run has an entry for every subphase that the run went through. This module proves
what can be told from it: which changes the run has made, and in which order the subphases come.

## Main definitions

* `Equipment.IsPass`: the subphases of a pass in order;
* `Equipment.Shape`: how the subphases of a run follow each other.
## Main results

* `Equipment.configure_changes`: a run makes the changes of its successful subphases and no others;
* `configure_shape`: every run that was not blocked has such a shape, and in the life of a context
  only the first of them looks at the cache.
-/

namespace BuildTrace.Configure

variable {τ σ : Type}

namespace Equipment

variable {e : Equipment τ σ} {clean : Bool} {s t : Session τ σ} {steps : List (Step τ σ)}
  {step : Step τ σ}

/-! ## Changes -/

/-- A run goes through the subphases of its report one after the other. Each one that is no success
leaves the context as it was when the subphase began, each successful one makes a change of its
own, and what becomes of the context in the run are these changes, in the order of the report. -/
theorem configure_changes (e : Equipment τ σ) (clean : Bool) (s : Session τ σ) :
    ∃ (start : Session τ σ) (steps : List (Step τ σ)) (changes : List Change),
      (start = s ∨ start = fresh s) ∧ e.Trail clean start steps (e.configure clean s).2 ∧
      (e.configure clean s).1.entries = steps.map Step.entry ∧
      (∀ step ∈ steps, step.outcome ≠ .success → step.after.context = step.before.context) ∧
      List.Forall₂ (fun step change => change.Suits (modeOf clean) step.subphase ∧
          step.after.context = change.apply step.before.context)
        (steps.filter (·.outcome = .success)) changes ∧
      (e.configure clean s).2.context.core
        = (changes.foldl (fun c change => change.apply c) s.context).core := by
  rcases hguards : s.context.guards.begin? .configure with _ | guards
  -- A run that is blocked goes through no subphases at all.
  · rw [configure_of_refused hguards]
    exact ⟨s, [], [], .inl rfl, .nil (.refl s), rfl, List.forall_mem_nil _, .nil, rfl⟩
  · obtain ⟨loading, first, second, outcome, t, hruns, hconfigure⟩ :=
      e.exists_runs clean hguards
    have htrail := (hruns.trail.mark_left (marked_begun guards s)).mark_right
      (marked_settle outcome t)
    obtain ⟨changes, hchanges, hcore⟩ := htrail.changes
    have hentries := htrail.entries
    rw [hconfigure]
    refine ⟨fresh s, _, changes, .inr rfl, htrail, hentries, ?_, hchanges, hcore⟩
    exact fun step hstep => (htrail.took step hstep).context_of_ne

/-! ## The plan of a pass -/

/-- The subphases of a pass in order. -/
def passPlan : List Subphase := surveyPlan ++ [.persist]

theorem Surveys.plan {result : Except Outcome (Outcome × Bool)}
    (h : e.Surveys clean s steps result t) : steps.map Step.subphase <+: surveyPlan := by
  cases h with
  | ended _ hplan => exact hplan
  | known _ hplan => exact ⟨_, hplan⟩
  | built _ hplan hlast =>
    rw [List.map_append, List.map_singleton, hlast, hplan]

theorem Surveys.ne_nil {result : Except Outcome (Outcome × Bool)}
    (h : e.Surveys clean s steps result t) : steps ≠ [] := by
  cases h with
  | ended | built => simp
  | known _ hplan =>
    rintro rfl
    simp [surveyPlan] at hplan

/-- The snapshot is not kept in a survey. -/
theorem ne_persist_of_plan (hplan : steps.map Step.subphase <+: surveyPlan) :
    ∀ step ∈ steps, step.subphase ≠ .persist :=
  Step.subphase_ne fun hmem => absurd (hplan.subset hmem) (by decide)

/-- In a survey the build targets are looked for last. -/
theorem eq_last_of_build {front : List (Step τ σ)} {last : Step τ σ}
    (hplan : (front ++ [last]).map Step.subphase <+: surveyPlan) (hmem : step ∈ front ++ [last])
    (hbuild : step.subphase = .parseForBuildTargets) :
    step = last ∧ ∀ other ∈ front, other.subphase ≠ .parseForBuildTargets := by
  have hearly : ∀ subphases ∈ surveyPlan.inits,
      Subphase.parseForBuildTargets ∉ subphases.dropLast := by decide
  have hfront : ∀ other ∈ front, other.subphase ≠ .parseForBuildTargets := by
    have hnot := hearly _ ((List.mem_inits _ _).mpr hplan)
    rw [List.map_append, List.map_singleton, List.dropLast_concat] at hnot
    exact Step.subphase_ne hnot
  rcases List.mem_append.mp hmem with hmem | hmem
  · exact absurd hbuild (hfront step hmem)
  · exact ⟨List.mem_singleton.mp hmem, hfront⟩

/-- Before the build targets other things are looked for. -/
theorem ne_build_of_plan (hplan : steps.map Step.subphase ++ [.parseForBuildTargets] = surveyPlan) :
    ∀ step ∈ steps, step.subphase ≠ .parseForBuildTargets := by
  have hearly : steps.map Step.subphase = surveyPlan.dropLast := by
    rw [← hplan, List.dropLast_concat]
  refine Step.subphase_ne ?_
  rw [hearly]
  decide

/-! ## The build targets in a pass -/

section Build

variable {result : Except Outcome (Outcome × Bool)}

/-- The build targets are looked for unless they are known already and the run adds to them. -/
theorem Surveys.looked (h : e.Surveys clean s steps result t) (hmem : step ∈ steps)
    (hbuild : step.subphase = .parseForBuildTargets) :
    clean = true ∨ step.before.context.snapshot.buildTargets = [] := by
  have hplan := h.plan
  have hlook : (clean || step.before.context.snapshot.buildTargets.isEmpty) = true := by
    cases h with
    | ended _ _ hlook =>
      obtain ⟨rfl, _⟩ := eq_last_of_build hplan hmem hbuild
      exact hlook hbuild
    | known _ hearly => exact absurd hbuild (ne_build_of_plan hearly step hmem)
    | built _ _ _ hlook =>
      obtain ⟨rfl, _⟩ := eq_last_of_build hplan hmem hbuild
      exact hlook
  simpa using hlook

/-- The selected build target is what it was at the beginning of the survey when the build targets
are looked for. -/
theorem Surveys.selected (h : e.Surveys clean s steps result t) (hmem : step ∈ steps)
    (hbuild : step.subphase = .parseForBuildTargets) :
    step.before.context.buildTarget = s.context.buildTarget := by
  have hplan := h.plan
  cases h with
  | ended htrail | built htrail =>
    obtain ⟨rfl, hfront⟩ := eq_last_of_build hplan hmem hbuild
    -- None of the steps before touches the selection.
    exact htrail.cut.of_changes Context.buildTarget (fun _ => rfl)
      fun other hother _ _ c hsuits => hsuits.buildTarget (hfront other hother) c
  | known _ hearly => exact absurd hbuild (ne_build_of_plan hearly step hmem)

/-- A survey tells that the selected build target is gone exactly if one of its steps found that
out. -/
theorem Surveys.vanishes_iff (h : e.Surveys clean s steps result t) :
    (∃ step ∈ steps, step.Vanishes) ↔ ∃ outcome, result = .ok (outcome, true) := by
  have hplan := h.plan
  constructor
  · rintro ⟨step, hmem, hvanishes⟩
    cases h with
    | ended _ _ _ _ hlast =>
      -- A step that ended the survey was no success.
      obtain ⟨rfl, _⟩ := eq_last_of_build hplan hmem hvanishes.1
      rcases hlast with hcancelled | ⟨_, hfailed⟩
      · exact absurd (hcancelled.symm.trans hvanishes.2.1) nofun
      · exact absurd hvanishes.2.1 hfailed
    | known _ hearly => exact absurd hvanishes.1 (ne_build_of_plan hearly step hmem)
    | @built _ _ outcome _ _ _ _ _ _ _ hlast =>
      obtain ⟨rfl, _⟩ := eq_last_of_build hplan hmem hvanishes.1
      exact ⟨outcome, by rw [hlast.mp hvanishes]⟩
  · rintro ⟨outcome, hresult⟩
    cases h with
    | ended | known => cases hresult
    | @built front last _ _ _ _ _ _ _ _ hlast =>
      cases hresult
      exact ⟨last, List.mem_append_right _ (List.mem_singleton_self _), hlast.mpr rfl⟩

end Build

/-! ## The shape of a pass -/

/-- The steps are those of a pass. -/
structure IsPass (clean : Bool) (steps : List (Step τ σ)) : Prop where
  /-- A pass begins with the trace. -/
  begins : (steps.map Step.subphase).head? = some .obtainTrace
  /-- It keeps to the plan as far as it gets. The build targets are left out only if they are known
  already when the snapshot is to be kept, and the run adds to them. -/
  plan : steps.map Step.subphase <+: passPlan ∨
    (steps.map Step.subphase = passPlan.erase .parseForBuildTargets ∧ clean = false ∧
      ∀ step ∈ steps, step.subphase = .persist → step.before.context.snapshot.buildTargets ≠ [])
  /-- If they are known already and the run adds to them, they are left out. -/
  looked : ∀ step ∈ steps, step.subphase = .parseForBuildTargets →
    clean = true ∨ step.before.context.snapshot.buildTargets = []

theorem Surveys.begins {result : Except Outcome (Outcome × Bool)}
    (h : e.Surveys clean s steps result t) :
    (steps.map Step.subphase).head? = some .obtainTrace := by
  have hfirst : ∀ subphases ∈ surveyPlan.inits, subphases ≠ [] →
      subphases.head? = some .obtainTrace := by decide
  have hne : steps.map Step.subphase ≠ [] := fun hnil => h.ne_nil (List.map_eq_nil_iff.mp hnil)
  exact hfirst _ ((List.mem_inits _ _).mpr h.plan) hne

/-- A survey is a pass, as far as it gets. -/
theorem Surveys.isPass {result : Except Outcome (Outcome × Bool)}
    (h : e.Surveys clean s steps result t) : IsPass clean steps where
  begins := h.begins
  plan := .inl (h.plan.trans (List.prefix_append _ _))
  looked _ hmem hbuild := h.looked hmem hbuild

/-- A survey after which the snapshot is to be kept makes a whole pass with that. -/
theorem Surveys.isPass_concat {outcome : Outcome} {vanished : Bool}
    (h : e.Surveys clean s steps (.ok (outcome, vanished)) t) {last : Step τ σ}
    (hlast : last.subphase = .persist) (hbefore : last.before = t) :
    IsPass clean (steps ++ [last]) where
  begins := by simp [h.begins]
  plan := by
    have hpersist := ne_persist_of_plan h.plan
    cases h with
    -- Without the build targets the last subphase comes where they would have been looked for.
    | known _ hplan hknown =>
      have hearly : steps.map Step.subphase = surveyPlan.dropLast := by
        rw [← hplan, List.dropLast_concat]
      obtain ⟨hclean, htargets⟩ : clean = false ∧ ¬t.context.snapshot.buildTargets = [] := by
        simpa using hknown
      refine .inr ⟨?_, hclean, ?_⟩
      · rw [List.map_append, hearly, List.map_singleton, hlast]
        decide
      · intro step hmem hstep
        rcases List.mem_append.mp hmem with hmem | hmem
        · exact absurd hstep (hpersist step hmem)
        · obtain rfl := List.mem_singleton.mp hmem
          rwa [hbefore]
    | built _ hplan hbuild =>
      left
      rw [List.map_append, List.map_append, List.map_singleton, List.map_singleton, hbuild, hplan,
        hlast]
      exact List.prefix_rfl
  looked step hmem hbuild := by
    rcases List.mem_append.mp hmem with hmem | hmem
    · exact h.looked hmem hbuild
    · obtain rfl := List.mem_singleton.mp hmem
      rw [hlast] at hbuild
      cases hbuild

theorem Ends.ne_nil {halted : Bool} {outcome : Outcome}
    (h : e.Ends clean s steps halted outcome t) : steps ≠ [] := by
  cases h with
  | stopped hsurveys | halted hsurveys => exact hsurveys.ne_nil
  | persisted => simp

theorem Ends.isPass {halted : Bool} {outcome : Outcome}
    (h : e.Ends clean s steps halted outcome t) : IsPass clean steps := by
  cases h with
  | stopped hsurveys | halted hsurveys => exact hsurveys.isPass
  | persisted hsurveys _ => exact hsurveys.isPass_concat rfl rfl

theorem Step.not_vanishes {step : Step τ σ} (h : step.subphase ≠ .parseForBuildTargets) :
    ¬step.Vanishes :=
  fun hvanishes => h hvanishes.1

/-- The last pass does not find out that the selected build target is gone. -/
theorem Ends.not_vanishes {halted : Bool} {outcome : Outcome}
    (h : e.Ends clean s steps halted outcome t) : ∀ step ∈ steps, ¬step.Vanishes := by
  have hsurvey : ∀ {steps : List (Step τ σ)} {t result},
      e.Surveys clean s steps result t → (∀ outcome, result ≠ .ok (outcome, true)) →
      ∀ step ∈ steps, ¬step.Vanishes := by
    intro steps t result hsurveys hne step hmem hvanishes
    obtain ⟨outcome, hresult⟩ := hsurveys.vanishes_iff.mp ⟨step, hmem, hvanishes⟩
    exact hne outcome hresult
  cases h with
  | stopped hsurveys => exact hsurvey hsurveys fun _ => nofun
  | halted hsurveys => exact hsurvey hsurveys fun _ h => by cases h
  | persisted hsurveys _ =>
    refine List.forall_mem_append.mpr ⟨hsurvey hsurveys (fun _ h => by cases h), ?_⟩
    exact List.forall_mem_singleton.mpr (Step.not_vanishes nofun)

theorem Ends.selected {halted : Bool} {outcome : Outcome}
    (h : e.Ends clean s steps halted outcome t) (hmem : step ∈ steps)
    (hbuild : step.subphase = .parseForBuildTargets) :
    step.before.context.buildTarget = s.context.buildTarget := by
  cases h with
  | stopped hsurveys | halted hsurveys => exact hsurveys.selected hmem hbuild
  | persisted hsurveys _ =>
    rcases List.mem_append.mp hmem with hmem | hmem
    · exact hsurveys.selected hmem hbuild
    · rw [List.mem_singleton.mp hmem] at hbuild
      cases hbuild

/-- Loading the snapshot of an earlier run does not touch the selected build target. -/
theorem Loads.buildTarget {loading : List (Step τ σ)} (h : e.Loads clean s loading t) :
    t.context.buildTarget = s.context.buildTarget := by
  have hnot : .parseForBuildTargets ∉ loading.map Step.subphase := by
    rw [h.subphases]
    split <;> decide
  exact h.trail.of_changes Context.buildTarget (fun _ => rfl)
    fun step hstep _ _ c hsuits => hsuits.buildTarget (Step.subphase_ne hnot step hstep) c

/-! ## The shape of a run -/

/-- The run over the session consists of the steps in which an earlier snapshot is loaded and of
those of a first and maybe a second pass. -/
structure Shape (e : Equipment τ σ) (clean : Bool) (s : Session τ σ)
    (loading first second : List (Step τ σ)) : Prop where
  /-- The run goes through these steps and no others. -/
  trail : e.Trail clean (fresh s) (loading ++ first ++ second) (e.configure clean s).2
  /-- The report has an entry for each step, in the same order. -/
  entries : (e.configure clean s).1.entries = (loading ++ first ++ second).map Step.entry
  /-- The observer is told that a step begins and that it has ended, in the same order. -/
  progress : (e.configure clean s).2.progress = (loading ++ first ++ second).flatMap Step.told
  /-- The snapshot of an earlier run is loaded unless that was tried before. -/
  loads : loading.map Step.subphase = if s.context.cacheTried then [] else [.loadFromCache]
  /-- After the run that has been tried. -/
  tried : (e.configure clean s).2.context.cacheTried = true
  /-- The first steps make a pass. -/
  firstPass : IsPass clean first
  /-- If there are others, they make a pass, too. -/
  secondPass : second ≠ [] → IsPass clean second
  /-- The report tells whether there are others. -/
  reran : (e.configure clean s).1.reran = true ↔ second ≠ []
  /-- That is the case if the first pass has found out that the selected build target is gone. -/
  vanished : (e.configure clean s).1.reran = true ↔ ∃ step ∈ first, step.Vanishes
  /-- The selected build target is the one that is selected when the run begins. -/
  selected : ∀ step ∈ first, step.subphase = .parseForBuildTargets →
    step.before.context.buildTarget = s.context.buildTarget
  /-- If there is a second pass, the snapshot is not kept in the first one. -/
  unpersisted : (e.configure clean s).1.reran = true → ∀ step ∈ first, step.subphase ≠ .persist
  /-- In the second pass no build target is selected. -/
  cleared : ∀ step ∈ second, step.before.context.buildTarget = none
  /-- The second pass does not ask for a third one. -/
  once : ∀ step ∈ second, ¬step.Vanishes

/-- The steps of a run that was granted the guards make its shape. -/
theorem Runs.shape {guards : Guards} {loading first second : List (Step τ σ)} {halted : Bool}
    {outcome : Outcome} (h : e.Runs clean (begun guards s) loading first second halted outcome t)
    (hconfigure : e.configure clean s = settle outcome t) :
    e.Shape clean s loading first second := by
  have htrail : e.Trail clean (fresh s) (loading ++ first ++ second) (e.configure clean s).2 := by
    rw [hconfigure]
    exact (h.trail.mark_left (marked_begun guards s)).mark_right (marked_settle outcome t)
  have hentries : (e.configure clean s).1.entries = (e.configure clean s).2.report.entries := by
    rw [hconfigure]
    rfl
  have hreran : (e.configure clean s).1.reran = t.report.reran := by
    rw [hconfigure]
    rfl
  have htried : (e.configure clean s).2.context.cacheTried = t.context.cacheTried := by
    rw [hconfigure]
    rfl
  have hentries := hentries.trans htrail.entries
  cases h with
  -- The only pass is the last one, which finds nothing gone.
  | once hloads hends hunmarked =>
    have hnot : (e.configure clean s).1.reran = false := hreran.trans hunmarked
    have hvanishes := hends.not_vanishes
    refine ⟨htrail, hentries, htrail.progress, hloads.subphases, ?_, hends.isPass, ?_, ?_, ?_, ?_,
      ?_, List.forall_mem_nil _, List.forall_mem_nil _⟩
    · exact htried.trans (hends.trail.tried hloads.tried)
    · exact fun hne => absurd rfl hne
    · simp [hnot]
    · simpa [hnot] using hvanishes
    · exact fun step hmem hbuild => (hends.selected hmem hbuild).trans hloads.buildTarget
    · simp [hnot]
  -- What the first pass has given up is not selected again in the second one.
  | twice hloads hsurveys hends hmarked =>
    have hagain : (e.configure clean s).1.reran = true := hreran.trans hmarked
    have htriedFirst := hsurveys.trail.tried hloads.tried
    have hcleared := (hends.trail.unselected hsurveys.buildTarget).2
    refine ⟨htrail, hentries, htrail.progress, hloads.subphases, ?_, hsurveys.isPass,
      fun _ => hends.isPass, ?_, ?_, ?_, fun _ => ne_persist_of_plan hsurveys.plan, hcleared,
      hends.not_vanishes⟩
    · exact htried.trans (hends.trail.tried htriedFirst)
    · simpa [hagain] using hends.ne_nil
    · exact iff_of_true hagain (hsurveys.vanishes_iff.mpr ⟨_, rfl⟩)
    · exact fun step hmem hbuild => (hsurveys.selected hmem hbuild).trans hloads.buildTarget

/-- A run that was not blocked has such a shape. -/
theorem exists_shape (h : (e.configure clean s).1.outcome ≠ .blocked) :
    ∃ loading first second, e.Shape clean s loading first second := by
  obtain ⟨guards, hguards⟩ := exists_guards h
  obtain ⟨loading, first, second, outcome, t, hruns, hconfigure⟩ := e.exists_runs clean hguards
  exact ⟨loading, first, second, hruns.shape hconfigure⟩

/-! ## The cache -/

/-- In a pass the cache is not looked at. -/
theorem IsPass.ne_load (h : IsPass clean steps) :
    ∀ step ∈ steps, step.subphase ≠ .loadFromCache := by
  refine Step.subphase_ne fun hmem => ?_
  rcases h.plan with hplan | ⟨hplan, _⟩
  · exact absurd (hplan.subset hmem) (by decide)
  · rw [hplan] at hmem
    exact absurd hmem (by decide)

/-- A run over a context whose cache was tried leaves one whose cache was tried, and does not look
at the cache. -/
theorem configure_of_tried (e : Equipment τ σ) (clean : Bool) {s : Session τ σ}
    (h : s.context.cacheTried = true) :
    (e.configure clean s).2.context.cacheTried = true ∧
      ∀ entry ∈ (e.configure clean s).1.entries, entry.subphase ≠ .loadFromCache := by
  rcases hguards : s.context.guards.begin? .configure with _ | guards
  · rw [configure_of_refused hguards]
    exact ⟨h, List.forall_mem_nil _⟩
  · obtain ⟨loading, first, second, _, _, hruns, hconfigure⟩ := e.exists_runs clean hguards
    have hshape := hruns.shape hconfigure
    refine ⟨hshape.tried, ?_⟩
    have hnothing : loading = [] := List.map_eq_nil_iff.mp (hshape.loads.trans (if_pos h))
    have hsecond : ∀ step ∈ second, step.subphase ≠ .loadFromCache := by
      intro step hstep
      exact (hshape.secondPass (List.ne_nil_of_mem hstep)).ne_load step hstep
    rw [hshape.entries, hnothing, List.nil_append]
    refine List.forall_mem_map.mpr (List.forall_mem_append.mpr ⟨?_, hsecond⟩)
    exact hshape.firstPass.ne_load

end Equipment

/-- A run that was blocked has gone through nothing. Any other run consists of one pass or two, and
whatever is run over its context afterwards does not look at the cache again. -/
theorem configure_shape (e : Equipment τ σ) (clean : Bool) (s : Session τ σ) :
    ((e.configure clean s).1.outcome = .blocked → (e.configure clean s).1.entries = []) ∧
    ((e.configure clean s).1.outcome ≠ .blocked →
      (∃ loading first second, e.Shape clean s loading first second) ∧
      ∀ (rounds : List (Round τ σ)) (r : Round τ σ),
        let context := lifeFrom (e.configure clean s).2.context rounds
        ∀ entry ∈ (r.run context).1.entries, entry.subphase ≠ .loadFromCache) := by
  refine ⟨fun h => ?_, fun h => ?_⟩
  · rw [Equipment.configure_of_blocked h]
  obtain ⟨loading, first, second, hshape⟩ := Equipment.exists_shape h
  refine ⟨⟨loading, first, second, hshape⟩, fun rounds r => ?_⟩
  -- Once the cache was tried, every round keeps that in mind.
  have htried : (lifeFrom (e.configure clean s).2.context rounds).cacheTried = true := by
    refine lifeFrom_of_run (P := fun context => context.cacheTried = true) ?_ rounds hshape.tried
    intro r context htried
    exact (r.equipment.configure_of_tried r.clean (s := r.start context) htried).1
  exact (r.equipment.configure_of_tried r.clean (s := r.start _) htried).2

/-- A round over the workspace in `/w` with a build target selected. The build tool prints nothing
on a dry run, and its database lists only `all`. -/
def selecting (target : String) : Round Unit Unit where
  equipment :=
    { settings := {}
      root := ⟨"/w"⟩
      runTool command _ tree tool :=
        let printed :=
          if command.arguments.contains "--question" then ["# Files", "all: a.o"] else []
        (⟨printed.map (.output, ·), false, .ok ⟨some 0, false⟩⟩, tree, tool)
      search _ _ := none
      sink := ⟨fun _ _ sink tree => (.ok (), sink, tree)⟩ }
  clean := true
  files := {}
  tool := ()
  sink := ()
  buildTarget := some target

/-- The first run in the life of a context goes through two passes if the selected build target is
gone, and the second one is the one that keeps the snapshot. -/
theorem configure_shape_selecting :
    let r := selecting "gone"
    let run := r.run {}
    run.1.reran = true ∧ run.1.count .loadFromCache = 1 ∧ run.1.count .obtainTrace = 2 ∧
      run.1.count .persist = 1 ∧
      (∃ loading first second, r.equipment.Shape r.clean (r.start {}) loading first second) ∧
      ∀ entry ∈ (r.run run.2.context).1.entries, entry.subphase ≠ .loadFromCache := by
  -- With the round out of sight only the kernel evaluates the run.
  generalize hr : selecting "gone" = r
  have hrun : (r.run {}).1.outcome ≠ .blocked ∧ (r.run {}).1.reran = true ∧
      (r.run {}).1.count .loadFromCache = 1 ∧ (r.run {}).1.count .obtainTrace = 2 ∧
      (r.run {}).1.count .persist = 1 := by
    subst hr
    decide +kernel
  obtain ⟨h, hreran, hload, hobtain, hpersist⟩ := hrun
  obtain ⟨hshape, hlater⟩ := (configure_shape r.equipment r.clean (r.start {})).2 h
  exact ⟨hreran, hload, hobtain, hpersist, hshape, hlater [] r⟩

end BuildTrace.Configure
