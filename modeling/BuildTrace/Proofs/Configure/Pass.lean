import BuildTrace.Proofs.Configure.Ending
import BuildTrace.Proofs.Configure.Trail

/-!
# The passes of a run

A run is a pass, or two of them: the second one follows if the first one finds out that the
selected build target is gone. This module takes a run apart into its passes, and says which
subphases a pass can consist of and how it comes to its outcome.

## Main definitions

* `verdict`: the outcome of the first entry that is no success;
* `Step.Vanishes`: a step that finds out that the selected build target is gone;
* `Equipment.Surveys`, `Equipment.Ends` and `Equipment.Runs`: the steps of a survey, of the last
  pass of a run, and of all passes of a run, with what they come to.

## Main results

* `Equipment.surveys`: every survey is a part of a pass;
* `Equipment.runs`: every run consists of one pass or two.
-/

namespace BuildTrace.Configure

variable {τ σ α : Type}

/-! ## Verdicts -/

/-- The outcome of the first entry that is no success. If there is none, all went well. -/
def verdict (entries : List Entry) : Outcome :=
  ((entries.find? (·.outcome ≠ .success)).map Entry.outcome).getD .success

theorem verdict_cons (entry : Entry) (entries : List Entry) :
    verdict (entry :: entries) = entry.outcome.andThen (verdict entries) := by
  by_cases h : entry.outcome = .success
  · simp [verdict, Outcome.andThen, h]
  · simp [verdict, Outcome.andThen, h]

theorem verdict_singleton (entry : Entry) : verdict [entry] = entry.outcome := by
  rw [verdict_cons]
  exact Equipment.Outcome.andThen_success _

theorem Outcome.andThen_assoc (a b c : Outcome) :
    (a.andThen b).andThen c = a.andThen (b.andThen c) := by
  by_cases h : a = .success
  · simp [andThen, h]
  · simp [andThen, h]

theorem verdict_append (entries others : List Entry) :
    verdict (entries ++ others) = (verdict entries).andThen (verdict others) := by
  induction entries with
  | nil => rfl
  | cons entry entries ih => rw [List.cons_append, verdict_cons, verdict_cons, ih,
      Outcome.andThen_assoc]

/-! ## The selected build target -/

/-- The step finds out that the selected build target is gone: the build targets were brought up to
date, and the one that had been selected is not among them. -/
def Step.Vanishes (step : Step τ σ) : Prop :=
  step.subphase = .parseForBuildTargets ∧ step.outcome = .success ∧
    ∃ target, step.before.context.buildTarget = some target ∧
      target ∉ step.after.context.snapshot.buildTargets

namespace Equipment

variable {e : Equipment τ σ} {clean : Bool}

/-- A build target that is gone is not selected any more. -/
theorem Took.buildTarget_of_vanishes {step : Step τ σ} (h : e.Took clean step)
    (hvanishes : step.Vanishes) : step.after.context.buildTarget = none := by
  obtain ⟨hbuild, hsuccess, target, hselected, hgone⟩ := hvanishes
  rcases h.cases_outcome with ⟨hne, _⟩ | ⟨_, change, hsuits, hafter⟩
  · exact absurd hsuccess hne
  · rw [hbuild] at hsuits
    cases hsuits with
    | built found =>
      rw [hafter] at hgone ⊢
      simpa [Change.apply, hselected, Snapshot.hasBuildTarget] using hgone

/-- The subphase of the build targets tells whether the selected one is gone. -/
theorem vanishes_iff {mode : UpdateMode} {s t : Session τ σ} {found : Except Outcome Bool}
    (h : e.subphase .parseForBuildTargets (e.parseForBuildTargets mode) s = (found, t)) :
    (⟨.parseForBuildTargets, outcomeOf found, s, t⟩ : Step τ σ).Vanishes ↔ found = .ok true := by
  have hresult : found = (e.parseForBuildTargets mode (e.tell (.status _) s)).1.mapError _ :=
    (congrArg Prod.fst h).symm.trans (subphase_fst ..)
  have hcontext : t.context = (e.parseForBuildTargets mode (e.tell (.status _) s)).2.context :=
    (congrArg (fun run => run.2.context) h).symm.trans (context_subphase ..)
  have hbegin : (e.tell (.status .parseForBuildTargets) s).context = s.context := rfl
  rcases e.parseForBuildTargets_cases mode (e.tell (.status .parseForBuildTargets) s) with
    ⟨⟨problem, herror⟩, _⟩ | ⟨names, hafter, hok⟩
  -- A subphase that failed has not found out anything.
  · rw [hresult, herror]
    exact ⟨fun hvanishes => absurd hvanishes.2.1 problem.outcome_ne.1, nofun⟩
  -- Otherwise the selection is given up exactly if it is not among the targets.
  · rw [hresult, hok, hbegin]
    rw [hbegin] at hafter
    simp only [Step.Vanishes, hcontext, hafter]
    cases hselected : s.context.buildTarget with
    | none => simp [Except.mapError]
    | some target =>
      simp [Except.mapError, outcomeOf, Change.apply, hselected, Snapshot.hasBuildTarget]

/-! ## Surveys -/

/-- The subphases in which a pass finds something out, in order. -/
def surveyPlan : List Subphase :=
  [.obtainTrace, .preprocess, .parseForConfiguration, .parseForLaunchTargets,
    .parseForBuildTargets]

/-- What the steps of a survey come to: an error is the outcome of a pass that ends there;
otherwise there is the outcome so far, and whether the selected build target is gone. -/
inductive Surveys (e : Equipment τ σ) (clean : Bool) (s : Session τ σ) :
    List (Step τ σ) → Except Outcome (Outcome × Bool) → Session τ σ → Prop where
  /-- The last step ended the pass: it was cancelled, or it was the first one and failed. -/
  | ended {front : List (Step τ σ)} {last : Step τ σ} :
      e.Trail clean s (front ++ [last]) last.after →
      (front ++ [last]).map Step.subphase <+: surveyPlan →
      (last.subphase = .parseForBuildTargets →
        (clean || last.before.context.snapshot.buildTargets.isEmpty) = true) →
      (∀ step ∈ front, step.outcome.Lets) →
      (last.outcome = .cancelled ∨ front = [] ∧ last.outcome ≠ .success) →
      Surveys e clean s (front ++ [last]) (.error last.outcome) last.after
  /-- The build targets are known already, so they were not looked for. -/
  | known {steps : List (Step τ σ)} {outcome : Outcome} {t : Session τ σ} :
      e.Trail clean s steps t →
      steps.map Step.subphase ++ [.parseForBuildTargets] = surveyPlan →
      (clean || t.context.snapshot.buildTargets.isEmpty) = false →
      (∀ step ∈ steps, step.outcome.Lets) → verdict (steps.map Step.entry) = outcome →
      Surveys e clean s steps (.ok (outcome, false)) t
  /-- All has been looked for. -/
  | built {front : List (Step τ σ)} {last : Step τ σ} {outcome : Outcome} {vanished : Bool} :
      e.Trail clean s (front ++ [last]) last.after →
      front.map Step.subphase ++ [.parseForBuildTargets] = surveyPlan →
      last.subphase = .parseForBuildTargets →
      (clean || last.before.context.snapshot.buildTargets.isEmpty) = true →
      (∀ step ∈ front ++ [last], step.outcome.Lets) →
      verdict ((front ++ [last]).map Step.entry) = outcome → (last.Vanishes ↔ vanished = true) →
      Surveys e clean s (front ++ [last]) (.ok (outcome, vanished)) last.after

theorem Surveys.mark_left {s t u : Session τ σ} {steps : List (Step τ σ)}
    {result : Except Outcome (Outcome × Bool)} (hmark : s.Marked t)
    (h : e.Surveys clean t steps result u) : e.Surveys clean s steps result u := by
  cases h with
  | ended htrail hplan hlook hlets hlast =>
    exact .ended (htrail.mark_left hmark) hplan hlook hlets hlast
  | known htrail hplan hknown hlets hverdict =>
    exact .known (htrail.mark_left hmark) hplan hknown hlets hverdict
  | built htrail hplan hlast hlook hlets hverdict hvanishes =>
    exact .built (htrail.mark_left hmark) hplan hlast hlook hlets hverdict hvanishes

theorem Surveys.trail {s t : Session τ σ} {steps : List (Step τ σ)}
    {result : Except Outcome (Outcome × Bool)} (h : e.Surveys clean s steps result t) :
    e.Trail clean s steps t := by
  cases h with
  | ended htrail | known htrail | built htrail => exact htrail

/-- A trace was obtained and prepared, and compile units were looked for. -/
theorem trail_configured {raw trace : String} {configured : Except Outcome Unit}
    {s t u v : Session τ σ}
    (hobtain : e.subphase .obtainTrace (e.obtainTrace clean) s = (.ok raw, t))
    (hprepare : e.subphase .preprocess (e.preprocess raw) t = (.ok trace, u))
    (hconfigure : e.subphase .parseForConfiguration (e.parseForConfiguration trace (modeOf clean))
      (counted trace u) = (configured, v)) :
    e.Trail clean s
      ([⟨.obtainTrace, .success, s, t⟩] ++ [⟨.preprocess, .success, t, u⟩] ++
        [⟨.parseForConfiguration, outcomeOf configured, counted trace u, v⟩]) v := by
  have hobtained : e.Trail clean s ([] ++ [⟨.obtainTrace, .success, s, t⟩]) t :=
    Trail.snoc (.nil (.refl s)) (.refl s) .obtainTrace hobtain
  have hprepared := hobtained.snoc (.refl t) (.preprocess raw) hprepare
  have hcount : u.Marked (counted trace u) := ⟨_, _, _, _, _, id, rfl⟩
  exact hprepared.snoc hcount (.parseForConfiguration trace) hconfigure

/-- Without the build targets, the configuration and the launch targets make the verdict. -/
theorem verdict_launched (configured launched : Outcome) (s t u v w x : Session τ σ) :
    let steps : List (Step τ σ) :=
      [⟨.obtainTrace, .success, s, t⟩] ++ [⟨.preprocess, .success, t, u⟩] ++
        [⟨.parseForConfiguration, configured, v, w⟩] ++ [⟨.parseForLaunchTargets, launched, w, x⟩]
    verdict (steps.map Step.entry) = configured.andThen launched := by
  simp only [List.map_append, List.map_singleton, verdict_append, verdict_singleton, Step.entry]
  rfl

/-- Every survey is a part of a pass. -/
theorem surveys_of_surveyed {s t : Session τ σ} {result : Except Outcome (Outcome × Bool)}
    (h : e.Surveyed clean (modeOf clean) s result t) :
    ∃ steps, e.Surveys clean s steps result t := by
  have hsuccess : Outcome.success.Lets := ⟨nofun, nofun⟩
  -- Each way to end a survey says which subphases it went through. It is left to show that none of
  -- those before the last one has ended it.
  cases h with
  | @untraced outcome t hobtain =>
    obtain ⟨problem, _, hproblem⟩ := exists_problem (congrArg Prod.fst hobtain)
    have htrail := Trail.snoc (.nil (.refl s)) (.refl s) .obtainTrace hobtain
    refine ⟨_, .ended htrail ⟨_, rfl⟩ nofun (List.forall_mem_nil _) (.inr ⟨rfl, ?_⟩)⟩
    exact hproblem ▸ problem.outcome_ne.1
  | @unprepared raw t outcome u hobtain hprepare =>
    obtain ⟨problem, herror, rfl⟩ := exists_problem (congrArg Prod.fst hprepare)
    obtain rfl := preprocess_error herror
    have htrail := Trail.snoc (.nil (.refl s)) (.refl s) .obtainTrace hobtain
    refine ⟨_, .ended (htrail.snoc (.refl t) (.preprocess raw) hprepare) ⟨_, rfl⟩ nofun ?_
      (.inl rfl)⟩
    exact List.forall_mem_singleton.mpr hsuccess
  | unconfigured hobtain hprepare hconfigure =>
    refine ⟨_, .ended (trail_configured hobtain hprepare hconfigure) ⟨_, rfl⟩ nofun ?_ (.inl rfl)⟩
    simp [hsuccess]
  | @unlaunched raw t trace u configured v w hobtain hprepare hconfigure hconfigured hlaunch =>
    have htrail := trail_configured hobtain hprepare hconfigure
    refine ⟨_, .ended (htrail.snoc (.refl v) (.parseForLaunchTargets trace) hlaunch) ⟨_, rfl⟩ nofun
      ?_ (.inl rfl)⟩
    simp [hsuccess, lets_subphase hconfigure hconfigured]
  | @known raw t trace u configured v launched w hobtain hprepare hconfigure hconfigured hlaunch
      hlaunched hknown =>
    have htrail := trail_configured hobtain hprepare hconfigure
    refine ⟨_, .known (htrail.snoc (.refl v) (.parseForLaunchTargets trace) hlaunch) rfl hknown
      ?_ (verdict_launched ..)⟩
    simp [hsuccess, lets_subphase hconfigure hconfigured, lets_subphase hlaunch hlaunched]
  | @unbuilt raw t trace u configured v launched w x hobtain hprepare hconfigure hconfigured
      hlaunch hlaunched hlook hbuild =>
    have htrail := trail_configured hobtain hprepare hconfigure
    have htrail := htrail.snoc (.refl v) (.parseForLaunchTargets trace) hlaunch
    refine ⟨_, .ended (htrail.snoc (.refl w) .parseForBuildTargets hbuild) ⟨_, rfl⟩
      (fun _ => hlook) ?_ (.inl rfl)⟩
    simp [hsuccess, lets_subphase hconfigure hconfigured, lets_subphase hlaunch hlaunched]
  | @built raw t trace u configured v launched w found x hobtain hprepare hconfigure hconfigured
      hlaunch hlaunched hlook hbuild hbuilt =>
    have htrail := trail_configured hobtain hprepare hconfigure
    have htrail := htrail.snoc (.refl v) (.parseForLaunchTargets trace) hlaunch
    have hvanished : found = .ok true ↔ found.toOption.getD false = true := by
      rcases found with outcome | vanished <;> simp [Except.toOption]
    refine ⟨_, .built (htrail.snoc (.refl w) .parseForBuildTargets hbuild) rfl rfl hlook ?_ ?_
      ((vanishes_iff hbuild).trans hvanished)⟩
    · simp [hsuccess, lets_subphase hconfigure hconfigured, lets_subphase hlaunch hlaunched,
        lets_subphase hbuild hbuilt]
    · rw [List.map_append, verdict_append, verdict_launched, List.map_singleton,
        verdict_singleton]
      rfl

/-! ## What a survey does not mark -/

/-- No stage marks that the run begins again. -/
theorem reran_of_eq {which : Subphase} {action : Action τ σ α} {s t : Session τ σ}
    {result : Except Outcome α} (hstage : e.Stage α which action)
    (h : e.subphase which action s = (result, t)) : t.report.reran = s.report.reran := by
  have hkept : (action (e.tell (.status which) s)).2.report.reran = s.report.reran :=
    congrArg Report.reran (hstage.kept _).report
  rw [subphase_eq] at h
  rw [← (Prod.mk.inj h).2]
  exact hkept

theorem reran_of_configured {mode : UpdateMode} {raw trace : String}
    {configured : Except Outcome Unit} {s t u v : Session τ σ}
    (hobtain : e.subphase .obtainTrace (e.obtainTrace clean) s = (.ok raw, t))
    (hprepare : e.subphase .preprocess (e.preprocess raw) t = (.ok trace, u))
    (hconfigure : e.subphase .parseForConfiguration (e.parseForConfiguration trace mode)
      (counted trace u) = (configured, v)) : v.report.reran = s.report.reran := by
  have hcounted : (counted trace u).report.reran = u.report.reran := rfl
  rw [reran_of_eq (.parseForConfiguration trace mode) hconfigure, hcounted,
    reran_of_eq (.preprocess raw) hprepare, reran_of_eq (.obtainTrace clean) hobtain]

/-- A survey does not mark that the run begins again. -/
theorem reran_of_surveyed {mode : UpdateMode} {s t : Session τ σ}
    {result : Except Outcome (Outcome × Bool)} (h : e.Surveyed clean mode s result t) :
    t.report.reran = s.report.reran := by
  -- Going back through the stages, each of them leaves the mark as it was.
  cases h with
  | untraced hobtain => exact reran_of_eq (.obtainTrace clean) hobtain
  | unprepared hobtain hprepare =>
    rw [reran_of_eq (.preprocess _) hprepare, reran_of_eq (.obtainTrace clean) hobtain]
  | unconfigured hobtain hprepare hconfigure =>
    exact reran_of_configured hobtain hprepare hconfigure
  | unlaunched hobtain hprepare hconfigure _ hlaunch
  | known hobtain hprepare hconfigure _ hlaunch =>
    rw [reran_of_eq (.parseForLaunchTargets _ mode) hlaunch,
      reran_of_configured hobtain hprepare hconfigure]
  | unbuilt hobtain hprepare hconfigure _ hlaunch _ _ hbuild
  | built hobtain hprepare hconfigure _ hlaunch _ _ hbuild =>
    rw [reran_of_eq (.parseForBuildTargets mode) hbuild,
      reran_of_eq (.parseForLaunchTargets _ mode) hlaunch,
      reran_of_configured hobtain hprepare hconfigure]

/-! ## Passes -/

/-- The steps in which the snapshot of an earlier run is loaded, unless that was tried before. -/
structure Loads (e : Equipment τ σ) (clean : Bool) (s : Session τ σ) (steps : List (Step τ σ))
    (t : Session τ σ) : Prop where
  /-- The steps lead from one session to the other. -/
  trail : e.Trail clean s steps t
  /-- There is at most one of them. -/
  subphases : steps.map Step.subphase = if s.context.cacheTried then [] else [.loadFromCache]
  /-- After them the cache has been tried. -/
  tried : t.context.cacheTried = true
  /-- The run is not marked as begun again. -/
  reran : t.report.reran = s.report.reran

theorem loads (e : Equipment τ σ) (clean : Bool) (s : Session τ σ) :
    ∃ steps, e.Loads clean s steps (e.loadOnce { s with statistics := {} }) := by
  rw [loadOnce]
  split
  next htried =>
    refine ⟨[], .nil ⟨_, _, _, _, _, id, rfl⟩, ?_, htried, rfl⟩
    exact (if_pos htried).symm
  next htried =>
    generalize hbegin : ({ s with
      statistics := {}, context := { s.context with cacheTried := true } } : Session τ σ) = t
    have hmark : s.Marked t := ⟨_, _, _, _, _, fun _ => rfl, hbegin.symm⟩
    have hbegun : t.context.cacheTried = true := hbegin ▸ rfl
    have hreran : t.report.reran = s.report.reran := hbegin ▸ rfl
    rcases hload : e.subphase .loadFromCache e.loadFromCache t with ⟨result, u⟩
    have htrail : e.Trail clean t ([] ++ [⟨.loadFromCache, outcomeOf result, t, u⟩]) u :=
      Trail.snoc (.nil (.refl t)) (.refl t) .loadFromCache hload
    refine ⟨_, htrail.mark_left hmark, ?_, htrail.tried hbegun, ?_⟩
    · exact (if_neg htried).symm
    · exact (reran_of_eq .loadFromCache hload).trans hreran

/-- Every survey first loads the snapshot of an earlier run, unless that was tried before. -/
theorem surveys (e : Equipment τ σ) (clean : Bool) (s : Session τ σ) :
    ∃ loading t steps, e.Loads clean s loading t ∧
      e.Surveys clean t steps (e.survey clean s).1 (e.survey clean s).2 ∧
      (e.survey clean s).2.report.reran = t.report.reran := by
  obtain ⟨loading, hloads⟩ := e.loads clean s
  obtain ⟨steps, hsurveys⟩ := surveys_of_surveyed (e.surveyed clean s)
  exact ⟨loading, _, steps, hloads, hsurveys, reran_of_surveyed (e.surveyed clean s)⟩

/-- The cache has been tried when a survey is over. -/
theorem tried_survey {s t : Session τ σ} {result : Except Outcome (Outcome × Bool)}
    (h : e.survey clean s = (result, t)) : t.context.cacheTried = true := by
  obtain ⟨loading, u, steps, hloads, hsurveys, -⟩ := e.surveys clean s
  rw [h] at hsurveys
  exact hsurveys.trail.tried hloads.tried

/-! ## A build target that is gone -/

section Vanished

variable {s t : Session τ σ} {steps : List (Step τ σ)} {outcome : Outcome} {vanished : Bool}

/-- When a survey has found out that the selected build target is gone, none is selected. -/
theorem Surveys.buildTarget (h : e.Surveys clean s steps (.ok (outcome, true)) t) :
    t.context.buildTarget = none := by
  cases h with
  | @built front last _ _ htrail _ _ _ _ _ hvanishes =>
    have htook := htrail.took last (List.mem_append_right _ (List.mem_singleton_self _))
    exact htook.buildTarget_of_vanishes (hvanishes.mpr rfl)

/-- Where no build target is selected, none is found to be gone. -/
theorem Surveys.not_vanished (h : e.Surveys clean s steps (.ok (outcome, vanished)) t)
    (hs : s.context.buildTarget = none) : vanished = false := by
  cases h with
  | known => rfl
  | @built front last _ _ htrail _ _ _ _ _ hvanishes =>
    -- Until the last step no build target is selected, so that one does not give any up.
    have hnone := (htrail.unselected hs).2 last
      (List.mem_append_right _ (List.mem_singleton_self _))
    rw [← Bool.not_eq_true]
    intro hvanished
    obtain ⟨_, _, target, hselected, _⟩ := hvanishes.mpr hvanished
    rw [hnone] at hselected
    cases hselected

end Vanished

/-! ## Whole runs -/

/-- What follows an exploration: the snapshot is kept, unless the exploration has ended the run. -/
def finish (e : Equipment τ σ) : Except Outcome Outcome × Session τ σ → Outcome × Session τ σ
  | (.error outcome, s) => (outcome, s)
  | (.ok outcome, s) => e.conclude outcome s

/-- An exploration has not ended the run, but the run has been cancelled meanwhile, so the snapshot
is not kept. -/
def haltsAfter : Except Outcome Outcome × Session τ σ → Bool
  | (.error _, _) => false
  | (.ok _, s) => s.cancelled

/-- The run gets to the check before the snapshot is kept, and there it is found cancelled. -/
def halts (e : Equipment τ σ) (clean : Bool) (s : Session τ σ) : Bool :=
  match s.context.guards.begin? .configure with
  | none => false
  | some guards => haltsAfter (e.explore clean 1 (begun guards s))

/-- The steps of the last pass of a run, whether it was halted before the snapshot was kept, and
its outcome. -/
inductive Ends (e : Equipment τ σ) (clean : Bool) (s : Session τ σ) :
    List (Step τ σ) → Bool → Outcome → Session τ σ → Prop where
  /-- The survey has ended the pass. -/
  | stopped {steps : List (Step τ σ)} {outcome : Outcome} {t : Session τ σ} :
      e.Surveys clean s steps (.error outcome) t → Ends e clean s steps false outcome t
  /-- The pass was cancelled before the snapshot was kept. -/
  | halted {steps : List (Step τ σ)} {outcome : Outcome} {t : Session τ σ} :
      e.Surveys clean s steps (.ok (outcome, false)) t → Ends e clean s steps true .cancelled t
  /-- The snapshot was kept, or could not be. -/
  | persisted {steps : List (Step τ σ)} {outcome : Outcome} {t u : Session τ σ}
      {result : Except Outcome Unit} :
      e.Surveys clean s steps (.ok (outcome, false)) t →
      e.subphase .persist e.persist t = (result, u) →
      Ends e clean s (steps ++ [⟨.persist, outcomeOf result, t, u⟩]) false
        (outcome.andThen (outcomeOf result)) u

theorem Ends.mark_left {s t u : Session τ σ} {steps : List (Step τ σ)} {halted : Bool}
    {outcome : Outcome} (hmark : s.Marked t) (h : e.Ends clean t steps halted outcome u) :
    e.Ends clean s steps halted outcome u := by
  cases h with
  | stopped hsurveys => exact .stopped (hsurveys.mark_left hmark)
  | halted hsurveys => exact .halted (hsurveys.mark_left hmark)
  | persisted hsurveys hpersist => exact .persisted (hsurveys.mark_left hmark) hpersist

theorem Ends.trail {s t : Session τ σ} {steps : List (Step τ σ)} {halted : Bool}
    {outcome : Outcome} (h : e.Ends clean s steps halted outcome t) :
    e.Trail clean s steps t := by
  cases h with
  | stopped hsurveys | halted hsurveys => exact hsurveys.trail
  | persisted hsurveys hpersist => exact hsurveys.trail.snoc (.refl _) .persist hpersist

/-- The steps of a run: those in which an earlier snapshot is loaded, and those of the passes. -/
inductive Runs (e : Equipment τ σ) (clean : Bool) (s : Session τ σ) :
    (loading first second : List (Step τ σ)) → Bool → Outcome → Session τ σ → Prop where
  /-- There is one pass. -/
  | once {loading first : List (Step τ σ)} {halted : Bool} {outcome : Outcome}
      {t u : Session τ σ} :
      e.Loads clean s loading t → e.Ends clean t first halted outcome u →
      u.report.reran = s.report.reran → Runs e clean s loading first [] halted outcome u
  /-- The first pass has found out that the selected build target is gone, so there is another. -/
  | twice {loading first second : List (Step τ σ)} {halted : Bool} {so_far outcome : Outcome}
      {t u v : Session τ σ} :
      e.Loads clean s loading t → e.Surveys clean t first (.ok (so_far, true)) u →
      e.Ends clean u second halted outcome v → v.report.reran = true →
      Runs e clean s loading first second halted outcome v

/-- Keeping the snapshot does not mark that the run begins again. -/
theorem reran_finish (e : Equipment τ σ) (explored : Except Outcome Outcome × Session τ σ) :
    (e.finish explored).2.report.reran = explored.2.report.reran := by
  obtain ⟨_ | outcome, s⟩ := explored
  · rfl
  · rw [finish, conclude]
    split
    · rfl
    · rw [subphase_eq, persist_eq]
      rfl

/-- A survey that does not find the selected build target gone is that of the last pass. -/
theorem ends_finish {s t : Session τ σ} {steps : List (Step τ σ)}
    {result : Except Outcome (Outcome × Bool)} (h : e.Surveys clean s steps result t)
    (hvanished : ∀ outcome, result ≠ .ok (outcome, true)) :
    ∃ pass, let explored := (result.map Prod.fst, t)
      e.Ends clean s pass (haltsAfter explored) (e.finish explored).1 (e.finish explored).2 := by
  rcases result with outcome | ⟨outcome, vanished⟩
  · exact ⟨steps, .stopped h⟩
  -- A survey that got to its end is followed by the check, and then by the keeping.
  · obtain rfl : vanished = false := by
      cases vanished
      · rfl
      · exact absurd rfl (hvanished outcome)
    by_cases hcancelled : t.cancelled = true
    · refine ⟨steps, ?_⟩
      simp only [Except.map, finish, haltsAfter, conclude, hcancelled, if_true]
      exact .halted h
    · rw [Bool.not_eq_true] at hcancelled
      rcases hpersist : e.subphase .persist e.persist t with ⟨result, u⟩
      refine ⟨steps ++ [⟨.persist, outcomeOf result, t, u⟩], ?_⟩
      simp only [Except.map, finish, haltsAfter, conclude, hcancelled, hpersist]
      exact .persisted h hpersist

/-- A survey of a run that has tried the cache does not load anything. -/
theorem surveys_of_tried {s t : Session τ σ} {result : Except Outcome (Outcome × Bool)}
    (htried : s.context.cacheTried = true) (h : e.survey clean s = (result, t)) :
    ∃ steps, e.Surveys clean s steps result t ∧ t.report.reran = s.report.reran := by
  obtain ⟨loading, t₁, steps, hloads, hsurveys, hreran⟩ := e.surveys clean s
  rw [h] at hsurveys hreran
  have hnothing : loading = [] := List.map_eq_nil_iff.mp (hloads.subphases.trans (if_pos htried))
  have htrail := hloads.trail
  rw [hnothing] at htrail
  cases htrail with
  | nil hmark => exact ⟨steps, hsurveys.mark_left hmark, hreran.trans hloads.reran⟩

/-- An exploration that cannot begin again is a last pass, if the cache was tried and no build
target is selected. -/
theorem ends_of_explored {s t : Session τ σ} {result : Except Outcome Outcome}
    (h : e.Explored clean 0 s result t) (htried : s.context.cacheTried = true)
    (hnone : s.context.buildTarget = none) :
    ∃ pass, e.Ends clean s pass (haltsAfter (result, t)) (e.finish (result, t)).1
        (e.finish (result, t)).2 ∧ (e.finish (result, t)).2.report.reran = s.report.reran := by
  cases h with
  | ended hsurvey =>
    obtain ⟨steps, hsurveys, hreran⟩ := surveys_of_tried htried hsurvey
    obtain ⟨pass, hends⟩ := ends_finish hsurveys fun _ => nofun
    exact ⟨pass, hends, (e.reran_finish _).trans hreran⟩
  | complete hsurvey _ =>
    obtain ⟨steps, hsurveys, hreran⟩ := surveys_of_tried htried hsurvey
    -- No build target is selected, so none is gone.
    obtain rfl := hsurveys.not_vanished hnone
    obtain ⟨pass, hends⟩ := ends_finish hsurveys fun _ h => by cases h
    exact ⟨pass, hends, (e.reran_finish _).trans hreran⟩

/-- An exploration that can begin again once is one pass or two. -/
theorem runs_of_explored {s t : Session τ σ} {result : Except Outcome Outcome}
    (h : e.Explored clean 1 s result t) :
    ∃ loading first second, e.Runs clean s loading first second (haltsAfter (result, t))
      (e.finish (result, t)).1 (e.finish (result, t)).2 := by
  obtain ⟨loading, begun, first, hloads, hsurveys, hreran⟩ := e.surveys clean s
  have hunmarked := hreran.trans hloads.reran
  cases h with
  | ended hsurvey =>
    rw [hsurvey] at hsurveys hunmarked
    obtain ⟨pass, hends⟩ := ends_finish hsurveys fun _ => nofun
    exact ⟨loading, pass, [], .once hloads hends ((e.reran_finish _).trans hunmarked)⟩
  | @complete _ _ outcome vanished _ hsurvey hlast =>
    rw [hsurvey] at hsurveys hunmarked
    obtain ⟨pass, hends⟩ := ends_finish hsurveys fun _ h => by
      cases h
      exact absurd (hlast rfl) Nat.one_ne_zero
    exact ⟨loading, pass, [], .once hloads hends ((e.reran_finish _).trans hunmarked)⟩
  | @again _ _ _ u _ _ hsurvey hexplored =>
    rw [hsurvey] at hsurveys
    have htried : u.context.cacheTried = true := hsurveys.trail.tried hloads.tried
    have hmark : u.Marked { u with report := { u.report with reran := true } } :=
      ⟨_, _, _, _, _, id, rfl⟩
    obtain ⟨pass, hends, hmarked⟩ := ends_of_explored hexplored htried hsurveys.buildTarget
    exact ⟨loading, first, pass, .twice hloads hsurveys (hends.mark_left hmark) hmarked⟩

/-- Every run consists of one pass or two. -/
theorem runs (e : Equipment τ σ) (clean : Bool) (s : Session τ σ) :
    ∃ loading first second, e.Runs clean s loading first second (haltsAfter (e.explore clean 1 s))
      (e.pass clean 1 s).1 (e.pass clean 1 s).2 := by
  have hpass : e.pass clean 1 s = e.finish (e.explore clean 1 s) := by
    rw [pass]
    rcases e.explore clean 1 s with ⟨_ | outcome, t⟩ <;> rfl
  rw [hpass]
  exact runs_of_explored (e.explored clean 1 s)

theorem Runs.trail {s t : Session τ σ} {loading first second : List (Step τ σ)} {halted : Bool}
    {outcome : Outcome} (h : e.Runs clean s loading first second halted outcome t) :
    e.Trail clean s (loading ++ first ++ second) t := by
  cases h with
  | once hloads hends _ =>
    rw [List.append_nil]
    exact hloads.trail.append hends.trail
  | twice hloads hsurveys hends _ =>
    exact (hloads.trail.append hsurveys.trail).append hends.trail

/-- A run that is granted the guards is a pass with its outcome settled. -/
theorem configure_of_granted {s : Session τ σ} {guards : Guards}
    (h : s.context.guards.begin? .configure = some guards) :
    e.configure clean s
      = settle (e.pass clean 1 (begun guards s)).1 (e.pass clean 1 (begun guards s)).2 := by
  unfold configure
  rw [h]
  rfl

/-- A run that is not granted the guards is blocked and does nothing. -/
theorem configure_of_refused {s : Session τ σ}
    (h : s.context.guards.begin? .configure = none) :
    e.configure clean s = ({ outcome := .blocked }, s) := by
  unfold configure
  rw [h]

theorem marked_begun (guards : Guards) (s : Session τ σ) : (fresh s).Marked (begun guards s) :=
  ⟨_, _, _, _, _, id, rfl⟩

theorem marked_settle (outcome : Outcome) (s : Session τ σ) : s.Marked (settle outcome s).2 :=
  ⟨_, _, _, _, _, id, rfl⟩

/-- A run that is granted the guards goes through its passes and settles their outcome. -/
theorem exists_runs (e : Equipment τ σ) (clean : Bool) {s : Session τ σ} {guards : Guards}
    (h : s.context.guards.begin? .configure = some guards) :
    ∃ loading first second outcome t,
      e.Runs clean (begun guards s) loading first second (e.halts clean s) outcome t ∧
      e.configure clean s = settle outcome t := by
  obtain ⟨loading, first, second, hruns⟩ := e.runs clean (begun guards s)
  have hhalts : e.halts clean s = haltsAfter (e.explore clean 1 (begun guards s)) := by
    rw [halts, h]
  rw [← hhalts] at hruns
  exact ⟨loading, first, second, _, _, hruns, configure_of_granted h⟩

/-- A run is blocked exactly if it is not granted the guards. -/
theorem blocked_iff {s : Session τ σ} :
    (e.configure clean s).1.outcome = .blocked ↔ s.context.guards.begin? .configure = none := by
  refine ⟨fun h => ?_, fun h => by rw [configure_of_refused h]⟩
  have hconfigured := e.configured clean s
  generalize e.configure clean s = run at h hconfigured
  cases hconfigured with
  | blocked hrefused => exact hrefused
  -- No subphase has that outcome, so a run that was granted the guards has not either.
  | @ended guards outcome t _ hexplore =>
    have hexplored := e.explored clean 1 (begun guards s)
    rw [hexplore] at hexplored
    rw [settle_outcome_eq_blocked] at h
    subst h
    rcases hexplored.error_cases rfl with hcancelled | ⟨_, hblocked, _⟩
    · cases hcancelled
    · exact absurd rfl hblocked
  | cancelled => cases settle_outcome_eq_blocked.mp h
  | persisted _ hexplore _ hpersist =>
    exact absurd (settle_outcome_eq_blocked.mp h) (lets_of_persist hexplore hpersist).2

/-- A run that was not blocked was granted the guards. -/
theorem exists_guards {s : Session τ σ} (h : (e.configure clean s).1.outcome ≠ .blocked) :
    ∃ guards, s.context.guards.begin? .configure = some guards :=
  Option.ne_none_iff_exists'.mp fun hrefused => h (blocked_iff.mpr hrefused)

/-- A run that was blocked did nothing. -/
theorem configure_of_blocked {s : Session τ σ} (h : (e.configure clean s).1.outcome = .blocked) :
    e.configure clean s = ({ outcome := .blocked }, s) :=
  configure_of_refused (blocked_iff.mp h)

end Equipment

end BuildTrace.Configure
