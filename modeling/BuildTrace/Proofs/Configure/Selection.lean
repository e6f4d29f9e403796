import BuildTrace.Proofs.Configure.Forgetting
import BuildTrace.Proofs.Configure.Verdict

/-!
# Selections

A launch target and a build target may be selected. A run brings the lists up to date from which
they are selected, each of them in a subphase of its own, which may come several times, or not at
all, or fail. This module proves that a run never selects anything, and gives a selection up exactly
if one of these subphases has found it missing.

## Main definitions

* `Selection`: what can be selected; `Selection.Lists` says that it is there to be selected;
* `Selection.UpdatedBy`: the step has brought the list up to date;
* `Selection.Consistent`: what is selected is listed;
* `Equipment.Goes`: the run goes through the steps.

## Main results

* `Equipment.Trail.selected_iff`: what is selected at the end of a trail was selected before, and
  listed after each update;
* `Equipment.Trail.consistent_of_updated`: after an update, selections are consistent with the lists
  until the cache is looked at;
* `Equipment.configure_selections`: what becomes of the selections in a run.
-/

namespace BuildTrace.Configure

variable {τ σ : Type}

/-- What can be selected among the findings of runs. -/
inductive Selection where
  /-- A launch target, by its canonical form. -/
  | launchTarget
  /-- A build target, by its name. -/
  | buildTarget
  deriving DecidableEq, Repr

namespace Selection

/-- The subphase that brings the list up to date from which is selected. -/
def subphase : Selection → Subphase
  | launchTarget => .parseForLaunchTargets
  | buildTarget => .parseForBuildTargets

/-- What is selected in the context. -/
def selected : Selection → Context → Option String
  | launchTarget, c => c.launchTarget
  | buildTarget, c => c.buildTarget

/-- The target is in the list from which is selected. -/
def Lists : Selection → Snapshot → String → Prop
  | launchTarget, snapshot, target => ∃ t ∈ snapshot.launchTargets, t.canonical = target
  | buildTarget, snapshot, target => target ∈ snapshot.buildTargets

/-- The step has brought the list up to date. -/
def UpdatedBy (p : Selection) (step : Step τ σ) : Prop :=
  step.subphase = p.subphase ∧ step.outcome = .success

/-- What is selected is listed. -/
def Consistent (p : Selection) (c : Context) : Prop :=
  ∀ target, p.selected c = some target → p.Lists c.snapshot target

variable {p : Selection} {c : Context} {target : String}

theorem selected_core (p : Selection) (c : Context) : p.selected c.core = p.selected c := by
  cases p <;> rfl

theorem hasLaunchTarget_iff {snapshot : Snapshot} :
    snapshot.hasLaunchTarget target = true ↔ launchTarget.Lists snapshot target := by
  simp [Snapshot.hasLaunchTarget, Lists]

theorem hasBuildTarget_iff {snapshot : Snapshot} :
    snapshot.hasBuildTarget target = true ↔ buildTarget.Lists snapshot target := by
  simp [Snapshot.hasBuildTarget, Lists]

end Selection

/-! ## Changes -/

namespace Change.Suits

variable {p : Selection} {mode : UpdateMode} {which : Subphase} {change : Change} {target : String}

/-- A change that brings the list up to date keeps the selection if it is listed then, and gives it
up otherwise. -/
theorem selected_iff (h : change.Suits mode p.subphase) (c : Context) :
    p.selected (change.apply c) = some target ↔
      p.selected c = some target ∧ p.Lists (change.apply c).snapshot target := by
  cases p with
  | launchTarget =>
    simp only [Selection.subphase] at h
    cases h with
    | launched found =>
      simp [Selection.selected, apply, Option.filter_eq_some_iff, Selection.hasLaunchTarget_iff]
  | buildTarget =>
    simp only [Selection.subphase] at h
    cases h with
    | built found =>
      simp [Selection.selected, apply, Option.filter_eq_some_iff, Selection.hasBuildTarget_iff]

/-- All other changes leave the selection alone. -/
theorem selected_eq (h : change.Suits mode which) (hne : which ≠ p.subphase) (c : Context) :
    p.selected (change.apply c) = p.selected c := by
  cases h with
  | launched found =>
    cases p with
    | launchTarget => exact absurd rfl hne
    | buildTarget => rfl
  | built found =>
    cases p with
    | launchTarget => rfl
    | buildTarget => exact absurd rfl hne
  | uncached | loaded | traced | prepared | configured | persisted => cases p <;> rfl

/-- They leave the list alone, too, unless it is taken from the cache. -/
theorem lists_iff (h : change.Suits mode which) (hne : which ≠ p.subphase)
    (hload : which ≠ .loadFromCache) (c : Context) :
    p.Lists (change.apply c).snapshot target ↔ p.Lists c.snapshot target := by
  cases h with
  | loaded => exact absurd rfl hload
  | launched found =>
    cases p with
    | launchTarget => exact absurd rfl hne
    | buildTarget => rfl
  | built found =>
    cases p with
    | launchTarget => rfl
    | buildTarget => exact absurd rfl hne
  | uncached => exact absurd rfl hload
  | traced | prepared | configured | persisted => cases p <;> rfl

end Change.Suits

namespace Equipment

variable {e : Equipment τ σ} {clean : Bool} {s t : Session τ σ} {step : Step τ σ}
  {steps : List (Step τ σ)} {p : Selection} {target : String}

/-! ## Steps -/

namespace Took

/-- After a step that is selected which was selected before, unless the step has brought the list up
to date and it is not there. -/
theorem selected_iff (h : e.Took clean step) :
    p.selected step.after.context = some target ↔ p.selected step.before.context = some target ∧
      (p.UpdatedBy step → p.Lists step.after.context.snapshot target) := by
  rcases h.cases_outcome with ⟨hne, hcontext⟩ | ⟨hsuccess, change, hsuits, hcontext⟩
  · have hnot : ¬p.UpdatedBy step := fun hupdated => hne hupdated.2
    simp [hcontext, hnot]
  · by_cases hwhich : step.subphase = p.subphase
    · have hupdated : p.UpdatedBy step := ⟨hwhich, hsuccess⟩
      rw [hwhich] at hsuits
      simp [hcontext, hupdated, hsuits.selected_iff]
    · have hnot : ¬p.UpdatedBy step := fun hupdated => hwhich hupdated.1
      simp [hcontext, hnot, hsuits.selected_eq hwhich]

/-- A step that has brought the list up to date makes the selection consistent. -/
theorem consistent_of_updated (h : e.Took clean step) (hupdated : p.UpdatedBy step) :
    p.Consistent step.after.context :=
  fun _ hselected => (h.selected_iff.mp hselected).2 hupdated

/-- A step that does not look at the cache keeps it so. -/
theorem consistent (h : e.Took clean step) (hload : step.subphase ≠ .loadFromCache)
    (hbefore : p.Consistent step.before.context) : p.Consistent step.after.context := by
  by_cases hupdated : p.UpdatedBy step
  · exact h.consistent_of_updated hupdated
  intro target hselected
  have hlisted := hbefore target (h.selected_iff.mp hselected).1
  rcases h.cases_outcome with ⟨_, hcontext⟩ | ⟨hsuccess, change, hsuits, hcontext⟩
  · rwa [hcontext]
  · have hwhich : step.subphase ≠ p.subphase := fun hwhich => hupdated ⟨hwhich, hsuccess⟩
    rw [hcontext]
    exact (hsuits.lists_iff hwhich hload _).mpr hlisted

end Took

end Equipment

/-! ## Trails -/

namespace Session.Marked

variable {s t : Session τ σ} {p : Selection}

theorem selected_eq (h : s.Marked t) : p.selected t.context = p.selected s.context :=
  h.of_core p.selected p.selected_core

theorem consistent_iff (h : s.Marked t) : p.Consistent t.context ↔ p.Consistent s.context := by
  have hsnapshot : t.context.snapshot = s.context.snapshot :=
    h.of_core Context.snapshot fun _ => rfl
  simp only [Selection.Consistent, h.selected_eq, hsnapshot]

end Session.Marked

namespace Equipment

variable {e : Equipment τ σ} {clean : Bool} {s t : Session τ σ} {step : Step τ σ}
  {steps : List (Step τ σ)} {p : Selection} {target : String}

namespace Trail

/-- What is selected at the end was selected at the beginning, and it was listed whenever the list
had been brought up to date on the way. -/
theorem selected_iff (h : e.Trail clean s steps t) :
    p.selected t.context = some target ↔ p.selected s.context = some target ∧
      ∀ step ∈ steps, p.UpdatedBy step → p.Lists step.after.context.snapshot target := by
  induction h with
  | nil hmark => simp [hmark.selected_eq]
  | cons hmark htook _ ih =>
    rw [ih, htook.selected_iff, hmark.selected_eq, List.forall_mem_cons, and_assoc]

/-- A trail on which the cache is not looked at keeps a selection consistent. -/
theorem consistent (h : e.Trail clean s steps t)
    (hload : ∀ step ∈ steps, step.subphase ≠ .loadFromCache) (hs : p.Consistent s.context) :
    p.Consistent t.context := by
  induction h with
  | nil hmark => exact hmark.consistent_iff.mpr hs
  | cons hmark htook _ ih =>
    obtain ⟨hstep, hrest⟩ := List.forall_mem_cons.mp hload
    exact ih hrest (htook.consistent hstep (hmark.consistent_iff.mpr hs))

/-- If the list is brought up to date on the way, the selection is consistent with it at the end,
whatever it was at the beginning. -/
theorem consistent_of_updated (h : e.Trail clean s steps t)
    (hload : ∀ step ∈ steps, step.subphase ≠ .loadFromCache) (hmem : step ∈ steps)
    (hupdated : p.UpdatedBy step) : p.Consistent t.context := by
  induction h with
  | nil => cases hmem
  | cons _ htook hrest ih =>
    obtain ⟨_, hothers⟩ := List.forall_mem_cons.mp hload
    rcases List.mem_cons.mp hmem with rfl | hmem
    -- From this step on the selection stays consistent.
    · exact hrest.consistent hothers (htook.consistent_of_updated hupdated)
    · exact ih hothers hmem

end Trail

/-! ## Runs -/

/-- The run goes through the steps: they lead from the session to the one in which it ends, and the
report has an entry for each of them. Whether the notes of earlier runs are thrown away first does
not matter. -/
def Goes (e : Equipment τ σ) (clean : Bool) (s : Session τ σ) (steps : List (Step τ σ)) : Prop :=
  (∃ start, (start = s ∨ start = fresh s) ∧ e.Trail clean start steps (e.configure clean s).2) ∧
    (e.configure clean s).1.entries = steps.map Step.entry

theorem exists_goes (e : Equipment τ σ) (clean : Bool) (s : Session τ σ) :
    ∃ steps, e.Goes clean s steps := by
  obtain ⟨start, steps, _, hstart, htrail, hentries, _⟩ := e.configure_changes clean s
  exact ⟨steps, ⟨start, hstart, htrail⟩, hentries⟩

/-- If the list was brought up to date in the last pass, the selection is consistent with it at the
end of the run. -/
theorem consistent_configure
    (h : ⟨p.subphase, .success⟩ ∈ lastPass (e.configure clean s).1.entries) :
    p.Consistent (e.configure clean s).2.context := by
  have hblocked : (e.configure clean s).1.outcome ≠ .blocked := by
    intro hblocked
    rw [configure_of_blocked hblocked] at h
    cases h
  obtain ⟨_, pass, outcome, t, hends, hconfigure, hlast, _⟩ := exists_lastPass hblocked
  rw [hlast] at h
  obtain ⟨step, hmem, hentry⟩ := List.mem_map.mp h
  have hupdated : p.UpdatedBy step :=
    ⟨congrArg Entry.subphase hentry, congrArg Entry.outcome hentry⟩
  -- The cache is not looked at in a pass, and settling its outcome only marks.
  have hconsistent := hends.trail.consistent_of_updated hends.isPass.ne_load hmem hupdated
  rw [hconfigure]
  exact (marked_settle outcome t).consistent_iff.mpr hconsistent

/-- A run leaves a selection as it was or gives it up. If its list was brought up to date in the
last pass, it is given up or listed. The run goes through some steps, and whichever these are, the
selection is kept exactly if it was listed after each of them that brought the list up to date. -/
theorem configure_selections (e : Equipment τ σ) (clean : Bool) (s : Session τ σ) (p : Selection) :
    let run := e.configure clean s
    (p.selected run.2.context = p.selected s.context ∨ p.selected run.2.context = none) ∧
    (⟨p.subphase, .success⟩ ∈ lastPass run.1.entries →
      p.selected run.2.context = none ∨
        ∃ target, p.selected run.2.context = some target ∧
          p.Lists run.2.context.snapshot target) ∧
    (∃ steps, e.Goes clean s steps) ∧
    ∀ steps, e.Goes clean s steps → ∀ target,
      p.selected run.2.context = some target ↔ p.selected s.context = some target ∧
        ∀ step ∈ steps, p.UpdatedBy step → p.Lists step.after.context.snapshot target := by
  intro run
  have hkept : ∀ steps, e.Goes clean s steps → ∀ target,
      p.selected run.2.context = some target ↔ p.selected s.context = some target ∧
        ∀ step ∈ steps, p.UpdatedBy step → p.Lists step.after.context.snapshot target := by
    rintro steps ⟨⟨start, rfl | rfl, htrail⟩, _⟩ target
    · exact htrail.selected_iff
    · exact htrail.selected_iff
  refine ⟨?_, fun hlast => ?_, e.exists_goes clean s, hkept⟩
  · obtain ⟨steps, hgoes⟩ := e.exists_goes clean s
    cases hselected : p.selected run.2.context with
    | none => exact .inr rfl
    | some target => exact .inl ((hkept steps hgoes target).mp hselected).1.symm
  · cases hselected : p.selected run.2.context with
    | none => exact .inl rfl
    | some target => exact .inr ⟨target, rfl, consistent_configure hlast target hselected⟩

/-- A run that finds the selected build target gone begins again, and both times it finds the
selected launch target. -/
theorem configure_selections_again :
    let e := recalling ["gcc -o a a.c", "./a"]
    let s : Session Unit Unit :=
      { firstWith {} with
        context := { buildTarget := some "gone", launchTarget := some "/w>a()" } }
    let run := e.configure true s
    run.1.count .parseForLaunchTargets = 2 ∧ run.2.context.launchTarget = some "/w>a()" ∧
      (∃ t ∈ run.2.context.snapshot.launchTargets, t.canonical = "/w>a()") ∧
      ∃ steps, e.Goes true s steps ∧
        (∃ step ∈ steps, step.subphase = .parseForBuildTargets ∧ step.outcome = .success ∧
          "gone" ∉ step.after.context.snapshot.buildTargets) ∧
        ∀ step ∈ steps, step.subphase = .parseForLaunchTargets → step.outcome = .success →
          ∃ t ∈ step.after.context.snapshot.launchTargets, t.canonical = "/w>a()" := by
  intro e s
  have hrun : (e.configure true s).1.count .parseForLaunchTargets = 2 ∧
      (e.configure true s).2.context.launchTarget = some "/w>a()" ∧
      (e.configure true s).2.context.buildTarget = none ∧
      ⟨.parseForLaunchTargets, .success⟩ ∈ lastPass (e.configure true s).1.entries := by
    decide +kernel
  have hbegin : s.context.launchTarget = some "/w>a()" ∧ s.context.buildTarget = some "gone" :=
    ⟨rfl, rfl⟩
  -- With the session out of sight only the kernel evaluates the run.
  generalize e = e at hrun ⊢
  generalize s = s at hrun hbegin ⊢
  obtain ⟨hcount, hlaunch, hbuild, hlast⟩ := hrun
  obtain ⟨_, hlisted, ⟨steps, hgoes⟩, hkept⟩ := e.configure_selections true s .launchTarget
  obtain ⟨_, _, _, hgone⟩ := e.configure_selections true s .buildTarget
  have hall := ((hkept steps hgoes "/w>a()").mp hlaunch).2
  refine ⟨hcount, hlaunch, ?_, steps, hgoes, ?_, fun step hmem hstep hsuccess =>
    hall step hmem ⟨hstep, hsuccess⟩⟩
  · obtain hnone | ⟨target, hselected, hmem⟩ := hlisted hlast
    · exact absurd (hlaunch.symm.trans hnone) nofun
    · obtain rfl : "/w>a()" = target := Option.some.inj (hlaunch.symm.trans hselected)
      exact hmem
  -- The build target would have been kept if it had been listed each time.
  · by_contra hnever
    have hselected : Selection.buildTarget.selected (e.configure true s).2.context
        = some "gone" := by
      refine (hgone steps hgoes "gone").mpr ⟨hbegin.2, fun step hmem hupdated => ?_⟩
      by_contra hmissing
      exact hnever ⟨step, hmem, hupdated.1, hupdated.2, hmissing⟩
    exact absurd (hselected.symm.trans hbuild) nofun

end Equipment

end BuildTrace.Configure
