import BuildTrace.Configure.Run
import BuildTrace.Proofs.Scan.Course

/-!
# The course of a run

A run goes through the stages in which it finds something out, possibly twice, and keeps the
snapshot at the end. This module says once which steps that takes: what relates the sessions
before and after each step relates those before and after the whole exploration.

## Main definitions

* `Equipment.Stage`: the subphases of an exploration with what is done in them;
* `Equipment.Across`: a relation that holds across each step of an exploration;
* `Session.Alike`: sessions with the same files, sink and snapshot.

## Main results

* `Equipment.Across.explore`: such a relation holds across the exploration;
* `Equipment.Across.of_alike`: it is enough to look at what is done in each stage, if the relation
  does not care about what is noted.
-/

namespace BuildTrace.Configure

variable {τ σ α : Type}

/-! ## Sessions that differ a little -/

/-- The sessions have the same files, the same sink and the same snapshot. -/
structure Session.Alike (s t : Session τ σ) : Prop where
  /-- The files are the same. -/
  files : t.files = s.files
  /-- The state of the sink is the same. -/
  sink : t.sink = s.sink
  /-- The snapshot is the same. -/
  snapshot : t.context.snapshot = s.context.snapshot

namespace Session.Alike

theorem refl (s : Session τ σ) : s.Alike s := ⟨rfl, rfl, rfl⟩

theorem trans {s t u : Session τ σ} (h : s.Alike t) (h' : t.Alike u) : s.Alike u :=
  ⟨h'.files.trans h.files, h'.sink.trans h.sink, h'.snapshot.trans h.snapshot⟩

end Session.Alike

namespace Equipment

variable {e : Equipment τ σ}

/-! ## Stages -/

/-- The subphases in which a run finds something out, with what is done in them. -/
inductive Stage (e : Equipment τ σ) : (α : Type) → Subphase → Action τ σ α → Prop where
  | loadFromCache : Stage e Unit .loadFromCache e.loadFromCache
  | obtainTrace (clean : Bool) : Stage e String .obtainTrace (e.obtainTrace clean)
  | preprocess (raw : String) : Stage e String .preprocess (e.preprocess raw)
  | parseForConfiguration (trace : String) (mode : UpdateMode) :
      Stage e Unit .parseForConfiguration (e.parseForConfiguration trace mode)
  | parseForLaunchTargets (trace : String) (mode : UpdateMode) :
      Stage e Unit .parseForLaunchTargets (e.parseForLaunchTargets trace mode)
  | parseForBuildTargets (mode : UpdateMode) :
      Stage e Bool .parseForBuildTargets (e.parseForBuildTargets mode)

/-- The snapshot is not kept in any stage. -/
theorem Stage.ne_persist {which : Subphase} {action : Action τ σ α}
    (h : e.Stage α which action) : which ≠ .persist := by
  cases h <;> exact nofun

/-- A relation that holds across every step of an exploration. -/
structure Across (e : Equipment τ σ) (R : Session τ σ → Session τ σ → Prop) : Prop where
  /-- It holds across nothing. -/
  refl : ∀ s, R s s
  /-- It holds across steps one after the other. -/
  trans : ∀ {s t u}, R s t → R t u → R s u
  /-- It holds across a change of the counters. -/
  count : ∀ s statistics, R s { s with statistics }
  /-- It holds when the cache is marked as tried. -/
  tried : ∀ s, R s { s with context := { s.context with cacheTried := true } }
  /-- It holds when the run is marked as begun again. -/
  reran : ∀ s, R s { s with report := { s.report with reran := true } }
  /-- It holds across each stage. -/
  stage : ∀ {α : Type} {which : Subphase} {action : Action τ σ α}, e.Stage α which action →
    ∀ s, R s (e.subphase which action s).2

/-! ## Surveys -/

/-- The session with the lines of the trace counted. -/
def counted (trace : String) (s : Session τ σ) : Session τ σ :=
  let linesScanned := (Text.lines trace.toList).length
  { s with statistics := { s.statistics with linesScanned } }

/-- How a survey can go, from the session in which the cache has been looked at. -/
inductive Surveyed (e : Equipment τ σ) (clean : Bool) (mode : UpdateMode) (s : Session τ σ) :
    Except Outcome (Outcome × Bool) → Session τ σ → Prop where
  /-- There is no trace. -/
  | untraced {outcome t} :
      e.subphase .obtainTrace (e.obtainTrace clean) s = (.error outcome, t) →
      Surveyed e clean mode s (.error outcome) t
  /-- The trace was not prepared. -/
  | unprepared {raw t outcome u} :
      e.subphase .obtainTrace (e.obtainTrace clean) s = (.ok raw, t) →
      e.subphase .preprocess (e.preprocess raw) t = (.error outcome, u) →
      Surveyed e clean mode s (.error outcome) u
  /-- The survey was cancelled among the compile units. -/
  | unconfigured {raw t trace u v} :
      e.subphase .obtainTrace (e.obtainTrace clean) s = (.ok raw, t) →
      e.subphase .preprocess (e.preprocess raw) t = (.ok trace, u) →
      e.subphase .parseForConfiguration (e.parseForConfiguration trace mode)
        (counted trace u) = (.error .cancelled, v) →
      Surveyed e clean mode s (.error .cancelled) v
  /-- The survey was cancelled among the launch targets. -/
  | unlaunched {raw t trace u configured v w} :
      e.subphase .obtainTrace (e.obtainTrace clean) s = (.ok raw, t) →
      e.subphase .preprocess (e.preprocess raw) t = (.ok trace, u) →
      e.subphase .parseForConfiguration (e.parseForConfiguration trace mode)
        (counted trace u) = (configured, v) →
      configured ≠ .error .cancelled →
      e.subphase .parseForLaunchTargets (e.parseForLaunchTargets trace mode) v
        = (.error .cancelled, w) →
      Surveyed e clean mode s (.error .cancelled) w
  /-- The build targets are known already. -/
  | known {raw t trace u configured v launched w} :
      e.subphase .obtainTrace (e.obtainTrace clean) s = (.ok raw, t) →
      e.subphase .preprocess (e.preprocess raw) t = (.ok trace, u) →
      e.subphase .parseForConfiguration (e.parseForConfiguration trace mode)
        (counted trace u) = (configured, v) →
      configured ≠ .error .cancelled →
      e.subphase .parseForLaunchTargets (e.parseForLaunchTargets trace mode) v = (launched, w) →
      launched ≠ .error .cancelled →
      (clean || w.context.snapshot.buildTargets.isEmpty) = false →
      Surveyed e clean mode s
        (.ok ((outcomeOf configured).andThen (outcomeOf launched), false)) w
  /-- The survey was cancelled among the build targets. -/
  | unbuilt {raw t trace u configured v launched w x} :
      e.subphase .obtainTrace (e.obtainTrace clean) s = (.ok raw, t) →
      e.subphase .preprocess (e.preprocess raw) t = (.ok trace, u) →
      e.subphase .parseForConfiguration (e.parseForConfiguration trace mode)
        (counted trace u) = (configured, v) →
      configured ≠ .error .cancelled →
      e.subphase .parseForLaunchTargets (e.parseForLaunchTargets trace mode) v = (launched, w) →
      launched ≠ .error .cancelled →
      (clean || w.context.snapshot.buildTargets.isEmpty) = true →
      e.subphase .parseForBuildTargets (e.parseForBuildTargets mode) w
        = (.error .cancelled, x) →
      Surveyed e clean mode s (.error .cancelled) x
  /-- All has been looked for. -/
  | built {raw t trace u configured v launched w found x} :
      e.subphase .obtainTrace (e.obtainTrace clean) s = (.ok raw, t) →
      e.subphase .preprocess (e.preprocess raw) t = (.ok trace, u) →
      e.subphase .parseForConfiguration (e.parseForConfiguration trace mode)
        (counted trace u) = (configured, v) →
      configured ≠ .error .cancelled →
      e.subphase .parseForLaunchTargets (e.parseForLaunchTargets trace mode) v = (launched, w) →
      launched ≠ .error .cancelled →
      (clean || w.context.snapshot.buildTargets.isEmpty) = true →
      e.subphase .parseForBuildTargets (e.parseForBuildTargets mode) w = (found, x) →
      found ≠ .error .cancelled →
      Surveyed e clean mode s
        (.ok (((outcomeOf configured).andThen (outcomeOf launched)).andThen (outcomeOf found),
          found.toOption.getD false)) x

theorem Outcome.andThen_success (outcome : Outcome) : outcome.andThen .success = outcome := by
  cases outcome <;> rfl

theorem Outcome.andThen_eq_success {outcome next : Outcome} :
    outcome.andThen next = .success ↔ outcome = .success ∧ next = .success := by
  cases outcome <;> simp [Outcome.andThen]

/-- The mode in which a run updates what is known. -/
def modeOf (clean : Bool) : UpdateMode := if clean then .replace else .merge

/-- A survey goes in one of the ways it can go. -/
theorem surveyed (e : Equipment τ σ) (clean : Bool) (s : Session τ σ) :
    e.Surveyed clean (modeOf clean) (e.loadOnce { s with statistics := {} })
      (e.survey clean s).1 (e.survey clean s).2 := by
  rw [survey]
  dsimp only
  rw [← modeOf]
  split
  next hobtain => exact .untraced hobtain
  next hobtain =>
  split
  next hprepare => exact .unprepared hobtain hprepare
  next hprepare =>
  split
  next hconfigure => exact .unconfigured hobtain hprepare hconfigure
  next hconfigured hconfigure =>
  split
  next hlaunch =>
    exact .unlaunched hobtain hprepare hconfigure hconfigured hlaunch
  next hlaunched hlaunch =>
  split
  next hlook =>
    split
    next hbuild =>
      exact .unbuilt hobtain hprepare hconfigure hconfigured hlaunch hlaunched hlook hbuild
    next other _ hother hbuild =>
      exact .built hobtain hprepare hconfigure hconfigured hlaunch hlaunched hlook hbuild
        fun h => hother (by injection h)
    next hbuild =>
      -- A success adds nothing to the outcome.
      have hbuilt := Surveyed.built hobtain hprepare hconfigure hconfigured hlaunch hlaunched hlook
        hbuild nofun
      rwa [outcomeOf, Outcome.andThen_success] at hbuilt
  next hknown =>
    exact .known hobtain hprepare hconfigure hconfigured hlaunch hlaunched
      (Bool.not_eq_true _ ▸ hknown)

namespace Across

variable {R : Session τ σ → Session τ σ → Prop}

/-- The relation holds across a stage that went in a known way. -/
theorem stage_of_eq (h : e.Across R) {which : Subphase} {action : Action τ σ α}
    (hstage : e.Stage α which action) {s t : Session τ σ} {result : Except Outcome α}
    (heq : e.subphase which action s = (result, t)) : R s t := by
  have hstep := h.stage hstage s
  rwa [heq] at hstep

theorem loadOnce (h : e.Across R) (s : Session τ σ) : R s (e.loadOnce s) := by
  rw [Equipment.loadOnce]
  split
  · exact h.refl s
  · exact h.trans (h.tried s) (h.stage .loadFromCache _)

theorem of_configured (h : e.Across R) {clean : Bool} {mode : UpdateMode} {raw trace : String}
    {s t u v : Session τ σ} {configured : Except Outcome Unit}
    (hobtain : e.subphase .obtainTrace (e.obtainTrace clean) s = (.ok raw, t))
    (hprepare : e.subphase .preprocess (e.preprocess raw) t = (.ok trace, u))
    (hconfigure : e.subphase .parseForConfiguration (e.parseForConfiguration trace mode)
      (counted trace u) = (configured, v)) : R s v := by
  -- One stage after the other, with the counters changed before the third one.
  have hraw : R s t := h.stage_of_eq (.obtainTrace clean) hobtain
  have htrace : R s u := h.trans hraw (h.stage_of_eq (.preprocess raw) hprepare)
  have hcount : R s (counted trace u) := h.trans htrace (h.count u _)
  exact h.trans hcount (h.stage_of_eq (.parseForConfiguration trace mode) hconfigure)

theorem of_surveyed (h : e.Across R) {clean : Bool} {mode : UpdateMode} {s t : Session τ σ}
    {result : Except Outcome (Outcome × Bool)} (hsurvey : e.Surveyed clean mode s result t) :
    R s t := by
  cases hsurvey with
  | untraced hobtain => exact h.stage_of_eq (.obtainTrace clean) hobtain
  | unprepared hobtain hprepare =>
    exact h.trans (h.stage_of_eq (.obtainTrace clean) hobtain)
      (h.stage_of_eq (.preprocess _) hprepare)
  | unconfigured hobtain hprepare hconfigure => exact h.of_configured hobtain hprepare hconfigure
  | unlaunched hobtain hprepare hconfigure _ hlaunch
  | known hobtain hprepare hconfigure _ hlaunch =>
    exact h.trans (h.of_configured hobtain hprepare hconfigure)
      (h.stage_of_eq (.parseForLaunchTargets _ mode) hlaunch)
  | unbuilt hobtain hprepare hconfigure _ hlaunch _ _ hbuild
  | built hobtain hprepare hconfigure _ hlaunch _ _ hbuild =>
    refine h.trans (h.of_configured hobtain hprepare hconfigure) ?_
    exact h.trans (h.stage_of_eq (.parseForLaunchTargets _ mode) hlaunch)
      (h.stage_of_eq (.parseForBuildTargets mode) hbuild)

theorem survey (h : e.Across R) (clean : Bool) (s : Session τ σ) : R s (e.survey clean s).2 :=
  h.trans (h.count s {}) (h.trans (h.loadOnce _) (h.of_surveyed (e.surveyed clean s)))

end Across

/-! ## Explorations -/

/-- How an exploration can go. -/
inductive Explored (e : Equipment τ σ) (clean : Bool) :
    Nat → Session τ σ → Except Outcome Outcome → Session τ σ → Prop where
  /-- The survey ended the pass. -/
  | ended {reruns s outcome t} :
      e.survey clean s = (.error outcome, t) → Explored e clean reruns s (.error outcome) t
  /-- The survey is complete. -/
  | complete {reruns s outcome vanished t} :
      e.survey clean s = (.ok (outcome, vanished), t) → (vanished = true → reruns = 0) →
      Explored e clean reruns s (.ok outcome) t
  /-- The selected build target is gone, and the survey begins again. -/
  | again {reruns s outcome t result u} :
      e.survey clean s = (.ok (outcome, true), t) →
      Explored e clean reruns { t with report := { t.report with reran := true } } result u →
      Explored e clean (reruns + 1) s result u

/-- An exploration goes in one of the ways it can go. -/
theorem explored (e : Equipment τ σ) (clean : Bool) (reruns : Nat) (s : Session τ σ) :
    e.Explored clean reruns s (e.explore clean reruns s).1 (e.explore clean reruns s).2 := by
  induction reruns generalizing s with
  | zero =>
    rw [explore.eq_def]
    rcases h : e.survey clean s with ⟨outcome | ⟨outcome, vanished⟩, t⟩
    · exact .ended h
    · cases vanished <;> exact .complete h fun _ => rfl
  | succ reruns ih =>
    rw [explore.eq_def]
    rcases h : e.survey clean s with ⟨outcome | ⟨outcome, vanished⟩, t⟩
    · exact .ended h
    · cases vanished with
      | false => exact .complete h nofun
      | true => exact .again h (ih _)

theorem Across.of_explored {R : Session τ σ → Session τ σ → Prop} (h : e.Across R) {clean : Bool}
    {reruns : Nat} {s t : Session τ σ} {result : Except Outcome Outcome}
    (hexplored : e.Explored clean reruns s result t) : R s t := by
  -- Each pass is a survey; the induction is on how often the exploration begins again.
  have hsurvey : ∀ {s result t}, e.survey clean s = (result, t) → R s t := by
    intro s result t heq
    have hstep := h.survey clean s
    rwa [heq] at hstep
  induction hexplored with
  | ended heq => exact hsurvey heq
  | complete heq _ => exact hsurvey heq
  | again heq _ ih => exact h.trans (hsurvey heq) (h.trans (h.reran _) ih)

/-- A relation that holds across every step holds across the exploration. -/
theorem Across.explore {R : Session τ σ → Session τ σ → Prop} (h : e.Across R) (clean : Bool)
    (reruns : Nat) (s : Session τ σ) : R s (e.explore clean reruns s).2 :=
  h.of_explored (e.explored clean reruns s)

/-! ## Relations that do not care about notes -/

section Notes

variable {R : Session τ σ → Session τ σ → Prop}

theorem alike_tell (e : Equipment τ σ) (p : Progress) (s : Session τ σ) : s.Alike (e.tell p s) :=
  ⟨rfl, rfl, rfl⟩

/-- A subphase is as its action, but for what is noted. -/
theorem subphase_rel (trans : ∀ {s t u}, R s t → R t u → R s u)
    (alike : ∀ {s t : Session τ σ}, s.Alike t → R s t) {which : Subphase} {action : Action τ σ α}
    (haction : ∀ s, R s (action s).2) (s : Session τ σ) : R s (e.subphase which action s).2 := by
  -- What is told before and after the action is a note.
  have hact := trans (alike (alike_tell e (.status which) s)) (haction (e.tell (.status which) s))
  rw [subphase]
  exact trans hact (alike ⟨rfl, rfl, rfl⟩)

/-- A relation that does not care about notes holds across every step if it holds across what is
done in each stage. -/
theorem Across.of_alike (trans : ∀ {s t u}, R s t → R t u → R s u)
    (alike : ∀ {s t : Session τ σ}, s.Alike t → R s t)
    (haction : ∀ {α : Type} {which : Subphase} {action : Action τ σ α},
      e.Stage α which action → ∀ s, R s (action s).2) : e.Across R where
  refl _ := alike ⟨rfl, rfl, rfl⟩
  trans := trans
  count _ _ := alike ⟨rfl, rfl, rfl⟩
  tried _ := alike ⟨rfl, rfl, rfl⟩
  reran _ := alike ⟨rfl, rfl, rfl⟩
  stage hstage s := subphase_rel (R := R) trans alike (haction hstage) s

end Notes

end Equipment

end BuildTrace.Configure
