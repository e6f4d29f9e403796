import BuildTrace.Proofs.Configure.Findings
import BuildTrace.Proofs.Configure.Persistence
import BuildTrace.Proofs.Configure.Report
import BuildTrace.Proofs.LaunchTarget.Extraction

/-!
# Discovering launch targets

A pass finds launch targets one after the other, some of them several times. They are gone through
before they join those of earlier passes, and then all of them are gone through once more. This
module proves that all of that comes to the same as going once through everything that has come up
since the last clean pass: the first target of each canonical form is kept, and the order is that
of discovery.

## Main definitions

* `LaunchTarget.Extractor.itemsIn`: what comes up in a trace, with all repetitions;
* `Discovery`: what comes up in a pass, and `Discovery.lasting`, the discoveries since the last
  clean pass;
* `Equipment.discover` and `discoveriesFrom`: the discoveries of a run, and those of a sequence of
  rounds.

## Main results

* `LaunchTarget.Extractor.targetsIn_eq`: an extraction goes through what comes up in the trace;
* `Equipment.survey_discovers`, `Equipment.configure_discovers` and `lifeFrom_discovers`: a survey,
  a run and a sequence of rounds take in their discoveries, and nothing else;
* `lifeFrom_launchTargets`: the launch targets are the first ones of their canonical forms among all
  that has come up since the last clean pass.
-/

namespace BuildTrace

/-! ## What comes up in a trace -/

namespace LaunchTarget

theorem dedup_isEmpty (targets : List LaunchTarget) :
    (dedup targets).isEmpty = targets.isEmpty := by
  cases targets <;> simp [dedup, dedupFrom]

namespace Extractor

variable (x : Extractor)

/-- What comes up in a trace, with all repetitions: the binaries that its lines produce, and then
the lines that run any of these. Where there is no binary, there is no second pass. -/
def itemsIn (trace : String) : List LaunchTarget :=
  let start := Directory.History.start x.root
  let binaries := (x.binaryScanner (ω := Unit)).recognize (Scan.linesOf trace) start ()
  binaries ++
    if binaries.isEmpty then []
    else (x.invocationScanner (ω := Unit) (dedup binaries)).recognize (Scan.linesOf trace) start ()

/-- The binaries are gone through before, which makes no difference. -/
theorem targetsIn_eq (trace : String) : x.targetsIn trace = dedup (x.itemsIn trace) := by
  simp only [targetsIn, binariesIn, itemsIn, dedup_isEmpty]
  split
  next hnone => simp [List.isEmpty_iff.mp hnone, dedup, dedupFrom]
  next => exact dedup_dedup_append _ _

end Extractor

end LaunchTarget

namespace Configure

variable {τ σ α : Type}

/-! ## Discoveries -/

/-- What comes up in a pass, and how it is combined with what was known. -/
structure Discovery where
  /-- The mode of the pass. -/
  mode : UpdateMode
  /-- What comes up in its trace, in order and with all repetitions. -/
  items : List LaunchTarget

namespace Discovery

/-- The launch targets after a discovery. -/
def takeIn (known : List LaunchTarget) (d : Discovery) : List LaunchTarget :=
  match d.mode with
  | .replace => LaunchTarget.dedup d.items
  | .merge => LaunchTarget.dedup (known ++ d.items)

/-- The discoveries from the last one on in a clean pass; all of them if there is no such pass. -/
def lasting : List Discovery → List Discovery
  | [] => []
  | d :: rest => if rest.any (·.mode == .replace) then lasting rest else d :: rest

/-- All that comes up in the discoveries, in order. -/
def allItems (discoveries : List Discovery) : List LaunchTarget := discoveries.flatMap items

/-- Two discoveries may be put together if the second one only adds to the first one. -/
theorem allItems_lasting_cons_cons (mode : UpdateMode) (items more : List LaunchTarget)
    (rest : List Discovery) :
    allItems (lasting (⟨mode, items⟩ :: ⟨.merge, more⟩ :: rest))
      = allItems (lasting (⟨mode, items ++ more⟩ :: rest)) := by
  have hmerge : (UpdateMode.merge == .replace) = false := rfl
  by_cases hclean : rest.any (·.mode == .replace) = true
  · simp [lasting, hclean]
  · simp [lasting, hclean, hmerge, allItems]

/-- After a clean pass, taking in one discovery after the other is going once through all that has
come up since the last clean pass, whatever was known before. -/
theorem foldl_takeIn_replace (known items : List LaunchTarget) (rest : List Discovery) :
    (⟨.replace, items⟩ :: rest).foldl takeIn known
      = LaunchTarget.dedup (allItems (lasting (⟨.replace, items⟩ :: rest))) := by
  induction rest generalizing known items with
  | nil => simp [takeIn, lasting, allItems]
  | cons d rest ih =>
    obtain ⟨mode, more⟩ := d
    cases mode with
    -- The next pass is clean, so what came up before does not count any more.
    | replace =>
      have hlasting : lasting (⟨.replace, items⟩ :: ⟨.replace, more⟩ :: rest)
          = lasting (⟨.replace, more⟩ :: rest) := by
        rw [lasting, if_pos (by simp)]
      rw [hlasting]
      exact ih _ more
    -- It adds to what has come up, as if that had come up in one pass.
    | merge =>
      have htake : takeIn (LaunchTarget.dedup items) ⟨.merge, more⟩
          = LaunchTarget.dedup (items ++ more) := LaunchTarget.dedup_dedup_append items more
      rw [allItems_lasting_cons_cons, ← ih known, List.foldl_cons, List.foldl_cons, List.foldl_cons]
      exact congrArg (rest.foldl takeIn ·) htake

end Discovery

/-! ## Sessions -/

/-- How often launch targets were looked for with success. -/
def launches (entries : List Entry) : Nat := entries.count ⟨.parseForLaunchTargets, .success⟩

/-- From one session to the other nothing comes up about launch targets. -/
structure Session.Idle (s t : Session τ σ) : Prop where
  /-- The launch targets are the same. -/
  targets : t.context.snapshot.launchTargets = s.context.snapshot.launchTargets
  /-- They were not looked for with success. -/
  launches : launches t.report.entries = launches s.report.entries

namespace Session

variable {s t u : Session τ σ}

theorem Idle.refl (s : Session τ σ) : s.Idle s := ⟨rfl, rfl⟩

theorem Idle.trans (h : s.Idle t) (h' : t.Idle u) : s.Idle u where
  targets := h'.targets.trans h.targets
  launches := h'.launches.trans h.launches

theorem Marked.idle (h : s.Marked t) : s.Idle t where
  targets := h.of_core (·.snapshot.launchTargets) fun _ => rfl
  launches := congrArg Configure.launches h.entries

end Session

/-- Only two subphases touch the launch targets. -/
theorem Change.Suits.launchTargets {change : Change} {mode : UpdateMode} {which : Subphase}
    (h : change.Suits mode which) (hload : which ≠ .loadFromCache)
    (hlaunch : which ≠ .parseForLaunchTargets) (c : Context) :
    (change.apply c).snapshot.launchTargets = c.snapshot.launchTargets := by
  cases h with
  | loaded => exact absurd rfl hload
  | launched => exact absurd rfl hlaunch
  | uncached | traced | prepared | configured | built | persisted => rfl

namespace Equipment

variable {e : Equipment τ σ} {clean : Bool} {s t u v : Session τ σ} {trace : String}

/-- A step adds its entry. -/
theorem Took.launches {step : Step τ σ} (h : e.Took clean step) :
    launches step.after.report.entries
      = launches step.before.report.entries + launches [step.entry] := by
  rw [h.entries, Configure.launches, List.count_append]
  rfl

/-- In any other subphase nothing comes up about launch targets. -/
theorem idle_of_eq {which : Subphase} {action : Action τ σ α} {result : Except Outcome α}
    (hact : e.Act clean α which action) (h : e.subphase which action s = (result, t))
    (hload : which ≠ .loadFromCache) (hlaunch : which ≠ .parseForLaunchTargets) : s.Idle t := by
  have htook := took_of_eq hact h
  refine ⟨htook.of_changes (·.snapshot.launchTargets) fun _ change c hsuits =>
    hsuits.launchTargets hload hlaunch c, ?_⟩
  simpa [Step.entry, launches, hlaunch] using htook.launches

/-- Loading an earlier snapshot is not looking for launch targets. -/
theorem Loads.launches {loading : List (Step τ σ)} (h : e.Loads clean s loading t) :
    launches t.report.entries = launches s.report.entries := by
  have hnot : (⟨.parseForLaunchTargets, .success⟩ : Entry) ∉ loading.map Step.entry := by
    intro hmem
    obtain ⟨step, hstep, hentry⟩ := List.mem_map.mp hmem
    have hsubphase : .parseForLaunchTargets ∈ loading.map Step.subphase :=
      List.mem_map.mpr ⟨step, hstep, congrArg Entry.subphase hentry⟩
    rw [h.subphases] at hsubphase
    split at hsubphase <;> simp at hsubphase
  rw [h.trail.entries, Configure.launches, List.count_append, List.count_eq_zero.mpr hnot]
  rfl

/-! ## Surveys -/

/-- The trace in which a survey looks for launch targets, and the session then, if it gets there. It
begins in the session in which the cache has been looked at. -/
def lookout? (e : Equipment τ σ) (clean : Bool) (s : Session τ σ) :
    Option (String × Session τ σ) :=
  match e.subphase .obtainTrace (e.obtainTrace clean) s with
  | (.error _, _) => none
  | (.ok raw, s) =>
    match e.subphase .preprocess (e.preprocess raw) s with
    | (.error _, _) => none
    | (.ok trace, s) =>
      let (configured, s) := e.subphase .parseForConfiguration
        (e.parseForConfiguration trace (modeOf clean)) (counted trace s)
      if outcomeOf configured = .cancelled then none else some (trace, s)

/-- What comes up in a survey, if launch targets are looked for with success. -/
def discovered? (e : Equipment τ σ) (clean : Bool) (s : Session τ σ) : Option Discovery :=
  (e.lookout? clean s).bind fun (trace, s) =>
    let launched :=
      e.subphase .parseForLaunchTargets (e.parseForLaunchTargets trace (modeOf clean)) s
    launched.1.toOption.map fun _ => ⟨modeOf clean, (e.launchExtractor s.files).itemsIn trace⟩

/-- Nothing comes up in a survey but where it looks for launch targets. -/
theorem Surveyed.lookout {result : Except Outcome (Outcome × Bool)}
    (h : e.Surveyed clean (modeOf clean) s result t) :
    (e.lookout? clean s = none ∧ s.Idle t) ∨
      ∃ trace u v launched, e.lookout? clean s = some (trace, u) ∧ s.Idle u ∧
        e.subphase .parseForLaunchTargets (e.parseForLaunchTargets trace (modeOf clean)) u
          = (launched, v) ∧ v.Idle t := by
  have hlets : ∀ {configured : Except Outcome Unit}, configured ≠ .error .cancelled →
      outcomeOf configured ≠ .cancelled := by
    rintro (outcome | _) hne
    · exact fun heq => hne (congrArg Except.error heq)
    · simp [outcomeOf]
  -- The ways in which the survey gets to the launch targets begin alike.
  have hconfigured : ∀ {raw trace : String} {configured : Except Outcome Unit}
      {t u v : Session τ σ},
      e.subphase .obtainTrace (e.obtainTrace clean) s = (.ok raw, t) →
      e.subphase .preprocess (e.preprocess raw) t = (.ok trace, u) →
      e.subphase .parseForConfiguration (e.parseForConfiguration trace (modeOf clean))
        (counted trace u) = (configured, v) → s.Idle v := by
    intro raw trace configured t u v hobtain hprepare hconfigure
    have hobtained := idle_of_eq .obtainTrace hobtain (by decide) (by decide)
    have hact : e.Act clean String .preprocess (e.preprocess raw) := .preprocess raw
    have hprepared := idle_of_eq hact hprepare (by decide) (by decide)
    have hcounted : u.Idle (counted trace u) := ⟨rfl, rfl⟩
    exact ((hobtained.trans hprepared).trans hcounted).trans
      (idle_of_eq (.parseForConfiguration trace) hconfigure (by decide) (by decide))
  cases h with
  | untraced hobtain =>
    exact .inl ⟨by simp [lookout?, hobtain],
      idle_of_eq .obtainTrace hobtain (by decide) (by decide)⟩
  | @unprepared raw t outcome u hobtain hprepare =>
    have hact : e.Act clean String .preprocess (e.preprocess raw) := .preprocess raw
    refine .inl ⟨by simp [lookout?, hobtain, hprepare], ?_⟩
    exact (idle_of_eq .obtainTrace hobtain (by decide) (by decide)).trans
      (idle_of_eq hact hprepare (by decide) (by decide))
  | unconfigured hobtain hprepare hconfigure =>
    exact .inl ⟨by simp [lookout?, hobtain, hprepare, hconfigure, outcomeOf],
      hconfigured hobtain hprepare hconfigure⟩
  | unlaunched hobtain hprepare hconfigure hne hlaunch =>
    exact .inr ⟨_, _, _, _, by simp [lookout?, hobtain, hprepare, hconfigure, hlets hne],
      hconfigured hobtain hprepare hconfigure, hlaunch, .refl _⟩
  | known hobtain hprepare hconfigure hne hlaunch =>
    exact .inr ⟨_, _, _, _, by simp [lookout?, hobtain, hprepare, hconfigure, hlets hne],
      hconfigured hobtain hprepare hconfigure, hlaunch, .refl _⟩
  | unbuilt hobtain hprepare hconfigure hne hlaunch _ _ hbuild
  | built hobtain hprepare hconfigure hne hlaunch _ _ hbuild =>
    exact .inr ⟨_, _, _, _, by simp [lookout?, hobtain, hprepare, hconfigure, hlets hne],
      hconfigured hobtain hprepare hconfigure, hlaunch,
      idle_of_eq .parseForBuildTargets hbuild (by decide) (by decide)⟩

/-- From one session to the other the discoveries are taken in, and nothing else. -/
structure Discovers (s : Session τ σ) (discoveries : List Discovery) (t : Session τ σ) : Prop where
  /-- The discoveries have been taken in. -/
  targets : t.context.snapshot.launchTargets
    = discoveries.foldl Discovery.takeIn s.context.snapshot.launchTargets
  /-- There is one for each time that launch targets were looked for with success. -/
  launches : launches t.report.entries = launches s.report.entries + discoveries.length

namespace Discovers

variable {discoveries others : List Discovery}

theorem of_idle (h : s.Idle t) : Discovers s [] t := ⟨h.targets, h.launches⟩

theorem trans (h : Discovers s discoveries t) (h' : Discovers t others u) :
    Discovers s (discoveries ++ others) u where
  targets := by rw [h'.targets, h.targets, List.foldl_append]
  launches := by rw [h'.launches, h.launches, List.length_append, Nat.add_assoc]

theorem idle_right (h : Discovers s discoveries t) (h' : t.Idle u) : Discovers s discoveries u := by
  have htrans := h.trans (of_idle h')
  rwa [List.append_nil] at htrans

theorem idle_left (h : s.Idle t) (h' : Discovers t discoveries u) : Discovers s discoveries u :=
  (of_idle h).trans h'

end Discovers

/-- What comes up in the subphase of the launch targets is taken in. -/
theorem discovers_parseForLaunchTargets {launched : Except Outcome Unit}
    (h : e.subphase .parseForLaunchTargets (e.parseForLaunchTargets trace (modeOf clean)) s
      = (launched, t)) :
    Discovers s (launched.toOption.map fun _ =>
      (⟨modeOf clean, (e.launchExtractor s.files).itemsIn trace⟩ : Discovery)).toList t := by
  have htook := took_of_eq (.parseForLaunchTargets trace) h
  have hlaunches := htook.launches
  cases launched with
  | error outcome =>
    obtain ⟨problem, _, rfl⟩ := exists_problem (congrArg Prod.fst h)
    have hne := problem.outcome_ne.1
    refine .of_idle ⟨?_, ?_⟩
    · exact congrArg (·.snapshot.launchTargets) (htook.context_of_ne hne)
    · simpa [Step.entry, outcomeOf, launches, hne] using hlaunches
  | ok value =>
    have htargets := congrArg (·.snapshot.launchTargets) (parseForLaunchTargets_ok h).1
    rw [LaunchTarget.Extractor.targetsIn_eq] at htargets
    refine ⟨htargets.trans ?_, hlaunches⟩
    -- What was found is gone through before it is added, which makes no difference.
    cases modeOf clean with
    | replace => rfl
    | merge => exact LaunchTarget.dedup_append_dedup _ _

/-- The session of a survey when the cache has been looked at. -/
def afterLoading (e : Equipment τ σ) (s : Session τ σ) : Session τ σ :=
  e.loadOnce { s with statistics := {} }

theorem launches_afterLoading (e : Equipment τ σ) (s : Session τ σ) :
    launches (e.afterLoading s).report.entries = launches s.report.entries := by
  obtain ⟨loading, hloads⟩ := e.loads false s
  exact hloads.launches

/-- Once the cache was tried, it is not looked at. -/
theorem idle_afterLoading (h : s.context.cacheTried = true) : s.Idle (e.afterLoading s) := by
  rw [afterLoading, loadOnce, if_pos h]
  exact ⟨rfl, rfl⟩

/-- A survey takes in what comes up in it, from when the cache has been looked at. -/
theorem survey_discovers (e : Equipment τ σ) (clean : Bool) (s : Session τ σ) :
    Discovers (e.afterLoading s) (e.discovered? clean (e.afterLoading s)).toList
      (e.survey clean s).2 := by
  rcases (e.surveyed clean s).lookout with ⟨hnone, hidle⟩ | ⟨trace, u, v, launched, hsome, hbefore,
    hlaunch, hafter⟩
  · have hnothing : e.discovered? clean (e.afterLoading s) = none := by
      rw [discovered?, afterLoading, hnone]
      rfl
    rw [hnothing]
    exact .of_idle hidle
  · have hdiscovers := (discovers_parseForLaunchTargets hlaunch).idle_right hafter
    rw [discovered?, afterLoading, hsome]
    simp only [Option.bind_some, hlaunch]
    exact .idle_left hbefore hdiscovers

/-! ## Runs -/

/-- The discoveries of the surveys of an exploration that can begin again so many times. -/
def discoveries (e : Equipment τ σ) (clean : Bool) (reruns : Nat) (s : Session τ σ) :
    List Discovery :=
  let found := (e.discovered? clean (e.afterLoading s)).toList
  match e.survey clean s, reruns with
  | (.ok (_, true), s), reruns + 1 =>
    found ++ e.discoveries clean reruns { s with report := { s.report with reran := true } }
  | _, _ => found

/-- The discoveries of a run. -/
def discover (e : Equipment τ σ) (clean : Bool) (s : Session τ σ) : List Discovery :=
  match s.context.guards.begin? .configure with
  | none => []
  | some guards => e.discoveries clean 1 (begun guards s)

theorem mode_of_mem_discoveries {reruns : Nat} {d : Discovery}
    (h : d ∈ e.discoveries clean reruns s) : d.mode = modeOf clean := by
  have hfound : ∀ {s : Session τ σ},
      d ∈ (e.discovered? clean (e.afterLoading s)).toList → d.mode = modeOf clean := by
    intro s hmem
    obtain ⟨⟨trace, t⟩, _, hlaunched⟩ := Option.bind_eq_some_iff.mp (Option.mem_toList.mp hmem)
    obtain ⟨_, _, rfl⟩ := Option.map_eq_some_iff.mp hlaunched
    rfl
  induction reruns generalizing s with
  | zero =>
    rw [discoveries.eq_def] at h
    split at h
    · contradiction
    · exact hfound h
  | succ reruns ih =>
    rw [discoveries.eq_def] at h
    split at h
    next hreruns =>
      cases hreruns
      exact (List.mem_append.mp h).elim hfound ih
    · exact hfound h

theorem mode_of_mem_discover {d : Discovery} (h : d ∈ e.discover clean s) :
    d.mode = modeOf clean := by
  rw [discover] at h
  split at h
  · cases h
  · exact mode_of_mem_discoveries h

/-- An exploration takes in what comes up in its surveys. -/
theorem discovers_of_explored {reruns : Nat} {result : Except Outcome Outcome}
    (h : e.Explored clean reruns s result t) :
    Discovers (e.afterLoading s) (e.discoveries clean reruns s) t := by
  have hsurvey : ∀ {s result t}, e.survey clean s = (result, t) →
      Discovers (e.afterLoading s) (e.discovered? clean (e.afterLoading s)).toList t := by
    intro s result t heq
    have hdiscovers := e.survey_discovers clean s
    rwa [heq] at hdiscovers
  -- The induction is on how often the exploration begins again.
  induction h with
  | @ended reruns s outcome t heq =>
    rw [discoveries.eq_def, heq]
    exact hsurvey heq
  | @complete reruns s outcome vanished t heq hlast =>
    have hfound : e.discoveries clean reruns s
        = (e.discovered? clean (e.afterLoading s)).toList := by
      rw [discoveries.eq_def, heq]
      cases vanished with
      | false => rfl
      | true => rw [hlast rfl]
    rw [hfound]
    exact hsurvey heq
  | @again reruns s outcome t result u heq _ ih =>
    have htried : t.context.cacheTried = true := tried_survey heq
    have hagain : t.Idle { t with report := { t.report with reran := true } } := ⟨rfl, rfl⟩
    rw [discoveries.eq_def, heq]
    -- By then the cache has been tried, so it is not looked at again.
    exact (hsurvey heq).trans (.idle_left (hagain.trans (idle_afterLoading htried)) ih)

/-- A run takes in what comes up in it. What is known before that is what was known before the run,
unless the cache is looked at. -/
theorem configure_discovers (e : Equipment τ σ) (clean : Bool) (s : Session τ σ) :
    ∃ known, (s.context.cacheTried = true → known = s.context.snapshot.launchTargets) ∧
      (e.configure clean s).2.context.snapshot.launchTargets
        = (e.discover clean s).foldl Discovery.takeIn known ∧
      launches (e.configure clean s).1.entries = (e.discover clean s).length := by
  -- What follows the exploration is nothing to the launch targets.
  have hgranted : ∀ {guards : Guards} {result : Except Outcome Outcome} {t u : Session τ σ}
      (outcome : Outcome), s.context.guards.begin? .configure = some guards →
      e.explore clean 1 (begun guards s) = (result, t) → t.Idle u →
      e.configure clean s = settle outcome u →
      ∃ known, (s.context.cacheTried = true → known = s.context.snapshot.launchTargets) ∧
        (e.configure clean s).2.context.snapshot.launchTargets
          = (e.discover clean s).foldl Discovery.takeIn known ∧
        launches (e.configure clean s).1.entries = (e.discover clean s).length := by
    intro guards result t u outcome hguards hexplore hidle hconfigure
    have hexplored := e.explored clean 1 (begun guards s)
    rw [hexplore] at hexplored
    have hend := hidle.trans (marked_settle outcome u).idle
    have hdiscovers := (discovers_of_explored hexplored).idle_right hend
    rw [hconfigure, discover, hguards]
    refine ⟨_, fun htried => ?_, hdiscovers.targets, ?_⟩
    · have hbegun : (begun guards s).Idle (e.afterLoading (begun guards s)) :=
        idle_afterLoading htried
      exact hbegun.targets
    · have hnone : launches (begun guards s).report.entries = 0 := rfl
      have hlaunches := hdiscovers.launches
      rw [launches_afterLoading, hnone, Nat.zero_add] at hlaunches
      exact hlaunches
  generalize hrun : e.configure clean s = run at hgranted ⊢
  have hconfigured := e.configured clean s
  rw [hrun] at hconfigured
  cases hconfigured with
  | blocked hguards =>
    rw [discover, hguards]
    exact ⟨_, fun _ => rfl, rfl, rfl⟩
  | ended hguards hexplore => exact hgranted _ hguards hexplore (.refl _) rfl
  | cancelled hguards hexplore => exact hgranted _ hguards hexplore (.refl _) rfl
  | persisted hguards hexplore _ hpersist =>
    have hact : e.Act clean Unit .persist e.persist := .persist
    exact hgranted _ hguards hexplore (idle_of_eq hact hpersist (by decide) (by decide)) rfl

end Equipment

/-! ## Rounds -/

/-- The discoveries of a round. -/
def Round.discoveries (r : Round τ σ) (context : Context) : List Discovery :=
  r.equipment.discover r.clean (r.start context)

/-- The discoveries of further rounds. -/
def discoveriesFrom (context : Context) : List (Round τ σ) → List Discovery
  | [] => []
  | r :: rounds => r.discoveries context ++ discoveriesFrom (r.run context).2.context rounds

section Round

variable (r : Round τ σ) (context : Context)

/-- There is one discovery for each time that launch targets were looked for with success. -/
theorem Round.length_discoveries : (r.discoveries context).length
    = (r.run context).1.entries.count ⟨.parseForLaunchTargets, .success⟩ := by
  obtain ⟨_, _, _, hlaunches⟩ := r.equipment.configure_discovers r.clean (r.start context)
  exact hlaunches.symm

/-- A clean round that finds launch targets begins with a discovery in a clean pass. -/
theorem Round.exists_discoveries_eq (hclean : r.clean = true)
    (h : ⟨.parseForLaunchTargets, .success⟩ ∈ (r.run context).1.entries) :
    ∃ found more, r.discoveries context = ⟨.replace, found⟩ :: more := by
  have hpos : 0 < (r.discoveries context).length := by
    rw [r.length_discoveries]
    exact List.count_pos_iff.mpr h
  obtain ⟨⟨mode, found⟩, more, hround⟩ := List.exists_cons_of_length_pos hpos
  have hmem : ⟨mode, found⟩ ∈ r.discoveries context := by simp [hround]
  have hmode : mode = Equipment.modeOf r.clean := Equipment.mode_of_mem_discover hmem
  obtain rfl : mode = .replace := by
    rw [hmode, hclean]
    rfl
  exact ⟨found, more, hround⟩

/-- A round in which there were subphases has tried the cache. -/
theorem Round.cacheTried_run {entry : Entry} (h : entry ∈ (r.run context).1.entries) :
    (r.run context).2.context.cacheTried = true := by
  have hran : (r.equipment.configure r.clean (r.start context)).1.outcome ≠ .blocked := by
    intro hblocked
    rw [Round.run, Equipment.configure_of_blocked hblocked] at h
    cases h
  obtain ⟨_, _, _, hshape⟩ := Equipment.exists_shape hran
  exact hshape.tried

end Round

/-- When the cache was tried, rounds take in what comes up in them. -/
theorem lifeFrom_discovers {context : Context} (h : context.cacheTried = true)
    (rounds : List (Round τ σ)) :
    (lifeFrom context rounds).snapshot.launchTargets
      = (discoveriesFrom context rounds).foldl Discovery.takeIn context.snapshot.launchTargets := by
  induction rounds generalizing context with
  | nil => rfl
  | cons r rounds ih =>
    obtain ⟨known, hknown, htargets, _⟩ :=
      r.equipment.configure_discovers r.clean (r.start context)
    have htried := (r.equipment.configure_of_tried r.clean (s := r.start context) h).1
    rw [discoveriesFrom, List.foldl_append]
    calc (lifeFrom (r.run context).2.context rounds).snapshot.launchTargets
        = (discoveriesFrom (r.run context).2.context rounds).foldl Discovery.takeIn
            (r.run context).2.context.snapshot.launchTargets := ih htried
      _ = _ := by
        rw [Round.run, htargets, hknown h]
        rfl

/-- Launch targets accumulate in the order of their discovery. In a sequence of rounds, the first of
which is clean and finds launch targets, the list is what is left of all that has come up since the
last clean pass when that is gone through once: it keeps the order, it has each canonical form
once, and of each form it has the target that came up first. Every pass counts in which launch
targets were looked for with success. -/
theorem lifeFrom_launchTargets (context : Context) (r : Round τ σ) (rounds : List (Round τ σ))
    (hclean : r.clean = true)
    (hfirst : ⟨.parseForLaunchTargets, .success⟩ ∈ (r.run context).1.entries) :
    let discoveries := discoveriesFrom context (r :: rounds)
    let items := Discovery.allItems (Discovery.lasting discoveries)
    let targets := (lifeFrom context (r :: rounds)).snapshot.launchTargets
    targets = LaunchTarget.dedup items ∧
    targets.Sublist items ∧ (targets.map LaunchTarget.canonical).Nodup ∧
    (∀ t ∈ items, ∃ first ∈ targets, items.find? (·.canonical == t.canonical) = some first) ∧
    ∀ (round : Round τ σ) context,
      (round.discoveries context).length
        = (round.run context).1.entries.count ⟨.parseForLaunchTargets, .success⟩ ∧
      ∀ d ∈ round.discoveries context, d.mode = Equipment.modeOf round.clean := by
  intro discoveries items targets
  obtain ⟨found, more, hround⟩ := r.exists_discoveries_eq context hclean hfirst
  have htargets : targets = LaunchTarget.dedup items := by
    obtain ⟨known, _, hknown, _⟩ := r.equipment.configure_discovers r.clean (r.start context)
    -- The first discovery is that of a clean pass, so that it replaces whatever was known.
    have hall : discoveries
        = ⟨.replace, found⟩ :: (more ++ discoveriesFrom (r.run context).2.context rounds) := by
      change r.discoveries context ++ _ = _
      rw [hround, List.cons_append]
    have hrest := lifeFrom_discovers (r.cacheTried_run context hfirst) rounds
    calc targets
        = (discoveriesFrom (r.run context).2.context rounds).foldl Discovery.takeIn
            (r.run context).2.context.snapshot.launchTargets := hrest
      _ = discoveries.foldl Discovery.takeIn known := by
          rw [Round.run, hknown, ← List.foldl_append]
          rfl
      _ = LaunchTarget.dedup items := by
          change _ = LaunchTarget.dedup (Discovery.allItems (Discovery.lasting discoveries))
          rw [hall]
          exact Discovery.foldl_takeIn_replace known found _
  refine ⟨htargets, ?_, ?_, fun t ht => ?_, fun round context =>
    ⟨round.length_discoveries context, fun d hd => Equipment.mode_of_mem_discover hd⟩⟩
  · rw [htargets]
    exact LaunchTarget.dedupFrom_sublist [] items
  · rw [htargets]
    exact LaunchTarget.nodup_canonical_dedup items
  · obtain ⟨first, hmem, hform⟩ := LaunchTarget.exists_mem_dedup ht
    have hfind := LaunchTarget.mem_dedup_iff.mp hmem
    rw [hform] at hfind
    exact ⟨first, htargets ▸ hmem, hfind⟩

/-- A clean round finds a program and a way to run it. In the next one the program comes up again,
and there is another way to run it. -/
theorem lifeFrom_launchTargets_adding :
    let first : Round Unit Unit := printing ["gcc -o a a.c", "./a x"]
    let second : Round Unit Unit := { printing ["gcc -o a a.c", "./a y"] with clean := false }
    let a : List String → LaunchTarget := fun arguments => ⟨⟨"/w/a"⟩, ⟨"/w"⟩, arguments⟩
    first.clean = true ∧ ⟨.parseForLaunchTargets, .success⟩ ∈ (first.run {}).1.entries ∧
      Discovery.allItems (Discovery.lasting (discoveriesFrom {} [first, second]))
        = [a [], a ["x"], a [], a ["y"]] ∧
      (lifeFrom {} [first, second]).snapshot.launchTargets = [a [], a ["x"], a ["y"]] := by
  intro first second a
  have hrun : first.clean = true ∧
      ⟨.parseForLaunchTargets, .success⟩ ∈ (first.run {}).1.entries ∧
      Discovery.allItems (Discovery.lasting (discoveriesFrom {} [first, second]))
        = [a [], a ["x"], a [], a ["y"]] := by
    decide +kernel
  have hleft : LaunchTarget.dedup [a [], a ["x"], a [], a ["y"]] = [a [], a ["x"], a ["y"]] := by
    decide +kernel
  -- With the rounds out of sight only the kernel evaluates them.
  generalize first = first at hrun ⊢
  generalize second = second at hrun ⊢
  obtain ⟨hclean, hfirst, hitems⟩ := hrun
  have htargets := (lifeFrom_launchTargets {} first [second] hclean hfirst).1
  rw [hitems, hleft] at htargets
  exact ⟨hclean, hfirst, hitems, htargets⟩

end Configure

end BuildTrace
