import BuildTrace.Proofs.Configure.Report

/-!
# The outcome of a run

A run ends with an outcome of its own. This module proves that it can be told from the entries of
the last pass: a cancellation counts most, and otherwise the first problem. What an earlier pass has
come across does not count, and neither does a cache that could not be loaded.

## Main definitions

* `lastPass`: the entries of the last pass.

## Main results

* `Equipment.configure_outcome`: the outcome of a run is that of its last pass.
-/

namespace BuildTrace.Configure

variable {τ σ : Type}

/-! ## The last pass -/

/-- The entries of the last pass. A pass begins with the trace. -/
def lastPass (entries : List Entry) : List Entry :=
  entries.foldl
    (fun pass entry => if entry.subphase = .obtainTrace then [entry] else pass ++ [entry]) []

/-- What comes before a pass is not in it, and all that comes after its beginning is. -/
theorem lastPass_append_cons (entries : List Entry) {first : Entry} {rest : List Entry}
    (hfirst : first.subphase = .obtainTrace)
    (hrest : ∀ entry ∈ rest, entry.subphase ≠ .obtainTrace) :
    lastPass (entries ++ first :: rest) = first :: rest := by
  have hlater : ∀ pass : List Entry, rest.foldl
      (fun pass entry => if entry.subphase = .obtainTrace then [entry] else pass ++ [entry]) pass
        = pass ++ rest := by
    -- Behind the beginning no entry begins a pass, so each of them joins what is there.
    induction rest with
    | nil => exact fun pass => (List.append_nil pass).symm
    | cons entry rest ih =>
      obtain ⟨hentry, hrest⟩ := List.forall_mem_cons.mp hrest
      intro pass
      rw [List.foldl_cons, if_neg hentry, ih hrest, List.append_assoc, List.singleton_append]
  rw [lastPass, List.foldl_append, List.foldl_cons, if_pos hfirst]
  exact hlater [first]

theorem verdict_of_success {entries : List Entry}
    (h : ∀ entry ∈ entries, entry.outcome = .success) : verdict entries = .success := by
  induction entries with
  | nil => rfl
  | cons entry entries ih =>
    obtain ⟨hentry, hentries⟩ := List.forall_mem_cons.mp h
    rw [verdict_cons, hentry, ih hentries]
    rfl

namespace Equipment

variable {e : Equipment τ σ} {clean : Bool} {s t : Session τ σ} {steps : List (Step τ σ)}

/-- The entries of a pass are those of the last one if nothing comes after them. -/
theorem IsPass.lastPass_append (h : IsPass clean steps) (entries : List Entry) :
    lastPass (entries ++ steps.map Step.entry) = steps.map Step.entry := by
  have honce : ∀ subphases ∈ passPlan.erase .parseForBuildTargets :: passPlan.inits,
      Subphase.obtainTrace ∉ subphases.tail := by decide
  have hsubphases : steps.map Step.subphase
      ∈ passPlan.erase .parseForBuildTargets :: passPlan.inits := by
    rcases h.plan with hplan | ⟨hplan, _⟩
    · exact List.mem_cons_of_mem _ ((List.mem_inits _ _).mpr hplan)
    · exact hplan ▸ List.mem_cons_self
  -- The plan has one beginning, so no later step begins a pass again.
  have hnot := honce _ hsubphases
  have hbegins := h.begins
  rcases steps with _ | ⟨first, rest⟩
  · cases hbegins
  · refine lastPass_append_cons entries (Option.some.inj hbegins) fun entry hentry heq => ?_
    obtain ⟨step, hstep, rfl⟩ := List.mem_map.mp hentry
    exact hnot (List.mem_map.mpr ⟨step, hstep, heq⟩)

/-! ## The outcome of the last pass -/

/-- The steps after which a survey goes on to its end were not cancelled. -/
theorem Surveys.lets {outcome : Outcome} {vanished : Bool}
    (h : e.Surveys clean s steps (.ok (outcome, vanished)) t) :
    ∀ step ∈ steps, step.outcome.Lets := by
  cases h with
  | known _ _ _ hlets | built _ _ _ _ hlets => exact hlets

theorem Surveys.verdict {outcome : Outcome} {vanished : Bool}
    (h : e.Surveys clean s steps (.ok (outcome, vanished)) t) :
    verdict (steps.map Step.entry) = outcome := by
  cases h with
  | known _ _ _ _ hverdict | built _ _ _ _ _ hverdict => exact hverdict

/-- A pass that was cancelled has that outcome. Otherwise its outcome is that of the first step
that is no success. -/
theorem Ends.outcome_eq {halted : Bool} {outcome : Outcome}
    (h : e.Ends clean s steps halted outcome t) :
    outcome = if (∃ entry ∈ steps.map Step.entry, entry.outcome = .cancelled) ∨ halted
      then .cancelled else Configure.verdict (steps.map Step.entry) := by
  cases h with
  | stopped hsurveys =>
    cases hsurveys with
    | @ended front last _ _ _ _ hlast =>
      by_cases hcancelled : last.outcome = .cancelled
      · have hmem : last.entry ∈ (front ++ [last]).map Step.entry := by simp
        rw [if_pos (.inl ⟨last.entry, hmem, hcancelled⟩)]
        exact hcancelled
      -- Otherwise the last step is the first one, too.
      · obtain ⟨rfl, _⟩ := hlast.resolve_left hcancelled
        rw [if_neg (by simpa using hcancelled)]
        exact (verdict_singleton last.entry).symm
  | halted => simp
  | @persisted steps outcome u _ result hsurveys hpersist =>
    have hlets : (outcomeOf result).Lets := by
      refine lets_subphase hpersist ?_
      rcases (persist_cases hpersist).1 with ⟨rfl, _⟩ | ⟨rfl, _⟩ <;> exact nofun
    let last : Step τ σ := ⟨.persist, outcomeOf result, u, t⟩
    have hnot : ¬((∃ entry ∈ (steps ++ [last]).map Step.entry,
        entry.outcome = .cancelled) ∨ false = true) := by
      simpa [last, hlets.1] using fun step hstep => (hsurveys.lets step hstep).1
    rw [if_neg hnot, List.map_append, List.map_singleton, verdict_append, hsurveys.verdict,
      verdict_singleton]
    rfl

/-- The steps of a run end with those of the last pass. -/
theorem Runs.exists_ends {loading first second : List (Step τ σ)} {halted : Bool}
    {outcome : Outcome} (h : e.Runs clean s loading first second halted outcome t) :
    ∃ begins earlier last, loading ++ first ++ second = earlier ++ last ∧
      e.Ends clean begins last halted outcome t := by
  cases h with
  | once _ hends _ => exact ⟨_, loading, first, List.append_nil _, hends⟩
  | twice _ _ hends _ => exact ⟨_, loading ++ first, second, rfl, hends⟩

/-- The report on a run that was not blocked ends with the entries of its last pass, and the outcome
of that pass is what is settled. -/
theorem exists_lastPass (h : (e.configure clean s).1.outcome ≠ .blocked) :
    ∃ begins pass outcome t, e.Ends clean begins pass (e.halts clean s) outcome t ∧
      e.configure clean s = settle outcome t ∧
      lastPass (e.configure clean s).1.entries = pass.map Step.entry ∧
      pass.map Step.entry ⊆ (e.configure clean s).1.entries := by
  obtain ⟨guards, hguards⟩ := exists_guards h
  obtain ⟨loading, first, second, outcome, t, hruns, hconfigure⟩ := e.exists_runs clean hguards
  obtain ⟨begins, earlier, pass, hsteps, hends⟩ := hruns.exists_ends
  have hentries : (e.configure clean s).1.entries
      = earlier.map Step.entry ++ pass.map Step.entry := by
    rw [(hruns.shape hconfigure).entries, hsteps, List.map_append]
  refine ⟨begins, pass, outcome, t, hends, hconfigure, ?_, ?_⟩
  · rw [hentries]
    exact hends.isPass.lastPass_append _
  · exact hentries ▸ List.subset_append_right _ _

/-- A cache that could not be loaded leaves the mark alone that says where the snapshot is from. -/
theorem Shape.loadedFromCache {loading first second : List (Step τ σ)}
    (h : e.Shape clean s loading first second)
    (hfailed : ∀ entry ∈ (e.configure clean s).1.entries,
      entry.subphase = .loadFromCache → entry.outcome ≠ .success) :
    (e.configure clean s).2.context.loadedFromCache = s.context.loadedFromCache := by
  have hsame : (e.configure clean s).2.context.loadedFromCache
      = (fresh s).context.loadedFromCache := by
    refine h.trail.of_changes Context.loadedFromCache (fun _ => rfl)
      fun step hstep hsuccess _ c hsuits => hsuits.loadedFromCache (fun hload => ?_) c
    have hentry : step.entry ∈ (e.configure clean s).1.entries :=
      h.entries ▸ List.mem_map_of_mem hstep
    exact hfailed _ hentry hload hsuccess
  exact hsame

/-- The outcome of a run can be told from the last pass: if one of its subphases was cancelled, or
the run was found cancelled when the snapshot was to be kept, the run is cancelled. Otherwise its
outcome is that of the first subphase that is no success, except that a build tool that is not there
only leaves the snapshot out of date if there is one from the cache. A cache that could not be
loaded leaves that mark alone, and a run in which nothing else went wrong is a success. -/
theorem configure_outcome (e : Equipment τ σ) (clean : Bool) {s : Session τ σ}
    (h : (e.configure clean s).1.outcome ≠ .blocked) :
    let report := (e.configure clean s).1
    let last := lastPass report.entries
    let loaded := (e.configure clean s).2.context.loadedFromCache
    let cancelled := (∃ entry ∈ last, entry.outcome = .cancelled) ∨ e.halts clean s
    (∀ entry ∈ last, entry.subphase ≠ .loadFromCache) ∧
    (cancelled → report.outcome = .cancelled) ∧
    (¬cancelled → report.outcome =
      if verdict last = .notFound ∧ loaded then .outOfDate else verdict last) ∧
    ((∀ entry ∈ report.entries, entry.subphase = .loadFromCache → entry.outcome ≠ .success) →
      loaded = s.context.loadedFromCache) ∧
    ((∀ entry ∈ report.entries, entry.subphase ≠ .loadFromCache → entry.outcome = .success) →
      e.halts clean s = false → report.outcome = .success) := by
  obtain ⟨_, _, _, hshape⟩ := exists_shape h
  obtain ⟨begins, pass, outcome, t, hends, hconfigure, hlast, hsubset⟩ := exists_lastPass h
  have hoffline : ∀ entry ∈ pass.map Step.entry, entry.subphase ≠ .loadFromCache :=
    List.forall_mem_map.mpr hends.isPass.ne_load
  have houtcome := hends.outcome_eq
  have hsettled : (e.configure clean s).1.outcome = if outcome = .notFound ∧
      (e.configure clean s).2.context.loadedFromCache then .outOfDate else outcome := by
    rw [hconfigure]
    rfl
  dsimp only
  rw [hlast]
  refine ⟨hoffline, fun hcancelled => ?_, fun hnot => ?_, hshape.loadedFromCache,
    fun hall hgoes => ?_⟩
  · rw [if_pos hcancelled] at houtcome
    rw [hsettled, houtcome]
    rfl
  · rw [if_neg hnot] at houtcome
    rw [hsettled, houtcome]
  -- If nothing went wrong in the last pass, it was not cancelled, and its verdict is a success.
  · have hsuccess : ∀ entry ∈ pass.map Step.entry, entry.outcome = .success :=
      fun entry hentry => hall entry (hsubset hentry) (hoffline entry hentry)
    have hnot : ¬((∃ entry ∈ pass.map Step.entry, entry.outcome = .cancelled) ∨
        e.halts clean s = true) := by
      rintro (⟨entry, hentry, hcancelled⟩ | hhalts)
      · exact absurd ((hsuccess entry hentry).symm.trans hcancelled) nofun
      · exact absurd (hgoes.symm.trans hhalts) nofun
    rw [if_neg hnot, verdict_of_success hsuccess] at houtcome
    rw [hsettled, houtcome]
    rfl

/-- A workspace in `/w` on a machine that has no build tool. -/
def toolless : Equipment Unit Unit where
  settings := {}
  root := ⟨"/w"⟩
  runTool command _ tree tool := (⟨[], false, .error (.notFound command.program)⟩, tree, tool)
  search _ _ := none
  sink := ⟨fun _ _ sink tree => (.ok (), sink, tree)⟩

/-- Without the build tool the snapshot that was loaded from the cache is out of date. -/
theorem configure_outcome_toolless :
    let s : Session Unit Unit :=
      { context := { cacheTried := true, loadedFromCache := true }, files := {}, tool := (),
        sink := () }
    lastPass (toolless.configure false s).1.entries = [⟨.obtainTrace, .notFound⟩] ∧
      (toolless.configure false s).1.outcome = .outOfDate := by
  intro s
  have hlast : lastPass (toolless.configure false s).1.entries = [⟨.obtainTrace, .notFound⟩] := by
    decide +kernel
  have hhalts : toolless.halts false s = false := by decide +kernel
  obtain ⟨_, _, hverdict, _⟩ := toolless.configure_outcome false (s := s) (by decide +kernel)
  rw [hlast, hhalts] at hverdict
  refine ⟨hlast, (hverdict (by decide)).trans ?_⟩
  decide +kernel

end Equipment

end BuildTrace.Configure
