import BuildTrace.Proofs.Configure.Notes
import BuildTrace.Proofs.Store.File

/-!
# The end of a run

A run is refused, or it ends before the snapshot is kept, or it keeps the snapshot. This module
tells these cases apart, and tells which of them the report shows.

## Main definitions

* `Equipment.beforePersist`: the session when the keeping of the snapshot would be announced;
* `Equipment.Configured`: the ways in which a run can go.

## Main results

* `Equipment.configured`: a run goes in one of these ways;
* `Equipment.mem_persist_iff`: the entry of the last subphase tells whether the snapshot was kept;
* `Equipment.lets_of_persist`: a run that gets there was neither cancelled nor refused;
* `Equipment.exists_persisted` and `Equipment.configure_caches`: a run that succeeded has kept the
  snapshot, and the cache holds its document.
-/

namespace BuildTrace.Configure

variable {τ σ : Type}

namespace Equipment

/-- The session in which a run begins that was granted the guards. -/
def begun (guards : Guards) (s : Session τ σ) : Session τ σ :=
  fresh { s with context := { s.context with guards } }

/-- The report and the session at the end of a run whose pass had the outcome. -/
def settle (outcome : Outcome) (s : Session τ σ) : Report × Session τ σ :=
  let outcome := if outcome = .notFound ∧ s.context.loadedFromCache then .outOfDate else outcome
  let report := { s.report with outcome }
  (report, { s with report, context := { s.context with guards := s.context.guards.release } })

/-- The session when the keeping of the snapshot would be announced: all other subphases are over.
A run that is refused does not get further than its beginning. -/
def beforePersist (e : Equipment τ σ) (clean : Bool) (s : Session τ σ) : Session τ σ :=
  match s.context.guards.begin? .configure with
  | none => s
  | some guards => (e.explore clean 1 (begun guards s)).2

variable {e : Equipment τ σ} {clean : Bool} {s : Session τ σ}

/-- Unless the build tool is not there, a run has the outcome of its pass. -/
theorem settle_outcome_eq_iff {outcome expected : Outcome} (hfound : expected ≠ .notFound)
    (hdated : expected ≠ .outOfDate) :
    (settle outcome s).1.outcome = expected ↔ outcome = expected := by
  simp only [settle]
  split
  next h =>
    rw [h.1]
    exact iff_of_false (Ne.symm hdated) (Ne.symm hfound)
  · exact Iff.rfl

theorem settle_outcome_eq_cancelled {outcome : Outcome} :
    (settle outcome s).1.outcome = .cancelled ↔ outcome = .cancelled :=
  settle_outcome_eq_iff nofun nofun

theorem settle_outcome_eq_blocked {outcome : Outcome} :
    (settle outcome s).1.outcome = .blocked ↔ outcome = .blocked :=
  settle_outcome_eq_iff nofun nofun

theorem settle_outcome_eq_success {outcome : Outcome} :
    (settle outcome s).1.outcome = .success ↔ outcome = .success :=
  settle_outcome_eq_iff nofun nofun

/-! ## Cases -/

/-- How a run can go. -/
inductive Configured (e : Equipment τ σ) (clean : Bool) (s : Session τ σ) :
    Report × Session τ σ → Prop where
  /-- Another operation is running. -/
  | blocked : s.context.guards.begin? .configure = none →
      Configured e clean s ({ outcome := .blocked }, s)
  /-- The exploration ended the run. -/
  | ended {guards outcome t} : s.context.guards.begin? .configure = some guards →
      e.explore clean 1 (begun guards s) = (.error outcome, t) →
      Configured e clean s (settle outcome t)
  /-- The run was cancelled before the snapshot was kept. -/
  | cancelled {guards outcome t} : s.context.guards.begin? .configure = some guards →
      e.explore clean 1 (begun guards s) = (.ok outcome, t) → t.cancelled = true →
      Configured e clean s (settle .cancelled t)
  /-- The snapshot was kept, or could not be. -/
  | persisted {guards outcome t result u} : s.context.guards.begin? .configure = some guards →
      e.explore clean 1 (begun guards s) = (.ok outcome, t) → t.cancelled = false →
      e.subphase .persist e.persist t = (result, u) →
      Configured e clean s (settle (outcome.andThen (outcomeOf result)) u)

/-- A run goes in one of the ways it can go. -/
theorem configured (e : Equipment τ σ) (clean : Bool) (s : Session τ σ) :
    e.Configured clean s (e.configure clean s) := by
  unfold configure
  split
  next hguards => exact .blocked hguards
  next guards hguards =>
    rcases hexplore : e.explore clean 1 (begun guards s) with ⟨outcome | outcome, t⟩
    -- The pass is over early.
    · have hpass : e.pass clean 1 (begun guards s) = (outcome, t) := by rw [pass, hexplore]
      rw [← begun, hpass]
      exact .ended hguards hexplore
    -- The token is looked at once more before the snapshot is kept.
    · by_cases hcancelled : t.cancelled = true
      · have hpass : e.pass clean 1 (begun guards s) = (.cancelled, t) := by
          rw [pass, hexplore]
          exact if_pos hcancelled
        rw [← begun, hpass]
        exact .cancelled hguards hexplore hcancelled
      · rcases hpersist : e.subphase .persist e.persist t with ⟨result, u⟩
        have hpass : e.pass clean 1 (begun guards s) = (outcome.andThen (outcomeOf result), u) := by
          rw [pass, hexplore]
          simp only [conclude, hcancelled, hpersist]
          rfl
        rw [← begun, hpass]
        exact .persisted hguards hexplore (Bool.not_eq_true _ ▸ hcancelled) hpersist

theorem beforePersist_of_explore {guards : Guards} {result : Except Outcome Outcome}
    {t : Session τ σ} (hguards : s.context.guards.begin? .configure = some guards)
    (hexplore : e.explore clean 1 (begun guards s) = (result, t)) :
    e.beforePersist clean s = t := by
  rw [beforePersist, hguards]
  simp only [hexplore]

/-! ## The entry of the last subphase -/

/-- The snapshot is not kept in an exploration from the beginning of a run. -/
theorem ne_persist_of_explore {guards : Guards} {result : Except Outcome Outcome}
    {t : Session τ σ} (hexplore : e.explore clean 1 (begun guards s) = (result, t)) :
    ∀ entry ∈ t.report.entries, entry.subphase ≠ .persist := by
  obtain ⟨more, hmore, hne⟩ := (across_continues e).explore clean 1 (begun guards s)
  rw [hexplore] at hmore
  have hentries : t.report.entries = more := hmore
  rw [hentries]
  exact hne

/-- Keeping the snapshot succeeds if it is stored, and changes nothing but the files. -/
theorem persist_cases {t u : Session τ σ} {result : Except Outcome Unit}
    (h : e.subphase .persist e.persist t = (result, u)) :
    let stored := Store.Cache.store t.context.snapshot t.files e.cachePath
    ((result = .ok () ∧ stored.1 = .ok ()) ∨
        (result = .error .failed ∧ ∃ error, stored.1 = .error error)) ∧
      u.files = stored.2 ∧ u.context = t.context := by
  rw [subphase_eq, persist_eq] at h
  obtain ⟨hresult, hsession⟩ := Prod.mk.inj h
  refine ⟨?_, by rw [← hsession]; rfl, by rw [← hsession]; rfl⟩
  rw [← hresult]
  cases hstored : (Store.Cache.store t.context.snapshot t.files e.cachePath).1 with
  | ok _ =>
    refine .inl ⟨?_, rfl⟩
    exact congrArg (Except.mapError _ <| Except.mapError Problem.cache ·) hstored
  | error error =>
    refine .inr ⟨?_, error, rfl⟩
    exact congrArg (Except.mapError Problem.outcome <| Except.mapError Problem.cache ·) hstored

/-- The entry of the last subphase tells whether the snapshot was kept. -/
theorem mem_persist_iff {guards : Guards} {outcome : Outcome} {t u : Session τ σ}
    {result : Except Outcome Unit}
    (hexplore : e.explore clean 1 (begun guards s) = (.ok outcome, t))
    (hpersist : e.subphase .persist e.persist t = (result, u)) :
    ⟨.persist, .success⟩ ∈ u.report.entries ↔ result = .ok () := by
  have hentries := entries_persist (e := e) t
  rw [hpersist] at hentries
  rw [hentries, List.mem_append, List.mem_singleton]
  constructor
  -- An entry of the last subphase is the new one, since no earlier one is.
  · rintro (hmem | heq)
    · exact absurd rfl (ne_persist_of_explore hexplore _ hmem)
    · rcases (persist_cases hpersist).1 with ⟨hok, _⟩ | ⟨rfl, _⟩
      · exact hok
      · cases heq
  · rintro rfl
    exact .inr rfl

/-- A pass that gets to the last subphase was neither cancelled nor refused. -/
theorem lets_of_persist {guards : Guards} {outcome : Outcome} {t u : Session τ σ}
    {result : Except Outcome Unit}
    (hexplore : e.explore clean 1 (begun guards s) = (.ok outcome, t))
    (hpersist : e.subphase .persist e.persist t = (result, u)) :
    (outcome.andThen (outcomeOf result)).Lets := by
  have hexplored := e.explored clean 1 (begun guards s)
  rw [hexplore] at hexplored
  refine (hexplored.lets rfl).andThen (lets_subphase hpersist ?_)
  rcases (persist_cases hpersist).1 with ⟨rfl, _⟩ | ⟨rfl, _⟩ <;> exact nofun

/-! ## The cache -/

/-- A run that succeeded has explored all there is with success, and has kept the snapshot. -/
theorem exists_persisted (h : (e.configure clean s).1.outcome = .success) :
    ∃ guards t u, e.explore clean 1 (begun guards s) = (.ok .success, t) ∧
      e.subphase .persist e.persist t = (.ok (), u) ∧ e.configure clean s = settle .success u := by
  have hconfigured := e.configured clean s
  generalize e.configure clean s = run at h hconfigured ⊢
  cases hconfigured with
  | blocked => cases h
  | @ended guards _ _ _ hexplore =>
    obtain rfl := settle_outcome_eq_success.mp h
    have hexplored := e.explored clean 1 (begun guards s)
    rw [hexplore] at hexplored
    rcases hexplored.error_cases rfl with hcancelled | ⟨hne, -⟩
    · cases hcancelled
    · exact absurd rfl hne
  | cancelled => cases settle_outcome_eq_success.mp h
  | @persisted guards outcome t result u _ hexplore _ hpersist =>
    obtain ⟨rfl, hresult⟩ := Outcome.andThen_eq_success.mp (settle_outcome_eq_success.mp h)
    rcases (persist_cases hpersist).1 with ⟨rfl, -⟩ | ⟨rfl, -⟩
    · exact ⟨guards, t, u, hexplore, hpersist, rfl⟩
    · cases hresult

/-- The document in the cache when the snapshot has been kept. -/
theorem read?_cache_of_persist {t : Session τ σ}
    (h : e.subphase .persist e.persist s = (.ok (), t)) :
    t.files.read? e.cachePath = some (.text s.context.snapshot.toJson.pretty) := by
  obtain ⟨⟨-, hstored⟩ | ⟨hfailed, -⟩, hfiles, -⟩ := persist_cases h
  · rw [hfiles]
    exact Store.read?_of_write hstored
  · cases hfailed

/-- A run that succeeded leaves the document of its snapshot in the cache. -/
theorem configure_caches (h : (e.configure clean s).1.outcome = .success) :
    (e.configure clean s).2.files.read? e.cachePath
      = some (.text (e.configure clean s).2.context.snapshot.toJson.pretty) := by
  obtain ⟨guards, t, u, -, hpersist, hrun⟩ := exists_persisted h
  have hread := read?_cache_of_persist hpersist
  rw [← (persist_cases hpersist).2.2] at hread
  rw [hrun]
  exact hread

end Equipment

end BuildTrace.Configure
