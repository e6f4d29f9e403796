import BuildTrace.Proofs.Configure.Ending
import BuildTrace.Proofs.Store.File

/-!
# Cancellation and the cache

A run may be cancelled at any moment. This module proves that a run that was cancelled has not
touched the file of the cache, that no run goes past a cancellation to the keeping of the snapshot,
and that the file holds what it held before, or the snapshot as it is at the end of the run.

## Main definitions

* `Equipment.SparesCache`: the surroundings of a run leave the file of the cache alone.

## Main results

* `Equipment.cancelled_beforePersist` and `Equipment.heeds_beforePersist`: a cancellation at any
  moment before the keeping of the snapshot is still there then;
* `Equipment.spares_of_explore`: until then the file of the cache is left alone;
* `Equipment.configure_cancelled`: what a cancellation means for the report and for the cache.
-/

namespace BuildTrace.Configure

open FileTree (Spares)

variable {τ σ α : Type}

namespace Equipment

/-- The surroundings of a run leave the file of the cache alone: the build tool does, the sink does
as long as its state is one of those in `I`, and the copy of the trace is another file. Relative
paths are followed from `start`. -/
structure SparesCache (e : Equipment τ σ) (start : Option Place) (I : σ → Prop) : Prop where
  /-- The build tool leaves the cache alone. -/
  tool : ∀ command cancelled tree tool,
    Spares e.cachePath tree (e.runTool command cancelled tree tool).2.1
  /-- The sink leaves the cache alone and stays as it should be. -/
  sink : ∀ c mode sink tree, I sink → tree.start = start →
    I (e.sink.push c mode sink tree).2.1 ∧
      Spares e.cachePath tree (e.sink.push c mode sink tree).2.2
  /-- The trace is copied to another file. -/
  trace : ∀ tree : FileTree, tree.start = start →
    tree.destination? e.tracePath ≠ tree.destination? e.cachePath

variable {e : Equipment τ σ} {start : Option Place} {I : σ → Prop} {clean : Bool}
  {s : Session τ σ}

/-! ## The file of the cache -/

/-- What is done between the sessions leaves the file of the cache alone if the sink is as it
should be, which it stays. -/
def LeavesCache (e : Equipment τ σ) (start : Option Place) (I : σ → Prop) (s t : Session τ σ) :
    Prop :=
  s.files.start = start → I s.sink → I t.sink ∧ Spares e.cachePath s.files t.files

theorem LeavesCache.trans {s t u : Session τ σ} (h : e.LeavesCache start I s t)
    (h' : e.LeavesCache start I t u) : e.LeavesCache start I s u := by
  intro hstart hsink
  obtain ⟨hsink, hspares⟩ := h hstart hsink
  obtain ⟨hsink, hspares'⟩ := h' (hspares.start.trans hstart) hsink
  exact ⟨hsink, hspares.trans hspares'⟩

theorem LeavesCache.of_alike {s t : Session τ σ} (h : s.Alike t) : e.LeavesCache start I s t := by
  intro _ hsink
  rw [h.sink, h.files]
  exact ⟨hsink, .refl _ _⟩

theorem leavesCache_runForText (h : e.SparesCache start I) (arguments : List String)
    (s : Session τ σ) : e.LeavesCache start I s (e.runForText arguments s).2 := by
  intro _ hsink
  rw [runForText_snd]
  exact ⟨hsink, h.tool _ _ _ _⟩

theorem leavesCache_keepTrace (h : e.SparesCache start I) (trace : String) (s : Session τ σ) :
    e.LeavesCache start I s (e.keepTrace trace s) := by
  intro hstart hsink
  refine ⟨hsink, ?_⟩
  rw [keepTrace]
  dsimp only
  split
  · exact .refl _ _
  next made hmade =>
    -- The directory of the trace may have been made even if the trace is not written.
    have hparent : Spares e.cachePath s.files made := by
      cases hparent : e.tracePath.parent? with
      | none =>
        rw [hparent] at hmade
        cases hmade
        exact .refl _ _
      | some parent =>
        rw [hparent] at hmade
        exact FileTree.spares_makeDirectories hmade
    cases hwritten : made.write e.tracePath (.text trace) with
    | none => exact hparent
    | some written =>
      exact hparent.trans
        (FileTree.spares_write hwritten (h.trace made (hparent.start.trans hstart)))

theorem leavesCache_deliver (h : e.SparesCache start I) (c : Configuration) (mode : UpdateMode)
    (accepted : Session τ σ → Session τ σ) (hsink : ∀ s, (accepted s).sink = s.sink)
    (hfiles : ∀ s, (accepted s).files = s.files) (s : Session τ σ) :
    e.LeavesCache start I s (e.deliver c mode accepted s).2 := by
  intro hstart hs
  -- What follows a push that was taken touches neither the sink nor the files.
  have hpush := h.sink c mode s.sink s.files hs hstart
  rcases e.deliver_snd c mode accepted s with heq | heq
  · rw [heq]
    exact hpush
  · rw [heq, hsink, hfiles]
    exact hpush

/-- What is done in a stage leaves the file of the cache alone. -/
theorem effects_leavesCache (h : e.SparesCache start I) : e.Effects (e.LeavesCache start I) where
  refl s := .of_alike (.refl s)
  trans := .trans
  run := leavesCache_runForText h
  keep := leavesCache_keepTrace h
  scan trace s := .of_alike (e.alike_scanUnits trace s)
  load snapshot s _ :=
    leavesCache_deliver h _ _ (withLoaded snapshot) (fun _ => rfl) (fun _ => rfl) s
  configure _ mode _ :=
    leavesCache_deliver h _ _ (withConfiguration _ mode) (fun _ => rfl) (fun _ => rfl) _
  launch _ _ _ _ _ hsink := ⟨hsink, .refl _ _⟩
  build _ _ _ _ _ hsink := ⟨hsink, .refl _ _⟩

/-- Until the keeping of the snapshot the file of the cache is left alone. -/
theorem spares_of_explore (h : e.SparesCache start I) {guards : Guards}
    {result : Except Outcome Outcome} {t : Session τ σ} (hstart : s.files.start = start)
    (hsink : I s.sink) (hexplore : e.explore clean 1 (begun guards s) = (result, t)) :
    Spares e.cachePath s.files t.files := by
  have hacross : e.Across (e.LeavesCache start I) :=
    .of_alike LeavesCache.trans LeavesCache.of_alike (effects_leavesCache h).stage
  have hexplored := hacross.explore clean 1 (begun guards s) hstart hsink
  rw [hexplore] at hexplored
  exact hexplored.2

/-! ## Moments of cancellation -/

/-- A run that is cancelled before it begins is cancelled when the snapshot would be kept. -/
theorem cancelled_beforePersist (h : s.cancelled = true) :
    (e.beforePersist clean s).cancelled = true := by
  rw [beforePersist]
  split
  · exact h
  · exact (across_cancelled e).explore clean 1 _ h

/-- A run that is granted has been cancelled when the snapshot would be kept if it was to be
cancelled at any moment before. -/
theorem heeds_beforePersist (hguards : (s.context.guards.begin? .configure).isSome = true) :
    (e.beforePersist clean s).Heeds e := by
  obtain ⟨guards, hguards⟩ := Option.isSome_iff_exists.mp hguards
  rw [beforePersist, hguards]
  exact (across_heeds e).explore clean 1 _ ⟨fun _ h => absurd h (Nat.not_lt_zero _),
    fun _ h => absurd h (Nat.not_lt_zero _)⟩

/-! ## Whole runs -/

/-- A run that was cancelled or refused has no entry of the last subphase. -/
theorem Configured.ne_persist {run : Report × Session τ σ} (h : e.Configured clean s run)
    (houtcome : run.1.outcome = .cancelled ∨ run.1.outcome = .blocked) :
    ∀ entry ∈ run.1.entries, entry.subphase ≠ .persist := by
  cases h with
  | blocked => exact nofun
  | ended _ hexplore => exact ne_persist_of_explore hexplore
  | cancelled _ hexplore _ => exact ne_persist_of_explore hexplore
  | persisted _ hexplore _ hpersist =>
    rw [settle_outcome_eq_cancelled, settle_outcome_eq_blocked] at houtcome
    -- A run that has got there is neither cancelled nor refused any more.
    obtain ⟨hcancelled, hblocked⟩ := lets_of_persist hexplore hpersist
    exact absurd houtcome (not_or.mpr ⟨hcancelled, hblocked⟩)

/-- A run that is cancelled before the snapshot is kept ends as cancelled, unless it was refused or
the build tool failed to give a trace. -/
theorem Configured.outcome_eq_cancelled {run : Report × Session τ σ}
    (h : e.Configured clean s run) (hblocked : run.1.outcome ≠ .blocked)
    (hcancelled : (e.beforePersist clean s).cancelled = true)
    (htrace : ∀ entry ∈ run.1.entries, entry.subphase = .obtainTrace →
      entry.outcome = .success ∨ entry.outcome = .cancelled) :
    run.1.outcome = .cancelled := by
  cases h with
  | blocked => exact absurd rfl hblocked
  | @ended guards outcome t _ hexplore =>
    rw [settle_outcome_eq_cancelled]
    have hexplored := e.explored clean 1 (begun guards s)
    rw [hexplore] at hexplored
    -- A run ends early by cancellation or for want of a trace, and the report shows the latter.
    rcases hexplored.error_cases rfl with hcancelled | ⟨hsuccess, _, hentry⟩
    · exact hcancelled
    · exact (htrace _ hentry rfl).resolve_left hsuccess
  | cancelled => exact settle_outcome_eq_cancelled.mpr rfl
  | persisted hguards hexplore hnot _ =>
    rw [beforePersist_of_explore hguards hexplore, hnot] at hcancelled
    cases hcancelled

/-- The file of the cache holds the snapshot if the entry of the last subphase says so, and what it
held before otherwise. -/
theorem Configured.content? {run : Report × Session τ σ} (h : e.Configured clean s run)
    (hspares : e.SparesCache s.files.start I) (hsink : I s.sink) :
    (⟨.persist, .success⟩ ∈ run.1.entries →
      run.2.files.content? e.cachePath = some (.text run.2.context.snapshot.toJson.pretty)) ∧
    (⟨.persist, .success⟩ ∉ run.1.entries →
      run.2.files.content? e.cachePath = s.files.content? e.cachePath) := by
  cases h with
  | blocked => exact ⟨nofun, fun _ => rfl⟩
  | ended _ hexplore =>
    have hne := ne_persist_of_explore hexplore
    exact ⟨fun hmem => absurd rfl (hne _ hmem),
      fun _ => (spares_of_explore hspares rfl hsink hexplore).content⟩
  | cancelled _ hexplore _ =>
    have hne := ne_persist_of_explore hexplore
    exact ⟨fun hmem => absurd rfl (hne _ hmem),
      fun _ => (spares_of_explore hspares rfl hsink hexplore).content⟩
  | @persisted _ outcome t result u _ hexplore _ hpersist =>
    -- The entry tells whether the snapshot was stored; what was stored before is left alone.
    have hmem : ⟨.persist, .success⟩
        ∈ (settle (outcome.andThen (outcomeOf result)) u).1.entries ↔ result = .ok () :=
      mem_persist_iff hexplore hpersist
    have huntouched := spares_of_explore hspares rfl hsink hexplore
    obtain ⟨hresult, hfiles, hcontext⟩ := persist_cases hpersist
    have hafter : (settle (outcome.andThen (outcomeOf result)) u).2.files = u.files := rfl
    have hsnapshot : (settle (outcome.andThen (outcomeOf result)) u).2.context.snapshot
        = t.context.snapshot := by
      rw [← hcontext]
      rfl
    rw [hmem, hafter, hsnapshot, hfiles]
    rcases hresult with ⟨hok, hstored⟩ | ⟨hfailed, error, hstored⟩
    · exact ⟨fun _ => (Store.content?_of_write hstored).2, fun hne => absurd hok hne⟩
    · refine ⟨fun hok => ?_, fun _ => ?_⟩
      · rw [hfailed] at hok
        cases hok
      · exact (huntouched.trans (Store.spares_of_write_error hstored)).content

/-- A workspace whose build tool prints nothing, with the sink in a file. -/
def silent : Equipment Unit Store.FileSink where
  settings := {}
  root := ⟨"/w"⟩
  runTool _ _ tree tool := (⟨[], false, .ok ⟨some 0, false⟩⟩, tree, tool)
  search _ _ := none
  sink := Store.FileSink.sink

/-- A run over a workspace with a cache that is cancelled before it begins. -/
def cancelledSession : Session Unit Store.FileSink where
  context := {}
  files := ⟨[(["w", ".mktrace", "cache.json"], .file (.text "old") false)], none⟩
  tool := ()
  sink := ⟨⟨"/w/.mktrace/configuration.json"⟩, .empty⟩
  cancelled := true

theorem sparesCache_silent :
    silent.SparesCache none (·.path = ⟨"/w/.mktrace/configuration.json"⟩) := by
  -- All files of the workspace have absolute paths, which name the same places in every tree.
  have hcache : ∀ tree : FileTree,
      tree.destination? silent.cachePath = some ["w", ".mktrace", "cache.json"] :=
    fun tree => FileTree.destination?_absolute tree (by decide +kernel) (by decide +kernel)
  have hsink : ∀ tree : FileTree, tree.destination? ⟨"/w/.mktrace/configuration.json"⟩
      = some ["w", ".mktrace", "configuration.json"] :=
    fun tree => FileTree.destination?_absolute tree (by decide +kernel) (by decide +kernel)
  have htemporary : ∀ tree : FileTree,
      tree.destination? (Store.temporaryPath ⟨"/w/.mktrace/configuration.json"⟩)
        = some ["w", ".mktrace", "configuration.json.tmp"] :=
    fun tree => FileTree.destination?_absolute tree (by decide +kernel) (by decide +kernel)
  have htrace : ∀ tree : FileTree,
      tree.destination? silent.tracePath = some ["w", ".mktrace", "dryrun.log"] :=
    fun tree => FileTree.destination?_absolute tree (by decide +kernel) (by decide +kernel)
  refine ⟨fun _ _ _ _ => .refl _ _, ?_, ?_⟩
  · rintro c mode ⟨path, state⟩ tree rfl _
    refine Store.FileSink.spares_push c mode ?_ ?_
    · rw [hcache, hsink]
      decide
    · intro origin place horigin hplace
      rw [htemporary] at horigin
      rw [hcache] at hplace
      cases horigin
      cases hplace
      decide
  · intro tree _
    rw [hcache, htrace]
    decide

end Equipment

end BuildTrace.Configure
