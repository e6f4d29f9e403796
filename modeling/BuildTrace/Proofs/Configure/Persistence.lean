import BuildTrace.Proofs.Configure.Ending
import BuildTrace.Proofs.Configure.Life
import BuildTrace.Proofs.Store.File

/-!
# Persistence

What a run keeps is meant for a later run. This module proves that the snapshot of a context is
well-formed throughout the life of the context, whatever the runs over it come across, and says
exactly when the snapshot that a run has kept can be loaded again.

## Main results

* `Equipment.sound_configure`: a run over a well-formed snapshot leaves a well-formed one;
* `sound_life`: the snapshot of a context is well-formed throughout its life;
* `load_run_iff`: what a run has kept is loaded again unchanged exactly if the launch targets are
  legible.
-/

namespace BuildTrace

/-! ## Configurations from a trace -/

/-- The standards in the units of a line are known. -/
theorem CompileUnit.Extractor.sound_extract {ω : Type} (x : CompileUnit.Extractor ω) (line : String)
    (base : Path) (w : ω) : ∀ u ∈ (x.extract line base w).1, u.configuration.Sound := by
  intro u hu standard hstandard
  obtain ⟨i, group, -, -, rfl⟩ := exists_of_mem_extract hu
  -- The standard of a unit is resolved from its options, so it is known.
  obtain rfl := Option.some.inj hstandard
  exact Standard.isKnown_resolve _ _ _

/-- A well-formed snapshot stays so when its configuration is brought up to date. -/
theorem Snapshot.Sound.update {s : Snapshot} (h : s.Sound) {found : Configuration}
    (hfound : ∀ pair ∈ found.files, pair.2.Sound) (mode : UpdateMode) :
    Sound { s with configuration := s.configuration.update found mode } :=
  have hsound : s.configuration.Sound := ⟨h.normal, h.files⟩
  ⟨(hsound.update hfound mode).normal, (hsound.update hfound mode).files⟩

namespace Configure

variable {τ σ α : Type}

namespace Equipment

variable {e : Equipment τ σ}

/-- The standards in the units of a trace are known. -/
theorem sound_scanUnits (e : Equipment τ σ) (trace : String) (s : Session τ σ) :
    ∀ u ∈ (e.scanUnits trace s).1, u.configuration.Sound := by
  refine Scan.forall_mem_items (I := fun _ => True) (fun line history w _ => ⟨trivial, ?_⟩)
    (fun _ _ => nofun) trace trivial s
  intro u hu
  simp only [CompileUnit.Extractor.scanner] at hu
  split at hu
  · cases hu
  · exact CompileUnit.Extractor.sound_extract _ line history.current w u hu

/-! ## The snapshot during a run -/

/-- What is done in a stage leaves a well-formed snapshot if it finds one. -/
theorem effects_sound (e : Equipment τ σ) :
    e.Effects fun s t => s.context.snapshot.Sound → t.context.snapshot.Sound where
  refl _ := id
  trans hst htu := htu ∘ hst
  run arguments s h := by rwa [runForText_snd]
  keep _ _ := id
  scan trace s h := by rwa [(e.alike_scanUnits trace s).snapshot]
  load snapshot s hload h := by
    rcases e.deliver_snd snapshot.configuration .replace (withLoaded snapshot) s with heq | heq
    · rwa [heq]
    · rw [heq]
      exact Store.Cache.sound_of_load hload
  configure trace mode s h := by
    rcases e.deliver_snd _ mode (withConfiguration _ mode) (e.scanUnits trace s).2.2 with heq | heq
    · rwa [heq]
    · rw [heq]
      -- The units of the trace have known standards.
      exact h.update (Configuration.sound_ofUnits (e.sound_scanUnits trace s)) mode
  launch _ _ _ _ h := ⟨h.normal, h.files⟩
  build _ _ _ _ h := ⟨h.normal, h.files⟩

/-- A run over a well-formed snapshot leaves a well-formed one. -/
theorem sound_configure (e : Equipment τ σ) (clean : Bool) {s : Session τ σ}
    (h : s.context.snapshot.Sound) : (e.configure clean s).2.context.snapshot.Sound := by
  have hpersist : ∀ s : Session τ σ, s.context.snapshot.Sound →
      (e.persist s).2.context.snapshot.Sound := by
    intro s hs
    rwa [persist_eq]
  have halike : ∀ {s t : Session τ σ}, s.Alike t → s.context.snapshot.Sound →
      t.context.snapshot.Sound := by
    intro s t hst hs
    rwa [hst.snapshot]
  exact configure_rel
    (R := fun s t => s.context.snapshot.Sound → t.context.snapshot.Sound)
    e.effects_sound.trans halike e.effects_sound.stage hpersist clean s h

/-- What a run over a well-formed snapshot has kept is loaded again exactly if the launch targets
are legible. -/
theorem Configured.load_iff {clean : Bool} {s : Session τ σ} {run : Report × Session τ σ}
    (h : e.Configured clean s run) (hsound : run.2.context.snapshot.Sound)
    (hentry : ⟨.persist, .success⟩ ∈ run.1.entries) :
    Store.Cache.load run.2.files e.cachePath = .ok (some run.2.context.snapshot) ↔
      ∀ t ∈ run.2.context.snapshot.launchTargets, t.Legible := by
  cases h with
  | blocked => cases hentry
  | ended _ hexplore => exact absurd rfl (ne_persist_of_explore hexplore _ hentry)
  | cancelled _ hexplore => exact absurd rfl (ne_persist_of_explore hexplore _ hentry)
  | @persisted _ outcome t result u _ hexplore _ hpersist =>
    -- The entry says that the snapshot was stored, and it was stored as it is at the end.
    have hresult : result = .ok () := (mem_persist_iff hexplore hpersist).mp hentry
    obtain ⟨hstored, hfiles, hcontext⟩ := persist_cases hpersist
    have hok : (Store.Cache.store t.context.snapshot t.files e.cachePath).1 = .ok () := by
      rcases hstored with ⟨_, hok⟩ | ⟨hfailed, _⟩
      · exact hok
      · rw [hresult] at hfailed
        cases hfailed
    have hsnapshot : (settle (outcome.andThen (outcomeOf result)) u).2.context.snapshot
        = t.context.snapshot := by
      rw [← hcontext]
      rfl
    have hafter : (settle (outcome.andThen (outcomeOf result)) u).2.files = u.files := rfl
    rw [hsnapshot] at hsound ⊢
    rw [hafter, hfiles]
    exact Store.Cache.load_store_iff hsound hok

end Equipment

/-! ## The life of a context -/

/-- The snapshot of a context is well-formed throughout its life. -/
theorem sound_life (rounds : List (Round τ σ)) : (life rounds).snapshot.Sound :=
  life_of_run (P := fun context => context.snapshot.Sound) Snapshot.sound_empty
    (fun r _ h => r.equipment.sound_configure r.clean h) rounds

/-- After any rounds over a context, what a further one has kept is loaded again unchanged exactly
if the launch targets in the snapshot are legible. -/
theorem load_run_iff (rounds : List (Round τ σ)) (r : Round τ σ)
    (h : ⟨.persist, .success⟩ ∈ (r.run (life rounds)).1.entries) :
    let session := (r.run (life rounds)).2
    Store.Cache.load session.files r.equipment.cachePath = .ok (some session.context.snapshot) ↔
      ∀ t ∈ session.context.snapshot.launchTargets, t.Legible :=
  (r.equipment.configured r.clean (r.start (life rounds))).load_iff
    (r.equipment.sound_configure r.clean (sound_life rounds)) h

/-- A round over the workspace in `/w`, whose build tool prints the lines on a dry run and has an
empty database. The sink takes everything. -/
def printing (lines : List String) : Round Unit Unit where
  equipment :=
    { settings := {}
      root := ⟨"/w"⟩
      runTool command _ tree tool :=
        let printed := if command.arguments.contains "--question" then [] else lines
        (⟨printed.map (.output, ·), false, .ok ⟨some 0, false⟩⟩, tree, tool)
      search _ _ := none
      sink := ⟨fun _ _ sink tree => (.ok (), sink, tree)⟩ }
  clean := true
  files := {}
  tool := ()
  sink := ()

/-- The first run in the life of a context, with a build tool that prints the lines. -/
def firstRun (lines : List String) : Report × Session Unit Unit :=
  let rounds : List (Round Unit Unit) := []
  (printing lines).run (life rounds)

/-- What is kept after a dry run that links a program and runs it is loaded again. -/
theorem load_run_running :
    (firstRun ["ld a.o", "./a --fast"]).2.context.snapshot.launchTargets.map LaunchTarget.canonical
        = ["/w>a()", "/w>a(--fast)"] ∧
      Store.Cache.load (firstRun ["ld a.o", "./a --fast"]).2.files ⟨"/w/.mktrace/cache.json"⟩
        = .ok (some (firstRun ["ld a.o", "./a --fast"]).2.context.snapshot) := by
  -- With the lines out of sight only the kernel evaluates the run.
  generalize hlines : ["ld a.o", "./a --fast"] = lines
  have hpath : (printing lines).equipment.cachePath = ⟨"/w/.mktrace/cache.json"⟩ := by
    subst hlines
    decide +kernel
  have hrun : (firstRun lines).2.context.snapshot.launchTargets.map LaunchTarget.canonical
        = ["/w>a()", "/w>a(--fast)"] ∧
      ⟨.persist, .success⟩ ∈ (firstRun lines).1.entries ∧
      ∀ t ∈ (firstRun lines).2.context.snapshot.launchTargets, t.Legible := by
    subst hlines
    decide +kernel
  obtain ⟨htargets, hkept, hlegible⟩ := hrun
  refine ⟨htargets, ?_⟩
  clear htargets
  simp only [firstRun] at hkept hlegible ⊢
  have hload := load_run_iff [] (printing lines) hkept
  dsimp only at hload
  rw [hpath] at hload
  exact hload.mpr hlegible

/-- What is kept after a dry run that gives a closing parenthesis to a program is not loaded again,
although it was kept with success. -/
theorem load_run_closing :
    ⟨.persist, .success⟩ ∈ (firstRun ["ld a.o", "./a x)"]).1.entries ∧
      (Store.Cache.load (firstRun ["ld a.o", "./a x)"]).2.files
        ⟨"/w/.mktrace/cache.json"⟩).toOption = none := by
  decide +kernel

end Configure

end BuildTrace
