import BuildTrace.Proofs.Configuration.Lookup
import BuildTrace.Proofs.Configure.Findings
import BuildTrace.Proofs.Configure.Pass
import BuildTrace.Proofs.Configure.Persistence
import BuildTrace.Proofs.Store.Restart

/-!
# The two files of a run

A run leaves the configuration in two files: the sink writes it to its own file, and the cache holds
it with the rest of the snapshot. A sink in a file begins with what is in the file, while the
snapshot of a context begins with nothing, or with what is in the cache. So the files may differ
after a run that adds to what was known, even if all went well.

## Main definitions

* `Equipment.Separate`: nothing but the sink writes to the file of the sink;
* `Equipment.held`: what is left of earlier runs when a run begins;
* `Delivers`: what a pass does to the sink and to the configuration of the snapshot.

## Main results

* `Equipment.Surveyed.delivers`: every pass delivers what it has found;
* `Equipment.Explored.exceeds`: after a run that adds to what was known, the sink has more than the
  snapshot by what is left of earlier runs;
* `Equipment.configure_outputs`: what is in the two files after a run that succeeded;
* `Equipment.configure_disagrees`: runs after which the two files do not agree.
-/

namespace BuildTrace.Configure

open Store (FileSink)

variable {τ σ α : Type}

/-! ## Sessions with a sink in a file -/

/-- The sink writes to the file at the path, what it holds is well-formed, and relative paths are
followed from the place. -/
structure Session.Holds (path : Path) (start : Option Place) (s : Session τ FileSink) : Prop where
  /-- The sink writes to the file. -/
  path : s.sink.path = path
  /-- What it holds is well-formed. -/
  sound : s.sink.state.Sound
  /-- Relative paths are followed from the place. -/
  start : s.files.start = start

theorem Session.Holds.of_alike {path : Path} {start : Option Place} {s t : Session τ FileSink}
    (h : s.Holds path start) (halike : s.Alike t) : t.Holds path start :=
  ⟨halike.sink ▸ h.path, halike.sink ▸ h.sound, halike.files ▸ h.start⟩

/-- What was found was handed over: the sink has taken it in. If it was written, too, then so has
the snapshot, and the file holds what the sink holds; otherwise the snapshot is as before. -/
inductive Delivers (found : Configuration) (mode : UpdateMode) (s t : Session τ FileSink) :
    Outcome → Prop where
  /-- It was written. -/
  | written : t.sink = { s.sink with state := s.sink.state.update found mode } →
      t.context.snapshot.configuration = s.context.snapshot.configuration.update found mode →
      t.files.read? t.sink.path = some (.text t.sink.state.toJson.pretty) →
      Delivers found mode s t .success
  /-- It could not be written. -/
  | refused {outcome} : outcome ≠ .success →
      t.sink = { s.sink with state := s.sink.state.update found mode } →
      t.context.snapshot.configuration = s.context.snapshot.configuration →
      Delivers found mode s t outcome

namespace Delivers

variable {found : Configuration} {mode : UpdateMode} {s t u : Session τ FileSink}
  {outcome : Outcome}

theorem congr_left (h : Delivers found mode s t outcome) (hsink : s.sink = u.sink)
    (hconfiguration : s.context.snapshot.configuration = u.context.snapshot.configuration) :
    Delivers found mode u t outcome := by
  cases h with
  | written htaken hkept hread => exact .written (hsink ▸ htaken) (hconfiguration ▸ hkept) hread
  | refused hne htaken hkept => exact .refused hne (hsink ▸ htaken) (hconfiguration ▸ hkept)

theorem congr_right (h : Delivers found mode s t outcome) (hsink : u.sink = t.sink)
    (hconfiguration : u.context.snapshot.configuration = t.context.snapshot.configuration)
    (hread : ∀ content, t.files.read? t.sink.path = some content →
      u.files.read? t.sink.path = some content) : Delivers found mode s u outcome := by
  cases h with
  | written htaken hkept hheld =>
    refine .written (hsink.trans htaken) (hconfiguration.trans hkept) ?_
    rw [hsink]
    exact hread _ hheld
  | refused hne htaken hkept => exact .refused hne (hsink.trans htaken) (hconfiguration.trans hkept)

/-- If it was written, the file of the sink holds what the sink holds. -/
theorem read (h : Delivers found mode s t .success) :
    t.files.read? t.sink.path = some (.text t.sink.state.toJson.pretty) := by
  cases h with
  | written _ _ hread => exact hread
  | refused hne => exact absurd rfl hne

/-- What was found replaces everything, in the sink as well as in the snapshot. -/
theorem replaced (h : Delivers found .replace s t .success) :
    t.sink.state = t.context.snapshot.configuration := by
  cases h with
  | written htaken hkept =>
    rw [htaken, hkept]
    rfl
  | refused hne => exact absurd rfl hne

/-- What was found is added to both, so the sink has as much more as before. -/
theorem merged {held : Configuration} (h : Delivers found .merge s t .success)
    (hfound : found.Normal)
    (hexceeds : held.Exceeds s.sink.state s.context.snapshot.configuration) :
    held.Exceeds t.sink.state t.context.snapshot.configuration := by
  cases h with
  | written htaken hkept =>
    rw [htaken, hkept]
    exact hexceeds.update hfound
  | refused hne => exact absurd rfl hne

end Delivers

/-- Every pass has delivered what it has found. -/
def AllDelivered (entries : List Entry) : Prop :=
  ∀ entry ∈ entries, entry.subphase = .parseForConfiguration → entry.outcome = .success

instance (entries : List Entry) : Decidable (AllDelivered entries) :=
  inferInstanceAs (Decidable (∀ entry ∈ entries, _ → _))

theorem AllDelivered.of_continues {s t : Session τ σ} (h : AllDelivered t.report.entries)
    (hcontinues : s.Continues t) : AllDelivered s.report.entries := by
  obtain ⟨more, hmore, -⟩ := hcontinues
  exact fun entry hentry => h entry (hmore ▸ List.mem_append_left more hentry)

namespace Equipment

/-! ## Stages -/

/-- What is done in a stage that delivers nothing leaves the sink and the configuration of the
snapshot alone. -/
theorem Stage.spares_outputs {e : Equipment τ σ} {which : Subphase} {action : Action τ σ α}
    (h : e.Stage α which action) (hload : which ≠ .loadFromCache)
    (hconfigure : which ≠ .parseForConfiguration) (s : Session τ σ) :
    (action s).2.sink = s.sink ∧
      (action s).2.context.snapshot.configuration = s.context.snapshot.configuration := by
  cases h with
  | loadFromCache => exact absurd rfl hload
  | parseForConfiguration => exact absurd rfl hconfigure
  | obtainTrace clean =>
    rcases e.obtainTrace_snd clean s with heq | heq | ⟨trace, heq⟩
    · rw [heq]
      exact ⟨rfl, rfl⟩
    · rw [heq, runForText_snd]
      exact ⟨rfl, rfl⟩
    · rw [heq, keepTrace, runForText_snd]
      exact ⟨rfl, rfl⟩
  | preprocess raw =>
    rw [preprocess_eq]
    exact ⟨rfl, rfl⟩
  | parseForLaunchTargets trace mode =>
    obtain ⟨_, _, _, heq⟩ := e.parseForLaunchTargets_snd trace mode s
    rw [heq]
    exact ⟨rfl, rfl⟩
  | parseForBuildTargets mode =>
    obtain ⟨_, _, _, heq⟩ := e.parseForBuildTargets_snd mode s
    rw [heq, runForText_snd]
    exact ⟨rfl, rfl⟩

theorem spares_outputs_of_eq {e : Equipment τ σ} {which : Subphase} {action : Action τ σ α}
    (h : e.Stage α which action) (hload : which ≠ .loadFromCache)
    (hconfigure : which ≠ .parseForConfiguration) {s t : Session τ σ} {result : Except Outcome α}
    (heq : e.subphase which action s = (result, t)) :
    t.sink = s.sink ∧ t.context.snapshot.configuration = s.context.snapshot.configuration := by
  rw [subphase_eq] at heq
  obtain ⟨-, rfl⟩ := Prod.mk.inj heq
  exact h.spares_outputs hload hconfigure (e.tell (.status which) s)

section FileSink

variable {e : Equipment τ FileSink} {path : Path} {start : Option Place}
  {s t u v w : Session τ FileSink}

/-- Handing over a well-formed configuration leaves what the sink holds well-formed. -/
theorem holds_deliver (hsink : e.sink = FileSink.sink) {c : Configuration}
    (hc : ∀ pair ∈ c.files, pair.2.Sound) (mode : UpdateMode)
    {accepted : Session τ FileSink → Session τ FileSink}
    (haccepted : ∀ s, (accepted s).files = s.files ∧ (accepted s).sink = s.sink)
    (h : s.Holds path start) : (e.deliver c mode accepted s).2.Holds path start := by
  obtain ⟨hstate, hfiles⟩ := e.pushed_deliver c mode haccepted s
  rw [hsink] at hstate hfiles
  refine ⟨?_, ?_, ?_⟩
  · rw [hstate]
    exact h.path
  · rw [hstate]
    exact h.sound.update hc mode
  · rw [hfiles]
    exact (Store.start_write _ _ _).trans h.start

/-- The build tool leaves it to the sink to write to the file at the path, and the cache is another
file, the temporary file of which is not on the way to that file. -/
structure Separate (e : Equipment τ FileSink) (path : Path) (files : FileTree) : Prop where
  /-- Relative paths are followed from the same place after a run of the build tool. -/
  start : ∀ command cancelled files tool,
    (e.runTool command cancelled files tool).2.1.start = files.start
  /-- What can be read at the path still can be then. -/
  reads : ∀ command cancelled files tool content, files.read? path = some content →
    (e.runTool command cancelled files tool).2.1.read? path = some content
  /-- The cache is another file. -/
  cache : files.destination? e.cachePath ≠ files.destination? path
  /-- The temporary file of the cache is not on the way. -/
  temporary : ∀ origin place,
    files.destination? (Store.temporaryPath e.cachePath) = some origin →
    files.destination? path = some place → ¬ origin <+: place

/-- What is done in each stage leaves what the sink holds well-formed. -/
theorem effects_holds {files : FileTree} (hsink : e.sink = FileSink.sink)
    (hseparate : e.Separate path files) :
    e.Effects fun s t => s.Holds path start → t.Holds path start where
  refl _ := id
  trans hst htu := htu ∘ hst
  -- Of what the tool does to the files only this counts: relative paths start where they did.
  run arguments s h := by
    rw [runForText_snd]
    exact ⟨h.path, h.sound, (hseparate.start _ _ _ _).trans h.start⟩
  keep trace s h := by
    have hretains : FileTree.Retains (fun _ => False) s.files (e.copied trace s.files) :=
      e.retains_copied trace s.files
    rw [keepTrace_eq]
    exact ⟨h.path, h.sound, hretains.start.trans h.start⟩
  scan trace s h := h.of_alike (e.alike_scanUnits trace s)
  load snapshot s hload :=
    holds_deliver hsink (Store.Cache.sound_of_load hload).files _ fun _ => ⟨rfl, rfl⟩
  -- What is delivered is sound, since it was made of units that were scanned.
  configure trace mode s :=
    holds_deliver hsink (Configuration.sound_ofUnits (e.sound_scanUnits trace s)) mode
      fun _ => ⟨rfl, rfl⟩
  launch _ _ _ _ h := ⟨h.path, h.sound, h.start⟩
  build _ _ _ _ h := ⟨h.path, h.sound, h.start⟩

/-- A sink in a file takes in what is handed over, whether or not it can write it. -/
theorem delivers_deliver (hsink : e.sink = FileSink.sink) (found : Configuration)
    (mode : UpdateMode) (s : Session τ FileSink) :
    let delivered := e.deliver found mode (withConfiguration found mode) s
    Delivers found mode s delivered.2 (outcomeOf (delivered.1.mapError Problem.outcome)) := by
  have hpush : e.sink.push found mode s.sink s.files
      = FileSink.push found mode s.sink s.files := by rw [hsink]; rfl
  rcases hwrite : Store.write (s.sink.state.update found mode).toJson s.files s.sink.path with
    ⟨error | ⟨⟩, files⟩
  · simp only [deliver, hpush, FileSink.push, hwrite]
    exact .refused (Problem.sink error).outcome_ne.1 rfl rfl
  · have hread := Store.read?_of_write (congrArg Prod.fst hwrite)
    rw [hwrite] at hread
    simp only [deliver, hpush, FileSink.push, hwrite]
    exact .written rfl rfl hread

/-- So do the steps of an exploration. -/
theorem across_holds {files : FileTree} (hsink : e.sink = FileSink.sink)
    (hseparate : e.Separate path files) :
    e.Across fun s t => s.Holds path start → t.Holds path start :=
  .of_alike (fun hst htu => htu ∘ hst) (fun halike h => h.of_alike halike)
    (effects_holds hsink hseparate).stage

/-- The stage of the compile units, unless it is cancelled, delivers what it has found. -/
theorem parseForConfiguration_delivers (hsink : e.sink = FileSink.sink) {trace : String}
    {mode : UpdateMode} {result : Except Outcome Unit}
    (h : e.subphase .parseForConfiguration (e.parseForConfiguration trace mode) s = (result, t))
    (hne : result ≠ .error .cancelled) :
    ∃ found : Configuration, found.Normal ∧ Delivers found mode s t (outcomeOf result) := by
  rw [subphase_eq] at h
  obtain ⟨rfl, rfl⟩ := Prod.mk.inj h
  generalize hbegun : e.tell (.status .parseForConfiguration) s = begun at hne ⊢
  have halike : s.Alike begun := hbegun ▸ alike_tell e _ s
  have hscan := halike.trans (e.alike_scanUnits trace begun)
  rcases e.parseForConfiguration_cases trace mode begun with heq | heq
  · rw [heq] at hne
    exact absurd rfl hne
  · rw [heq]
    have hnormal := Configuration.normal_ofUnits (e.scanUnits trace begun).1
    generalize Configuration.ofUnits (e.scanUnits trace begun).1 = found at hnormal ⊢
    generalize (e.scanUnits trace begun).2.2 = scanned at hscan ⊢
    have hdelivers := delivers_deliver hsink found mode scanned
    have hbegun := hdelivers.congr_left hscan.sink (congrArg Snapshot.configuration hscan.snapshot)
    exact ⟨found, hnormal, hbegun.congr_right rfl rfl fun _ => id⟩

/-! ## Passes -/

/-- Until the launch targets have been looked for, a pass delivers what it has found. -/
theorem delivers_launched (hsink : e.sink = FileSink.sink) {clean : Bool} {mode : UpdateMode}
    {raw trace : String} {configured launched : Except Outcome Unit} {r : Session τ FileSink}
    (hobtain : e.subphase .obtainTrace (e.obtainTrace clean) s = (.ok raw, r))
    (hprepare : e.subphase .preprocess (e.preprocess raw) r = (.ok trace, u))
    (hconfigure : e.subphase .parseForConfiguration (e.parseForConfiguration trace mode)
      (counted trace u) = (configured, v))
    (hconfigured : configured ≠ .error .cancelled)
    (hlaunch : e.subphase .parseForLaunchTargets (e.parseForLaunchTargets trace mode) v
      = (launched, w)) :
    (∃ found : Configuration, found.Normal ∧ Delivers found mode s w (outcomeOf configured)) ∧
      ⟨.parseForConfiguration, outcomeOf configured⟩ ∈ w.report.entries := by
  obtain ⟨found, hnormal, hdelivers⟩ :=
    parseForConfiguration_delivers hsink hconfigure hconfigured
  obtain ⟨hr, hr'⟩ := spares_outputs_of_eq (.obtainTrace clean) nofun nofun hobtain
  obtain ⟨hu, hu'⟩ := spares_outputs_of_eq (.preprocess raw) nofun nofun hprepare
  obtain ⟨hw, hw'⟩ := spares_outputs_of_eq (.parseForLaunchTargets trace mode) nofun nofun hlaunch
  have hfiles : w.files = v.files := by
    rw [subphase_eq] at hlaunch
    obtain ⟨_, _, _, heq⟩ :=
      e.parseForLaunchTargets_snd trace mode (e.tell (.status .parseForLaunchTargets) v)
    obtain ⟨-, rfl⟩ := Prod.mk.inj hlaunch
    rw [heq]
    rfl
  have hbegun : Delivers found mode s v (outcomeOf configured) :=
    hdelivers.congr_left (hu.trans hr) (hu'.trans hr')
  refine ⟨⟨found, hnormal, hbegun.congr_right hw hw' fun _ hread => hfiles ▸ hread⟩, ?_⟩
  -- The entry is the last one but one.
  have hentries := entries_stage (.parseForConfiguration (e := e) trace mode) (counted trace u)
  have hentries' := entries_stage (.parseForLaunchTargets (e := e) trace mode) v
  rw [hconfigure] at hentries
  rw [hlaunch, hentries] at hentries'
  rw [hentries']
  simp

/-- A pass that is not ended early delivers what it has found. -/
theorem Surveyed.delivers {files : FileTree} (hsink : e.sink = FileSink.sink)
    (hseparate : e.Separate path files) (hpath : t.sink.path = path) {clean : Bool}
    {mode : UpdateMode} {outcome : Outcome} {vanished : Bool}
    (h : e.Surveyed clean mode s (.ok (outcome, vanished)) t) :
    ∃ found delivered, found.Normal ∧ Delivers found mode s t delivered ∧
      (outcome = .success → delivered = .success) ∧
      ⟨.parseForConfiguration, delivered⟩ ∈ t.report.entries := by
  cases h with
  | known hobtain hprepare hconfigure hconfigured hlaunch =>
    obtain ⟨⟨found, hnormal, hdelivers⟩, hentry⟩ :=
      delivers_launched hsink hobtain hprepare hconfigure hconfigured hlaunch
    exact ⟨found, _, hnormal, hdelivers, fun h => (Outcome.andThen_eq_success.mp h).1, hentry⟩
  | @built _ _ _ _ configured _ launched w found _ hobtain hprepare hconfigure hconfigured hlaunch
      _ _ hbuild =>
    obtain ⟨⟨found, hnormal, hdelivers⟩, hentry⟩ :=
      delivers_launched hsink hobtain hprepare hconfigure hconfigured hlaunch
    obtain ⟨ht, ht'⟩ := spares_outputs_of_eq (.parseForBuildTargets mode) nofun nofun hbuild
    have hentries := entries_stage (.parseForBuildTargets (e := e) mode) w
    rw [hbuild] at hentries
    -- The build tool runs once more, and leaves the file of the sink alone.
    have hread : ∀ content, w.files.read? w.sink.path = some content →
        t.files.read? w.sink.path = some content := by
      intro content hread
      rw [← ht, hpath] at hread ⊢
      rw [subphase_eq] at hbuild
      obtain ⟨_, _, _, heq⟩ :=
        e.parseForBuildTargets_snd mode (e.tell (.status .parseForBuildTargets) w)
      obtain ⟨-, rfl⟩ := Prod.mk.inj hbuild
      rw [heq, runForText_snd]
      exact hseparate.reads _ _ _ _ content hread
    refine ⟨found, _, hnormal, hdelivers.congr_right ht ht' hread, fun h => ?_, ?_⟩
    · exact (Outcome.andThen_eq_success.mp (Outcome.andThen_eq_success.mp h).1).1
    · rw [hentries]
      exact List.mem_append_left _ hentry

/-! ## Explorations -/

/-- What is left of earlier runs when a run begins: the configuration in the cache, or else what the
sink holds. -/
def held (e : Equipment τ FileSink) (s : Session τ FileSink) : Configuration :=
  match Store.Cache.load s.files e.cachePath with
  | .ok (some snapshot) => snapshot.configuration
  | _ => s.sink.state

/-- When an earlier snapshot has been loaded, or could not be, the sink exceeds the snapshot by what
is left of earlier runs. -/
theorem exceeds_loadFromCache (hsink : e.sink = FileSink.sink)
    (hfresh : s.context.snapshot.configuration = .empty) :
    (e.held s).Exceeds (e.loadFromCache s).2.sink.state
      (e.loadFromCache s).2.context.snapshot.configuration := by
  unfold held loadFromCache
  match hload : Store.Cache.load s.files e.cachePath with
  -- Nothing was loaded, so the sink is the only one that knows something.
  | .error error =>
    have hempty := Configuration.exceeds_empty s.sink.state
    rwa [← hfresh] at hempty
  | .ok none =>
    have hempty := Configuration.exceeds_empty s.sink.state
    rwa [← hfresh] at hempty
  | .ok (some snapshot) =>
    -- The sink has taken in what was loaded. The snapshot is kept if that could be written.
    have hnormal : snapshot.configuration.Normal := (Store.Cache.sound_of_load hload).normal
    have htaken : (e.sink.push snapshot.configuration .replace s.sink s.files).2.1.state
        = snapshot.configuration := by
      rw [hsink]
      exact @Configuration.update_replace_of_normal s.sink.state _ hnormal
    rcases hpush : e.sink.push snapshot.configuration .replace s.sink s.files with
      ⟨result, sink, files⟩
    have hstate : sink.state = snapshot.configuration := by rwa [hpush] at htaken
    cases result with
    | error error =>
      simp only [hpush, hstate, hfresh]
      exact Configuration.exceeds_empty snapshot.configuration
    | ok =>
      simp only [hpush, hstate]
      exact Configuration.exceeds_self snapshot.configuration

theorem exceeds_loadOnce (hsink : e.sink = FileSink.sink) (htried : s.context.cacheTried = false)
    (hfresh : s.context.snapshot.configuration = .empty) :
    (e.held s).Exceeds (e.loadOnce s).sink.state
      (e.loadOnce s).context.snapshot.configuration := by
  rw [loadOnce, if_neg (Bool.not_eq_true _ ▸ htried), subphase_eq]
  generalize hbegun : e.tell (.status .loadFromCache)
    { s with context := { s.context with cacheTried := true } } = begun
  have hheld : e.held begun = e.held s := by rw [← hbegun]; rfl
  have hempty : begun.context.snapshot.configuration = .empty := by rw [← hbegun]; exact hfresh
  rw [← hheld]
  exact exceeds_loadFromCache hsink hempty

/-- The last survey of an exploration that is not ended early. -/
theorem Explored.exists_surveyed {e : Equipment τ σ} {clean : Bool} {reruns : Nat}
    {s t : Session τ σ} {result : Except Outcome Outcome} {outcome : Outcome}
    (h : e.Explored clean reruns s result t) (hresult : result = .ok outcome) :
    ∃ u vanished, e.Surveyed clean (modeOf clean) u (.ok (outcome, vanished)) t := by
  induction h with
  | ended => cases hresult
  | @complete _ s outcome vanished t hsurvey _ =>
    cases hresult
    have hsurveyed := e.surveyed clean s
    rw [hsurvey] at hsurveyed
    exact ⟨_, vanished, hsurveyed⟩
  | again _ _ ih => exact ih hresult

/-- A pass that adds to what was known, and has delivered what it has found, leaves the sink with as
much more than the snapshot as there was when the cache had been looked at. -/
theorem exceeds_survey {files : FileTree} (hsink : e.sink = FileSink.sink)
    (hseparate : e.Separate path files) (hholds : s.Holds path start) {held : Configuration}
    {outcome : Outcome} {vanished : Bool} (h : e.survey false s = (.ok (outcome, vanished), t))
    (hbegin : held.Exceeds (e.loadOnce { s with statistics := {} }).sink.state
      (e.loadOnce { s with statistics := {} }).context.snapshot.configuration)
    (hdelivered : AllDelivered t.report.entries) :
    held.Exceeds t.sink.state t.context.snapshot.configuration := by
  have hafter := (across_holds hsink hseparate).survey false s hholds
  have hsurveyed := e.surveyed false s
  rw [h] at hafter hsurveyed
  obtain ⟨found, delivered, hnormal, hdelivers, -, hentry⟩ :=
    hsurveyed.delivers hsink hseparate hafter.path
  obtain rfl : delivered = .success := hdelivered _ hentry rfl
  exact hdelivers.merged hnormal hbegin

/-- After an exploration that adds to what was known, in which every pass has delivered what it has
found, the sink has as much more than the snapshot as there was when the cache had been looked
at. -/
theorem Explored.exceeds {files : FileTree} (hsink : e.sink = FileSink.sink)
    (hseparate : e.Separate path files) {held : Configuration} {reruns : Nat}
    {result : Except Outcome Outcome} {outcome : Outcome} (h : e.Explored false reruns s result t)
    (hholds : s.Holds path start)
    (hbegin : held.Exceeds (e.loadOnce { s with statistics := {} }).sink.state
      (e.loadOnce { s with statistics := {} }).context.snapshot.configuration)
    (hdelivered : AllDelivered t.report.entries) (hresult : result = .ok outcome) :
    held.Exceeds t.sink.state t.context.snapshot.configuration := by
  induction h with
  | ended => cases hresult
  | complete hsurvey _ => exact exceeds_survey hsink hseparate hholds hsurvey hbegin hdelivered
  | @again _ s _ u _ _ hsurvey hexplored ih =>
    have hcontinues := (across_continues e).of_explored hexplored
    have hexceeds := exceeds_survey hsink hseparate hholds hsurvey hbegin
      (hdelivered.of_continues hcontinues)
    have hafter := (across_holds hsink hseparate).survey false s hholds
    have htried := tried_survey hsurvey
    rw [hsurvey] at hafter
    -- The cache is not looked at again.
    refine ih (hafter.of_alike ⟨rfl, rfl, rfl⟩) ?_ hdelivered hresult
    rw [loadOnce, if_pos (show _ = true from htried)]
    exact hexceeds

/-! ## Runs -/

/-- What can be read in the file of the sink still can be when the snapshot has been kept. -/
theorem read?_of_persist {files : FileTree} (hseparate : e.Separate path files)
    (hstart : s.files.start = files.start) {content : Content}
    (hread : s.files.read? path = some content) {result : Except Outcome Unit}
    (h : e.subphase .persist e.persist s = (result, t)) :
    t.files.read? path = some content := by
  have hdestination := FileTree.destination?_congr hstart
  rw [(persist_cases h).2.1]
  refine Store.read?_write hread ?_ ?_
  · rw [hdestination, hdestination]
    exact hseparate.cache
  · rw [hdestination, hdestination]
    exact hseparate.temporary

/-- What is in the two files after a run that succeeded, over a context that has not looked at the
cache and knows nothing, with a sink that was opened over its file. After a clean run the files
agree. A run that adds to what was known, and has delivered what each of its passes has found,
leaves all that is in the cache in the file of the sink as well; the files agree exactly if the
cache has got all files and directories that were left of earlier runs. -/
theorem configure_outputs {clean : Bool} (hsink : e.sink = FileSink.sink)
    (hseparate : e.Separate path s.files) (htried : s.context.cacheTried = false)
    (hfresh : s.context.snapshot.configuration = .empty)
    (hopened : s.sink = FileSink.opened s.files path)
    (hsuccess : (e.configure clean s).1.outcome = .success) :
    let after := (e.configure clean s).2
    ∃ written kept,
      Store.read Configuration.ofJson? after.files path = .ok written ∧
      Store.read Snapshot.configuration? after.files e.cachePath = .ok kept ∧
      (clean = true → written = kept) ∧
      (clean = false → AllDelivered (e.configure clean s).1.entries →
        written.Contains kept ∧ (written.Agrees kept ↔ kept.Covers (e.held s))) := by
  obtain ⟨guards, t, u, hexplore, hpersist, hrun⟩ := exists_persisted hsuccess
  have hexplored := e.explored clean 1 (begun guards s)
  have hbegun : (begun guards s).Holds path s.files.start :=
    ⟨congrArg FileSink.path hopened, hopened ▸ FileSink.sound_opened s.files path, rfl⟩
  have hholds := (across_holds hsink hseparate).explore clean 1 _ hbegun
  have hsnapshot : t.context.snapshot.Sound := by
    have hsound := e.sound_configure clean (s := s)
      ⟨hfresh ▸ Configuration.sound_empty.normal, hfresh ▸ Configuration.sound_empty.files⟩
    rw [hrun] at hsound
    exact (persist_cases hpersist).2.2 ▸ hsound
  rw [hexplore] at hexplored hholds
  obtain ⟨v, vanished, hsurveyed⟩ := hexplored.exists_surveyed rfl
  obtain ⟨found, delivered, hnormal, hdelivers, hdelivered, -⟩ :=
    hsurveyed.delivers hsink hseparate hholds.path
  obtain rfl := hdelivered rfl
  have hwritten : u.files.read? path = some (.text t.sink.state.toJson.pretty) :=
    read?_of_persist hseparate hholds.start (hholds.path ▸ hdelivers.read) hpersist
  have hkept := read?_cache_of_persist hpersist
  have hfiles : (e.configure clean s).2.files = u.files := by rw [hrun]; rfl
  have hentries : (e.configure clean s).1.entries = t.report.entries ++ [⟨.persist, .success⟩] := by
    have hentries := entries_persist (e := e) t
    rw [hpersist] at hentries
    rw [hrun]
    exact hentries
  dsimp only
  rw [hfiles, hentries, Store.read_of_read? _ (Configuration.plain_toJson _) hwritten,
    Store.read_of_read? _ (Snapshot.plain_toJson _) hkept,
    Configuration.ofJson?_toJson hholds.sound, Snapshot.configuration?_toJson hsnapshot]
  refine ⟨_, _, rfl, rfl, ?_, ?_⟩
  · rintro rfl
    exact hdelivers.replaced
  · rintro rfl hall
    -- What is left of earlier runs is what was there when the cache had been looked at.
    have hbegin := exceeds_loadOnce hsink (s := { begun guards s with statistics := {} })
      htried hfresh
    have hexceeds := hexplored.exceeds hsink hseparate hbegun hbegin
      (fun entry hentry => hall entry (List.mem_append_left _ hentry)) rfl
    exact ⟨hexceeds.contains, hexceeds.agrees_iff⟩

end FileSink

/-- The configuration file and the cache say the same. -/
def FilesAgree (e : Equipment τ FileSink) (path : Path) (files : FileTree) : Prop :=
  ∃ written kept, Store.read Configuration.ofJson? files path = .ok written ∧
    Store.read Snapshot.configuration? files e.cachePath = .ok kept ∧ written.Agrees kept

/-- The default file of the configuration in a workspace in `/w`. -/
def configurationPath : Path := ⟨"/w/.mktrace/configuration.json"⟩

/-- A configuration that names an old directory. -/
def leftOver : Configuration := { browse := [⟨"/w/old"⟩] }

/-- The first run in the life of a context with the build target `all`, in a workspace without a
cache, and with a sink opened over the entry at the default file of the configuration. -/
def openedOver (node : FileTree.Node) : Session Unit FileSink :=
  let files : FileTree :=
    { entries :=
        [(["w"], .directory), (["w", ".mktrace"], .directory),
          (["w", ".mktrace", "configuration.json"], node)] }
  { context := { buildTarget := some "all" }
    files
    tool := ()
    sink := FileSink.opened files configurationPath }

theorem opened_openedOver (node : FileTree.Node) :
    (openedOver node).sink = FileSink.opened (openedOver node).files configurationPath := rfl

/-- The first run over the old configuration. -/
def overLeftOver : Session Unit FileSink :=
  openedOver (.file (.text leftOver.toJson.pretty) false)

theorem opened_overLeftOver :
    overLeftOver.sink = FileSink.opened overLeftOver.files configurationPath :=
  opened_openedOver _

/-- A workspace in `/w`. Its dry run compiles a file for the build target `all`, and nothing for
others. The run that prints the database changes the files. -/
def meddling (change : FileTree → FileTree) : Equipment Unit FileSink where
  settings := {}
  root := ⟨"/w"⟩
  runTool command _ tree tool :=
    let lines := if command.arguments.contains "all" then ["gcc -c a.c"] else []
    let dump := command.arguments.contains "--question"
    (⟨lines.map (.output, ·), false, .ok ⟨some 0, false⟩⟩, if dump then change tree else tree, tool)
  search _ _ := some ⟨"/bin/gcc"⟩
  sink := FileSink.sink

/-- A build tool that does not change any files leaves it to the sink to write to its file. -/
theorem separate_meddling (files : FileTree) :
    (meddling id).Separate configurationPath files := by
  have hcachePath : (meddling id).cachePath = ⟨"/w/.mktrace/cache.json"⟩ := by decide +kernel
  have hcache : files.destination? ⟨"/w/.mktrace/cache.json"⟩
      = some ["w", ".mktrace", "cache.json"] :=
    FileTree.destination?_absolute files (by decide +kernel) (by decide +kernel)
  have htemporary : files.destination? (Store.temporaryPath ⟨"/w/.mktrace/cache.json"⟩)
      = some ["w", ".mktrace", "cache.json.tmp"] :=
    FileTree.destination?_absolute files (by decide +kernel) (by decide +kernel)
  have hpath : files.destination? configurationPath
      = some ["w", ".mktrace", "configuration.json"] :=
    FileTree.destination?_absolute files (by decide +kernel) (by decide +kernel)
  -- The paths are absolute, so that their places are the same in all trees; the tool changes none.
  have hspared : ∀ command cancelled files tool,
      ((meddling id).runTool command cancelled files tool).2.1 = files := by simp [meddling]
  refine ⟨?_, ?_, ?_, ?_⟩
  · intro command cancelled files tool
    rw [hspared]
  · intro command cancelled files tool content hread
    rwa [hspared]
  · rw [hcachePath, hcache, hpath]
    decide
  · intro origin place horigin hplace
    rw [hcachePath, htemporary, Option.some.injEq] at horigin
    rw [hpath, Option.some.injEq] at hplace
    subst horigin hplace
    decide

/-- A run over an old configuration succeeds in two passes. If it is clean, the files agree
afterwards, and otherwise they agree if the cache names the old directory. -/
theorem configure_outputs_leftOver :
    (meddling id).FilesAgree configurationPath
      ((meddling id).configure true overLeftOver).2.files ∧
    ∃ written kept,
      Store.read Configuration.ofJson? ((meddling id).configure false overLeftOver).2.files
        configurationPath = .ok written ∧
      Store.read Snapshot.configuration? ((meddling id).configure false overLeftOver).2.files
        (meddling id).cachePath = .ok kept ∧
      written.Contains kept ∧ (written.Agrees kept ↔ kept.Covers leftOver) := by
  have hclean : ((meddling id).configure true overLeftOver).1.outcome = .success := by
    decide +kernel
  have hrun : ((meddling id).configure false overLeftOver).1.outcome = .success ∧
      AllDelivered ((meddling id).configure false overLeftOver).1.entries := by
    decide +kernel
  have hheld : (meddling id).held overLeftOver = leftOver := by decide +kernel
  obtain ⟨written, kept, hwritten, hkept, hsame, -⟩ :=
    configure_outputs rfl (separate_meddling _) rfl rfl opened_overLeftOver hclean
  obtain ⟨written', kept', hwritten', hkept', -, hdiffer⟩ :=
    configure_outputs rfl (separate_meddling _) rfl rfl opened_overLeftOver hrun.1
  refine ⟨⟨written, kept, hwritten, hkept, ?_⟩, written', kept', hwritten', hkept', ?_⟩
  · rw [hsame rfl]
    exact .refl kept
  · rw [← hheld]
    exact hdiffer rfl hrun.2

/-- If a run in the life of a new context, with a sink opened over the configuration file, succeeds,
then the configuration file and the cache agree. -/
def EndsAgreeing (e : Equipment τ FileSink) (clean : Bool) (path : Path) (s : Session τ FileSink) :
    Prop :=
  s.sink = FileSink.opened s.files path → (e.configure clean s).1.outcome = .success →
    e.FilesAgree path (e.configure clean s).2.files

/-- What is said about a source file and a directory. -/
def said (found : Option Configuration) (source directory : Path) :
    Option (Option FileConfiguration × Bool) :=
  found.map fun c => (c.files.get? source, c.browse.any (·.same directory))

/-- The files do not agree if their documents do not say the same about some source file and some
directory. -/
theorem not_endsAgreeing {e : Equipment τ FileSink} {clean : Bool} {path : Path}
    {s : Session τ FileSink} (hopened : s.sink = FileSink.opened s.files path) {document : Json}
    (hplain : document.Plain) (source directory : Path)
    (hrun : (e.configure clean s).1.outcome = .success ∧
      (e.configure clean s).2.files.read? path = some (.text document.pretty) ∧
      said (Configuration.ofJson? document) source directory
        ≠ said (Snapshot.configuration? (e.configure clean s).2.context.snapshot.toJson) source
            directory) :
    ¬ e.EndsAgreeing clean path s := by
  obtain ⟨hsuccess, hwritten, hdiffer⟩ := hrun
  intro h
  obtain ⟨written, kept, hwritten', hkept', hagree⟩ := h hopened hsuccess
  rw [Store.read_of_read? _ hplain hwritten] at hwritten'
  rw [Store.read_of_read? _ (Snapshot.plain_toJson _) (configure_caches hsuccess)] at hkept'
  apply hdiffer
  split at hwritten'
  next c hc =>
    split at hkept'
    next d hd =>
      rw [hc, hd, Except.ok.inj hwritten', Except.ok.inj hkept']
      have hbrowse : written.browse.any (·.same directory) = kept.browse.any (·.same directory) :=
        Bool.eq_iff_iff.mpr (hagree.browse directory)
      rw [said, said, Option.map_some, Option.map_some, hagree.files source, hbrowse]
    · cases hkept'
  · cases hwritten'

/-- The build tool removes a directory that stands where the configuration should be written. -/
def clearing : Equipment Unit FileSink :=
  meddling fun tree =>
    if tree.isDirectory configurationPath then tree.remove configurationPath else tree

/-- The build tool writes the old configuration. -/
def restoring : Equipment Unit FileSink :=
  meddling fun tree => tree.put ["w", ".mktrace", "configuration.json"]
    (.file (.text leftOver.toJson.pretty) false)

/-- The cache is the file of the configuration. -/
def sharing : Equipment Unit FileSink :=
  { meddling id with settings := { output := { cacheFile := configurationPath } } }

/-- Runs that succeed over a new context, and after which the files do not agree. An old
configuration is there, but no cache. What the first pass has found could not be written, so that
only the sink remembers it. The build tool writes an old configuration to the file. The cache is in
the same file. -/
theorem configure_disagrees :
    ¬(meddling id).EndsAgreeing false configurationPath { overLeftOver with context := {} } ∧
    ¬clearing.EndsAgreeing false configurationPath (openedOver .directory) ∧
    ¬restoring.EndsAgreeing true configurationPath { overLeftOver with context := {} } ∧
    ¬sharing.EndsAgreeing false configurationPath overLeftOver := by
  refine ⟨?_, ?_, ?_, ?_⟩
  · exact not_endsAgreeing opened_overLeftOver (Configuration.plain_toJson
      ((meddling id).configure false { overLeftOver with context := {} }).2.sink.state)
      ⟨"/w/a.c"⟩ ⟨"/w/old"⟩ (by decide +kernel)
  · exact not_endsAgreeing (opened_openedOver .directory) (Configuration.plain_toJson
      (clearing.configure false (openedOver .directory)).2.sink.state)
      ⟨"/w/a.c"⟩ ⟨"/w"⟩ (by decide +kernel)
  · exact not_endsAgreeing opened_overLeftOver (Configuration.plain_toJson leftOver)
      ⟨"/w/a.c"⟩ ⟨"/w/old"⟩ (by decide +kernel)
  · have hrun : (sharing.configure false overLeftOver).1.outcome = .success ∧
        said (Configuration.ofJson?
            (sharing.configure false overLeftOver).2.context.snapshot.toJson) ⟨"/w/a.c"⟩ ⟨"/w"⟩
          ≠ said (Snapshot.configuration?
              (sharing.configure false overLeftOver).2.context.snapshot.toJson)
            ⟨"/w/a.c"⟩ ⟨"/w"⟩ := by
      decide +kernel
    have hpath : sharing.cachePath = configurationPath := by decide +kernel
    have hshared := configure_caches hrun.1
    rw [hpath] at hshared
    exact not_endsAgreeing opened_overLeftOver (Snapshot.plain_toJson _) _ _
      ⟨hrun.1, hshared, hrun.2⟩

end Equipment

end BuildTrace.Configure
