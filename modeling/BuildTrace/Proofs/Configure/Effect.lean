import BuildTrace.Proofs.CompileUnit.Standard
import BuildTrace.Proofs.Configure.Course

/-!
# Effects of the stages

What each stage of a run does to the session, said once: which of the recognizers leave it alone,
and what becomes of it when a configuration is handed to the sink.

## Main definitions

* `Equipment.scanUnits`: the scan of the compile units;
* `Equipment.deliver`: handing a configuration to the sink;
* `Equipment.Effects`: a relation that holds across all that is done in the stages.

## Main results

* `Equipment.preprocess_eq` and `LaunchTarget.Extractor.extract?_snd`: preparing the trace and
  looking for launch targets change nothing;
* `Equipment.scanUnits_rel`: what looking for compile units does is counting them and searching
  executables;
* `Equipment.loadFromCache_cases` and `Equipment.parseForConfiguration_cases`: these stages end
  early or with a delivery;
* `Equipment.Effects.stage`: such a relation holds across each stage;
* `Equipment.Stage.kept`: no stage touches what is noted, and a cancellation stays.
-/

namespace BuildTrace

/-- Looking for launch targets leaves the surroundings alone. -/
theorem LaunchTarget.Extractor.extract?_snd {ω : Type} (x : LaunchTarget.Extractor)
    (isCancelled : ω → Bool) (chunkSize : Nat) (trace : String) (w : ω) :
    (x.extract? isCancelled chunkSize trace w).2 = w := by
  have hbinaries : (Scan.complete? (x.binaryScanner (ω := ω)) isCancelled chunkSize trace
      (.start x.root) w).2 = w := Scan.complete?_ofPure ..
  rw [extract?]
  dsimp only
  split
  next heq => exact (congrArg Prod.snd heq).symm.trans hbinaries
  next found w₁ heq =>
  obtain rfl : w₁ = w := (congrArg Prod.snd heq).symm.trans hbinaries
  have hruns : (Scan.complete? (x.invocationScanner (ω := ω) (dedup found)) isCancelled chunkSize
      trace (.start x.root) w₁).2 = w₁ := Scan.complete?_ofPure ..
  split
  · rfl
  · split
    next heq => exact (congrArg Prod.snd heq).symm.trans hruns
    next heq => exact (congrArg Prod.snd heq).symm.trans hruns

/-- Looking for build targets leaves the surroundings alone. -/
theorem BuildTarget.extract?_snd {ω : Type} (isCancelled : ω → Bool) (chunkSize : Nat)
    (dump : String) (w : ω) : (BuildTarget.extract? isCancelled chunkSize dump w).2 = w :=
  Scan.complete?_ofPure _ _ _ _ _ _ w

/-- Bringing a trace into its form leaves the surroundings alone. -/
theorem Command.normalize?_snd {ω : Type} (isCancelled : ω → Bool) (chunkSize : Nat)
    (raw : String) (w : ω) : (Command.normalize? isCancelled chunkSize raw w).2 = w := by
  have hcomplete : (Scan.complete? (Command.scanner (ω := ω)) isCancelled chunkSize raw none w).2
      = w := Scan.complete?_ofPure ..
  rw [normalize?]
  exact hcomplete

namespace Configure

variable {τ σ α : Type}

namespace Equipment

/-! ## Scans -/

/-- Preparing the trace is bringing it into its form, which changes nothing. -/
theorem preprocess_eq (e : Equipment τ σ) (raw : String) (s : Session τ σ) :
    e.preprocess raw s =
      ((Command.normalize? Session.cancelled e.settings.trace.chunkSize raw s).1.elim
        (.error .cancelled) .ok, s) := by
  have hnormalize := Command.normalize?_snd Session.cancelled e.settings.trace.chunkSize raw s
  rw [preprocess]
  -- The session behind the scan is the one before, so only the text counts.
  generalize Command.normalize? Session.cancelled e.settings.trace.chunkSize raw s = normalized
    at hnormalize
  obtain ⟨trace, t⟩ := normalized
  obtain rfl : t = s := hnormalize
  rfl

/-- Preparing the trace fails by cancellation only. -/
theorem preprocess_error {e : Equipment τ σ} {raw : String} {s : Session τ σ} {problem : Problem}
    (h : (e.preprocess raw s).1 = .error problem) : problem = .cancelled := by
  rw [preprocess_eq] at h
  revert h
  cases (Command.normalize? Session.cancelled e.settings.trace.chunkSize raw s).1 with
  | none => exact fun h => (Except.error.inj h).symm
  | some trace => exact nofun

/-- The scan of the compile units of a trace. -/
def scanUnits (e : Equipment τ σ) (trace : String) (s : Session τ σ) :
    List CompileUnit × Scan Directory.History CompileUnit × Session τ σ :=
  Scan.items (e.unitExtractor s.files).scanner Session.cancelled e.settings.trace.chunkSize
    countUnit (Scan.start trace (.start e.root)) s

section Units

variable {e : Equipment τ σ} {R : Session τ σ → Session τ σ → Prop} (hrefl : ∀ s, R s s)
  (hlookup : ∀ name s, R s (e.lookup name s).2)

include hrefl hlookup

theorem extract_rel (files : FileTree) (line : String) (base : Path) (s : Session τ σ) :
    R s ((e.unitExtractor files).extract line base s).2 := by
  rcases (e.unitExtractor files).snd_extract_cases line base s with heq | ⟨name, heq⟩
  · rw [heq]
    exact hrefl s
  · rw [heq]
    exact hlookup name s

/-- A relation that holds across each search for an executable, and when a unit is counted, holds
across the scan of the compile units. -/
theorem scanUnits_rel (htrans : ∀ {s t u}, R s t → R t u → R s u)
    (hcount : ∀ unit s, R s (countUnit unit s)) (trace : String) (s : Session τ σ) :
    R s (e.scanUnits trace s).2.2 := by
  have hline : ∀ line history w,
      R w ((e.unitExtractor s.files).scanner.scanLine line history w).2.2 := by
    intro line history w
    simp only [CompileUnit.Extractor.scanner]
    split
    · exact hrefl w
    · exact extract_rel (R := R) hrefl hlookup s.files line history.current w
  rw [scanUnits]
  exact Scan.items_rel (R := R) hrefl htrans hline hcount _ s

end Units

/-- The scan of the compile units leaves the files, the sink and the snapshot alone. -/
theorem alike_scanUnits (e : Equipment τ σ) (trace : String) (s : Session τ σ) :
    s.Alike (e.scanUnits trace s).2.2 :=
  scanUnits_rel Session.Alike.refl (fun _ _ => ⟨rfl, rfl, rfl⟩) Session.Alike.trans
    (fun _ _ => ⟨rfl, rfl, rfl⟩) trace s

/-! ## Runs of the build tool -/

/-- What a run of the build tool leaves behind. -/
theorem runForText_snd (e : Equipment τ σ) (arguments : List String) (s : Session τ σ) :
    let command : Command := ⟨e.settings.make.program, arguments, e.root⟩
    let outcome := e.runTool command s.cancelled s.files s.tool
    (e.runForText arguments s).2 =
      { s with
        files := outcome.2.1
        tool := outcome.2.2
        cancelled := s.cancelled || outcome.1.cancels
        commands := s.commands ++ [command] } := by
  simp only [runForText]
  split <;> rfl

/-- The stage of the trace reads the build log, or runs the build tool and may keep a copy of what
it printed. -/
theorem obtainTrace_snd (e : Equipment τ σ) (clean : Bool) (s : Session τ σ) :
    let run := (e.runForText (e.dryRunArguments clean s.context.buildTarget) s).2
    (e.obtainTrace clean s).2 = s ∨ (e.obtainTrace clean s).2 = run ∨
      ∃ trace, (e.obtainTrace clean s).2 = e.keepTrace trace run := by
  simp only [obtainTrace]
  split
  · exact .inl rfl
  · split
    next heq => exact .inr (.inl (by rw [heq]))
    next trace _ heq => exact .inr (.inr ⟨trace, by rw [heq]⟩)

/-! ## Deliveries -/

/-- Hand a configuration to the sink; `accepted` is what becomes of the session if the sink takes
it. -/
def deliver (e : Equipment τ σ) (c : Configuration) (mode : UpdateMode)
    (accepted : Session τ σ → Session τ σ) : Action τ σ Unit := fun s =>
  let (result, sink, files) := e.sink.push c mode s.sink s.files
  let s := { s with sink, files }
  match result with
  | .error error => (.error (.sink error), s)
  | .ok () => (.ok (), accepted s)

/-- What becomes of the session when the sink has taken a configuration or refused it. -/
theorem deliver_snd (e : Equipment τ σ) (c : Configuration) (mode : UpdateMode)
    (accepted : Session τ σ → Session τ σ) (s : Session τ σ) :
    let pushed := e.sink.push c mode s.sink s.files
    let after : Session τ σ := { s with sink := pushed.2.1, files := pushed.2.2 }
    (e.deliver c mode accepted s).2 = after ∨ (e.deliver c mode accepted s).2 = accepted after := by
  rcases hpush : e.sink.push c mode s.sink s.files with ⟨error | _, sink, files⟩
  · exact .inl (by simp only [deliver, hpush])
  · exact .inr (by simp only [deliver, hpush])

/-- Whatever becomes of the session otherwise, the sink and the files are as the push has left
them. -/
theorem pushed_deliver (e : Equipment τ σ) (c : Configuration) (mode : UpdateMode)
    {accepted : Session τ σ → Session τ σ}
    (haccepted : ∀ s, (accepted s).files = s.files ∧ (accepted s).sink = s.sink)
    (s : Session τ σ) :
    let pushed := e.sink.push c mode s.sink s.files
    (e.deliver c mode accepted s).2.sink = pushed.2.1 ∧
      (e.deliver c mode accepted s).2.files = pushed.2.2 := by
  rcases e.deliver_snd c mode accepted s with heq | heq
  · rw [heq]
    exact ⟨rfl, rfl⟩
  · rw [heq]
    exact (haccepted _).symm

/-- The session with the snapshot that was taken from the cache. -/
def withLoaded (snapshot : Snapshot) (s : Session τ σ) : Session τ σ :=
  { s with context := { s.context with snapshot, loadedFromCache := true } }

/-- The session with the configuration brought up to date. -/
def withConfiguration (found : Configuration) (mode : UpdateMode) (s : Session τ σ) :
    Session τ σ :=
  let configuration := s.context.snapshot.configuration.update found mode
  { s with
    context := { s.context with snapshot := { s.context.snapshot with configuration } }
    statistics := { s.statistics with sourceFiles := configuration.files.length } }

/-- The stage of the cache changes nothing, or delivers the configuration of the snapshot in the
cache. -/
theorem loadFromCache_cases (e : Equipment τ σ) (s : Session τ σ) :
    (e.loadFromCache s).2 = s ∨
      ∃ snapshot, Store.Cache.load s.files e.cachePath = .ok (some snapshot) ∧
        e.loadFromCache s = e.deliver snapshot.configuration .replace (withLoaded snapshot) s := by
  unfold loadFromCache
  generalize Store.Cache.load s.files e.cachePath = loaded
  match loaded with
  | .error _ => exact .inl rfl
  | .ok none => exact .inl rfl
  | .ok (some snapshot) => exact .inr ⟨snapshot, rfl, rfl⟩

/-- The stage of the compile units is cancelled, or delivers their configuration. -/
theorem parseForConfiguration_cases (e : Equipment τ σ) (trace : String) (mode : UpdateMode)
    (s : Session τ σ) :
    let scan := e.scanUnits trace s
    let found := Configuration.ofUnits scan.1
    e.parseForConfiguration trace mode s = (.error .cancelled, scan.2.2) ∨
      e.parseForConfiguration trace mode s
        = e.deliver found mode (withConfiguration found mode) scan.2.2 := by
  rcases hscan : e.scanUnits trace s with ⟨units, scan, t⟩
  rw [scanUnits] at hscan
  simp only [parseForConfiguration, hscan]
  split
  · exact .inl rfl
  · exact .inr rfl

/-! ## Launch targets and build targets -/

/-- The stage of the launch targets leaves all but the launch targets, their selection and the
counters alone. -/
theorem parseForLaunchTargets_snd (e : Equipment τ σ) (trace : String) (mode : UpdateMode)
    (s : Session τ σ) :
    ∃ launchTargets launchTarget statistics, (e.parseForLaunchTargets trace mode s).2 =
      { s with
        context :=
          { s.context with
            snapshot := { s.context.snapshot with launchTargets }
            launchTarget }
        statistics } := by
  have hextract := (LaunchTarget.Extractor.ofTools e.tools s.files.isFile e.root).extract?_snd
    Session.cancelled e.settings.trace.chunkSize trace s
  simp only [parseForLaunchTargets]
  split
  next s₁ heq =>
    obtain rfl : s₁ = s := (congrArg Prod.snd heq).symm.trans hextract
    exact ⟨s₁.context.snapshot.launchTargets, s₁.context.launchTarget, s₁.statistics, rfl⟩
  next found s₁ heq =>
    obtain rfl : s₁ = s := (congrArg Prod.snd heq).symm.trans hextract
    exact ⟨_, _, _, rfl⟩

/-- The stage of the build targets runs the build tool and leaves all but the build targets, their
selection and the counters as they are then. -/
theorem parseForBuildTargets_snd (e : Equipment τ σ) (mode : UpdateMode) (s : Session τ σ) :
    let run := (e.runForText e.databaseArguments s).2
    ∃ buildTargets buildTarget statistics, (e.parseForBuildTargets mode s).2 =
      { run with
        context :=
          { run.context with
            snapshot := { run.context.snapshot with buildTargets }
            buildTarget }
        statistics } := by
  simp only [parseForBuildTargets]
  split
  next s₁ heq =>
    rw [heq]
    exact ⟨s₁.context.snapshot.buildTargets, s₁.context.buildTarget, s₁.statistics, rfl⟩
  next dump s₁ heq =>
    have hextract := BuildTarget.extract?_snd Session.cancelled e.settings.trace.chunkSize dump s₁
    rw [heq]
    split
    next s₂ heq' =>
      obtain rfl : s₂ = s₁ := (congrArg Prod.snd heq').symm.trans hextract
      exact ⟨s₂.context.snapshot.buildTargets, s₂.context.buildTarget, s₂.statistics, rfl⟩
    next found s₂ heq' =>
      obtain rfl : s₂ = s₁ := (congrArg Prod.snd heq').symm.trans hextract
      exact ⟨_, _, _, rfl⟩

/-! ## Keeping the snapshot -/

/-- The snapshot is kept by writing it to the cache; that changes the files only. -/
theorem persist_eq (e : Equipment τ σ) (s : Session τ σ) :
    let stored := Store.Cache.store s.context.snapshot s.files e.cachePath
    e.persist s = (stored.1.mapError .cache, { s with files := stored.2 }) := by
  rw [persist]

/-! ## All stages -/

/-- A relation that holds across everything that is done to a session in the stages. -/
structure Effects (e : Equipment τ σ) (R : Session τ σ → Session τ σ → Prop) : Prop where
  /-- It holds across nothing. -/
  refl : ∀ s, R s s
  /-- It holds across effects one after the other. -/
  trans : ∀ {s t u}, R s t → R t u → R s u
  /-- It holds across a run of the build tool. -/
  run : ∀ arguments s, R s (e.runForText arguments s).2
  /-- It holds when a copy of the trace is kept. -/
  keep : ∀ trace s, R s (e.keepTrace trace s)
  /-- It holds across the scan of the compile units. -/
  scan : ∀ trace s, R s (e.scanUnits trace s).2.2
  /-- It holds when the configuration in the cache is handed to the sink. -/
  load : ∀ snapshot s, Store.Cache.load s.files e.cachePath = .ok (some snapshot) →
    R s (e.deliver snapshot.configuration .replace (withLoaded snapshot) s).2
  /-- It holds when the configuration of the compile units is handed to the sink. -/
  configure : ∀ trace mode s,
    let scan := e.scanUnits trace s
    let found := Configuration.ofUnits scan.1
    R scan.2.2 (e.deliver found mode (withConfiguration found mode) scan.2.2).2
  /-- It holds when other launch targets take the place of those that are known. -/
  launch : ∀ (s : Session τ σ) launchTargets launchTarget statistics,
    R s
      { s with
        context :=
          { s.context with
            snapshot := { s.context.snapshot with launchTargets }
            launchTarget }
        statistics }
  /-- It holds when other build targets take the place of those that are known. -/
  build : ∀ (s : Session τ σ) buildTargets buildTarget statistics,
    R s
      { s with
        context :=
          { s.context with
            snapshot := { s.context.snapshot with buildTargets }
            buildTarget }
        statistics }

/-- The effects of a stage are some of these, one after the other. -/
theorem Effects.stage {e : Equipment τ σ} {R : Session τ σ → Session τ σ → Prop}
    (h : e.Effects R) {which : Subphase} {action : Action τ σ α} (hstage : e.Stage α which action)
    (s : Session τ σ) : R s (action s).2 := by
  cases hstage with
  | loadFromCache =>
    rcases e.loadFromCache_cases s with heq | ⟨snapshot, hload, heq⟩
    · rw [heq]
      exact h.refl s
    · rw [heq]
      exact h.load snapshot s hload
  | obtainTrace clean =>
    -- The trace was at hand, or it had to be printed, and then it may be kept.
    have hrun := h.run (e.dryRunArguments clean s.context.buildTarget) s
    rcases e.obtainTrace_snd clean s with heq | heq | ⟨trace, heq⟩
    · rw [heq]
      exact h.refl s
    · rw [heq]
      exact hrun
    · rw [heq]
      exact h.trans hrun (h.keep trace _)
  | preprocess raw =>
    rw [preprocess_eq]
    exact h.refl s
  | parseForConfiguration trace mode =>
    have hscan := h.scan trace s
    rcases e.parseForConfiguration_cases trace mode s with heq | heq
    · rw [heq]
      exact hscan
    · rw [heq]
      exact h.trans hscan (h.configure trace mode s)
  | parseForLaunchTargets trace mode =>
    obtain ⟨launchTargets, launchTarget, statistics, heq⟩ :=
      e.parseForLaunchTargets_snd trace mode s
    rw [heq]
    exact h.launch s launchTargets launchTarget statistics
  | parseForBuildTargets mode =>
    obtain ⟨buildTargets, buildTarget, statistics, heq⟩ := e.parseForBuildTargets_snd mode s
    rw [heq]
    exact h.trans (h.run e.databaseArguments s) (h.build _ buildTargets buildTarget statistics)

/-! ## What is noted -/

/-- What is done in a stage leaves the notes on the run alone and takes no cancellation back; every
search that was to cancel the run has cancelled it. -/
structure Kept (e : Equipment τ σ) (s t : Session τ σ) : Prop where
  /-- The report is the same. -/
  report : t.report = s.report
  /-- The observer was told the same. -/
  progress : t.progress = s.progress
  /-- A cancellation stays. -/
  cancelled : s.cancelled = true → t.cancelled = true
  /-- A search that was to cancel the run has cancelled it. -/
  lookup : ∀ count, s.lookups ≤ count → count < t.lookups →
    e.interrupts (.lookup (count + 1)) = true → t.cancelled = true

namespace Kept

variable {e : Equipment τ σ} {s t u : Session τ σ}

theorem refl (s : Session τ σ) : e.Kept s s := ⟨rfl, rfl, id, fun _ _ _ => by omega⟩

theorem trans (h : e.Kept s t) (h' : e.Kept t u) : e.Kept s u where
  report := h'.report.trans h.report
  progress := h'.progress.trans h.progress
  cancelled := h'.cancelled ∘ h.cancelled
  lookup count hs hu hinterrupt := by
    -- The search was before the session in the middle, or behind it.
    rcases Nat.lt_or_ge count t.lookups with ht | ht
    · exact h'.cancelled (h.lookup count hs ht hinterrupt)
    · exact h'.lookup count ht hu hinterrupt

/-- Nothing was searched, and a cancellation stays. -/
theorem of_eq (hreport : t.report = s.report) (hprogress : t.progress = s.progress)
    (hcancelled : s.cancelled = true → t.cancelled = true) (hlookups : t.lookups = s.lookups) :
    e.Kept s t :=
  ⟨hreport, hprogress, hcancelled, fun _ _ _ => by omega⟩

end Kept

theorem kept_lookup (e : Equipment τ σ) (name : String) (s : Session τ σ) :
    e.Kept s (e.lookup name s).2 := by
  -- The search is the only one that is new.
  refine ⟨rfl, rfl, fun h => by simp [lookup, h], fun count hs ht hinterrupt => ?_⟩
  obtain rfl : count = s.lookups := Nat.le_antisymm (Nat.le_of_lt_succ ht) hs
  simp [lookup, hinterrupt]

theorem kept_runForText (e : Equipment τ σ) (arguments : List String) (s : Session τ σ) :
    e.Kept s (e.runForText arguments s).2 := by
  rw [runForText_snd]
  exact .of_eq rfl rfl (fun h => by simp [h]) rfl

theorem kept_deliver (e : Equipment τ σ) (c : Configuration) (mode : UpdateMode)
    (accepted : Session τ σ → Session τ σ) (haccepted : ∀ s, e.Kept s (accepted s))
    (s : Session τ σ) : e.Kept s (e.deliver c mode accepted s).2 := by
  have hpushed : ∀ sink files, e.Kept s { s with sink, files } :=
    fun _ _ => .of_eq rfl rfl id rfl
  rcases e.deliver_snd c mode accepted s with heq | heq
  · rw [heq]
    exact hpushed _ _
  · rw [heq]
    exact (hpushed _ _).trans (haccepted _)

theorem effects_kept (e : Equipment τ σ) : e.Effects e.Kept where
  refl := .refl
  trans := .trans
  run := e.kept_runForText
  keep _ _ := .of_eq rfl rfl id rfl
  scan trace s :=
    scanUnits_rel Kept.refl e.kept_lookup Kept.trans (fun _ _ => .of_eq rfl rfl id rfl) trace s
  load snapshot s _ :=
    e.kept_deliver _ _ (withLoaded snapshot) (fun _ => .of_eq rfl rfl id rfl) s
  configure _ mode _ :=
    e.kept_deliver _ _ (withConfiguration _ mode) (fun _ => .of_eq rfl rfl id rfl) _
  launch _ _ _ _ := .of_eq rfl rfl id rfl
  build _ _ _ _ := .of_eq rfl rfl id rfl

/-- No stage touches what is noted, and a cancellation stays. -/
theorem Stage.kept {e : Equipment τ σ} {which : Subphase} {action : Action τ σ α}
    (h : e.Stage α which action) (s : Session τ σ) : e.Kept s (action s).2 :=
  e.effects_kept.stage h s

end Equipment

end Configure

end BuildTrace
