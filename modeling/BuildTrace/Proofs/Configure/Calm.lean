import BuildTrace.Proofs.Configure.Findings
import BuildTrace.Proofs.Configure.Report

/-!
# Calm surroundings

The surroundings of a run are the sink and the files, which outlive it. This module says what it
takes that something is true of them at all times: a run may use the build tool, keep a copy of the
trace, push configurations to the sink and keep a snapshot in the cache, and nothing else is done to
them. As an example, all of that may stay at hidden places.

## Main definitions

* `Equipment.Steady`: whatever a run does to calm surroundings, they stay calm;
* `Equipment.Conceals`: what a run writes is at hidden places;
* `Equipment.Undisturbed`: the files are as they were, but for hidden places.

## Main results

* `Equipment.Steady.act`: each subphase keeps the surroundings calm;
* `Equipment.Steady.configure`: so does a run, whatever becomes of it;
* `Equipment.Conceals.steady`: where what a run writes is hidden, the files stay undisturbed.
-/

namespace BuildTrace.Configure

open FileTree (AgreeOutside passed)

variable {τ σ α : Type}

namespace Equipment

/-- The build tool is a function of the command, and where the surroundings, which are the sink and
the files, are calm, they stay so whatever a run does. -/
structure Steady (e : Equipment τ σ) (run : Command → Command.Run) (clean : Bool)
    (calm : σ → FileTree → Prop) : Prop where
  /-- What the build tool does depends on the command only. -/
  tool : ∀ command files tool, (e.runTool command false files tool).1 = run command
  /-- It may be run. -/
  spares : ∀ {sink files}, calm sink files → ∀ command cancelled tool,
    calm sink (e.runTool command cancelled files tool).2.1
  /-- If there is no build log, a copy of what the dry run prints may be kept. -/
  copy : ∀ {sink files}, calm sink files → e.logPath?.bind files.readText? = none →
    ∀ target tool,
      let command : Command := ⟨e.settings.make.program, e.dryRunArguments clean target, e.root⟩
      calm sink (e.copied (run command).text (e.runTool command false files tool).2.1)
  /-- Configurations may be pushed to the sink. -/
  push : ∀ {sink files}, calm sink files → ∀ c mode,
    calm (e.sink.push c mode sink files).2.1 (e.sink.push c mode sink files).2.2
  /-- Snapshots may be kept in the cache. -/
  keep : ∀ {sink files}, calm sink files → ∀ snapshot,
    calm sink (Store.Cache.store snapshot files e.cachePath).2

variable {e : Equipment τ σ} {run : Command → Command.Run} {clean : Bool}
  {calm : σ → FileTree → Prop} {s t : Session τ σ}

namespace Steady

theorem deliver (h : e.Steady run clean calm) (hcalm : calm s.sink s.files) (c : Configuration)
    (mode : UpdateMode) (accepted : Session τ σ → Session τ σ)
    (haccepted : ∀ s, (accepted s).files = s.files ∧ (accepted s).sink = s.sink) :
    calm (e.deliver c mode accepted s).2.sink (e.deliver c mode accepted s).2.files := by
  obtain ⟨hsink, hfiles⟩ := e.pushed_deliver c mode haccepted s
  rw [hsink, hfiles]
  exact h.push hcalm c mode

theorem runForText (h : e.Steady run clean calm) (hcalm : calm s.sink s.files)
    (arguments : List String) :
    calm (e.runForText arguments s).2.sink (e.runForText arguments s).2.files := by
  rw [runForText_snd]
  exact h.spares hcalm _ _ _

/-- What is done in each subphase keeps the surroundings calm. -/
theorem act (h : e.Steady run clean calm) {which : Subphase} {action : Action τ σ α}
    (hact : e.Act clean α which action) (hcalm : calm s.sink s.files) :
    calm (action s).2.sink (action s).2.files := by
  cases hact with
  | loadFromCache =>
    rcases e.loadFromCache_cases s with heq | ⟨snapshot, -, heq⟩
    · rw [heq]
      exact hcalm
    · rw [heq]
      exact h.deliver hcalm snapshot.configuration .replace (withLoaded snapshot)
        fun _ => ⟨rfl, rfl⟩
  | obtainTrace =>
    rw [obtainTrace]
    cases hlog : e.logPath?.bind s.files.readText? with
    | some log => exact hcalm
    | none =>
      -- No log was given: the tool prints the trace, and what it printed is kept.
      dsimp only
      rcases hrun : e.runForText (e.dryRunArguments clean s.context.buildTarget) s with
        ⟨problem | text, u⟩
      · have hran := h.runForText hcalm (e.dryRunArguments clean s.context.buildTarget)
        rwa [hrun] at hran
      · obtain ⟨htext, -, hfiles, hsink⟩ := runForText_ok h.tool hrun
        dsimp only
        rw [keepTrace_eq, htext, hfiles, hsink]
        exact h.copy hcalm hlog s.context.buildTarget s.tool
  | preprocess raw =>
    rw [preprocess_eq]
    exact hcalm
  | parseForConfiguration trace =>
    -- The scan changes neither the files nor the sink; only the delivery can.
    obtain ⟨hfiles, hsink, -⟩ := e.alike_scanUnits trace s
    have hscanned : calm (e.scanUnits trace s).2.2.sink (e.scanUnits trace s).2.2.files := by
      rwa [hfiles, hsink]
    rcases e.parseForConfiguration_cases trace (modeOf clean) s with heq | heq
    · rw [heq]
      exact hscanned
    · rw [heq]
      generalize Configuration.ofUnits (e.scanUnits trace s).1 = found
      exact h.deliver hscanned found (modeOf clean) (withConfiguration found (modeOf clean))
        fun _ => ⟨rfl, rfl⟩
  | parseForLaunchTargets trace =>
    obtain ⟨_, _, _, heq⟩ := e.parseForLaunchTargets_snd trace (modeOf clean) s
    rw [heq]
    exact hcalm
  | parseForBuildTargets =>
    obtain ⟨_, _, _, heq⟩ := e.parseForBuildTargets_snd (modeOf clean) s
    rw [heq]
    exact h.runForText hcalm e.databaseArguments
  | persist =>
    rw [persist_eq]
    exact h.keep hcalm _

/-- So do the notes on it. -/
theorem subphase (h : e.Steady run clean calm) {which : Subphase} {action : Action τ σ α}
    {result : Except Outcome α} (hact : e.Act clean α which action)
    (heq : e.subphase which action s = (result, t)) (hcalm : calm s.sink s.files) :
    calm t.sink t.files := by
  have hacted := h.act (s := e.tell (.status which) s) hact hcalm
  rw [subphase_eq] at heq
  obtain ⟨-, rfl⟩ := Prod.mk.inj heq
  exact hacted

/-- A run leaves the surroundings calm, whatever becomes of it. -/
theorem trail (h : e.Steady run clean calm) {steps : List (Step τ σ)}
    (htrail : e.Trail clean s steps t) (hcalm : calm s.sink s.files) : calm t.sink t.files := by
  have hmarked : ∀ {s t : Session τ σ}, s.Marked t → calm s.sink s.files →
      calm t.sink t.files := by
    rintro s t ⟨_, _, _, _, _, _, rfl⟩
    exact id
  induction htrail with
  | nil hmark => exact hmarked hmark hcalm
  | cons hmark htook _ ih =>
    refine ih ?_
    obtain ⟨hact, s⟩ := htook
    exact h.subphase hact rfl (hmarked hmark hcalm)

theorem configure (h : e.Steady run clean calm) (hcalm : calm s.sink s.files) :
    calm (e.configure clean s).2.sink (e.configure clean s).2.files := by
  by_cases hblocked : (e.configure clean s).1.outcome = .blocked
  · rw [configure_of_blocked hblocked]
    exact hcalm
  · obtain ⟨_, _, _, hshape⟩ := e.exists_shape hblocked
    exact h.trail hshape.trail hcalm

theorem loadOnce (h : e.Steady run clean calm) (hcalm : calm s.sink s.files) :
    calm (e.loadOnce s).sink (e.loadOnce s).files := by
  rw [Equipment.loadOnce]
  split
  · exact hcalm
  · exact h.subphase .loadFromCache rfl hcalm

end Steady

/-! ## Hidden places -/

section Hidden

variable {hidden : Place → Prop} {files : FileTree}

/-- The files are as in the tree, but for hidden places, and the sink writes to those only. -/
def Undisturbed (e : Equipment τ σ) (hidden : Place → Prop) (files : FileTree) (sink : σ)
    (tree : FileTree) : Prop :=
  AgreeOutside hidden files tree ∧ e.sink.Confined hidden files sink

/-- The build tool writes to hidden places only, and so do those who keep a copy of the trace and
the snapshot: the directories above their files are there. -/
structure Conceals (e : Equipment τ σ) (hidden : Place → Prop) (files : FileTree) : Prop where
  /-- The build tool writes to hidden places only. -/
  tool : ∀ command cancelled tree tool,
    AgreeOutside hidden tree (e.runTool command cancelled tree tool).2.1
  /-- The directories above the copy of the trace are there. -/
  traceWay : ∀ q ∈ passed (files.start.getD []) e.tracePath.components.dropLast,
    ¬ hidden q ∧ files.hasDirectory q = true
  /-- The copy of the trace is hidden. -/
  trace : ∀ place, files.destination? e.tracePath = some place → hidden place
  /-- The directories above the cache are there. -/
  cacheWay : ∀ q ∈ passed (files.start.getD []) e.cachePath.components.dropLast,
    ¬ hidden q ∧ files.hasDirectory q = true
  /-- The cache is hidden. -/
  cache : ∀ place, files.destination? e.cachePath = some place → hidden place
  /-- So are its temporary file and all below. -/
  temporary : ∀ origin place,
    files.destination? (Store.temporaryPath e.cachePath) = some origin → origin <+: place →
      hidden place

/-- A copy of the trace is written to its file only, if the directories above are there. -/
theorem Conceals.agree_copied (h : e.Conceals hidden files) {tree : FileTree}
    (hagree : AgreeOutside hidden files tree) (trace : String) :
    AgreeOutside hidden tree (e.copied trace tree) := by
  have hway : ∀ q ∈ passed (tree.start.getD []) e.tracePath.components.dropLast,
      tree.hasDirectory q = true := by
    intro q hq
    rw [hagree.start] at hq
    exact (hagree.hasDirectory_eq (h.traceWay q hq).1).trans (h.traceWay q hq).2
  rcases e.copied_cases trace tree with heq | ⟨made, hmade, hend⟩
  · rw [heq]
    exact .refl tree
  -- The directories on the way are there, so that none has to be made.
  obtain rfl : made = tree := by
    rcases hmade with rfl | ⟨parent, hparent, hmade⟩
    · rfl
    · rw [← Path.components_of_parent? hparent] at hway
      exact FileTree.makeDirectories_of_directories hway hmade
  rcases hend with heq | hwrite
  · rw [heq]
    exact .refl made
  -- The copy is all that is put into the tree, and its place is hidden.
  · obtain ⟨place, executable, hplace, -, heq⟩ := FileTree.write_cases hwrite
    have hdestination := FileTree.destination?_of_place? hplace
    rw [FileTree.destination?_congr hagree.start] at hdestination
    rw [heq]
    exact FileTree.agree_put_hidden (h.trace place hdestination) _

/-- Where what a run writes is hidden, the files stay undisturbed. -/
theorem Conceals.steady (h : e.Conceals hidden files)
    (htool : ∀ command files tool, (e.runTool command false files tool).1 = run command) :
    e.Steady run clean (e.Undisturbed hidden files) where
  tool := htool
  spares := fun ⟨hagree, hconfined⟩ command cancelled tool =>
    ⟨hagree.trans (h.tool command cancelled _ tool), hconfined⟩
  copy := by
    rintro sink tree ⟨hagree, hconfined⟩ - target tool
    have hran := hagree.trans
      (h.tool ⟨e.settings.make.program, e.dryRunArguments clean target, e.root⟩ false tree tool)
    exact ⟨hran.trans (h.agree_copied hran _), hconfined⟩
  push := by
    rintro sink tree ⟨hagree, hconfined⟩ c mode
    exact ⟨hagree.trans (hconfined.agree c mode hagree.retains), hconfined.push c mode tree⟩
  keep := by
    rintro sink tree ⟨hagree, hconfined⟩ snapshot
    have hkept := Store.agree_write_of_retains h.cacheWay h.cache h.temporary hagree.retains
      snapshot.toJson
    exact ⟨hagree.trans hkept, hconfined⟩

end Hidden

end Equipment

end BuildTrace.Configure
