import BuildTrace.Proofs.Configuration.Ledger
import BuildTrace.Proofs.Configure.Report
import BuildTrace.Proofs.LaunchTarget.Extraction
import BuildTrace.Proofs.Sort
import Mathlib.Data.String.Basic

/-!
# Tidy snapshots

Nothing is told twice in a snapshot: its build targets are strictly increasing, no two of its launch
targets have the same canonical form, and no two of its directories are the same. Five different
operations rebuild these lists, and each of them may fail or be left out. This module proves that
the snapshot of a context is tidy throughout the life of the context if the one that is taken from
the cache is, and that a set of the directories that is kept beside them never drifts from them.

## Main definitions

* `Snapshot.Tidy`: nothing is told twice in the snapshot;
* `Round.loaded?`: the snapshot that a round takes from the cache;
* `Booked`: the browse path with a set beside it, kept along the changes that the rounds make.

## Main results

* `Equipment.Took.tidy`: each step of a run leaves a tidy snapshot if it finds one;
* `Equipment.Trail.keeps`: the browse path with the set beside it goes along with a run;
* `tidy_life`: both together, throughout the life of a context.
-/

namespace BuildTrace

/-- Nothing is told twice in the snapshot. -/
structure Snapshot.Tidy (s : Snapshot) : Prop where
  /-- The build targets are strictly increasing. -/
  buildTargets : s.buildTargets.Pairwise (· < ·)
  /-- The launch targets have different canonical forms. -/
  launchTargets : (s.launchTargets.map LaunchTarget.canonical).Nodup
  /-- No two directories have the same components. -/
  browse : BrowsePath.Distinct s.configuration.browse

theorem Snapshot.tidy_iff {s : Snapshot} : s.Tidy ↔
    s.buildTargets.Pairwise (· < ·) ∧ (s.launchTargets.map LaunchTarget.canonical).Nodup ∧
      BrowsePath.Distinct s.configuration.browse :=
  ⟨fun h => ⟨h.buildTargets, h.launchTargets, h.browse⟩, fun ⟨hb, hl, hd⟩ => ⟨hb, hl, hd⟩⟩

instance (browse : BrowsePath) : Decidable (BrowsePath.Distinct browse) :=
  inferInstanceAs (Decidable (browse.Pairwise fun a b => a.same b = false))

instance (s : Snapshot) : Decidable s.Tidy := decidable_of_iff' _ Snapshot.tidy_iff

theorem Snapshot.tidy_empty : Tidy {} := ⟨.nil, List.nodup_nil, .nil⟩

/-- Updates keep the directories of a configuration apart. -/
theorem Configuration.distinct_update {c : Configuration} (h : BrowsePath.Distinct c.browse)
    (found : Configuration) (mode : UpdateMode) :
    BrowsePath.Distinct (c.update found mode).browse := by
  cases mode with
  | replace => exact BrowsePath.distinct_insertAll .nil
  | merge => exact BrowsePath.distinct_insertAll h

namespace Configure

variable {τ σ α : Type}

namespace Equipment

/-- Sorted names are strictly increasing. -/
theorem pairwise_sortNames (names : List String) : (sortNames names).Pairwise (· < ·) := by
  have hsorted : (sortBy (fun a b => !decide (b < a)) names).Pairwise (· ≤ ·) := by
    have hle : ∀ a b : String, (!decide (b < a)) = true ↔ a ≤ b := by
      intro a b
      rw [Bool.not_eq_true', decide_eq_false_iff_not, not_lt]
    refine (pairwise_sortBy ?_ ?_ names).imp fun {a b} h => (hle a b).mp h
    · intro a b
      rw [hle, hle]
      exact le_total a b
    · intro a b c hab hbc
      rw [hle] at hab hbc ⊢
      exact le_trans hab hbc
  exact pairwise_eraseReps hsorted

variable {e : Equipment τ σ} {clean : Bool}

/-! ## The cache -/

/-- The snapshot that is taken from the cache: the one in the file, if it can be read and the sink
takes its configuration. -/
def loaded? (e : Equipment τ σ) (s : Session τ σ) : Option Snapshot :=
  (Store.Cache.load s.files e.cachePath).toOption.join.filter fun snapshot =>
    (e.sink.push snapshot.configuration .replace s.sink s.files).1.isOk

/-- The subphase of the cache leaves the context alone or puts the snapshot in it that is taken from
the cache. -/
theorem loadFromCache_context (e : Equipment τ σ) (s : Session τ σ) :
    (e.loadFromCache s).2.context = s.context ∨
      ∃ snapshot, e.loaded? s = some snapshot ∧
        (e.loadFromCache s).2.context = (Change.loaded snapshot).apply s.context := by
  rcases e.loadFromCache_cases s with heq | ⟨snapshot, hload, heq⟩
  · exact .inl (congrArg Session.context heq)
  rcases hpush : e.sink.push snapshot.configuration .replace s.sink s.files with
    ⟨error | _, sink, files⟩
  · left
    simp only [heq, deliver, hpush]
  · right
    refine ⟨snapshot, ?_, ?_⟩
    · simp [loaded?, hload, hpush, Except.toOption, Except.isOk, Except.toBool]
    · simp only [heq, deliver, hpush]
      rfl

/-! ## Single steps -/

/-- What is done in a subphase leaves a tidy snapshot if it finds one, and takes a tidy one from the
cache. -/
theorem Act.tidy {which : Subphase} {action : Action τ σ α} (h : e.Act clean α which action)
    {s : Session τ σ} (hs : s.context.snapshot.Tidy)
    (hloaded : which = .loadFromCache → ∀ snapshot, e.loaded? s = some snapshot → snapshot.Tidy) :
    (action s).2.context.snapshot.Tidy := by
  cases h with
  | loadFromCache =>
    rcases e.loadFromCache_context s with heq | ⟨snapshot, hsnapshot, heq⟩
    · rwa [heq]
    · rw [heq]
      exact hloaded rfl snapshot hsnapshot
  | obtainTrace =>
    rcases e.obtainTrace_snd clean s with heq | heq | ⟨trace, heq⟩
    · rwa [heq]
    · rwa [heq, runForText_snd]
    · rwa [heq, keepTrace, runForText_snd]
  | preprocess raw => rwa [preprocess_eq]
  | parseForConfiguration trace =>
    have hscan : (e.scanUnits trace s).2.2.context.snapshot.Tidy := by
      rwa [(e.alike_scanUnits trace s).snapshot]
    have hcases := e.parseForConfiguration_cases trace (modeOf clean) s
    -- What the scan does is of no further interest, and it is large.
    generalize e.scanUnits trace s = scan at hscan hcases
    rcases hcases with heq | heq
    · rwa [heq]
    · rw [heq]
      rcases e.deliver_snd _ (modeOf clean) (withConfiguration _ _) scan.2.2 with heq | heq
      · rwa [heq]
      · rw [heq]
        exact ⟨hscan.buildTargets, hscan.launchTargets,
          Configuration.distinct_update hscan.browse _ _⟩
  | parseForLaunchTargets trace =>
    rcases e.parseForLaunchTargets_cases trace (modeOf clean) s with heq | ⟨found, hfound, -, heq⟩
    · rwa [heq]
    · rw [heq]
      refine ⟨hs.buildTargets, ?_, hs.browse⟩
      -- What replaces the known targets has each form once; what is added to them is made so.
      cases modeOf clean with
      | replace => exact LaunchTarget.Extractor.nodup_of_extract? hfound
      | merge => exact LaunchTarget.nodup_canonical_dedup _
  | parseForBuildTargets =>
    rcases e.parseForBuildTargets_cases (modeOf clean) s with ⟨_, heq⟩ | ⟨found, heq, _⟩
    · rwa [heq]
    · rw [heq]
      exact ⟨pairwise_sortNames _, hs.launchTargets, hs.browse⟩
  | persist => rwa [persist_eq]

variable {step : Step τ σ}

/-- Each step of a run leaves a tidy snapshot if it finds one, and takes a tidy one from the
cache. -/
theorem Took.tidy (h : e.Took clean step) (hbefore : step.before.context.snapshot.Tidy)
    (hloaded : step.subphase = .loadFromCache →
      ∀ snapshot, e.loaded? step.before = some snapshot → snapshot.Tidy) :
    step.after.context.snapshot.Tidy := by
  cases h with
  | act hact s =>
    rw [context_subphase]
    exact hact.tidy hbefore hloaded

end Equipment

/-! ## Ledgers -/

open BrowsePath (Ledger)

/-- The browse path with a set beside it after the change. -/
def Change.enter : Change → Ledger → Ledger
  | loaded snapshot, _ => .insertAll {} snapshot.configuration.browse
  | configured found mode, l => l.update found.browse mode
  | nothing, l | launched _ _, l | built _ _, l => l

/-- A change of the context does to the browse path what it does to the one with a set beside it. -/
theorem Change.keeps_enter {change : Change} {l : Ledger} {c : Context}
    (h : l.Keeps c.snapshot.configuration.browse)
    (hafter : BrowsePath.Distinct (change.apply c).snapshot.configuration.browse) :
    (change.enter l).Keeps (change.apply c).snapshot.configuration.browse := by
  cases change with
  | nothing | launched | built => exact h
  | loaded snapshot => exact .replace hafter
  | configured found mode => exact h.update found mode

/-- The changes are those that the successful steps have made, one for each, in order. -/
def Step.Make (mode : UpdateMode) (steps : List (Step τ σ)) (changes : List Change) : Prop :=
  List.Forall₂ (fun step change => change.Suits mode step.subphase ∧
      step.after.context = change.apply step.before.context)
    (steps.filter (·.outcome = .success)) changes

namespace Equipment.Trail

variable {e : Equipment τ σ} {clean : Bool} {s t : Session τ σ} {steps : List (Step τ σ)}

/-- The snapshot is tidy after each step of a trail, if it is tidy before all of them, and if one
that is taken from the cache is. -/
theorem tidy (h : e.Trail clean s steps t) (hs : s.context.snapshot.Tidy)
    (hloaded : ∀ step ∈ steps, step.subphase = .loadFromCache →
      ∀ snapshot, e.loaded? step.before = some snapshot → snapshot.Tidy) :
    t.context.snapshot.Tidy ∧ ∀ step ∈ steps, step.after.context.snapshot.Tidy := by
  -- Between the steps there are only marks, which leave the snapshot alone.
  induction h with
  | nil hmark =>
    refine ⟨?_, List.forall_mem_nil _⟩
    rwa [hmark.of_core Context.snapshot fun _ => rfl]
  | @cons s t step steps hmark htook _ ih =>
    obtain ⟨hstep, hsteps⟩ := List.forall_mem_cons.mp hloaded
    have hbefore : step.before.context.snapshot.Tidy := by
      rwa [hmark.of_core Context.snapshot fun _ => rfl]
    have hafter := htook.tidy hbefore hstep
    obtain ⟨hend, hrest⟩ := ih hafter hsteps
    exact ⟨hend, List.forall_mem_cons.mpr ⟨hafter, hrest⟩⟩

/-- The browse path with a set beside it goes along with the changes of a trail. -/
theorem keeps (h : e.Trail clean s steps t)
    (htidy : ∀ step ∈ steps, step.after.context.snapshot.Tidy) {changes : List Change}
    (hchanges : Step.Make (modeOf clean) steps changes) {l : Ledger}
    (hl : l.Keeps s.context.snapshot.configuration.browse) :
    (changes.foldl (fun l change => change.enter l) l).Keeps
      t.context.snapshot.configuration.browse := by
  have hmarked : ∀ {s t : Session τ σ}, s.Marked t →
      t.context.snapshot.configuration.browse = s.context.snapshot.configuration.browse :=
    fun hmark => hmark.of_core (·.snapshot.configuration.browse) fun _ => rfl
  -- The induction is on the trail, from any ledger that keeps the browse path before it.
  induction h generalizing changes l with
  | nil hmark =>
    cases hchanges
    rwa [hmarked hmark]
  | @cons s t step steps hmark htook _ ih =>
    obtain ⟨hafter, hrest⟩ := List.forall_mem_cons.mp htidy
    have hbefore : l.Keeps step.before.context.snapshot.configuration.browse := by
      rwa [hmarked hmark]
    by_cases hsuccess : step.outcome = .success
    · rw [Step.Make, List.filter_cons_of_pos (by simpa using hsuccess)] at hchanges
      obtain ⟨change, changes, ⟨-, hcontext⟩, hothers, rfl⟩ :=
        List.forall₂_cons_left_iff.mp hchanges
      refine ih hrest hothers ?_
      rw [hcontext] at hafter ⊢
      exact change.keeps_enter hbefore hafter.browse
    -- A step that is no success makes no change.
    · rw [Step.Make, List.filter_cons_of_neg (by simpa using hsuccess)] at hchanges
      refine ih hrest hchanges ?_
      rwa [htook.context_of_ne hsuccess]

end Equipment.Trail

/-! ## Rounds -/

namespace Round

variable {r : Round τ σ} {context : Context}

/-- The snapshot that the run of the round takes from the cache: that is tried unless it was tried
before or the run is blocked. -/
def loaded? (r : Round τ σ) (context : Context) : Option Snapshot :=
  if context.cacheTried ∨ r.guards.begin? .configure = none then none
  else r.equipment.loaded? (r.start context)

/-- The run of the round goes through steps that have made the changes. -/
def Makes (r : Round τ σ) (context : Context) (changes : List Change) : Prop :=
  ∃ steps, r.equipment.Trail r.clean (r.start context) steps (r.run context).2 ∧
    (r.run context).1.entries = steps.map Step.entry ∧
    Step.Make (Equipment.modeOf r.clean) steps changes

/-- The run of a round goes through the steps of its report. -/
theorem exists_trail (r : Round τ σ) (context : Context) :
    ∃ steps, r.equipment.Trail r.clean (r.start context) steps (r.run context).2 ∧
      (r.run context).1.entries = steps.map Step.entry := by
  by_cases hblocked : (r.run context).1.outcome = .blocked
  · rw [run, Equipment.configure_of_blocked hblocked]
    exact ⟨[], .nil (.refl _), rfl⟩
  · obtain ⟨loading, first, second, hshape⟩ := Equipment.exists_shape hblocked
    exact ⟨loading ++ first ++ second, hshape.trail, hshape.entries⟩

/-- A run that is not blocked looks at the cache first, unless that was tried before, and not
again. -/
theorem subphases_eq (h : (r.run context).1.outcome ≠ .blocked) :
    ∃ others, .loadFromCache ∉ others ∧ (r.run context).1.entries.map Entry.subphase
      = (if context.cacheTried then [] else [.loadFromCache]) ++ others := by
  obtain ⟨loading, first, second, hshape⟩ := Equipment.exists_shape h
  -- The passes behind the first step do not look at the cache.
  have hpasses : ∀ step ∈ first ++ second, step.subphase ≠ .loadFromCache :=
    List.forall_mem_append.mpr ⟨hshape.firstPass.ne_load, fun step hstep =>
      (hshape.secondPass (List.ne_nil_of_mem hstep)).ne_load step hstep⟩
  refine ⟨(first ++ second).map Step.subphase, ?_, ?_⟩
  · intro hmem
    obtain ⟨step, hstep, hsubphase⟩ := List.mem_map.mp hmem
    exact hpasses step hstep hsubphase
  · have hentry : (Entry.subphase ∘ Step.entry : Step τ σ → Subphase) = Step.subphase := rfl
    have hloads : loading.map Step.subphase
        = if context.cacheTried then [] else [.loadFromCache] := hshape.loads
    rw [run, hshape.entries, List.map_map, hentry, List.append_assoc, List.map_append, hloads]

/-- A round looks at the cache in its first step only, so what is taken from there is what was there
when the round began. -/
theorem loaded?_of_step {steps : List (Step τ σ)}
    (htrail : r.equipment.Trail r.clean (r.start context) steps (r.run context).2)
    (hentries : (r.run context).1.entries = steps.map Step.entry) :
    ∀ step ∈ steps, step.subphase = .loadFromCache →
      ∀ snapshot, r.equipment.loaded? step.before = some snapshot →
        r.loaded? context = some snapshot := by
  intro step hstep hload snapshot hsnapshot
  have hunblocked : (r.run context).1.outcome ≠ .blocked := by
    intro hblocked
    rw [run, Equipment.configure_of_blocked hblocked] at hentries
    rw [List.map_eq_nil_iff.mp hentries.symm] at hstep
    cases hstep
  obtain ⟨others, hothers, hplan⟩ := subphases_eq hunblocked
  have hsubphases : (r.run context).1.entries.map Entry.subphase = steps.map Step.subphase := by
    rw [hentries, List.map_map]
    rfl
  rw [hsubphases] at hplan
  -- A cache that was tried before is looked at in no step at all.
  split at hplan
  · have hmem := List.mem_map_of_mem (f := Step.subphase) hstep
    rw [hplan, List.nil_append, hload] at hmem
    exact absurd hmem hothers
  next htried =>
    cases htrail with
    | nil => cases hstep
    | @cons _ _ only rest hmark =>
      obtain ⟨-, hrest⟩ := List.cons_eq_cons.mp hplan
      rcases List.mem_cons.mp hstep with rfl | hstep
      -- Up to the first step nothing but marks has changed.
      · have hsame : r.equipment.loaded? step.before = r.equipment.loaded? (r.start context) := by
          obtain ⟨_, _, _, _, _, _, heq⟩ := hmark
          rw [heq]
          rfl
        obtain ⟨guards, hguards⟩ := Equipment.exists_guards hunblocked
        have hbegun : r.guards.begin? .configure = some guards := hguards
        have hidle : ¬(context.cacheTried = true ∨ r.guards.begin? .configure = none) := by
          rw [hbegun]
          exact not_or.mpr ⟨htried, Option.some_ne_none guards⟩
        rw [loaded?, if_neg hidle, ← hsame, hsnapshot]
      · have hmem := List.mem_map_of_mem (f := Step.subphase) hstep
        rw [hrest, hload] at hmem
        exact absurd hmem hothers

/-- The run of every round makes changes. -/
theorem exists_makes (r : Round τ σ) (context : Context) : ∃ changes, r.Makes context changes := by
  obtain ⟨steps, htrail, hentries⟩ := r.exists_trail context
  obtain ⟨changes, hchanges, -⟩ := htrail.changes
  exact ⟨changes, steps, htrail, hentries, hchanges⟩

/-- A round leaves a tidy snapshot if it finds one and takes a tidy one from the cache. -/
theorem tidy (r : Round τ σ) (hcontext : context.snapshot.Tidy)
    (hloaded : ∀ snapshot, r.loaded? context = some snapshot → snapshot.Tidy) :
    (r.run context).2.context.snapshot.Tidy := by
  obtain ⟨steps, htrail, hentries⟩ := r.exists_trail context
  exact (htrail.tidy hcontext fun step hstep hload snapshot hsnapshot =>
    hloaded snapshot (loaded?_of_step htrail hentries step hstep hload snapshot hsnapshot)).1

/-- The browse path with a set beside it goes along with the changes that the round makes. -/
theorem Makes.keeps {changes : List Change} (h : r.Makes context changes)
    (hcontext : context.snapshot.Tidy)
    (hloaded : ∀ snapshot, r.loaded? context = some snapshot → snapshot.Tidy) {l : Ledger}
    (hl : l.Keeps context.snapshot.configuration.browse) :
    (changes.foldl (fun l change => change.enter l) l).Keeps
      (r.run context).2.context.snapshot.configuration.browse := by
  obtain ⟨steps, htrail, hentries, hchanges⟩ := h
  have htidy := htrail.tidy hcontext fun step hstep hload snapshot hsnapshot =>
    hloaded snapshot (loaded?_of_step htrail hentries step hstep hload snapshot hsnapshot)
  exact htrail.keeps htidy.2 hchanges hl

end Round

/-! ## The life of a context -/

/-- The browse path with a set beside it, as it is kept along the changes that the rounds over a new
context make. -/
inductive Booked : List (Round τ σ) → Ledger → Prop where
  /-- A new context has an empty one. -/
  | new : Booked [] {}
  /-- Each round makes its changes. -/
  | round {rounds : List (Round τ σ)} {l : Ledger} {r : Round τ σ} {changes : List Change} :
      Booked rounds l → r.Makes (life rounds) changes →
      Booked (rounds ++ [r]) (changes.foldl (fun l change => change.enter l) l)

/-- The snapshot that is taken from the cache in the course of the rounds, if there is one, is
tidy. -/
def LoadsTidy (rounds : List (Round τ σ)) : Prop :=
  ∀ before r after, rounds = before ++ r :: after →
    ∀ snapshot, r.loaded? (life before) = some snapshot → snapshot.Tidy

variable {rounds : List (Round τ σ)} {r : Round τ σ}

theorem life_concat (rounds : List (Round τ σ)) (r : Round τ σ) :
    life (rounds ++ [r]) = (r.run (life rounds)).2.context := by
  rw [life, List.foldl_append]
  rfl

theorem loadsTidy_nil : LoadsTidy ([] : List (Round τ σ)) := by
  intro before r after h
  simp at h

theorem loadsTidy_concat : LoadsTidy (rounds ++ [r]) ↔
    LoadsTidy rounds ∧ ∀ snapshot, r.loaded? (life rounds) = some snapshot → snapshot.Tidy := by
  constructor
  · intro h
    refine ⟨?_, h rounds r [] rfl⟩
    rintro before r' after rfl
    exact h before r' (after ++ [r]) (by simp)
  · rintro ⟨hfront, hlast⟩ before r' after hrounds
    -- The round is the last one, or there is something behind it to take off.
    rcases List.eq_nil_or_concat after with rfl | ⟨after, last, rfl⟩
    · obtain ⟨rfl, hr⟩ := List.append_inj' hrounds rfl
      obtain rfl := List.singleton_inj.mp hr
      exact hlast
    · rw [List.concat_eq_append, ← List.cons_append, ← List.append_assoc] at hrounds
      exact hfront before r' after (List.append_inj' hrounds rfl).1

/-- The snapshot of a context is tidy throughout its life. -/
theorem tidy_of_loadsTidy (h : LoadsTidy rounds) : (life rounds).snapshot.Tidy := by
  induction rounds using List.reverseRecOn with
  | nil => exact Snapshot.tidy_empty
  | append_singleton rounds r ih =>
    rw [life_concat]
    obtain ⟨hfront, hlast⟩ := loadsTidy_concat.mp h
    exact r.tidy (ih hfront) hlast

/-- The browse path with a set beside it is that of the snapshot throughout the life of a
context. -/
theorem Booked.keeps {l : Ledger} (hbooked : Booked rounds l) (h : LoadsTidy rounds) :
    l.Keeps (life rounds).snapshot.configuration.browse := by
  induction hbooked with
  | new => exact .empty
  | round _ hmakes ih =>
    obtain ⟨hfront, hlast⟩ := loadsTidy_concat.mp h
    rw [life_concat]
    exact hmakes.keeps (tidy_of_loadsTidy hfront) hlast (ih hfront)

theorem exists_booked (rounds : List (Round τ σ)) : ∃ l : Ledger, Booked rounds l := by
  induction rounds using List.reverseRecOn with
  | nil => exact ⟨{}, .new⟩
  | append_singleton rounds r ih =>
    obtain ⟨l, hl⟩ := ih
    obtain ⟨changes, hchanges⟩ := r.exists_makes (life rounds)
    exact ⟨_, .round hl hchanges⟩

/-- Whatever the rounds over a new context come across, its snapshot is tidy after each of them, and
a set of directories that is kept beside the browse path, along the changes that the rounds make,
is exactly the set of its entries. -/
theorem tidy_life (rounds : List (Round τ σ)) (h : LoadsTidy rounds) :
    (life rounds).snapshot.Tidy ∧ (∃ l : Ledger, Booked rounds l) ∧
      ∀ l : Ledger, Booked rounds l → l.Keeps (life rounds).snapshot.configuration.browse :=
  ⟨tidy_of_loadsTidy h, exists_booked rounds, fun _ hbooked => hbooked.keeps h⟩

/-- An incremental round over the workspace in `/w`, whose build tool prints the lines. The sink
takes everything. -/
def adding (lines : List String) (files : FileTree) : Round Unit Unit where
  equipment :=
    { settings := {}
      root := ⟨"/w"⟩
      runTool _ _ tree tool :=
        (⟨lines.map (.output, ·), false, .ok ⟨some 0, false⟩⟩, tree, tool)
      search _ _ := none
      sink := ⟨fun _ _ sink tree => (.ok (), sink, tree)⟩ }
  clean := false
  files
  tool := ()
  sink := ()

/-- A round that finds a tidy snapshot in the cache. -/
def resuming : Round Unit Unit :=
  adding ["ld a.o"]
    { entries :=
        [(["w"], .directory), (["w", ".mktrace"], .directory),
          (["w", ".mktrace", "cache.json"],
            .file (.text "[[\"all\", \"b\"], [\"/w>b()\"], [], [\"/w/inc\"]]") false)] }

/-- A round that finds out again what is known then. -/
def repeating : Round Unit Unit := adding ["ld b.o"] {}

theorem loadsTidy_resuming : LoadsTidy [resuming, repeating] := by
  have hfirst : (resuming.loaded? {}).all (fun snapshot => decide snapshot.Tidy) = true := by
    decide +kernel
  have hsecond : (life [resuming]).cacheTried = true := by decide +kernel
  -- With the rounds out of sight nothing but the kernel evaluates them.
  generalize resuming = first at hfirst hsecond ⊢
  generalize repeating = second
  have hload : ∀ snapshot, first.loaded? (life ([] : List (Round Unit Unit))) = some snapshot →
      snapshot.Tidy := by
    intro snapshot hsnapshot
    rw [show life ([] : List (Round Unit Unit)) = {} from rfl] at hsnapshot
    rw [hsnapshot, Option.all_some, decide_eq_true_eq] at hfirst
    exact hfirst
  have hone : LoadsTidy [first] := loadsTidy_concat.mpr ⟨loadsTidy_nil, hload⟩
  refine loadsTidy_concat.mpr ⟨hone, fun snapshot hsnapshot => ?_⟩
  rw [Round.loaded?, if_pos (.inl hsecond)] at hsnapshot
  cases hsnapshot

/-- What was taken from the cache stays tidy while things that are known and things that are not are
found, and the set beside the browse path stays that of its entries. -/
theorem tidy_life_resuming :
    LoadsTidy [resuming, repeating] ∧ (life [resuming, repeating]).snapshot.Tidy ∧
      (life [resuming, repeating]).snapshot.buildTargets = ["all", "b"] ∧
      (life [resuming, repeating]).snapshot.launchTargets.map LaunchTarget.canonical
        = ["/w>b()", "/w>a()"] ∧
      ∀ l : Ledger, Booked [resuming, repeating] l →
        l.seen = {[.root, .name "w", .name "inc"]} := by
  have hloads := loadsTidy_resuming
  -- With the rounds out of sight only the kernel evaluates them.
  generalize hrounds : [resuming, repeating] = rounds at hloads ⊢
  have hlife : (life rounds).snapshot.buildTargets = ["all", "b"] ∧
      (life rounds).snapshot.launchTargets.map LaunchTarget.canonical = ["/w>b()", "/w>a()"] ∧
      ((life rounds).snapshot.configuration.browse.map Path.components).toFinset
        = {[.root, .name "w", .name "inc"]} := by
    subst hrounds
    decide +kernel
  obtain ⟨htidy, -, hledgers⟩ := tidy_life rounds hloads
  obtain ⟨htargets, hforms, hdirectories⟩ := hlife
  refine ⟨hloads, htidy, htargets, hforms, fun l hl => ?_⟩
  rw [(hledgers l hl).seen, hdirectories]

end Configure

end BuildTrace
