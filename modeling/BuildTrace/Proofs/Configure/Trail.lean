import BuildTrace.Proofs.Configure.Change
import BuildTrace.Proofs.Configure.Notes
import Mathlib.Data.List.Forall2

/-!
# The trail of a run

A run goes through subphases one after the other. Between two of them only its marks change: the
counters, the guards, and the notes that the cache was tried and that the run began again. So the
subphases, with the sessions before and after each of them, tell all there is to tell about a run.

## Main definitions

* `Step`: a subphase that a run has gone through, with the sessions before and after it;
* `Session.Marked`: sessions that differ in their marks only;
* `Equipment.Trail`: the steps that lead from one session to another.

## Main results

* `Equipment.Trail.entries` and `Equipment.Trail.progress`: what a trail leaves in the report, and
  what the observer is told on the way;
* `Equipment.Trail.changes`: a trail makes the changes of its successful steps and no others.
-/

namespace BuildTrace.Configure

variable {τ σ α : Type}

/-- A subphase that a run has gone through. -/
structure Step (τ σ : Type) where
  /-- The subphase. -/
  subphase : Subphase
  /-- How it ended. -/
  outcome : Outcome
  /-- The session when it was to be announced. -/
  before : Session τ σ
  /-- The session when its end had been noted. -/
  after : Session τ σ

/-- The entry of the step in the report. -/
def Step.entry (step : Step τ σ) : Entry := ⟨step.subphase, step.outcome⟩

@[simp] theorem Step.outcome_entry (step : Step τ σ) : step.entry.outcome = step.outcome := rfl

/-- What the observer is told about the step. -/
def Step.told (step : Step τ σ) : List Progress := [.status step.subphase, .increment]

/-- A subphase that is not among those of the steps is not that of any of them. -/
theorem Step.subphase_ne {which : Subphase} {steps : List (Step τ σ)}
    (h : which ∉ steps.map Step.subphase) : ∀ step ∈ steps, step.subphase ≠ which := by
  rintro step hstep rfl
  exact h (List.mem_map_of_mem hstep)

/-- The context without its marks: whether the cache was tried, and the guards. -/
def Context.core (c : Context) : Context := { c with cacheTried := false, guards := {} }

theorem Change.core_apply (change : Change) (c : Context) :
    (change.apply c).core = change.apply c.core := by
  cases change <;> rfl

theorem Change.core_foldl (changes : List Change) (c : Context) :
    (changes.foldl (fun c change => change.apply c) c).core
      = changes.foldl (fun c change => change.apply c) c.core := by
  induction changes generalizing c with
  | nil => rfl
  | cons change changes ih => simp only [List.foldl_cons, ih, change.core_apply]

/-! ## Marks -/

/-- The sessions differ in nothing but marks, and a cache that was tried stays so. -/
def Session.Marked (s t : Session τ σ) : Prop :=
  ∃ statistics guards tried outcome reran,
    (s.context.cacheTried = true → tried = true) ∧
    t = { s with
      statistics
      context := { s.context with guards, cacheTried := tried }
      report := { s.report with outcome, reran } }

namespace Session.Marked

variable {s t u : Session τ σ}

theorem refl (s : Session τ σ) : s.Marked s := ⟨_, _, _, _, _, id, rfl⟩

theorem trans (h : s.Marked t) (h' : t.Marked u) : s.Marked u := by
  obtain ⟨_, _, _, _, _, htried, rfl⟩ := h
  obtain ⟨statistics, guards, tried, outcome, reran, htried', rfl⟩ := h'
  exact ⟨statistics, guards, tried, outcome, reran, htried' ∘ htried, rfl⟩

theorem core (h : s.Marked t) : t.context.core = s.context.core := by
  obtain ⟨_, _, _, _, _, _, rfl⟩ := h
  rfl

theorem entries (h : s.Marked t) : t.report.entries = s.report.entries := by
  obtain ⟨_, _, _, _, _, _, rfl⟩ := h
  rfl

theorem progress (h : s.Marked t) : t.progress = s.progress := by
  obtain ⟨_, _, _, _, _, _, rfl⟩ := h
  rfl

theorem tried (h : s.Marked t) (hs : s.context.cacheTried = true) :
    t.context.cacheTried = true := by
  obtain ⟨_, _, _, _, _, htried, rfl⟩ := h
  exact htried hs

/-- What the cores have in common. -/
theorem of_core {β : Type} (f : Context → β) (hf : ∀ c, f c.core = f c) (h : s.Marked t) :
    f t.context = f s.context := by
  rw [← hf, h.core, hf]

end Session.Marked

namespace Equipment

variable {e : Equipment τ σ} {clean : Bool}

/-! ## Steps -/

/-- What is noted about a subphase does not concern the context. -/
theorem context_subphase (e : Equipment τ σ) (which : Subphase) (action : Action τ σ α)
    (s : Session τ σ) : (e.subphase which action s).2.context
      = (action (e.tell (.status which) s)).2.context := by
  rw [subphase_eq]
  rfl

/-- The run of the equipment takes the step: it goes through the subphase from the session before
it, which leads to the outcome and to the session after it. -/
inductive Took (e : Equipment τ σ) (clean : Bool) : Step τ σ → Prop where
  | act {α : Type} {which : Subphase} {action : Action τ σ α} (h : e.Act clean α which action)
      (s : Session τ σ) :
      Took e clean ⟨which, outcomeOf (e.subphase which action s).1, s,
        (e.subphase which action s).2⟩

theorem took_of_eq {which : Subphase} {action : Action τ σ α} {s t : Session τ σ}
    {result : Except Outcome α} (h : e.Act clean α which action)
    (heq : e.subphase which action s = (result, t)) :
    e.Took clean ⟨which, outcomeOf result, s, t⟩ := by
  have htook := Took.act h s
  rwa [heq] at htook

namespace Took

variable {step : Step τ σ}

/-- A step adds its entry to the report. -/
theorem entries (h : e.Took clean step) :
    step.after.report.entries = step.before.report.entries ++ [step.entry] := by
  obtain ⟨hact, s⟩ := h
  exact entries_subphase (fun s => (hact.kept s).report) s

/-- The observer is told about the step. -/
theorem progress (h : e.Took clean step) :
    step.after.progress = step.before.progress ++ step.told := by
  cases h with
  | @act _ which action hact s =>
    have hend : (e.subphase which action s).2.progress
        = (action (e.tell (.status which) s)).2.progress ++ [.increment] := by
      rw [subphase_eq]
      rfl
    -- Nothing is told while the subphase is at work.
    rw [hend, (hact.kept _).progress]
    simp [tell, Step.told]

/-- A step that is no success leaves the context as it was, and a successful one makes one of the
changes of its subphase. -/
theorem cases_outcome (h : e.Took clean step) :
    (step.outcome ≠ .success ∧ step.after.context = step.before.context) ∨
      (step.outcome = .success ∧ ∃ change : Change,
        change.Suits (modeOf clean) step.subphase ∧
          step.after.context = change.apply step.before.context) := by
  cases h with
  | @act _ which action hact s =>
    have hchange := hact.allOrNothing (e.tell (.status which) s)
    have hbegin : (e.tell (.status which) s).context = s.context := rfl
    rw [hbegin] at hchange
    simp only [context_subphase, subphase_fst]
    generalize (action (e.tell (.status which) s)).1 = result at hchange ⊢
    generalize (action (e.tell (.status which) s)).2.context = after at hchange ⊢
    cases hchange with
    | @nothing problem => exact .inl ⟨problem.outcome_ne.1, rfl⟩
    | all hsuits => exact .inr ⟨rfl, _, hsuits, rfl⟩

theorem context_of_ne (h : e.Took clean step) (hne : step.outcome ≠ .success) :
    step.after.context = step.before.context := by
  rcases h.cases_outcome with ⟨_, hcontext⟩ | ⟨hsuccess, _⟩
  · exact hcontext
  · exact absurd hsuccess hne

/-- What no change of the subphase touches is the same before and after the step. -/
theorem of_changes {β : Type} (f : Context → β) (h : e.Took clean step)
    (hf : step.outcome = .success → ∀ (change : Change) c,
      change.Suits (modeOf clean) step.subphase → f (change.apply c) = f c) :
    f step.after.context = f step.before.context := by
  rcases h.cases_outcome with ⟨_, hcontext⟩ | ⟨hsuccess, change, hsuits, hcontext⟩
  · rw [hcontext]
  · rw [hcontext, hf hsuccess change _ hsuits]

end Took

/-! ## Trails -/

/-- The steps lead from one session to the other. Before, between and after them only marks
change. -/
inductive Trail (e : Equipment τ σ) (clean : Bool) :
    Session τ σ → List (Step τ σ) → Session τ σ → Prop where
  | nil {s t : Session τ σ} : s.Marked t → Trail e clean s [] t
  | cons {s t : Session τ σ} {step : Step τ σ} {steps : List (Step τ σ)} :
      s.Marked step.before → e.Took clean step → Trail e clean step.after steps t →
      Trail e clean s (step :: steps) t

namespace Trail

variable {s t u : Session τ σ} {step : Step τ σ} {steps others : List (Step τ σ)}

theorem mark_left (hmark : s.Marked t) (h : e.Trail clean t steps u) :
    e.Trail clean s steps u := by
  cases h with
  | nil hmark' => exact .nil (hmark.trans hmark')
  | cons hmark' htook hrest => exact .cons (hmark.trans hmark') htook hrest

theorem append (h : e.Trail clean s steps t) (h' : e.Trail clean t others u) :
    e.Trail clean s (steps ++ others) u := by
  -- The induction is on the first trail; its end and the beginning of the other differ by marks.
  induction h with
  | nil hmark => exact h'.mark_left hmark
  | cons hmark htook _ ih => exact .cons hmark htook (ih h')

theorem mark_right (h : e.Trail clean s steps t) (hmark : t.Marked u) :
    e.Trail clean s steps u := by
  have happend := h.append (.nil hmark)
  rwa [List.append_nil] at happend

/-- One more subphase that went in a known way. -/
theorem snoc {which : Subphase} {action : Action τ σ α} {result : Except Outcome α}
    {v : Session τ σ} (h : e.Trail clean s steps t) (hmark : t.Marked u)
    (hact : e.Act clean α which action) (heq : e.subphase which action u = (result, v)) :
    e.Trail clean s (steps ++ [⟨which, outcomeOf result, u, v⟩]) v :=
  h.append (.cons hmark (took_of_eq hact heq) (.nil (.refl v)))

theorem took (h : e.Trail clean s steps t) : ∀ step ∈ steps, e.Took clean step := by
  induction h with
  | nil => exact List.forall_mem_nil _
  | cons _ htook _ ih => exact List.forall_mem_cons.mpr ⟨htook, ih⟩

/-- The report has one more entry for each step, in the same order. -/
theorem entries (h : e.Trail clean s steps t) :
    t.report.entries = s.report.entries ++ steps.map Step.entry := by
  induction h with
  | nil hmark => simp [hmark.entries]
  | cons hmark htook _ ih => simp [ih, htook.entries, hmark.entries]

/-- The observer is told about each step, in the same order. -/
theorem progress (h : e.Trail clean s steps t) :
    t.progress = s.progress ++ steps.flatMap Step.told := by
  induction h with
  | nil hmark => simp [hmark.progress]
  | cons hmark htook _ ih => simp [ih, htook.progress, hmark.progress]

/-- What no change of a successful step touches is the same at both ends. -/
theorem of_changes {β : Type} (f : Context → β) (hcore : ∀ c, f c.core = f c)
    (h : e.Trail clean s steps t)
    (hf : ∀ step ∈ steps, step.outcome = .success → ∀ (change : Change) c,
      change.Suits (modeOf clean) step.subphase → f (change.apply c) = f c) :
    f t.context = f s.context := by
  induction h with
  | nil hmark => exact hmark.of_core f hcore
  | cons hmark htook _ ih =>
    obtain ⟨hstep, hsteps⟩ := List.forall_mem_cons.mp hf
    rw [ih hsteps, htook.of_changes f hstep, hmark.of_core f hcore]

/-- A trail can be cut before each of its steps. -/
theorem cut (h : e.Trail clean s (steps ++ step :: others) t) :
    e.Trail clean s steps step.before := by
  -- The induction is on the steps before the cut, from any session.
  induction steps generalizing s with
  | nil =>
    cases h with
    | cons hmark _ _ => exact .nil hmark
  | cons first steps ih =>
    cases h with
    | cons hmark htook hrest => exact .cons hmark htook (ih hrest)

/-- A property of contexts that neither marks nor changes take away holds at the end of a trail and
at the beginning of each step if it holds at the beginning of the trail. -/
theorem stays {P : Context → Prop} (hmarked : ∀ {s t : Session τ σ}, s.Marked t →
      P s.context → P t.context)
    (hchange : ∀ (change : Change) c, P c → P (change.apply c)) (h : e.Trail clean s steps t)
    (hs : P s.context) : P t.context ∧ ∀ step ∈ steps, P step.before.context := by
  -- The property is carried across the marks before a step, and then across the step itself.
  induction h with
  | nil hmark => exact ⟨hmarked hmark hs, List.forall_mem_nil _⟩
  | @cons _ _ step _ hmark htook _ ih =>
    have hbegin := hmarked hmark hs
    have hafter : P step.after.context := by
      rcases htook.cases_outcome with ⟨_, hcontext⟩ | ⟨_, change, _, hcontext⟩
      · exact hcontext ▸ hbegin
      · exact hcontext ▸ hchange change _ hbegin
    obtain ⟨hend, hbefore⟩ := ih hafter
    exact ⟨hend, List.forall_mem_cons.mpr ⟨hbegin, hbefore⟩⟩

/-- Once the cache was tried, that is not forgotten. -/
theorem tried (h : e.Trail clean s steps t) (hs : s.context.cacheTried = true) :
    t.context.cacheTried = true :=
  (h.stays (P := fun c => c.cacheTried = true) (fun hmark => hmark.tried)
    (fun change c hc => (change.marks_apply c).1.trans hc) hs).1

/-- Where no build target is selected, none is selected on the way. -/
theorem unselected (h : e.Trail clean s steps t) (hs : s.context.buildTarget = none) :
    t.context.buildTarget = none ∧ ∀ step ∈ steps, step.before.context.buildTarget = none :=
  h.stays (P := fun c => c.buildTarget = none)
    (fun hmark hc => (hmark.of_core Context.buildTarget (fun _ => rfl)).trans hc)
    (fun change _ hc => change.buildTarget_apply_of_none hc) hs

/-- A trail makes the changes of its successful steps, one after the other, and no others. -/
theorem changes (h : e.Trail clean s steps t) :
    ∃ changes : List Change,
      List.Forall₂ (fun step change => change.Suits (modeOf clean) step.subphase ∧
          step.after.context = change.apply step.before.context)
        (steps.filter (·.outcome = .success)) changes ∧
      t.context.core = (changes.foldl (fun c change => change.apply c) s.context).core := by
  induction h with
  | nil hmark => exact ⟨[], .nil, hmark.core⟩
  | @cons s t step steps hmark htook _ ih =>
    obtain ⟨changes, hchanges, hend⟩ := ih
    rcases htook.cases_outcome with ⟨hne, hcontext⟩ | ⟨hsuccess, change, hsuits, hcontext⟩
    -- The step made no change, so the others are all.
    · refine ⟨changes, by simpa [hne] using hchanges, ?_⟩
      rw [hend, hcontext, Change.core_foldl, hmark.core, ← Change.core_foldl]
    · refine ⟨change :: changes, ?_, ?_⟩
      · simpa [hsuccess] using ⟨⟨hsuits, hcontext⟩, hchanges⟩
      · rw [hend, hcontext, List.foldl_cons, Change.core_foldl, Change.core_apply, hmark.core,
          ← Change.core_apply, ← Change.core_foldl]

end Trail

end Equipment

end BuildTrace.Configure
