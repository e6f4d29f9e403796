import BuildTrace.Proofs.Configure.Effect

/-!
# The life of a context

A context outlives the runs over it. From one run to the next everything around the context may
change: the settings, the files, the build tool, the selection, and whether another operation is
running. What each run preserves, whatever is around it, holds of the context throughout its life.

## Main definitions

* `Round`: one run in the life of a context, with all that is around the context then;
* `life` and `lifeFrom`: the context after some rounds, from a new one on or from any.

## Main results

* `Equipment.configure_rel`: a relation that does not care about notes holds across a run if it
  holds across what is done in each stage and across the keeping of the snapshot;
* `lifeFrom_of_run` and `life_of_run`: what holds of a context and is preserved by each round holds
  after all rounds.
-/

namespace BuildTrace.Configure

variable {τ σ α : Type}

namespace Equipment

variable {e : Equipment τ σ} {R : Session τ σ → Session τ σ → Prop}

section Run

variable (trans : ∀ {s t u}, R s t → R t u → R s u)
  (alike : ∀ {s t : Session τ σ}, s.Alike t → R s t)
  (haction : ∀ {α : Type} {which : Subphase} {action : Action τ σ α},
    e.Stage α which action → ∀ s, R s (action s).2)
  (hpersist : ∀ s, R s (e.persist s).2)

include trans alike hpersist

theorem conclude_rel (outcome : Outcome) (s : Session τ σ) : R s (e.conclude outcome s).2 := by
  rw [conclude]
  split
  · exact alike ⟨rfl, rfl, rfl⟩
  · exact subphase_rel (R := R) trans alike hpersist s

include haction

theorem pass_rel (clean : Bool) (reruns : Nat) (s : Session τ σ) :
    R s (e.pass clean reruns s).2 := by
  -- The exploration is covered stage by stage, and the end of the pass by the keeping alone.
  have hexplore : R s (e.explore clean reruns s).2 :=
    (Across.of_alike (R := R) trans alike haction).explore clean reruns s
  rw [pass]
  split
  next heq => rwa [heq] at hexplore
  next outcome t heq =>
    rw [heq] at hexplore
    exact trans hexplore (conclude_rel (R := R) trans alike hpersist outcome t)

/-- A relation that does not care about notes holds across a run if it holds across what is done
in each stage and across the keeping of the snapshot. -/
theorem configure_rel (clean : Bool) (s : Session τ σ) : R s (e.configure clean s).2 := by
  unfold configure
  split
  · exact alike ⟨rfl, rfl, rfl⟩
  next guards _ =>
    -- Getting the guards and giving them back are notes, too.
    have hbegin : R s (fresh { s with context := { s.context with guards } }) :=
      alike ⟨rfl, rfl, rfl⟩
    have hpass := trans hbegin (pass_rel (R := R) trans alike haction hpersist clean 1 _)
    exact trans hpass (alike ⟨rfl, rfl, rfl⟩)

end Run

end Equipment

/-! ## Rounds -/

/-- One run in the life of a context, with all that is around the context then. -/
structure Round (τ σ : Type) where
  /-- What the run is given. -/
  equipment : Equipment τ σ
  /-- The run forgets what was known before. -/
  clean : Bool
  /-- The files the run finds. -/
  files : FileTree
  /-- The state of the build tool. -/
  tool : τ
  /-- The state of the sink. -/
  sink : σ
  /-- The run is cancelled before it begins. -/
  cancelled : Bool := false
  /-- The build target that is selected for the run. -/
  buildTarget : Option String := none
  /-- The launch target that is selected for the run. -/
  launchTarget : Option String := none
  /-- The operation that is running when the run is asked for. -/
  guards : Guards := {}

namespace Round

/-- The session in which the round begins. -/
def start (r : Round τ σ) (context : Context) : Session τ σ where
  context :=
    { context with
      buildTarget := r.buildTarget
      launchTarget := r.launchTarget
      guards := r.guards }
  files := r.files
  tool := r.tool
  sink := r.sink
  cancelled := r.cancelled

/-- The run of the round. -/
def run (r : Round τ σ) (context : Context) : Report × Session τ σ :=
  r.equipment.configure r.clean (r.start context)

end Round

/-- The context after the rounds, from a new one on. -/
def life (rounds : List (Round τ σ)) : Context :=
  rounds.foldl (fun context r => (r.run context).2.context) {}

/-- The context after further rounds. -/
def lifeFrom (context : Context) (rounds : List (Round τ σ)) : Context :=
  rounds.foldl (fun context r => (r.run context).2.context) context

/-- What holds of a context and is preserved by every round holds after further rounds. -/
theorem lifeFrom_of_run {P : Context → Prop}
    (hrun : ∀ (r : Round τ σ) context, P context → P (r.run context).2.context)
    (rounds : List (Round τ σ)) {context : Context} (h : P context) :
    P (lifeFrom context rounds) := by
  -- The induction is on the rounds, from any context with the property.
  induction rounds generalizing context with
  | nil => exact h
  | cons r rounds ih => exact ih (hrun r context h)

/-- What holds of a new context and is preserved by every round holds after all rounds. -/
theorem life_of_run {P : Context → Prop} (hnew : P {})
    (hrun : ∀ (r : Round τ σ) context, P context → P (r.run context).2.context)
    (rounds : List (Round τ σ)) : P (life rounds) :=
  lifeFrom_of_run hrun rounds hnew

end BuildTrace.Configure
