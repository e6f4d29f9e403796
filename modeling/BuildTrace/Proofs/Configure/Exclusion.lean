import BuildTrace.Proofs.Configure.Pass
import Mathlib.Logic.Relation

/-!
# One operation at a time

Any number of clients share the guards. Each of them may begin operations, drop the guards it was
granted, and ask for runs, in any order and between the steps of the others. What is atomic is
asking for a guard and giving it back; a run does the former when it begins and the latter when it
returns, and the others may do anything in between.

Giving a guard back does not look at what is running. That nobody gives back what belongs to
somebody else is due to the invariant of all courses of events: there is one guard at most.

## Main definitions

* `Request` and `Guard`: a run that was asked for, and a guard that is alive;
* `Site`: the guards that are shared, with those that are alive;
* `Site.Moves` and `Site.Reached`: what may happen next, and what may have happened so far;
* `Site.Sole`: the invariant.

## Main results

* `Equipment.guards_pass`: a run holds its guard until it returns;
* `Site.Reached.sole`: the invariant holds after any course of events;
* `Site.exclusive`: one operation runs at a time.
-/

namespace BuildTrace.Configure

variable {ι τ σ α : Type}

/-! ## Guards of a run -/

namespace Equipment

variable {e : Equipment τ σ}

/-- A stage is one of the subphases of a run, clean or not. -/
theorem Stage.exists_act {which : Subphase} {action : Action τ σ α}
    (h : e.Stage α which action) : ∃ clean, e.Act clean α which action := by
  have hmode : ∀ mode, ∃ clean, modeOf clean = mode
    | .replace => ⟨true, rfl⟩
    | .merge => ⟨false, rfl⟩
  cases h with
  | loadFromCache => exact ⟨true, .loadFromCache⟩
  | obtainTrace clean => exact ⟨clean, .obtainTrace⟩
  | preprocess raw => exact ⟨true, .preprocess raw⟩
  | parseForConfiguration trace mode =>
    obtain ⟨clean, rfl⟩ := hmode mode
    exact ⟨clean, .parseForConfiguration trace⟩
  | parseForLaunchTargets trace mode =>
    obtain ⟨clean, rfl⟩ := hmode mode
    exact ⟨clean, .parseForLaunchTargets trace⟩
  | parseForBuildTargets mode =>
    obtain ⟨clean, rfl⟩ := hmode mode
    exact ⟨clean, .parseForBuildTargets⟩

/-- No stage touches the guards. -/
theorem Stage.guards {which : Subphase} {action : Action τ σ α} (h : e.Stage α which action)
    (s : Session τ σ) : (action s).2.context.guards = s.context.guards := by
  obtain ⟨clean, hact⟩ := h.exists_act
  -- A stage makes no change of the context, or one that does not concern its marks.
  have hchange := hact.allOrNothing s
  generalize (action s).1 = result, (action s).2.context = context at hchange
  cases hchange with
  | nothing => rfl
  | @all _ _ change _ => exact (change.marks_apply _).2

/-- The guards are the same before and after every step of an exploration. -/
theorem across_guards (e : Equipment τ σ) :
    e.Across fun s t => t.context.guards = s.context.guards where
  refl _ := rfl
  trans hst htu := htu.trans hst
  count _ _ := rfl
  tried _ := rfl
  reran _ := rfl
  stage {_ which action} hstage s := by
    have hguards := hstage.guards (e.tell (.status which) s)
    rw [context_subphase, hguards]
    rfl

/-- A run holds its guard until it returns. -/
theorem guards_pass (e : Equipment τ σ) (clean : Bool) (reruns : Nat) (s : Session τ σ) :
    (e.pass clean reruns s).2.context.guards = s.context.guards := by
  have hexplore := e.across_guards.explore clean reruns s
  rw [pass]
  split
  next heq => rwa [heq] at hexplore
  next outcome t heq =>
    rw [heq] at hexplore
    rw [conclude]
    split
    · exact hexplore
    · rw [context_subphase, persist_eq]
      exact hexplore

end Equipment

/-! ## Courses of events -/

/-- A run that was asked for. -/
structure Request (τ σ : Type) where
  /-- What the run is given. -/
  equipment : Equipment τ σ
  /-- The run forgets what was known before. -/
  clean : Bool
  /-- The session when the run was asked for. -/
  session : Session τ σ

/-- What the run comes to. -/
def Request.result (r : Request τ σ) : Report × Session τ σ :=
  r.equipment.configure r.clean r.session

/-- A guard that is alive. -/
structure Guard (ι τ σ : Type) where
  /-- The client that was granted the guard. -/
  owner : ι
  /-- The operation that has begun. -/
  operation : Operation
  /-- The run that holds the guard, unless the client itself does. -/
  run : Option (Request τ σ) := none

/-- Guards that are shared by the clients, with all guards that are alive. -/
structure Site (ι τ σ : Type) where
  /-- What is shared. -/
  guards : Guards := {}
  /-- The guards that are alive. -/
  alive : List (Guard ι τ σ) := []

/-- What a client may do that concerns the guards. -/
inductive Event (ι τ σ : Type) where
  /-- The client asks for a guard of the operation. -/
  | asked (client : ι) (operation : Operation)
  /-- A client drops its guard. -/
  | dropped (guard : Guard ι τ σ)
  /-- The client asks for a run. -/
  | called (client : ι) (request : Request τ σ)
  /-- A run that was granted its guard returns. -/
  | returned (guard : Guard ι τ σ) (request : Request τ σ)

namespace Site

/-- An event takes the guards from one state to another. Whether a guard is granted is decided by
what is shared, and a client may hold several guards, for all that is said here. -/
inductive Moves (site : Site ι τ σ) : Event ι τ σ → Site ι τ σ → Prop where
  /-- The guard is granted. -/
  | granted {client : ι} {operation : Operation} {guards : Guards} :
      site.guards.begin? operation = some guards →
      Moves site (.asked client operation)
        { guards, alive := { owner := client, operation } :: site.alive }
  /-- The guard is refused. -/
  | refused {client : ι} {operation : Operation} :
      site.guards.begin? operation = none → Moves site (.asked client operation) site
  /-- A guard is dropped, whatever is running. -/
  | dropped {front back : List (Guard ι τ σ)} {guard : Guard ι τ σ} :
      site.alive = front ++ guard :: back → guard.run = none →
      Moves site (.dropped guard) { guards := site.guards.release, alive := front ++ back }
  /-- A run is granted its guard, and goes on while other things happen. -/
  | entered {client : ι} {request : Request τ σ} {guards : Guards} :
      request.session.context.guards = site.guards →
      site.guards.begin? .configure = some guards →
      Moves site (.called client request)
        { guards,
          alive := { owner := client, operation := .configure, run := some request } :: site.alive }
  /-- A run is refused its guard, and returns. -/
  | blocked {client : ι} {request : Request τ σ} :
      request.session.context.guards = site.guards →
      site.guards.begin? .configure = none →
      Moves site (.called client request)
        { site with guards := request.result.2.context.guards }
  /-- A run returns that was granted its guard. The guards are as it leaves them. -/
  | returned {front back : List (Guard ι τ σ)} {guard : Guard ι τ σ} {request : Request τ σ} :
      site.alive = front ++ guard :: back → guard.run = some request →
      Moves site (.returned guard request)
        { guards := request.result.2.context.guards, alive := front ++ back }

/-- The site after some course of events, from the beginning, when no guard is alive. -/
def Reached (site : Site ι τ σ) : Prop :=
  Relation.ReflTransGen (fun site after => ∃ event, Moves site event after) {} site

/-! ## The invariant -/

/-- No guard is alive and nothing is running, or a single guard is alive and its operation is
running. If that is a run, nothing was running when it was asked for. -/
inductive Sole : Site ι τ σ → Prop where
  /-- Nothing is running. -/
  | idle : Sole {}
  /-- The operation of the guard is running. -/
  | busy (guard : Guard ι τ σ) :
      (∀ request, guard.run = some request → request.session.context.guards = {}) →
      Sole { guards := ⟨some guard.operation⟩, alive := [guard] }

variable {site after : Site ι τ σ}

/-- Guards of which one was granted are those of the operation, and there were none before. -/
theorem eq_of_begin? {guards granted : Guards} {operation : Operation}
    (h : guards.begin? operation = some granted) : guards = {} ∧ granted = ⟨some operation⟩ := by
  obtain ⟨_ | running⟩ := guards
  · exact ⟨rfl, (Option.some.inj h).symm⟩
  · cases h

/-- A guard is granted if and only if none is alive. -/
theorem Sole.isSome_begin?_iff (h : site.Sole) (operation : Operation) :
    (site.guards.begin? operation).isSome ↔ site.alive = [] := by
  cases h with
  | idle => exact ⟨fun _ => rfl, fun _ => rfl⟩
  | busy => exact ⟨nofun, nofun⟩

theorem Sole.alive_eq_nil (h : site.Sole) {operation : Operation} {granted : Guards}
    (hgranted : site.guards.begin? operation = some granted) : site.alive = [] :=
  (h.isSome_begin?_iff operation).mp (hgranted ▸ rfl)

/-- A guard that is alive is the only one. -/
theorem Sole.eq_of_alive (h : site.Sole) {front back : List (Guard ι τ σ)} {guard : Guard ι τ σ}
    (halive : site.alive = front ++ guard :: back) :
    (front = [] ∧ back = []) ∧
      ∀ request, guard.run = some request → request.session.context.guards = {} := by
  cases h with
  | idle => simp at halive
  | @busy other hrun =>
    obtain ⟨rfl, hother⟩ | ⟨rest, -, hrest⟩ := List.append_eq_cons_iff.mp halive.symm
    · obtain ⟨rfl, rfl⟩ := List.cons.inj hother
      exact ⟨⟨rfl, rfl⟩, hrun⟩
    · simp at hrest

end Site

/-! ## Runs that were asked for -/

namespace Request

variable {r : Request τ σ}

/-- A run that is asked for while an operation is running is blocked, and does nothing. -/
theorem result_of_running (h : r.session.context.guards.begin? .configure = none) :
    r.result = ({ outcome := .blocked }, r.session) :=
  Equipment.configure_of_refused h

/-- A run that is asked for while nothing is running is granted its guard. It holds the guard for
all of its passes and has given it back when it returns, whatever its outcome. -/
theorem result_of_idle (h : r.session.context.guards = {}) :
    let guards : Guards := ⟨some .configure⟩
    let passed := r.equipment.pass r.clean 1 (Equipment.begun guards r.session)
    r.result.1.outcome ≠ .blocked ∧ passed.2.context.guards = guards ∧
      r.result = Equipment.settle passed.1 passed.2 ∧ r.result.2.context.guards = {} := by
  intro guards passed
  have hgranted : r.session.context.guards.begin? .configure = some guards := by
    rw [h]
    rfl
  have hresult : r.result = Equipment.settle passed.1 passed.2 :=
    Equipment.configure_of_granted hgranted
  refine ⟨fun hblocked => ?_, Equipment.guards_pass .., hresult, ?_⟩
  · have hrefused := Equipment.blocked_iff.mp hblocked
    rw [hgranted] at hrefused
    cases hrefused
  · rw [hresult]
    rfl

end Request

namespace Site

variable {site after : Site ι τ σ}

/-! ## Courses of events keep the invariant -/

/-- Whatever happens next, at most one guard is alive, and its operation is running. -/
theorem Sole.moves (h : site.Sole) {event : Event ι τ σ} (hmoves : site.Moves event after) :
    after.Sole := by
  cases hmoves with
  | @granted client operation _ hgranted =>
    -- A guard is granted only if none is alive, so the new one is alone.
    obtain ⟨-, rfl⟩ := eq_of_begin? hgranted
    rw [h.alive_eq_nil hgranted]
    exact .busy { owner := client, operation } fun _ hnone => by cases hnone
  | refused => exact h
  | dropped halive =>
    -- The guard that is dropped is the one whose operation is running.
    obtain ⟨⟨rfl, rfl⟩, -⟩ := h.eq_of_alive halive
    exact .idle
  | @entered client request _ hsession hgranted =>
    obtain ⟨hidle, rfl⟩ := eq_of_begin? hgranted
    rw [h.alive_eq_nil hgranted]
    refine .busy { owner := client, operation := .configure, run := some request }
      fun _ hother => ?_
    obtain rfl := Option.some.inj hother
    rw [hsession, hidle]
  | @blocked _ request hsession hrefused =>
    -- A run that is blocked leaves the guards as it found them.
    rw [← hsession] at hrefused
    rw [Request.result_of_running hrefused, hsession]
    exact h
  | returned halive hrun =>
    obtain ⟨⟨rfl, rfl⟩, hidle⟩ := h.eq_of_alive halive
    obtain ⟨-, -, -, hreleased⟩ := Request.result_of_idle (hidle _ hrun)
    rw [hreleased]
    exact .idle

/-- At most one guard is alive after any course of events, and its operation is running. -/
theorem Reached.sole (h : Reached site) : site.Sole := by
  -- The induction is on the events; none has happened in the beginning.
  induction h with
  | refl => exact .idle
  | tail _ hmoves ih =>
    obtain ⟨event, hmoves⟩ := hmoves
    exact ih.moves hmoves

/-- One operation runs at a time, whatever the clients have done and in which order. There is at
most one guard alive, and what is running is its operation. A guard is granted exactly if none is
alive. A run that is asked for while a guard is alive is blocked: its report is empty, and the
session and the guards stay as they were. A run that is asked for otherwise is not blocked, and has
held its guard for all of its passes; when a run returns that was granted its guard, no guard is
left and nothing is running. -/
theorem exclusive (h : Reached site) :
    site.alive.length ≤ 1 ∧ site.guards.running = site.alive.head?.map Guard.operation ∧
    (∀ operation, (site.guards.begin? operation).isSome ↔ site.alive = []) ∧
    (∀ client request after, site.Moves (.called client request) after →
      if site.alive = [] then
        request.result.1.outcome ≠ .blocked ∧
        let guards : Guards := ⟨some .configure⟩
        let passed :=
          request.equipment.pass request.clean 1 (Equipment.begun guards request.session)
        request.result = Equipment.settle passed.1 passed.2 ∧ passed.2.context.guards = guards
      else request.result = ({ outcome := .blocked }, request.session) ∧ after = site) ∧
    ∀ guard request after, site.Moves (.returned guard request) after →
      request.result.1.outcome ≠ .blocked ∧ after = {} := by
  have hsole := h.sole
  -- Everything comes from there being one guard at most, which every event keeps.
  refine ⟨?_, ?_, hsole.isSome_begin?_iff, ?_, ?_⟩
  · cases hsole <;> simp
  · cases hsole <;> rfl
  · intro client request after hcalled
    cases hcalled with
    | @entered _ _ _ hsession hgranted =>
      rw [if_pos (hsole.alive_eq_nil hgranted)]
      obtain ⟨hidle, -⟩ := eq_of_begin? hgranted
      obtain ⟨hrun, hheld, hresult, -⟩ := Request.result_of_idle (hsession.trans hidle)
      exact ⟨hrun, hresult, hheld⟩
    | blocked hsession hrefused =>
      have halive : ¬ site.alive = [] := by
        rw [← hsole.isSome_begin?_iff .configure, hrefused]
        exact nofun
      have hresult := Request.result_of_running (hsession.symm ▸ hrefused)
      rw [if_neg halive, hresult, hsession]
      exact ⟨rfl, rfl⟩
  · intro guard request after hreturned
    cases hreturned with
    | returned halive hrun =>
      obtain ⟨⟨rfl, rfl⟩, hidle⟩ := hsole.eq_of_alive halive
      obtain ⟨hrun, -, -, hreleased⟩ := Request.result_of_idle (hidle _ hrun)
      exact ⟨hrun, by rw [hreleased]; rfl⟩

/-- A run on a machine that has no build tool, asked for over the guards. -/
def vain (guards : Guards) : Request Unit Unit where
  equipment :=
    { settings := {}
      root := ⟨"/w"⟩
      runTool := fun command _ tree tool =>
        (⟨[], false, .error (.notFound command.program)⟩, tree, tool)
      search := fun _ _ => none
      sink := ⟨fun _ _ sink tree => (.ok (), sink, tree)⟩ }
  clean := true
  session := { context := { guards }, files := {}, tool := (), sink := () }

/-- The first client builds. -/
def building : Site (Fin 2) Unit Unit where
  guards := ⟨some .build⟩
  alive := [{ owner := 0, operation := .build }]

/-- The second client has begun a run. -/
def running : Site (Fin 2) Unit Unit where
  guards := ⟨some .configure⟩
  alive := [{ owner := 1, operation := .configure, run := some (vain {}) }]

/-- A run that the second client asks for during the build of the first one is blocked. When the
build is over it asks again; the run does not find the build tool and has given back its guard. -/
theorem exclusive_building :
    (building.Reached ∧ (vain building.guards).result.1 = { outcome := .blocked }) ∧
      (running.Reached ∧ (running.guards.begin? .build).isNone) ∧
      (vain {}).result.1.entries.getLast? = some ⟨.obtainTrace, .notFound⟩ ∧
      (vain {}).result.2.context.guards = {} := by
  have hbuilding : building.Reached := .single ⟨.asked 0 .build, .granted rfl⟩
  have hdropped : building.Moves (.dropped { owner := 0, operation := .build }) {} :=
    @Moves.dropped _ _ _ building [] [] _ rfl rfl
  have hended : Reached ({} : Site (Fin 2) Unit Unit) := hbuilding.tail ⟨_, hdropped⟩
  have hrunning : running.Reached := hended.tail ⟨.called 1 (vain {}), .entered rfl rfl⟩
  obtain ⟨-, -, -, hcalled, -⟩ := exclusive hbuilding
  obtain ⟨hblocked, -⟩ := hcalled 1 (vain building.guards) _ (.blocked rfl rfl)
  obtain ⟨-, -, hgranted, -, hreturned⟩ := exclusive hrunning
  obtain ⟨-, hreleased⟩ := hreturned _ (vain {}) _ (@Moves.returned _ _ _ running [] [] _ _ rfl rfl)
  refine ⟨⟨hbuilding, congrArg Prod.fst hblocked⟩, ⟨hrunning, ?_⟩, ?_, ?_⟩
  · rw [Option.isNone_iff_eq_none, ← Option.not_isSome_iff_eq_none, hgranted]
    exact nofun
  · decide +kernel
  · exact congrArg guards hreleased

end Site

end BuildTrace.Configure
