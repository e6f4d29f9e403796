import BuildTrace.Proofs.Configure.Life
import BuildTrace.Proofs.Store.File

/-!
# Deliveries to the sink

Whatever a run finds out about the configuration goes to the sink before it goes to the snapshot.
This module proves that the two never drift apart: the pushes that the sink has taken during the
life of a context always come to the configuration of the snapshot, whatever was refused, cancelled
or found broken in between.

## Main definitions

* `Store.Pushes.result`: what a sequence of pushes comes to;
* `Store.Sink.recorded`: a sink that notes the pushes it takes;
* `recordedLife`: the life of a context over sinks that note the pushes they take.

## Main results

* `Equipment.synced_deliver`: handing over a configuration keeps both sides alike;
* `Equipment.synced_configure`: so does a whole run;
* `result_recordedLife`: the pushes taken in the life of a context come to the configuration of
  its snapshot.
-/

namespace BuildTrace

namespace Store

/-- Pushes to a sink, in order. -/
abbrev Pushes := List (Configuration × UpdateMode)

/-- What the pushes come to, from nothing: a replacing one forgets those before it, any other one
is added to them. -/
def Pushes.result (pushes : Pushes) : Configuration :=
  pushes.foldl (fun c push => c.update push.1 push.2) .empty

theorem Pushes.result_append (pushes : Pushes) (c : Configuration) (mode : UpdateMode) :
    result (pushes ++ [(c, mode)]) = pushes.result.update c mode := by
  rw [result, List.foldl_append]
  rfl

variable {σ : Type}

/-- The sink together with the pushes it takes. What it refuses is not noted. -/
def Sink.recorded (sink : Sink σ) : Sink (σ × Pushes) where
  push c mode s tree :=
    let (result, inner, tree) := sink.push c mode s.1 tree
    match result with
    | .ok () => (.ok (), (inner, s.2 ++ [(c, mode)]), tree)
    | .error error => (.error error, (inner, s.2), tree)

end Store

namespace Configure

open Store (Pushes)

variable {τ σ α : Type}

/-- The pushes that the sink has taken come to the configuration of the snapshot. -/
def Session.Synced (s : Session τ (σ × Pushes)) : Prop :=
  s.sink.2.result = s.context.snapshot.configuration

theorem Session.Alike.synced {s t : Session τ (σ × Pushes)} (h : s.Alike t) (hs : s.Synced) :
    t.Synced := by
  rw [Session.Synced, h.sink, h.snapshot]
  exact hs

namespace Equipment

/-- The equipment with a sink that notes the pushes it takes. -/
def recording (e : Equipment τ σ) : Equipment τ (σ × Pushes) where
  settings := e.settings
  root := e.root
  logFile := e.logFile
  sdkVersion := e.sdkVersion
  runTool := e.runTool
  search := e.search
  sink := e.sink.recorded
  interrupts := e.interrupts

variable {e : Equipment τ σ}

/-- Handing over a configuration keeps the sink and the snapshot alike if the snapshot is brought
up to date in the same way. -/
theorem synced_deliver (c : Configuration) (mode : UpdateMode)
    (accepted : Session τ (σ × Pushes) → Session τ (σ × Pushes))
    (hsink : ∀ s, (accepted s).sink = s.sink)
    (hsnapshot : ∀ s, (accepted s).context.snapshot.configuration
      = s.context.snapshot.configuration.update c mode)
    {s : Session τ (σ × Pushes)} (h : s.Synced) :
    (e.recording.deliver c mode accepted s).2.Synced := by
  rcases hpush : e.sink.push c mode s.sink.1 s.files with ⟨error | _, inner, tree⟩
  -- A refused push is not noted, and the snapshot stays.
  · have hrefused : e.recording.sink.push c mode s.sink s.files
        = (.error error, (inner, s.sink.2), tree) := by
      simp only [recording, Store.Sink.recorded, hpush]
    simp only [deliver, hrefused]
    exact h
  -- A push that is taken is noted, and the snapshot is brought up to date with it.
  · have htaken : e.recording.sink.push c mode s.sink s.files
        = (.ok (), (inner, s.sink.2 ++ [(c, mode)]), tree) := by
      simp only [recording, Store.Sink.recorded, hpush]
    simp only [deliver, htaken, Session.Synced, hsink, hsnapshot, Store.Pushes.result_append]
    rw [h]

/-- Whatever is done in a stage keeps the sink and the snapshot alike. -/
theorem effects_synced (e : Equipment τ σ) :
    e.recording.Effects fun s t => s.Synced → t.Synced where
  refl _ := id
  trans hst htu := htu ∘ hst
  run arguments s h := by
    rw [runForText_snd]
    exact h
  keep _ _ := id
  -- Searching executables and counting units do not touch the sink or the snapshot.
  scan trace s := (alike_scanUnits e.recording trace s).synced
  -- A loaded configuration is normal, so replacing by it comes to nothing but itself.
  load snapshot s hload h := by
    have hnormal : snapshot.configuration.Normal := (Store.Cache.sound_of_load hload).normal
    have hloaded : ∀ s : Session τ (σ × Pushes),
        (withLoaded snapshot s).context.snapshot.configuration
          = s.context.snapshot.configuration.update snapshot.configuration .replace :=
      fun _ => (Configuration.update_replace_of_normal hnormal).symm
    exact synced_deliver _ _ (withLoaded snapshot) (fun _ => rfl) hloaded h
  configure _ mode _ :=
    synced_deliver _ _ (withConfiguration _ mode) (fun _ => rfl) (fun _ => rfl)
  launch _ _ _ _ := id
  build _ _ _ _ := id

/-- A run keeps the sink and the snapshot alike, however it goes. -/
theorem synced_configure (clean : Bool) {s : Session τ (σ × Pushes)} (h : s.Synced) :
    (e.recording.configure clean s).2.Synced := by
  have hpersist : ∀ s : Session τ (σ × Pushes), s.Synced → (e.recording.persist s).2.Synced := by
    intro s hs
    rw [persist_eq]
    exact hs
  exact configure_rel (R := fun s t => s.Synced → t.Synced) (fun hst htu => htu ∘ hst)
    Session.Alike.synced e.effects_synced.stage hpersist clean s h

end Equipment

/-! ## Life -/

/-- The round with a sink that notes the pushes it takes behind those taken before. -/
def Round.recording (r : Round τ σ) (pushes : Pushes) : Round τ (σ × Pushes) where
  equipment := r.equipment.recording
  clean := r.clean
  files := r.files
  tool := r.tool
  sink := (r.sink, pushes)
  cancelled := r.cancelled
  buildTarget := r.buildTarget
  launchTarget := r.launchTarget
  guards := r.guards

/-- The context after the rounds, from a new one on, and all pushes that were taken. -/
def recordedLife (rounds : List (Round τ σ)) : Context × Pushes :=
  rounds.foldl
    (fun (context, pushes) r =>
      let session := ((r.recording pushes).run context).2
      (session.context, session.sink.2))
    ({}, [])

/-- The pushes taken in the life of a context come to the configuration of its snapshot. -/
theorem result_recordedLife (rounds : List (Round τ σ)) :
    (recordedLife rounds).2.result = (recordedLife rounds).1.snapshot.configuration := by
  -- The induction is on the rounds; the pushes and the context of earlier ones go into the next.
  have hfrom : ∀ context pushes, Pushes.result pushes = context.snapshot.configuration →
      let after := rounds.foldl
        (fun (context, pushes) r =>
          let session := ((r.recording pushes).run context).2
          (session.context, session.sink.2))
        (context, pushes)
      after.2.result = after.1.snapshot.configuration := by
    induction rounds with
    | nil => exact fun _ _ h => h
    | cons r rounds ih =>
      intro context pushes h
      have hstart : ((r.recording pushes).start context).Synced := h
      exact ih _ _ (Equipment.synced_configure r.clean hstart)
  exact hfrom {} [] rfl

end Configure

end BuildTrace
