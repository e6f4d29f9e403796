import BuildTrace.Proofs.Configure.Effect

/-!
# What is noted in a run

Every subphase adds one entry to the report, and its outcome is that of what was done. Outcomes and
entries fit together: an exploration that ends a pass early was cancelled or has no trace.

## Main definitions

* `Session.Continues`: a session whose report goes on without the snapshot being kept;
* `Outcome.Lets`: an outcome with which a pass goes on;
* `Session.Heeds`: every moment at which the run was to be cancelled has cancelled it.

## Main results

* `Equipment.entries_stage`: the entry a stage adds;
* `Equipment.Explored.error_cases` and `Equipment.Explored.lets`: the outcomes of an exploration;
* `Equipment.across_continues`: the snapshot is not kept in an exploration;
* `Equipment.across_cancelled` and `Equipment.across_heeds`: an exploration is cancelled at every
  moment at which it is to be, and stays so.
-/

namespace BuildTrace.Configure

variable {τ σ α : Type}

/-! ## Outcomes -/

/-- No problem is a success, and none is due to another operation. -/
theorem Problem.outcome_ne (problem : Problem) :
    problem.outcome ≠ .success ∧ problem.outcome ≠ .blocked := by
  unfold Problem.outcome
  split <;> exact ⟨nofun, nofun⟩

/-- A pass goes on with the outcome: it was not cancelled, and not refused either. -/
def Outcome.Lets (outcome : Outcome) : Prop := outcome ≠ .cancelled ∧ outcome ≠ .blocked

theorem Outcome.Lets.andThen {current next : Outcome} (hcurrent : current.Lets)
    (hnext : next.Lets) : (current.andThen next).Lets := by
  rw [Outcome.andThen]
  split
  · exact hnext
  · exact hcurrent

namespace Equipment

variable {e : Equipment τ σ}

/-! ## Subphases -/

/-- A subphase is what is done in it, with the result noted. -/
theorem subphase_eq (e : Equipment τ σ) (which : Subphase) (action : Action τ σ α)
    (s : Session τ σ) :
    let acted := action (e.tell (.status which) s)
    let result := acted.1.mapError Problem.outcome
    let entries := acted.2.report.entries ++ [⟨which, outcomeOf result⟩]
    e.subphase which action s =
      (result, e.tell .increment { acted.2 with report := { acted.2.report with entries } }) := by
  rw [subphase]

theorem subphase_fst (e : Equipment τ σ) (which : Subphase) (action : Action τ σ α)
    (s : Session τ σ) : (e.subphase which action s).1
      = (action (e.tell (.status which) s)).1.mapError Problem.outcome := by
  rw [subphase_eq]

/-- A subphase fails with the outcome of a problem. -/
theorem exists_problem {which : Subphase} {action : Action τ σ α} {s : Session τ σ}
    {outcome : Outcome} (h : (e.subphase which action s).1 = .error outcome) :
    ∃ problem, (action (e.tell (.status which) s)).1 = .error problem ∧
      problem.outcome = outcome := by
  rw [subphase_fst] at h
  cases hresult : (action (e.tell (.status which) s)).1 with
  | ok value =>
    rw [hresult] at h
    cases h
  | error problem =>
    rw [hresult] at h
    exact ⟨problem, rfl, Except.error.inj h⟩

/-- A subphase that was not cancelled lets the pass go on. -/
theorem lets_subphase {which : Subphase} {action : Action τ σ α} {s t : Session τ σ}
    {result : Except Outcome α} (h : e.subphase which action s = (result, t))
    (hne : result ≠ .error .cancelled) : (outcomeOf result).Lets := by
  cases result with
  | ok value => exact ⟨nofun, nofun⟩
  | error outcome =>
    obtain ⟨problem, _, rfl⟩ := exists_problem (congrArg Prod.fst h)
    exact ⟨fun heq => hne (congrArg Except.error heq), problem.outcome_ne.2⟩

/-- What is done without touching the report adds one entry. -/
theorem entries_subphase {which : Subphase} {action : Action τ σ α}
    (haction : ∀ s, (action s).2.report = s.report) (s : Session τ σ) :
    (e.subphase which action s).2.report.entries
      = s.report.entries ++ [⟨which, outcomeOf (e.subphase which action s).1⟩] := by
  rw [subphase_eq]
  simp only [tell, haction]

theorem entries_stage {which : Subphase} {action : Action τ σ α} (h : e.Stage α which action)
    (s : Session τ σ) :
    (e.subphase which action s).2.report.entries
      = s.report.entries ++ [⟨which, outcomeOf (e.subphase which action s).1⟩] :=
  entries_subphase (fun s => (h.kept s).report) s

theorem entries_persist (s : Session τ σ) :
    (e.subphase .persist e.persist s).2.report.entries
      = s.report.entries ++ [⟨.persist, outcomeOf (e.subphase .persist e.persist s).1⟩] :=
  entries_subphase (fun s => by rw [persist_eq]) s

end Equipment

/-! ## Entries of an exploration -/

/-- The report goes on, but the snapshot is not kept. -/
def Session.Continues (s t : Session τ σ) : Prop :=
  ∃ more, t.report.entries = s.report.entries ++ more ∧ ∀ entry ∈ more, entry.subphase ≠ .persist

namespace Equipment

variable {e : Equipment τ σ}

theorem across_continues (e : Equipment τ σ) : e.Across Session.Continues where
  refl s := ⟨[], (List.append_nil _).symm, nofun⟩
  trans := by
    rintro s t u ⟨more, hmore, hne⟩ ⟨more', hmore', hne'⟩
    refine ⟨more ++ more', by rw [hmore', hmore, List.append_assoc], ?_⟩
    intro entry hentry
    exact (List.mem_append.mp hentry).elim (hne entry) (hne' entry)
  count s _ := ⟨[], (List.append_nil _).symm, nofun⟩
  tried s := ⟨[], (List.append_nil _).symm, nofun⟩
  reran s := ⟨[], (List.append_nil _).symm, nofun⟩
  stage hstage s := by
    refine ⟨_, entries_stage hstage s, ?_⟩
    intro entry hentry
    obtain rfl := List.mem_singleton.mp hentry
    exact hstage.ne_persist

/-- A survey that ends the pass was cancelled, or there is no trace for another reason. -/
theorem Surveyed.error_cases {clean : Bool} {mode : UpdateMode} {s t : Session τ σ}
    {result : Except Outcome (Outcome × Bool)} (h : e.Surveyed clean mode s result t)
    {outcome : Outcome} (hresult : result = .error outcome) :
    outcome = .cancelled ∨
      (outcome ≠ .success ∧ outcome ≠ .blocked ∧
        ⟨.obtainTrace, outcome⟩ ∈ t.report.entries) := by
  cases h with
  | untraced hobtain =>
    cases hresult
    obtain ⟨problem, _, hproblem⟩ := exists_problem (congrArg Prod.fst hobtain)
    have hentries := entries_stage (.obtainTrace (e := e) clean) s
    rw [hobtain] at hentries
    rw [hentries, ← hproblem]
    exact .inr ⟨problem.outcome_ne.1, problem.outcome_ne.2,
      List.mem_append_right _ (List.mem_singleton_self _)⟩
  | unprepared _ hprepare =>
    cases hresult
    obtain ⟨problem, hproblem, rfl⟩ := exists_problem (congrArg Prod.fst hprepare)
    -- Preparing the trace fails by cancellation only.
    obtain rfl := preprocess_error hproblem
    exact .inl rfl
  -- These stages end a survey by cancellation only.
  | unconfigured | unlaunched | unbuilt =>
    cases hresult
    exact .inl rfl
  | known | built => cases hresult

/-- A survey after which the pass goes on was neither cancelled nor refused. -/
theorem Surveyed.lets {clean : Bool} {mode : UpdateMode} {s t : Session τ σ}
    {result : Except Outcome (Outcome × Bool)} (h : e.Surveyed clean mode s result t)
    {outcome : Outcome} {vanished : Bool} (hresult : result = .ok (outcome, vanished)) :
    outcome.Lets := by
  cases h with
  | untraced | unprepared | unconfigured | unlaunched | unbuilt => cases hresult
  | known _ _ hconfigure hconfigured hlaunch hlaunched _ =>
    cases hresult
    exact (lets_subphase hconfigure hconfigured).andThen (lets_subphase hlaunch hlaunched)
  | built _ _ hconfigure hconfigured hlaunch hlaunched _ hbuild hbuilt =>
    cases hresult
    exact ((lets_subphase hconfigure hconfigured).andThen
      (lets_subphase hlaunch hlaunched)).andThen (lets_subphase hbuild hbuilt)

/-- An exploration that ends the pass was cancelled, or there is no trace for another reason. -/
theorem Explored.error_cases {clean : Bool} {reruns : Nat} {s t : Session τ σ}
    {result : Except Outcome Outcome} (h : e.Explored clean reruns s result t)
    {outcome : Outcome} (hresult : result = .error outcome) :
    outcome = .cancelled ∨
      (outcome ≠ .success ∧ outcome ≠ .blocked ∧
        ⟨.obtainTrace, outcome⟩ ∈ t.report.entries) := by
  induction h with
  | @ended _ s _ _ hsurvey =>
    cases hresult
    have hsurveyed := e.surveyed clean s
    rw [hsurvey] at hsurveyed
    exact hsurveyed.error_cases rfl
  | complete => cases hresult
  | again _ _ ih => exact ih hresult

/-- An exploration after which the pass goes on was neither cancelled nor refused. -/
theorem Explored.lets {clean : Bool} {reruns : Nat} {s t : Session τ σ}
    {result : Except Outcome Outcome} (h : e.Explored clean reruns s result t)
    {outcome : Outcome} (hresult : result = .ok outcome) : outcome.Lets := by
  induction h with
  | ended => cases hresult
  | @complete _ s _ _ _ hsurvey _ =>
    cases hresult
    have hsurveyed := e.surveyed clean s
    rw [hsurvey] at hsurveyed
    exact hsurveyed.lets rfl
  | again _ _ ih => exact ih hresult

end Equipment

/-! ## Moments of cancellation -/

/-- Every moment so far at which the run was to be cancelled has cancelled it: whenever the
observer was told something, and whenever an executable was searched. -/
structure Session.Heeds (e : Equipment τ σ) (s : Session τ σ) : Prop where
  /-- What the observer was told. -/
  report : ∀ count, count < s.progress.length →
    e.interrupts (.report (count + 1)) = true → s.cancelled = true
  /-- The searches for executables. -/
  lookup : ∀ count, count < s.lookups →
    e.interrupts (.lookup (count + 1)) = true → s.cancelled = true

namespace Equipment

variable {e : Equipment τ σ}

theorem cancelled_tell {s : Session τ σ} (p : Progress) (h : s.cancelled = true) :
    (e.tell p s).cancelled = true := by
  simp [tell, h]

theorem heeds_tell {s : Session τ σ} (p : Progress) (h : s.Heeds e) : (e.tell p s).Heeds e where
  report count hcount hinterrupt := by
    simp only [tell, List.length_append, List.length_singleton] at hcount
    rcases Nat.lt_or_ge count s.progress.length with hlt | hge
    · exact cancelled_tell p (h.report count hlt hinterrupt)
    -- This is the moment the observer is told.
    · obtain rfl : count = s.progress.length := by omega
      simp [tell, hinterrupt]
  lookup count hcount hinterrupt := cancelled_tell p (h.lookup count hcount hinterrupt)

/-- What is done in a stage heeds the moments if the run has heeded them before. -/
theorem Kept.heeds {s t : Session τ σ} (h : e.Kept s t) (hs : s.Heeds e) : t.Heeds e where
  report count hcount hinterrupt := by
    rw [h.progress] at hcount
    exact h.cancelled (hs.report count hcount hinterrupt)
  lookup count hcount hinterrupt := by
    rcases Nat.lt_or_ge count s.lookups with hlt | hge
    · exact h.cancelled (hs.lookup count hlt hinterrupt)
    -- The search was made in the stage.
    · exact h.lookup count hge hcount hinterrupt

/-- A cancellation is not taken back in an exploration. -/
theorem across_cancelled (e : Equipment τ σ) :
    e.Across fun s t => s.cancelled = true → t.cancelled = true where
  refl _ := id
  trans h h' := h' ∘ h
  count _ _ := id
  tried _ := id
  reran _ := id
  stage {_ which action} hstage s hs := by
    have hacted := (hstage.kept (e.tell (.status which) s)).cancelled (cancelled_tell _ hs)
    rw [subphase_eq]
    exact cancelled_tell _ hacted

/-- An exploration heeds every moment at which the run is to be cancelled. -/
theorem across_heeds (e : Equipment τ σ) : e.Across fun s t => s.Heeds e → t.Heeds e where
  refl _ := id
  trans h h' := h' ∘ h
  count _ _ h := ⟨h.report, h.lookup⟩
  tried _ h := ⟨h.report, h.lookup⟩
  reran _ h := ⟨h.report, h.lookup⟩
  stage {_ which action} hstage s hs := by
    have hacted := (hstage.kept (e.tell (.status which) s)).heeds (heeds_tell _ hs)
    rw [subphase_eq]
    exact heeds_tell _ ⟨hacted.report, hacted.lookup⟩

end Equipment

end BuildTrace.Configure
