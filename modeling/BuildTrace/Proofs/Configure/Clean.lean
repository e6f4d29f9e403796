import BuildTrace.Proofs.Configure.Findings

/-!
# Clean runs in which all goes well

A clean run in which nothing goes wrong, but perhaps the loading of an earlier snapshot, comes to
what is to be expected of the selections and of the files it sees. It may find out that the selected
build target is gone; then the second pass begins with the files the first one has left.

## Main results

* `Equipment.Surveyed.succeeds`: the stages of a survey in which all goes well;
* `Equipment.Surveyed.finds` and `Equipment.Explored.finds`: what a pass and both passes come to;
* `Equipment.configure_finds`: a clean run comes to `cleanRun`;
* `Equipment.configure_keeps`: what a run has kept is the snapshot it ends with.
-/

namespace BuildTrace.Configure

open FileTree (AgreeOutside Clear)

variable {τ σ α : Type}

namespace Equipment

variable {e : Equipment τ σ} {run : Command → Command.Run} {hidden : Place → Prop}
  {files : FileTree} {s t : Session τ σ}

/-! ## Passes in which all goes well -/

/-- If all went well so far, the stage has succeeded. -/
theorem exists_ok {which : Subphase} {action : Action τ σ α} {result : Except Outcome α}
    (hstage : e.Stage α which action) (hne : which ≠ .loadFromCache)
    (heq : e.subphase which action s = (result, t)) (h : AllWell t.report.entries) :
    ∃ value, result = .ok value := by
  have hentries := entries_stage hstage s
  rw [heq] at hentries
  have hsuccess := h ⟨which, outcomeOf result⟩ (by rw [hentries]; simp) hne
  cases result with
  | ok value => exact ⟨value, rfl⟩
  | error outcome =>
    -- The entry of the stage is not that of a success.
    obtain ⟨problem, -, rfl⟩ := exists_problem (congrArg Prod.fst heq)
    exact absurd hsuccess problem.outcome_ne.1

/-- A survey in which all goes well goes through its stages with success. It ends with the launch
targets if the build targets are known. -/
theorem Surveyed.succeeds {clean : Bool} {mode : UpdateMode}
    {result : Except Outcome (Outcome × Bool)} (h : e.Surveyed clean mode s result t)
    (hwell : AllWell t.report.entries) :
    ∃ raw r trace u v w,
      e.subphase .obtainTrace (e.obtainTrace clean) s = (.ok raw, r) ∧
      e.subphase .preprocess (e.preprocess raw) r = (.ok trace, u) ∧
      e.subphase .parseForConfiguration (e.parseForConfiguration trace mode) (counted trace u)
        = (.ok (), v) ∧
      e.subphase .parseForLaunchTargets (e.parseForLaunchTargets trace mode) v = (.ok (), w) ∧
      ((clean || w.context.snapshot.buildTargets.isEmpty) = false ∧ t = w ∧
          result = .ok (.success, false) ∨
        (clean || w.context.snapshot.buildTargets.isEmpty) = true ∧ ∃ vanished,
          e.subphase .parseForBuildTargets (e.parseForBuildTargets mode) w = (.ok vanished, t) ∧
            result = .ok (.success, vanished)) := by
  cases h with
  -- A stage that ends a survey is no success.
  | untraced hobtain =>
    obtain ⟨_, hok⟩ := exists_ok (.obtainTrace clean) nofun hobtain hwell
    cases hok
  | unprepared _ hprepare =>
    obtain ⟨_, hok⟩ := exists_ok (.preprocess _) nofun hprepare hwell
    cases hok
  | unconfigured _ _ hconfigure =>
    obtain ⟨_, hok⟩ := exists_ok (.parseForConfiguration _ _) nofun hconfigure hwell
    cases hok
  | unlaunched _ _ _ _ hlaunch =>
    obtain ⟨_, hok⟩ := exists_ok (.parseForLaunchTargets _ _) nofun hlaunch hwell
    cases hok
  | unbuilt _ _ _ _ _ _ _ hbuild =>
    obtain ⟨_, hok⟩ := exists_ok (.parseForBuildTargets _) nofun hbuild hwell
    cases hok
  | @known _ _ _ _ _ v _ _ hobtain hprepare hconfigure _ hlaunch _ hknown =>
    have hwell' := hwell.of_continues
      ((across_continues e).stage_of_eq (.parseForLaunchTargets _ _) hlaunch)
    obtain ⟨⟨⟩, rfl⟩ := exists_ok (.parseForLaunchTargets _ _) nofun hlaunch hwell
    obtain ⟨⟨⟩, rfl⟩ := exists_ok (.parseForConfiguration _ _) nofun hconfigure hwell'
    exact ⟨_, _, _, _, v, t, hobtain, hprepare, hconfigure, hlaunch, .inl ⟨hknown, rfl, rfl⟩⟩
  | @built _ _ _ _ _ v _ w _ _ hobtain hprepare hconfigure _ hlaunch _ hlook hbuild _ =>
    have hwell' := hwell.of_continues
      ((across_continues e).stage_of_eq (.parseForBuildTargets _) hbuild)
    have hwell'' := hwell'.of_continues
      ((across_continues e).stage_of_eq (.parseForLaunchTargets _ _) hlaunch)
    obtain ⟨vanished, rfl⟩ := exists_ok (.parseForBuildTargets _) nofun hbuild hwell
    obtain ⟨⟨⟩, rfl⟩ := exists_ok (.parseForLaunchTargets _ _) nofun hlaunch hwell'
    obtain ⟨⟨⟩, rfl⟩ := exists_ok (.parseForConfiguration _ _) nofun hconfigure hwell''
    exact ⟨_, _, _, _, v, w, hobtain, hprepare, hconfigure, hlaunch,
      .inr ⟨hlook, vanished, hbuild, rfl⟩⟩

/-- The changes of a clean pass leave nothing of the earlier snapshot. -/
theorem gist_changes (c : Context) (units : List CompileUnit) (targets : List LaunchTarget)
    (names : List String) :
    let configured := (Change.configured (.ofUnits units) .replace).apply c
    let launched := (Change.launched targets .replace).apply configured
    let snapshot : Snapshot :=
      { configuration := .ofUnits units
        launchTargets := targets
        buildTargets := sortNames names }
    ((Change.built names .replace).apply launched).gist =
      { snapshot
        buildTarget := c.buildTarget.filter snapshot.hasBuildTarget
        launchTarget := c.launchTarget.filter snapshot.hasLaunchTarget } := by
  have hconfiguration : c.snapshot.configuration.update (.ofUnits units) .replace
      = .ofUnits units := Configuration.update_replace_ofUnits units
  dsimp only [Change.apply, Context.gist]
  rw [hconfiguration]
  rfl

/-- The changes of a clean pass come to what is found in the trace, over whichever of the trees that
agree it is read. -/
theorem gist_of_agree {first second : FileTree} (hfirst : AgreeOutside hidden files first)
    (hsecond : AgreeOutside hidden files second) {c : Context} {raw : String}
    (hoverlooks : e.Overlooks hidden files.start (e.foundIn run c raw files)) :
    let trace := Command.normal raw
    let dump := (run ⟨e.settings.make.program, e.databaseArguments, e.root⟩).text
    let configured := (Change.configured (.ofUnits (e.unitsIn first trace)) .replace).apply c
    let launched :=
      (Change.launched ((e.launchExtractor second).targetsIn trace) .replace).apply configured
    ((Change.built (BuildTarget.namesIn dump) .replace).apply launched).gist
      = (e.foundIn run c raw files).context := by
  rw [foundIn] at hoverlooks ⊢
  dsimp only
  generalize Command.normal raw = trace at hoverlooks ⊢
  have hunits : e.unitsIn first trace = e.unitsIn files trace :=
    unitsIn_congr (fun name hname => hoverlooks.searched name hname files first rfl hfirst)
      fun p hp => hfirst.isFile_eq (hoverlooks.asked p hp)
  have htargets : (e.launchExtractor second).targetsIn trace
      = (e.launchExtractor files).targetsIn trace :=
    targetsIn_congr fun p hp => hsecond.isFile_eq (hoverlooks.asked p hp)
  rw [gist_changes, hunits, htargets]

/-- A survey in which all goes well comes to what a clean pass comes to. -/
theorem Surveyed.finds (hblind : e.Blind run hidden files)
    (hsees : e.Sees hidden files s)
    (hoverlooks : e.Overlooks hidden files.start (e.cleanPass run s.context files))
    {result : Except Outcome (Outcome × Bool)} (hsurvey : e.Surveyed true .replace s result t)
    (hwell : AllWell t.report.entries) :
    let pass := e.cleanPass run s.context files
    t.context.gist = pass.context ∧ e.Sees hidden pass.files t ∧
      ∃ outcome, result
        = .ok (outcome, s.context.buildTarget.isSome && pass.context.buildTarget.isNone) := by
  obtain ⟨raw, r, trace, u, v, w, hobtain, hprepare, hconfigure, hlaunch, hend⟩ :=
    hsurvey.succeeds hwell
  rw [Bool.true_or] at hend
  -- A clean survey always reads the build targets.
  obtain ⟨⟨⟩, -⟩ | ⟨-, vanished, hbuild, rfl⟩ := hend
  obtain ⟨hraw, hrsees, hrcontext⟩ := obtainTrace_ok hblind hsees hobtain
  obtain ⟨htrace, halike, hucontext⟩ := preprocess_ok hprepare
  have husees : e.Sees hidden (e.traced run s.context.buildTarget files).2 (counted trace u) :=
    (hrsees.of_alike halike).of_alike ⟨rfl, rfl, rfl⟩
  have hscontext : (counted trace u).context = s.context := hucontext.trans hrcontext
  obtain ⟨hvcontext, hvsees⟩ := parseForConfiguration_ok hconfigure
  have hvsees := hvsees husees
  obtain ⟨hwcontext, hwfiles, hwsink⟩ := parseForLaunchTargets_ok hlaunch
  obtain ⟨htcontext, ⟨⟨_, _, htfiles⟩, htsink⟩, hvanished⟩ :=
    parseForBuildTargets_ok hblind.tool hbuild
  rw [hblind.spares] at htfiles
  have hselected : w.context.buildTarget = s.context.buildTarget := by
    rw [hwcontext, hvcontext, hscontext]
    rfl
  -- The trace may have been copied to a hidden file; the directories that are not hidden stay.
  have hretains : FileTree.Retains hidden files (e.traced run s.context.buildTarget files).2 :=
    e.retains_traced run s.context.buildTarget files
  rw [← hretains.start] at hoverlooks
  rw [cleanPass] at hoverlooks ⊢
  dsimp only at hoverlooks ⊢
  rw [← hraw] at hoverlooks ⊢
  generalize (e.traced run s.context.buildTarget files).2 = after at hoverlooks husees hvsees ⊢
  have hgist : t.context.gist = (e.foundIn run s.context raw after).context := by
    rw [htcontext, hwcontext, hvcontext, hscontext, htrace]
    rw [htrace] at husees
    exact gist_of_agree husees.agree hvsees.agree hoverlooks
  refine ⟨hgist, ⟨?_, ?_⟩, ?_⟩
  · rw [htfiles, hwfiles]
    exact hvsees.agree
  · rw [htsink, hwsink]
    exact hvsees.confined
  · rw [hvanished, hselected, ← hgist]
    exact ⟨_, rfl⟩

/-! ## Runs in which all goes well -/

/-- A pass looks at nothing of the context but the selections. -/
theorem cleanPass_congr {c d : Context} (hbuild : d.buildTarget = c.buildTarget)
    (hlaunch : d.launchTarget = c.launchTarget) :
    e.cleanPass run d files = e.cleanPass run c files := by
  rw [cleanPass, cleanPass, foundIn, foundIn, hbuild, hlaunch]

/-- So does a run. -/
theorem cleanRun_congr {c d : Context} (hbuild : d.buildTarget = c.buildTarget)
    (hlaunch : d.launchTarget = c.launchTarget) :
    e.cleanRun run d files = e.cleanRun run c files := by
  rw [cleanRun, cleanRun, cleanPass_congr hbuild hlaunch, hbuild]

/-- A survey of a session that sees the files comes to what a clean pass comes to. -/
theorem survey_finds (hblind : e.Blind run hidden files) (hsees : e.Sees hidden files s)
    (hoverlooks : e.Overlooks hidden files.start (e.cleanPass run s.context files))
    {result : Except Outcome (Outcome × Bool)} (hsurvey : e.survey true s = (result, t))
    (hwell : AllWell t.report.entries) :
    let pass := e.cleanPass run s.context files
    t.context.gist = pass.context ∧ e.Sees hidden pass.files t ∧
      ∃ outcome, result
        = .ok (outcome, s.context.buildTarget.isSome && pass.context.buildTarget.isNone) := by
  -- A survey begins with empty statistics and with the cache, if that was not tried before.
  have hbegun : e.Sees hidden files { s with statistics := {} } := ⟨hsees.agree, hsees.confined⟩
  obtain ⟨hbuild, hlaunch, hloaded⟩ := loadOnce_sees hbegun
  have hsurveyed := e.surveyed true s
  rw [hsurvey] at hsurveyed
  generalize e.loadOnce { s with statistics := {} } = loaded at hbuild hlaunch hloaded hsurveyed
  have hpass : e.cleanPass run loaded.context files = e.cleanPass run s.context files :=
    cleanPass_congr hbuild hlaunch
  rw [← hpass] at hoverlooks ⊢
  have hfinds := hsurveyed.finds hblind hloaded hoverlooks hwell
  rwa [hbuild] at hfinds

/-- A second pass looks at no other places than the run. -/
theorem Overlooks.parts {start : Option Place} {first second : Findings}
    (h : e.Overlooks hidden start
      { second with
        asked := first.asked ++ second.asked
        searched := first.searched ++ second.searched }) :
    e.Overlooks hidden start first ∧ e.Overlooks hidden start second := by
  refine ⟨⟨?_, ?_⟩, ⟨?_, ?_⟩⟩
  · exact fun p hp => h.asked p (List.mem_append_left _ hp)
  · exact fun name hname => h.searched name (List.mem_append_left _ hname)
  · exact fun p hp => h.asked p (List.mem_append_right _ hp)
  · exact fun name hname => h.searched name (List.mem_append_right _ hname)

/-- An exploration in which all goes well comes to what a clean run comes to. -/
theorem Explored.finds (hblind : e.Blind run hidden files) (hsees : e.Sees hidden files s)
    (hoverlooks : e.Overlooks hidden files.start (e.cleanRun run s.context files))
    {result : Except Outcome Outcome} (h : e.Explored true 1 s result t)
    (hwell : AllWell t.report.entries) :
    t.context.gist = (e.cleanRun run s.context files).context ∧
      ∃ outcome, result = .ok outcome := by
  have hfirst : e.Overlooks hidden files.start (e.cleanPass run s.context files) := by
    rw [cleanRun] at hoverlooks
    dsimp only at hoverlooks
    split at hoverlooks
    · exact hoverlooks.parts.1
    · exact hoverlooks
  rw [cleanRun] at hoverlooks ⊢
  dsimp only at hoverlooks ⊢
  cases h with
  | ended hsurvey =>
    obtain ⟨-, -, _, hok⟩ := survey_finds hblind hsees hfirst hsurvey hwell
    cases hok
  | complete hsurvey hlast =>
    obtain ⟨hgist, -, _, hok⟩ := survey_finds hblind hsees hfirst hsurvey hwell
    obtain ⟨rfl, rfl⟩ := Prod.mk.inj (Except.ok.inj hok)
    -- The exploration could begin again, so the selected build target is not gone.
    rw [if_neg fun hvanished => absurd (hlast hvanished) Nat.one_ne_zero]
    exact ⟨hgist, _, rfl⟩
  | @again _ _ _ u _ _ hsurvey hexplored =>
    have hcontinues := (across_continues e).of_explored hexplored
    obtain ⟨hgist, hafter, _, hok⟩ := survey_finds hblind hsees hfirst hsurvey
      (hwell.of_continues hcontinues)
    have hvanished := (congrArg Prod.snd (Except.ok.inj hok)).symm
    dsimp only at hvanished
    rw [if_pos hvanished] at hoverlooks ⊢
    -- The second pass begins where the first one has ended.
    obtain ⟨-, hsecond⟩ := hoverlooks.parts
    have hretains : FileTree.Retains hidden files (e.cleanPass run s.context files).files :=
      e.retains_traced run s.context.buildTarget files
    generalize e.cleanPass run s.context files = first at hsecond hgist hafter hretains ⊢
    have hcontext : ({ u with report := { u.report with reran := true } } : Session τ σ).context
        = u.context := rfl
    have hsees : e.Sees hidden first.files { u with report := { u.report with reran := true } } :=
      hafter.of_alike ⟨rfl, rfl, rfl⟩
    generalize ({ u with report := { u.report with reran := true } } : Session τ σ) = v
      at hexplored hcontext hsees
    rw [← hcontext] at hgist
    have hbuild : v.context.buildTarget = first.context.buildTarget := hgist ▸ rfl
    have hlaunch : v.context.launchTarget = first.context.launchTarget := hgist ▸ rfl
    rw [← cleanPass_congr hbuild hlaunch] at hsecond ⊢
    rw [← hretains.start] at hsecond
    have hblind := hblind.of_retains hretains
    cases hexplored with
    | ended hsurvey =>
      obtain ⟨-, -, _, hok⟩ := survey_finds hblind hsees hsecond hsurvey hwell
      cases hok
    | complete hsurvey _ =>
      exact ⟨(survey_finds hblind hsees hsecond hsurvey hwell).1, _, rfl⟩

/-- A run that was not blocked explores the workspace, and takes the context from that. -/
theorem exists_explored {clean : Bool} (hrun : (e.configure clean s).1.outcome ≠ .blocked) :
    ∃ guards result t, e.explore clean 1 (begun guards s) = (result, t) ∧
      (e.configure clean s).2.context = { t.context with guards := t.context.guards.release } ∧
      (AllWell (e.configure clean s).1.entries → AllWell t.report.entries) := by
  have hconfigured := e.configured clean s
  generalize e.configure clean s = configured at hrun hconfigured ⊢
  cases hconfigured with
  | blocked => exact absurd rfl hrun
  | ended _ hexplore => exact ⟨_, _, _, hexplore, rfl, id⟩
  | cancelled _ hexplore _ => exact ⟨_, _, _, hexplore, rfl, id⟩
  | @persisted _ _ t _ u _ hexplore _ hpersist =>
    obtain ⟨-, -, hcontext⟩ := persist_cases hpersist
    refine ⟨_, _, t, hexplore, ?_, fun hwell entry hentry => hwell entry ?_⟩
    · rw [← hcontext]
      rfl
    -- Keeping the snapshot adds an entry.
    · have hentries := entries_persist (e := e) t
      rw [hpersist] at hentries
      exact hentries ▸ List.mem_append_left _ hentry

/-- A clean run that was not blocked and in which all went well comes to what is to be expected of
the files it sees and of the selections. -/
theorem configure_finds (hblind : e.Blind run hidden files) (hsees : e.Sees hidden files s)
    (hoverlooks : e.Overlooks hidden files.start (e.cleanRun run s.context files))
    (hrun : (e.configure true s).1.outcome ≠ .blocked)
    (hwell : AllWell (e.configure true s).1.entries) :
    (e.configure true s).2.context.gist = (e.cleanRun run s.context files).context := by
  obtain ⟨guards, result, t, hexplore, hends, hwell'⟩ := exists_explored hrun
  have hexplored := e.explored true 1 (begun guards s)
  have hbegun : e.Sees hidden files (begun guards s) := ⟨hsees.agree, hsees.confined⟩
  have hsame : e.cleanRun run (begun guards s).context files = e.cleanRun run s.context files :=
    cleanRun_congr rfl rfl
  rw [hexplore] at hexplored
  rw [← hsame] at hoverlooks ⊢
  obtain ⟨hgist, -⟩ := Explored.finds hblind hbegun hoverlooks hexplored (hwell' hwell)
  rw [hends, ← hgist]
  rfl

/-- What a run has kept is the snapshot it ends with. -/
theorem configure_keeps {clean : Bool}
    (h : ⟨.persist, .success⟩ ∈ (e.configure clean s).1.entries) :
    (e.configure clean s).2.files.readText? e.cachePath
      = some (e.configure clean s).2.context.snapshot.toJson.pretty := by
  have hconfigured := e.configured clean s
  generalize e.configure clean s = configured at h hconfigured ⊢
  cases hconfigured with
  | blocked => cases h
  | ended _ hexplore => exact absurd rfl (ne_persist_of_explore hexplore _ h)
  | cancelled _ hexplore => exact absurd rfl (ne_persist_of_explore hexplore _ h)
  | @persisted _ outcome t result u _ hexplore _ hpersist =>
    obtain rfl : result = .ok () := (mem_persist_iff hexplore hpersist).mp h
    have hread := read?_cache_of_persist hpersist
    rw [← (persist_cases hpersist).2.2] at hread
    exact Option.bind_eq_some_iff.mpr ⟨_, hread, rfl⟩

end Equipment

end BuildTrace.Configure
