import BuildTrace.Environment.Lookup
import BuildTrace.Proofs.Configure.Clean
import BuildTrace.Proofs.Configure.Pass

/-!
# Clean runs forget

What a clean run comes to does not depend on what was known before: neither on the snapshot of the
context, nor on the cache, nor on whether the cache was tried. That holds as long as the cache is
nothing but a cache: if the build log, a tool of the trace or the way to one of them is the file of
the cache, or if the run ends before the snapshot is kept, the past comes through.

## Main results

* `Equipment.configure_forgets`: two clean runs over the same selections, in which all went well and
  of which the files agree outside hidden places, end with the same snapshot, the same selections
  and the same cache;
* `Equipment.configure_remembers`: runs that do not forget.
-/

namespace BuildTrace

open FileTree (AgreeOutside Clear)

/-- A search for an executable sees the places only over which its candidates lead. -/
theorem Environment.Search.find?_eq_of_agree {s : Search} {hidden : Place → Prop}
    {tree other : FileTree} {name : String} (h : AgreeOutside hidden tree other)
    (hclear : ∀ p ∈ s.candidates name, Clear hidden tree.start p.components) :
    s.find? other name = s.find? tree name := by
  rw [find?, find?]
  generalize s.candidates name = candidates at hclear
  induction candidates with
  | nil => rfl
  | cons p candidates ih =>
    obtain ⟨hp, hcandidates⟩ := List.forall_mem_cons.mp hclear
    rw [List.find?_cons, List.find?_cons, h.isExecutable_eq hp, ih hcandidates]

namespace Configure

variable {τ σ : Type}

instance (entries : List Entry) : Decidable (AllWell entries) :=
  inferInstanceAs (Decidable (∀ entry ∈ entries, _ → _))

namespace Equipment

/-- A clean run forgets the past. If two sessions have the same selections and the same files, but
for hidden places such as the cache, which neither the way to the build log nor the ways to the
tools of the trace lead over, and if on both of them a clean run is not blocked and goes well, but
for the loading of an earlier snapshot, then both end with the same snapshot and the same
selections. If both have kept the snapshot, the caches have the same text. -/
theorem configure_forgets {e : Equipment τ σ} {run : Command → Command.Run}
    {hidden : Place → Prop} {s s' : Session τ σ} (hblind : e.Blind run hidden s.files)
    (hoverlooks : e.Overlooks hidden s.files.start (e.cleanRun run s.context s.files))
    (hsink : e.sink.Confined hidden s.files s.sink) (hsees : e.Sees hidden s.files s')
    (hbuild : s'.context.buildTarget = s.context.buildTarget)
    (hlaunch : s'.context.launchTarget = s.context.launchTarget)
    (hrun : (e.configure true s).1.outcome ≠ .blocked)
    (hrun' : (e.configure true s').1.outcome ≠ .blocked)
    (hwell : AllWell (e.configure true s).1.entries)
    (hwell' : AllWell (e.configure true s').1.entries) :
    let ends := e.configure true s
    let ends' := e.configure true s'
    (ends'.2.context.snapshot = ends.2.context.snapshot ∧
      ends'.2.context.buildTarget = ends.2.context.buildTarget ∧
      ends'.2.context.launchTarget = ends.2.context.launchTarget) ∧
    (⟨.persist, .success⟩ ∈ ends.1.entries → ⟨.persist, .success⟩ ∈ ends'.1.entries →
      ∃ text, ends.2.files.readText? e.cachePath = some text ∧
        ends'.2.files.readText? e.cachePath = some text) := by
  intro ends ends'
  -- Both runs come to what is to be expected of the selections and files of the first session.
  have hfinds := configure_finds hblind ⟨.refl s.files, hsink⟩ hoverlooks hrun hwell
  have hfinds' : ends'.2.context.gist = (e.cleanRun run s.context s.files).context := by
    rw [← cleanRun_congr hbuild hlaunch] at hoverlooks ⊢
    exact configure_finds hblind hsees hoverlooks hrun' hwell'
  have hgist : ends'.2.context.gist = ends.2.context.gist := hfinds'.trans hfinds.symm
  have hsnapshot : ends'.2.context.snapshot = ends.2.context.snapshot :=
    congrArg (fun c => c.snapshot) hgist
  refine ⟨⟨hsnapshot, ?_, ?_⟩, fun hkept hkept' => ?_⟩
  · exact congrArg (fun c => c.buildTarget) hgist
  · exact congrArg (fun c => c.launchTarget) hgist
  · refine ⟨_, configure_keeps hkept, ?_⟩
    rw [← hsnapshot]
    exact configure_keeps hkept'

/-- A run with entries in its report was not blocked. -/
theorem ne_blocked_of_entries {e : Equipment τ σ} {clean : Bool} {s : Session τ σ}
    (h : (e.configure clean s).1.entries ≠ []) : (e.configure clean s).1.outcome ≠ .blocked := by
  intro hblocked
  rw [configure_of_blocked hblocked] at h
  exact h rfl

/-- A build tool that prints a command that compiles and links, and has an empty database. -/
def printsLink (command : Command) : Command.Run :=
  let lines := if command.arguments.contains "--question" then [] else ["gcc a.c -o a"]
  ⟨lines.map (.output, ·), false, .ok ⟨some 0, false⟩⟩

/-- The search in `/bin`. -/
def searchBin : Environment.Search where
  searchPath := some "/bin"
  base := ⟨"/w"⟩

/-- A workspace in `/w` with this build tool. The configuration goes to the default file. -/
def linking : Equipment Unit Store.FileSink where
  settings := {}
  root := ⟨"/w"⟩
  runTool command _ tree tool := (printsLink command, tree, tool)
  search name tree := searchBin.find? tree name
  sink := Store.FileSink.sink

/-- The files of the workspace, with the text in the cache. -/
def withCache (text : String) : FileTree :=
  let files : FileTree :=
    { entries :=
        [(["bin"], .directory), (["bin", "gcc"], .file (.text "") true), (["w"], .directory),
          (["w", ".mktrace"], .directory)] }
  files.put ["w", ".mktrace", "cache.json"] (.file (.text text) false)

/-- The cache, the file of the configuration, and what is at the temporary file of the latter or
below. -/
def ownPlaces (place : Place) : Prop :=
  place = ["w", ".mktrace", "cache.json"] ∨ place = ["w", ".mktrace", "configuration.json"] ∨
    ["w", ".mktrace", "configuration.json.tmp"] <+: place

instance : DecidablePred ownPlaces := fun place =>
  inferInstanceAs (Decidable (place = _ ∨ place = _ ∨ _ <+: place))

/-- The first run in the life of a context with the build target `all`, in a workspace with a broken
cache. -/
def firstOver : Session Unit Store.FileSink where
  context := { buildTarget := some "all" }
  files := withCache "broken"
  tool := ()
  sink := ⟨⟨"/w/.mktrace/configuration.json"⟩, .empty⟩

/-- A later run over a context with the same build target, in which a snapshot is known, and with
another text in the cache. -/
def laterOver : Session Unit Store.FileSink :=
  { firstOver with
    context :=
      { buildTarget := some "all"
        snapshot := { buildTargets := ["all", "old"] }
        cacheTried := true
        loadedFromCache := true }
    files := withCache "other" }

/-- The cache and the file of the configuration are the only files of their own that the runs do not
see. -/
theorem sees_linking {s : Session Unit Store.FileSink} {text : String}
    (hfiles : s.files = withCache text)
    (hsink : s.sink.path = ⟨"/w/.mktrace/configuration.json"⟩) :
    linking.Sees ownPlaces (withCache "broken") s := by
  refine ⟨?_, Store.FileSink.confined ?_ ?_ ?_⟩
  · rw [hfiles]
    exact (FileTree.agree_put_hidden (.inl rfl) _).symm.trans
      (FileTree.agree_put_hidden (.inl rfl) _)
  · rw [hsink]
    decide +kernel
  · have hplace : (withCache "broken").destination? ⟨"/w/.mktrace/configuration.json"⟩
        = some ["w", ".mktrace", "configuration.json"] := by decide +kernel
    intro place h
    rw [hsink, hplace] at h
    exact .inr (.inl (Option.some.inj h).symm)
  · have hplace : (withCache "broken").destination?
        (Store.temporaryPath ⟨"/w/.mktrace/configuration.json"⟩)
          = some ["w", ".mktrace", "configuration.json.tmp"] := by decide +kernel
    intro origin place h hbelow
    rw [hsink, hplace] at h
    obtain rfl := Option.some.inj h
    exact .inr (.inr hbelow)

/-- The selected build target is gone, so there are two passes. -/
def twoPasses : List Entry := (surveyPlan ++ surveyPlan ++ [Subphase.persist]).map (⟨·, .success⟩)

theorem allWell_twoPasses : AllWell twoPasses := by decide

/-- The cache of the first context is broken, and the second context does not look at its own. -/
theorem configure_forgets_linking :
    ((linking.configure true firstOver).1.entries = ⟨.loadFromCache, .failed⟩ :: twoPasses ∧
      (linking.configure true laterOver).1.entries = twoPasses) ∧
    (linking.configure true laterOver).2.context.snapshot
      = (linking.configure true firstOver).2.context.snapshot ∧
    ∃ text, (linking.configure true firstOver).2.files.readText? linking.cachePath = some text ∧
      (linking.configure true laterOver).2.files.readText? linking.cachePath = some text := by
  have hentries : (linking.configure true firstOver).1.entries
      = ⟨.loadFromCache, .failed⟩ :: twoPasses := by decide +kernel
  have hentries' : (linking.configure true laterOver).1.entries = twoPasses := by decide +kernel
  -- The trace asks for `/w/gcc`, and the compiler is searched in `/bin`.
  have hasked : ∀ p ∈ (linking.cleanRun printsLink firstOver.context firstOver.files).asked,
      Clear ownPlaces none p.components := by decide +kernel
  have hsearched : ∀ name ∈
      (linking.cleanRun printsLink firstOver.context firstOver.files).searched,
      ∀ p ∈ searchBin.candidates name, Clear ownPlaces none p.components := by decide +kernel
  have hoverlooks : linking.Overlooks ownPlaces firstOver.files.start
      (linking.cleanRun printsLink firstOver.context firstOver.files) := by
    refine ⟨hasked, fun name hname tree other hstart hagree => ?_⟩
    exact Environment.Search.find?_eq_of_agree hagree (hstart ▸ hsearched name hname)
  have hblind : linking.Blind printsLink ownPlaces firstOver.files :=
    ⟨fun _ _ _ => rfl, fun _ _ _ => rfl, nofun, by decide +kernel⟩
  clear hasked hsearched
  have hsees : linking.Sees ownPlaces firstOver.files laterOver := sees_linking rfl rfl
  have hsink : linking.sink.Confined ownPlaces firstOver.files firstOver.sink :=
    (sees_linking rfl rfl : linking.Sees ownPlaces _ firstOver).confined
  have hrun : (linking.configure true firstOver).1.outcome ≠ .blocked :=
    ne_blocked_of_entries (by rw [hentries]; exact nofun)
  have hrun' : (linking.configure true laterOver).1.outcome ≠ .blocked :=
    ne_blocked_of_entries (by rw [hentries']; decide)
  have hwell : AllWell (linking.configure true firstOver).1.entries := by
    rw [hentries]
    decide
  have hwell' : AllWell (linking.configure true laterOver).1.entries := by
    rw [hentries']
    exact allWell_twoPasses
  have hforgets := configure_forgets hblind hoverlooks hsink hsees rfl rfl hrun hrun' hwell hwell'
  dsimp only at hforgets
  have hkept : ⟨.persist, .success⟩ ∈ (linking.configure true firstOver).1.entries := by
    rw [hentries]
    decide
  have hkept' : ⟨.persist, .success⟩ ∈ (linking.configure true laterOver).1.entries := by
    rw [hentries']
    decide
  exact ⟨⟨hentries, hentries'⟩, hforgets.1.1, hforgets.2 hkept hkept'⟩

/-- If on both sessions all goes well in a clean run, but for the loading of an earlier snapshot,
then the runs end with the same snapshot, the same selections and the same cache. -/
def Forgets (e : Equipment τ σ) (s s' : Session τ σ) : Prop :=
  AllWell (e.configure true s).1.entries → AllWell (e.configure true s').1.entries →
    (e.configure true s').2.context.gist = (e.configure true s).2.context.gist ∧
      (e.configure true s').2.files.readText? e.cachePath
        = (e.configure true s).2.files.readText? e.cachePath

instance (e : Equipment τ σ) (s s' : Session τ σ) : Decidable (e.Forgets s s') :=
  inferInstanceAs (Decidable (_ → _ → _ ∧ _))

/-- A workspace in `/w` whose dry run prints the lines. The sink takes everything. -/
def recalling (lines : List String) : Equipment Unit Unit where
  settings := {}
  root := ⟨"/w"⟩
  runTool command _ tree tool :=
    let printed := if command.arguments.contains "--question" then [] else lines
    (⟨printed.map (.output, ·), false, .ok ⟨some 0, false⟩⟩, tree, tool)
  search _ _ := none
  sink := ⟨fun _ _ sink tree => (.ok (), sink, tree)⟩

/-- The first run in the life of a context over the files. -/
def firstWith (files : FileTree) : Session Unit Unit where
  context := {}
  files
  tool := ()
  sink := ()

/-- Runs that do not forget. The build log is the file of the cache, so the trace is what was in it.
A cancellation comes when all has been found, so the snapshot is not kept, and the cache stays as it
was. The trace runs the file of the cache as a compiler, which is found if it is there. Another
operation is running, so the snapshot stays as it was. -/
theorem configure_remembers :
    ¬{ recalling [] with logFile := some ⟨".mktrace/cache.json"⟩ }.Forgets
      (firstWith (withCache "gcc -c a.c\n")) (firstWith (withCache "gcc -c b.c\n")) ∧
    ¬{ recalling [] with interrupts := fun moment => moment == Moment.report 12 }.Forgets
      (firstWith (withCache "first")) (firstWith (withCache "second")) ∧
    ¬{ recalling ["./gcc -c a.c"] with settings := { output := { cacheFile := ⟨"gcc"⟩ } } }.Forgets
      (firstWith { entries := [(["w"], .directory)] })
      (firstWith
        { entries := [(["w"], .directory), (["w", "gcc"], .file (.text "broken") false)] }) ∧
    ¬(recalling []).Forgets
      { firstWith {} with context := { guards := ⟨some .build⟩ } }
      { firstWith {} with
        context := { guards := ⟨some .build⟩, snapshot := { buildTargets := ["all"] } } } := by
  refine ⟨?_, ?_, ?_, ?_⟩
  · decide +kernel
  · decide +kernel
  · decide +kernel
  · decide +kernel

end Equipment

end Configure

end BuildTrace
