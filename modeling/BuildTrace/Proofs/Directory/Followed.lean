import BuildTrace.Directory.History
import BuildTrace.Proofs.Path.Normal
import BuildTrace.Proofs.Scan.Course
import BuildTrace.Proofs.Text.Trim

/-!
# Following a trace

Most recognizers follow the moves of a trace, and look at the other lines from the directory that is
current then. All directories they get to are the one in which they begin, and those that are
resolved against one of them. So a property of directories that resolving keeps holds in front of
every line, and the items can rely on it.

A history may also start over in another directory. Whatever lines are read in between, it stays fit
for use: it has a current directory, and its directories are absolute and take no detours.

## Main definitions

* `Directory.Move.Changes`: the lines that change the directory without a way to return but one;
* `Directory.History.All`: all directories of the history have a property;
* `Directory.History.run`: the history after some lines and new starts;
* `LineScanner.Follows`: the recognizers that follow the moves.

## Main results

* `Directory.Move.ofLine?_eq_change_iff`: the lines that change the directory are recognized;
* `Directory.History.All.move`: moves lead to directories with the property;
* `LineScanner.Follows.forall_mem_items`: all items of a scan are as those of each line;
* `Directory.History.entries_run`: what a history is like after any lines and new starts.
-/

namespace BuildTrace

/-! ## Lines that change the directory -/

namespace Directory.Move

/-- The line is the word `cd`, white space and a directory. It is not the line that goes back, and
it does not speak of leaving a directory, since both count before. -/
structure Changes (line written : String) : Prop where
  /-- There is nothing else on the line, save for white space at its ends. -/
  spelled : ∃ blanks, blanks ≠ [] ∧ (∀ c ∈ blanks, Text.isBlank c = true) ∧
    Text.trim line.toList = "cd".toList ++ (blanks ++ written.toList)
  /-- The directory has a first character, which is no white space. -/
  first : ∃ c ∈ written.toList.head?, Text.isBlank c = false
  /-- The directory does not run over the end of a line. -/
  unbroken : '\n' ∉ written.toList
  /-- The line does not go back. -/
  forth : Text.trim line.toList ≠ "cd -".toList
  /-- The line does not speak of leaving a directory. -/
  staying : Text.occurs "Leaving directory".toList (Text.trim line.toList) = false

variable {word line operand : List Char}

/-- An operand is what stands behind the word and white space. -/
theorem operand?_eq_some_iff :
    operand? word line = some operand ↔
      (∃ blanks, blanks ≠ [] ∧ (∀ c ∈ blanks, Text.isBlank c = true) ∧
        line = word ++ (blanks ++ operand)) ∧
      (∃ c ∈ operand.head?, Text.isBlank c = false) ∧ '\n' ∉ operand := by
  constructor
  · intro h
    rw [operand?] at h
    split at h
    next c rest hstrip =>
      simp only [Option.ite_none_right_eq_some, Bool.and_eq_true, Bool.not_eq_true',
        List.isEmpty_eq_false_iff, List.contains_eq_mem, decide_eq_false_iff_not,
        Option.some.injEq] at h
      obtain ⟨⟨⟨hblank, hne⟩, hline⟩, rfl⟩ := h
      obtain ⟨d, s, hs⟩ := List.exists_cons_of_ne_nil hne
      have hfirst : d ∈ (Text.trimStart rest).head? := by rw [hs]; rfl
      refine ⟨⟨c :: rest.takeWhile Text.isBlank, List.cons_ne_nil _ _, ?_, ?_⟩,
        ⟨d, hfirst, Text.isBlank_of_mem_head?_trimStart hfirst⟩, hline⟩
      · exact List.forall_mem_cons.mpr ⟨hblank, fun c hc => List.mem_takeWhile_imp hc⟩
      · rw [List.cons_append, Text.trimStart, List.takeWhile_append_dropWhile]
        exact Text.strip?_eq_some_iff.mp hstrip
    next => cases h
  · rintro ⟨⟨blanks, hne, hblanks, rfl⟩, ⟨d, hd, hfirst⟩, hline⟩
    obtain ⟨c, blanks, rfl⟩ := List.exists_cons_of_ne_nil hne
    obtain ⟨hc, hblanks⟩ := List.forall_mem_cons.mp hblanks
    obtain ⟨s, rfl⟩ := List.head?_eq_some_iff.mp hd
    have hstrip : Text.strip? word (word ++ (c :: blanks ++ d :: s))
        = some (c :: (blanks ++ d :: s)) := Text.strip?_eq_some_iff.mpr rfl
    -- The operand begins with a character that is not blank, so that no more than the blanks goes.
    have htrim : Text.trimStart (blanks ++ d :: s) = d :: s := by
      rw [Text.trimStart_append_of_forall hblanks, Text.trimStart_cons_of_false hfirst]
    rw [operand?, hstrip]
    simp only [htrim, hc]
    simp [List.contains_eq_mem, hline]

/-- The lines that change the directory are recognized. -/
theorem ofLine?_eq_change_iff {line written : String} :
    ofLine? line = some (.change written) ↔ Changes line written := by
  have hchange : ∀ operand : List Char,
      some (change (String.ofList operand)) = some (change written) ↔ operand = written.toList := by
    intro operand
    rw [Option.some.injEq, Move.change.injEq, ← String.toList_inj, String.toList_ofList]
  constructor
  · intro h
    simp only [ofLine?] at h
    split at h
    next => cases h
    next hback =>
      split at h
      next => cases h
      next hleave =>
        split at h
        next operand hoperand =>
          obtain rfl := (hchange operand).mp h
          obtain ⟨hspelled, hfirst, hline⟩ := operand?_eq_some_iff.mp hoperand
          simp only [Bool.or_eq_true, not_or, Bool.not_eq_true] at hleave
          exact ⟨hspelled, hfirst, hline, hback, hleave.2⟩
        -- What is left enters a directory, if it moves.
        next =>
          split at h
          · cases h
          · obtain ⟨_, -, hmove⟩ := Option.map_eq_some_iff.mp h
            cases hmove
  · intro h
    have hoperand : operand? "cd".toList (Text.trim line.toList) = some written.toList :=
      operand?_eq_some_iff.mpr ⟨h.spelled, h.first, h.unbroken⟩
    have hpopd : Text.trim line.toList ≠ "popd".toList := by
      obtain ⟨blanks, -, -, hspelled⟩ := h.spelled
      rw [hspelled]
      exact nofun
    simp only [ofLine?, if_neg h.forth, decide_eq_false hpopd, Bool.false_or, h.staying,
      Bool.false_eq_true, if_false, hoperand, String.ofList_toList]

/-- So is the line that goes back. -/
theorem ofLine?_of_back {line : String} (h : Text.trim line.toList = "cd -".toList) :
    ofLine? line = some .back := by
  rw [ofLine?]
  exact if_pos h

end Directory.Move

/-! ## Directories -/

variable {P : Path → Prop}

/-- All directories of the history have the property. -/
structure Directory.History.All (P : Path → Prop) (h : History) : Prop where
  /-- The current directory has. -/
  current : P h.current
  /-- The directories to return to have. -/
  earlier : ∀ p ∈ h.earlier, P p

namespace Directory.History.All

variable (hresolve : ∀ base, P base → ∀ written, P (Path.resolve written base)) {h : History}

theorem start {root : Path} (hroot : P root) : (History.start root).All P :=
  ⟨hroot, List.forall_mem_nil P⟩

include hresolve

/-- Moves lead to directories that were current before, or that are resolved against such ones. -/
theorem move (hall : h.All P) (m : Move) : (h.move m).All P := by
  obtain ⟨earlier, current⟩ := h
  obtain ⟨hcurrent, hearlier⟩ := hall
  have hresolved := hresolve current hcurrent
  -- By cases on the move: each directory of the result was there before or is a resolved one.
  cases m with
  | back =>
    cases earlier with
    | nil => exact ⟨hcurrent, hearlier⟩
    | cons previous rest =>
      obtain ⟨hprevious, hrest⟩ := List.forall_mem_cons.mp hearlier
      exact ⟨hprevious, List.forall_mem_cons.mpr ⟨hcurrent, hrest⟩⟩
  | leave =>
    cases earlier with
    | nil => exact ⟨hcurrent, hearlier⟩
    | cons previous rest =>
      obtain ⟨hprevious, hrest⟩ := List.forall_mem_cons.mp hearlier
      exact ⟨hprevious, hrest⟩
  | change written =>
    have hwritten := hresolved written
    rw [History.move]
    generalize Path.resolve written current = resolved at hwritten
    exact ⟨hwritten, List.forall_mem_singleton.mpr hcurrent⟩
  | enter written =>
    have hwritten := hresolved written
    rw [History.move]
    generalize Path.resolve written current = resolved at hwritten
    exact ⟨hwritten, List.forall_mem_cons.mpr ⟨hcurrent, hearlier⟩⟩

theorem follow? {after : History} {line : String} (hall : h.All P)
    (hfollow : h.follow? line = some after) : after.All P := by
  obtain ⟨m, -, rfl⟩ := Option.map_eq_some_iff.mp hfollow
  exact hall.move hresolve m

end Directory.History.All

/-! ## Runs -/

/-- What may happen to a history. -/
inductive Directory.Event where
  /-- A line is read. -/
  | line (line : String)
  /-- The history starts over. -/
  | reset (root : Path)
  deriving DecidableEq, Repr

namespace Directory.History

variable {h : History}

/-- The history after a line, which is the same if the line does not move, or after a new start. -/
def after (h : History) : Event → History
  | .line line => (h.follow? line).getD h
  | .reset root => start root

/-- The history after some lines and new starts. -/
def run (h : History) (events : List Event) : History := events.foldl after h

theorem All.after (hresolve : ∀ base, P base → ∀ written, P (Path.resolve written base))
    (hall : h.All P) {event : Event} (hreset : ∀ root, event = .reset root → P root) :
    (h.after event).All P := by
  cases event with
  | line line =>
    rw [History.after]
    cases hfollow : h.follow? line with
    | none => exact hall
    | some next => exact hall.follow? hresolve hfollow
  | reset root => exact .start (hreset root rfl)

/-- All directories have the property, if it holds wherever the history starts over. -/
theorem All.run (hresolve : ∀ base, P base → ∀ written, P (Path.resolve written base))
    (hall : h.All P) {events : List Event} (hreset : ∀ root, .reset root ∈ events → P root) :
    (h.run events).All P := by
  induction events generalizing h with
  | nil => exact hall
  | cons event events ih =>
    have hafter : (h.after event).All P :=
      hall.after hresolve fun root heq => hreset root (heq ▸ List.mem_cons_self)
    exact ih hafter fun root hroot => hreset root (List.mem_cons_of_mem event hroot)

theorem All.forall_mem_entries (hall : h.All P) : ∀ p ∈ h.entries, P p := by
  intro p hp
  rcases List.mem_append.mp hp with hp | hp
  · exact hall.earlier p (List.mem_reverse.mp hp)
  · exact List.mem_singleton.mp hp ▸ hall.current

theorem length_entries (h : History) : h.entries.length = h.earlier.length + 1 := by
  rw [entries, List.length_append, List.length_reverse, List.length_singleton]

/-- A change leaves one directory to return to. -/
theorem entries_move_change (h : History) (written : String) :
    (h.move (.change written)).entries = [h.current, Path.resolve written h.current] := by
  rw [move, entries, List.reverse_singleton, List.singleton_append]

/-- Any other move adds or takes one directory at most. -/
theorem length_entries_move (h : History) {m : Move} (hm : ∀ written, m ≠ .change written) :
    (h.move m).entries.length ≤ h.entries.length + 1 ∧
      h.entries.length ≤ (h.move m).entries.length + 1 := by
  obtain ⟨earlier, current⟩ := h
  rw [length_entries, length_entries]
  cases m with
  | back => cases earlier <;> simp [move]
  | leave => cases earlier <;> simp [move]
  | change written => exact absurd rfl (hm written)
  | enter written => simp [move]

/-- Who goes back twice is where he was. -/
theorem move_back_back (h : History) : (h.move .back).move .back = h := by
  obtain ⟨earlier, current⟩ := h
  cases earlier <;> rfl

end Directory.History

/-! ## Recognizers -/

variable {ω ι : Type}

/-- The recognizer follows the moves, finds something in the other lines, each looked at from the
current directory, and nothing at the end. -/
structure LineScanner.Follows (scanner : LineScanner ω Directory.History ι)
    (finds : String → Path → ω → List ι × ω) : Prop where
  /-- A line moves, or something may be found in it. -/
  scanLine : ∀ line history w, scanner.scanLine line history w =
    match history.follow? line with
    | some history => ([], history, w)
    | none => ((finds line history.current w).1, history, (finds line history.current w).2)
  /-- Nothing is left for the end. -/
  finish : ∀ history, scanner.finish history = []

namespace LineScanner.Follows

variable {scanner : LineScanner ω Directory.History ι} {finds : String → Path → ω → List ι × ω}
  {Q : ι → Prop} {root : Path} {isCancelled : ω → Bool} {chunkSize : Nat} {receive : ι → ω → ω}

/-- Some lines are read with the history that is left by the ones before them. -/
theorem history_scanLines (h : scanner.Follows finds) (lines : List String)
    (history : Directory.History) (w : ω) :
    (scanner.scanLines lines history w).2.1 = history.run (lines.map .line) := by
  induction lines generalizing history w with
  | nil => rfl
  | cons line lines ih =>
    have hline : (scanner.scanLine line history w).2.1 = history.after (.line line) := by
      rw [h.scanLine, Directory.History.after]
      cases history.follow? line <;> rfl
    rw [List.map_cons, Directory.History.run, List.foldl_cons, ← hline]
    exact ih _ _

/-- If resolving keeps a property of directories, and what is found from a directory with the
property is as it should be, then so are all items of a scan that begins in such a directory. -/
theorem forall_mem_items (h : scanner.Follows finds)
    (hresolve : ∀ base, P base → ∀ written, P (Path.resolve written base)) (hroot : P root)
    (hfinds : ∀ line base w, P base → ∀ item ∈ (finds line base w).1, Q item) (trace : String)
    (w : ω) :
    ∀ item ∈ (Scan.items scanner isCancelled chunkSize receive (.start trace (.start root)) w).1,
      Q item := by
  refine Scan.forall_mem_items (I := Directory.History.All P) ?_ ?_ trace (.start hroot) w
  · intro line history w hall
    rw [h.scanLine]
    split
    next after hfollow => exact ⟨hall.follow? hresolve hfollow, nofun⟩
    next => exact ⟨hall, hfinds line _ w hall.current⟩
  · intro history _
    rw [h.finish]
    exact nofun

/-- So are the items of a scan that is complete. -/
theorem forall_mem_complete? (h : scanner.Follows finds)
    (hresolve : ∀ base, P base → ∀ written, P (Path.resolve written base)) (hroot : P root)
    (hfinds : ∀ line base w, P base → ∀ item ∈ (finds line base w).1, Q item) {trace : String}
    {w : ω} {found : List ι}
    (hfound : (Scan.complete? scanner isCancelled chunkSize trace (.start root) w).1
      = some found) : ∀ item ∈ found, Q item := by
  have hitems : ∀ item ∈ (Scan.items scanner isCancelled chunkSize (fun _ w => w)
      (.start trace (.start root)) w).1, Q item :=
    h.forall_mem_items hresolve hroot hfinds trace w
  rw [Scan.complete?] at hfound
  dsimp only at hfound
  split at hfound
  · cases hfound
  · cases hfound
    exact hitems

end LineScanner.Follows

/-! ## Histories fit for use -/

namespace Directory.History

/-- Whatever lines are read, and wherever the history starts over, there is a current directory, the
last one, and all directories are absolute and normal; those at which the history did not start are
even written in the plainest way. Lines that are not recognized leave the history as it is. Lines
that change the directory leave the one before and the new one, all others add or take one at most,
and those that go back undo each other. These are the histories that recognizers go by. -/
theorem entries_run {root : Path} (hroot : root.Rooted) {events : List Event}
    (hreset : ∀ r, .reset r ∈ events → r.Rooted) :
    let h := (start root).run events
    (∃ hne : h.entries ≠ [], h.entries.getLast hne = h.current) ∧
      (∀ p ∈ h.entries, p.Rooted ∧ (p.Settled ∨ p = root ∨ .reset p ∈ events)) ∧
      (∀ line, h.follow? line = none → h.after (.line line) = h) ∧
      (∀ line written, Move.Changes line written →
        (h.follow? line).map entries = some [h.current, Path.resolve written h.current]) ∧
      (∀ line next, h.follow? line = some next → (∀ written, ¬Move.Changes line written) →
        next.entries.length ≤ h.entries.length + 1 ∧
          h.entries.length ≤ next.entries.length + 1) ∧
      (∀ a b : String, Text.trim a.toList = "cd -".toList → Text.trim b.toList = "cd -".toList →
        ∃ between, h.follow? a = some between ∧ between.follow? b = some h) ∧
      ∀ {ω ι : Type} {scanner : LineScanner ω History ι} {finds}, scanner.Follows finds →
        ∀ lines w, (scanner.scanLines lines h w).2.1
          = (start root).run (events ++ lines.map .line) := by
  intro h
  -- A directory is resolved against an absolute one, or the history started there.
  have hall : h.All fun p => p.Rooted ∧ (p.Settled ∨ p = root ∨ .reset p ∈ events) := by
    refine All.run (fun base hbase written => ?_) (.start ⟨hroot, .inr (.inl rfl)⟩) fun r hr =>
      ⟨hreset r hr, .inr (.inr hr)⟩
    have hsettled := Path.settled_resolve hbase.1.absolute written
    exact ⟨hsettled.rooted, .inl hsettled⟩
  refine ⟨⟨?_, ?_⟩, hall.forall_mem_entries, ?_, ?_, ?_, ?_, ?_⟩
  · exact List.append_ne_nil_of_right_ne_nil _ (List.cons_ne_nil _ _)
  · exact List.getLast_append_singleton _
  · intro line hfollow
    rw [after, hfollow]
    rfl
  · intro line written hchanges
    rw [follow?, Move.ofLine?_eq_change_iff.mpr hchanges]
    exact congrArg some (h.entries_move_change written)
  · intro line next hfollow hchanges
    obtain ⟨m, hm, rfl⟩ := Option.map_eq_some_iff.mp hfollow
    refine h.length_entries_move fun written hchange => ?_
    exact hchanges written (Move.ofLine?_eq_change_iff.mp (hchange ▸ hm))
  · intro a b ha hb
    refine ⟨h.move .back, ?_, ?_⟩
    · rw [follow?, Move.ofLine?_of_back ha]
      rfl
    · rw [follow?, Move.ofLine?_of_back hb]
      exact congrArg some h.move_back_back
  · intro ω ι scanner finds hfollows lines w
    rw [hfollows.history_scanLines, run, run, List.foldl_append]
    rfl

/-- A history that leaves more directories than it entered, starts over in a directory that is not
written in the plainest way, and goes on from there. -/
theorem entries_run_unbalanced :
    let events : List Event := [.line "pushd ../x", .line "popd", .line "popd", .line "cd -",
      .line "cd a", .reset ⟨"/v//."⟩, .line "make[1]: Entering directory 'y/..//z'",
      .line "\tcd  \"c d\" "]
    let h := (start ⟨"/w"⟩).run events
    ((⟨"/w"⟩ : Path).Rooted ∧ ∀ r, .reset r ∈ events → r.Rooted) ∧
      h.entries = [⟨"/v/z"⟩, ⟨"/v/z/c d"⟩] ∧
      (∀ p ∈ h.entries, p.Rooted ∧ (p.Settled ∨ p = ⟨"/w"⟩ ∨ .reset p ∈ events)) ∧
      h.after (.line "popdx") = h ∧
      (h.follow? "cd ..").map entries = some [⟨"/v/z/c d"⟩, ⟨"/v/z"⟩] ∧
      (∃ next, h.follow? "pushd Leaving directory" = some next ∧ next.entries = [⟨"/v/z"⟩] ∧
        h.entries.length ≤ next.entries.length + 1) ∧
      ∃ between, h.follow? " cd -" = some between ∧ between.follow? "cd - " = some h := by
  intro events h
  have hroot : (⟨"/w"⟩ : Path).Rooted := Path.rooted_iff.mpr (by decide +kernel)
  have hreset : ∀ r, .reset r ∈ events → r.Rooted := by
    intro r hr
    obtain rfl : r = ⟨"/v//."⟩ := by simpa [events] using hr
    exact Path.rooted_iff.mpr (by decide +kernel)
  have hparent : Move.Changes "cd .." ".." :=
    ⟨⟨[' '], List.cons_ne_nil _ _, List.forall_mem_singleton.mpr rfl, by decide +kernel⟩,
      ⟨'.', rfl, rfl⟩, by decide +kernel, by decide +kernel, by decide +kernel⟩
  have hleaving : ∀ written, ¬Move.Changes "pushd Leaving directory" written := fun _ hchanges =>
    absurd hchanges.staying (by decide +kernel)
  obtain ⟨-, hentries, hstill, hchange, hmove, hback, -⟩ := entries_run hroot hreset
  have hafter : h.follow? "pushd Leaving directory" = some ⟨[], ⟨"/v/z"⟩⟩ := by decide +kernel
  refine ⟨⟨hroot, hreset⟩, by decide +kernel, hentries, hstill "popdx" (by decide +kernel), ?_,
    ⟨_, hafter, rfl, (hmove _ _ hafter hleaving).2⟩, ?_⟩
  · exact (hchange "cd .." ".." hparent).trans (by decide +kernel)
  · exact hback " cd -" "cd - " (by decide +kernel) (by decide +kernel)

end Directory.History

end BuildTrace
