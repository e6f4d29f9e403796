import BuildTrace.Proofs.Configuration.Index

/-!
# Updates of configurations

A configuration is built up unit by unit, but a run hands over the configuration of a whole pass,
which is then combined with the one before. This module proves that both ways agree.

## Main definitions

* `Configuration.Normal`: the files are sorted and the directories do not repeat;
* `Configuration.replay`: a sequence of updates, taken in unit by unit from the last replacing one.

## Main results

* `Configuration.normal_update`: updates keep configurations normal;
* `Configuration.update_merge_ofUnits`: combining with the configuration of some units is taking
  in these units;
* `Configuration.updateAll_eq_replay`: a sequence of updates comes to its replay.
-/

namespace BuildTrace

namespace Configuration

variable {c d : Configuration}

/-- The files stand in the order of their paths, each path once, and no directory repeats. -/
structure Normal (c : Configuration) : Prop where
  /-- The files are sorted. -/
  files : FileIndex.Sorted c.files
  /-- The directories do not repeat. -/
  browse : BrowsePath.Distinct c.browse

theorem normal_empty : Normal empty := ⟨FileIndex.sorted_nil, List.Pairwise.nil⟩

theorem normal_apply (h : c.Normal) (u : CompileUnit) : (c.apply u).Normal :=
  ⟨FileIndex.sorted_insertAll h.files, BrowsePath.distinct_insertAll h.browse⟩

theorem normal_foldl_apply (h : c.Normal) (units : List CompileUnit) :
    (units.foldl apply c).Normal := by
  induction units generalizing c with
  | nil => exact h
  | cons u units ih => exact ih (normal_apply h u)

theorem normal_ofUnits (units : List CompileUnit) : (ofUnits units).Normal :=
  normal_foldl_apply normal_empty units

theorem normal_ofParts (files : List (Path × FileConfiguration)) (browse : List Path) :
    (ofParts files browse).Normal :=
  ⟨FileIndex.sorted_insertAll FileIndex.sorted_nil,
    BrowsePath.distinct_insertAll List.Pairwise.nil⟩

theorem normal_update (h : c.Normal) (newer : Configuration) (mode : UpdateMode) :
    (c.update newer mode).Normal := by
  cases mode with
  | replace =>
    exact ⟨FileIndex.sorted_insertAll normal_empty.files,
      BrowsePath.distinct_insertAll normal_empty.browse⟩
  | merge =>
    exact ⟨FileIndex.sorted_insertAll h.files, BrowsePath.distinct_insertAll h.browse⟩

/-- A normal configuration is made of its own parts. -/
theorem ofParts_eq_self (h : c.Normal) :
    ofParts (FileIndex.lastOfEach c.files) c.browse = c := by
  rw [ofParts, FileIndex.lastOfEach_of_sorted h.files, FileIndex.insertAll_eq_self h.files,
    BrowsePath.ofList_eq_self h.browse]

/-! ## Single updates -/

/-- A replacing update forgets what was there. -/
theorem update_replace (newer : Configuration) :
    c.update newer .replace = empty.update newer .merge := rfl

/-- A normal configuration that replaces another one is what is left. -/
theorem update_replace_of_normal (h : d.Normal) : c.update d .replace = d := by
  have hfiles : FileIndex.insertAll [] d.files = d.files := FileIndex.insertAll_eq_self h.files
  have hbrowse : BrowsePath.insertAll [] d.browse = d.browse := BrowsePath.ofList_eq_self h.browse
  rw [update]
  simp only [empty, hfiles, hbrowse]

/-- Combining with a configuration that was itself combined with a newer one is combining with the
one, and then with the newer one. -/
theorem update_merge_update (h : d.Normal) (newer : Configuration) :
    c.update (d.update newer .merge) .merge = (c.update d .merge).update newer .merge := by
  simp only [update, FileIndex.insertAll_insertAll h.files, BrowsePath.insertAll_insertAll]

/-- Combining with a configuration that took in a unit last is taking in the unit last. -/
theorem update_merge_apply (h : d.Normal) (u : CompileUnit) :
    c.update (d.apply u) .merge = (c.update d .merge).apply u := by
  simp only [update, apply, FileIndex.insertAll_insertAll h.files,
    BrowsePath.insertAll_insertAll]

theorem update_merge_foldl_apply (h : d.Normal) (units : List CompileUnit) :
    c.update (units.foldl apply d) .merge = units.foldl apply (c.update d .merge) := by
  induction units generalizing d with
  | nil => rfl
  | cons u units ih =>
    calc c.update (units.foldl apply (d.apply u)) .merge
        = units.foldl apply (c.update (d.apply u) .merge) := ih (normal_apply h u)
      _ = units.foldl apply ((c.update d .merge).apply u) := by rw [update_merge_apply h]

/-- Combining with the configuration of some units is taking in these units. -/
theorem update_merge_ofUnits (units : List CompileUnit) :
    c.update (ofUnits units) .merge = units.foldl apply c := by
  have hempty : c.update empty .merge = c := rfl
  rw [ofUnits, update_merge_foldl_apply normal_empty, hempty]

/-- Replacing by the configuration of some units is taking in these units from nothing. -/
theorem update_replace_ofUnits (units : List CompileUnit) :
    c.update (ofUnits units) .replace = units.foldl apply empty := by
  rw [update_replace, update_merge_ofUnits]

/-! ## Sequences of updates -/

/-- Updates by the configurations of some units, in order. -/
abbrev Updates := List (UpdateMode × List CompileUnit)

/-- One of the updates is replacing. -/
def Updates.replaces (updates : Updates) : Bool := updates.any (·.1 == .replace)

/-- The updates from the last replacing one on; all of them if none is replacing. -/
def Updates.lasting : Updates → Updates
  | [] => []
  | update :: rest => if Updates.replaces rest then Updates.lasting rest else update :: rest

/-- The units of the updates, in order. -/
def Updates.units (updates : Updates) : List CompileUnit := updates.flatMap Prod.snd

/-- What the updates come to when only the units count that come with the last replacing update
or later: they are taken in one after the other, from nothing, or from the start if no update is
replacing. -/
def replay (start : Configuration) (updates : Updates) : Configuration :=
  updates.lasting.units.foldl apply (if updates.replaces then empty else start)

/-- The updates, one after the other. -/
def updateAll (start : Configuration) (updates : Updates) : Configuration :=
  updates.foldl (fun c update => c.update (ofUnits update.2) update.1) start

/-- What was there before the first update does not matter if a later one is replacing. -/
theorem replay_of_replaces {updates : Updates} (h : updates.replaces = true) :
    replay c updates = replay d updates := by
  simp only [replay, h, ↓reduceIte]

/-- A replay goes on behind its first update as a replay of its own. -/
theorem replay_cons (start : Configuration) (mode : UpdateMode) (units : List CompileUnit)
    (rest : Updates) :
    replay start ((mode, units) :: rest) = replay (start.update (ofUnits units) mode) rest := by
  by_cases h : Updates.replaces rest = true
  -- A later update is replacing, so neither the start nor the first update counts.
  · have hcons : Updates.replaces ((mode, units) :: rest) = true := by
      simp only [Updates.replaces, List.any_cons, Bool.or_eq_true]
      exact .inr h
    simp only [replay, hcons, h, Updates.lasting, ↓reduceIte]
  -- No later update is replacing, so all of them count.
  · have hlasting : Updates.lasting rest = rest := by
      cases rest with
      | nil => rfl
      | cons update rest =>
        have htail : ¬ Updates.replaces rest = true := by
          intro htail
          apply h
          simp only [Updates.replaces, List.any_cons, Bool.or_eq_true]
          exact .inr htail
        rw [Updates.lasting, if_neg htail]
    -- The units of the first update count, too, from nothing if it is replacing.
    rw [Bool.not_eq_true] at h
    cases mode with
    | replace =>
      have hcons : Updates.replaces ((.replace, units) :: rest) = true := rfl
      rw [update_replace_ofUnits]
      simp only [replay, hcons, h, hlasting, Updates.lasting, Updates.units, List.flatMap_cons,
        List.foldl_append, ↓reduceIte, Bool.false_eq_true]
    | merge =>
      have hcons : Updates.replaces ((.merge, units) :: rest) = false := by
        simpa only [Updates.replaces, List.any_cons, Bool.or_eq_false_iff] using ⟨rfl, h⟩
      rw [update_merge_ofUnits]
      simp only [replay, hcons, h, hlasting, Updates.lasting, Updates.units, List.flatMap_cons,
        List.foldl_append, ↓reduceIte, Bool.false_eq_true]

/-- A sequence of updates comes to its replay: the files with the last unit that names them, and
the directories in order of first appearance, are those of all units since the last replacing
update, taken in one by one. -/
theorem updateAll_eq_replay (start : Configuration) (updates : Updates) :
    updateAll start updates = replay start updates := by
  induction updates generalizing start with
  | nil => rfl
  | cons update rest ih =>
    obtain ⟨mode, units⟩ := update
    calc updateAll start ((mode, units) :: rest)
        = updateAll (start.update (ofUnits units) mode) rest := rfl
      _ = replay (start.update (ofUnits units) mode) rest := ih _
      _ = replay start ((mode, units) :: rest) := (replay_cons start mode units rest).symm

end Configuration

end BuildTrace
