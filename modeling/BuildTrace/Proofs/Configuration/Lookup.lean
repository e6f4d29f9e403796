import BuildTrace.Proofs.Configuration.Update

/-!
# What a configuration says

A configuration says how each of its files is compiled, and names directories. This module says what
becomes of that when a configuration is brought up to date, and compares configurations by it: the
spelling of the paths and the order of the directories do not matter.

## Main definitions

* `Configuration.Has` and `Configuration.Names`: the files and the directories of a configuration;
* `Configuration.Agrees`: the configurations say the same;
* `Configuration.Contains`: a configuration says all that another one says;
* `Configuration.Exceeds`: what it says beyond that is about the files and directories of a third
  one.

## Main results

* `FileIndex.get?_insertAll` and `BrowsePath.any_insertAll_iff`: what is known when something has
  been taken in;
* `Configuration.Exceeds.update`: two configurations that are brought up to date in the same way
  differ as before;
* `Configuration.Exceeds.agrees_iff`: when they agree nevertheless;
* `Configuration.update_merge_self`: what has been taken in can be taken in again.
-/

namespace BuildTrace

/-! ## Files -/

namespace FileIndex

variable {f g : Path} {c : FileConfiguration} {index base files : FileIndex}

theorem get?_cons : get? ((f, c) :: index) g = if f.same g then some c else index.get? g := by
  rw [get?, get?, List.find?_cons]
  cases f.same g <;> rfl

theorem get?_of_lacks (h : Lacks index f) (hsame : f.same g = true) : index.get? g = none := by
  have hnone : ∀ pair ∈ index, ¬ pair.1.same g = true := by
    intro pair hpair hg
    rw [Path.same_comm, Path.same_iff_compare] at hg
    exact h pair hpair ((Path.compare_congr_left (Path.same_iff_compare.mp hsame) _).trans hg)
  rw [get?, List.find?_eq_none.mpr hnone]
  rfl

/-- The configuration of a file is the one that was set last. -/
theorem get?_insert : (insert f c index).get? g = if f.same g then some c else index.get? g := by
  induction index with
  | nil => exact get?_cons
  | cons pair index ih =>
    obtain ⟨k, v⟩ := pair
    rw [insert]
    cases hcompare : f.compare k with
    | lt => exact get?_cons
    | eq =>
      -- The file keeps its path, which may be spelled in another way.
      have hsame : f.same g = k.same g := by
        rw [Path.same_comm f, Path.same_comm k]
        exact Path.same_congr_right hcompare g
      rw [get?_cons, get?_cons, hsame]
      split <;> rfl
    | gt =>
      rw [get?_cons, ih, get?_cons]
      cases hk : k.same g with
      | false => rfl
      | true =>
        -- The file is not the one in front.
        have hf : f.same g = false := by
          rw [Bool.eq_false_iff]
          intro hf
          rw [Path.same_iff_compare, ← Path.compare_congr_right (Path.same_iff_compare.mp hk),
            hcompare] at hf
          cases hf
        rw [hf]
        rfl

/-- When an index is taken in, what it says goes before what was known. -/
theorem get?_insertAll (h : Sorted files) :
    (base.insertAll files).get? g = (files.get? g).or (base.get? g) := by
  induction files generalizing base with
  | nil => rfl
  | cons pair files ih =>
    obtain ⟨k, v⟩ := pair
    have hinsert : (base.insertAll ((k, v) :: files)).get? g
        = (get? files g).or ((insert k v base).get? g) := ih (List.pairwise_cons.mp h).2
    rw [hinsert, get?_insert, get?_cons]
    cases hk : k.same g with
    | false => rfl
    | true =>
      rw [get?_of_lacks h.lacks_head hk]
      rfl

/-- An index that has been taken in changes nothing when it is taken in again. -/
theorem insertAll_self (h : Sorted files) :
    (base.insertAll files).insertAll files = base.insertAll files := by
  induction files generalizing base with
  | nil => rfl
  | cons pair files ih =>
    obtain ⟨k, v⟩ := pair
    have htail : Sorted files := (List.pairwise_cons.mp h).2
    have hlast : (insert k v base).insertAll files = insert k v (base.insertAll files) :=
      insertAll_insert_comm h.lacks_head
    have hsame : k.compare k = .eq := Path.same_iff_compare.mp (Path.same_self k)
    -- The first file is none of the others, so it may as well be set last.
    calc (base.insertAll ((k, v) :: files)).insertAll ((k, v) :: files)
        = (insert k v ((insert k v base).insertAll files)).insertAll files := rfl
      _ = (insert k v (insert k v (base.insertAll files))).insertAll files := by
          rw [hlast]
      _ = (insert k v (base.insertAll files)).insertAll files := by
          rw [insert_insert_same hsame]
      _ = ((insert k v base).insertAll files).insertAll files := by rw [hlast]
      _ = base.insertAll ((k, v) :: files) := ih htail

end FileIndex

/-! ## Directories -/

namespace BrowsePath

variable {directory : Path} {base : BrowsePath} {directories : List Path}

theorem any_insert_iff {other : Path} :
    (base.insert other).any (·.same directory) = true ↔
      base.any (·.same directory) = true ∨ other.same directory = true := by
  rw [BrowsePath.insert]
  split
  next hany =>
    refine ⟨.inl, fun h => h.elim id fun hother => ?_⟩
    have hcompare := Path.same_iff_compare.mp hother
    simpa only [Path.same_congr_right hcompare] using hany
  next => simp

/-- The directories of a browse path are those that were there and those that were taken in. -/
theorem any_insertAll_iff :
    (base.insertAll directories).any (·.same directory) = true ↔
      base.any (·.same directory) = true ∨ directories.any (·.same directory) = true := by
  induction directories generalizing base with
  | nil => simp [insertAll]
  | cons other directories ih =>
    have hinsert : base.insertAll (other :: directories)
        = (base.insert other).insertAll directories := rfl
    rw [hinsert, ih, any_insert_iff, List.any_cons, Bool.or_eq_true, or_assoc]

/-- Directories that are there are not added. -/
theorem insertAll_of_forall_any (h : ∀ d ∈ directories, base.any (·.same d) = true) :
    base.insertAll directories = base := by
  induction directories with
  | nil => rfl
  | cons other directories ih =>
    obtain ⟨hother, hrest⟩ := List.forall_mem_cons.mp h
    calc base.insertAll (other :: directories)
        = (base.insert other).insertAll directories := rfl
      _ = base.insertAll directories := by rw [insert_of_any hother]
      _ = base := ih hrest

/-- Directories that have been taken in change nothing when they are taken in again. -/
theorem insertAll_self :
    (base.insertAll directories).insertAll directories = base.insertAll directories := by
  refine insertAll_of_forall_any fun d hd => any_insertAll_iff.mpr (.inr ?_)
  exact List.any_eq_true.mpr ⟨d, hd, Path.same_self d⟩

end BrowsePath

/-! ## Configurations -/

namespace Configuration

variable {c d found held more less : Configuration}

/-- The file is one of those of the configuration. -/
def Has (c : Configuration) (f : Path) : Prop := (c.files.get? f).isSome = true

/-- The directory is one of those to look around in. -/
def Names (c : Configuration) (directory : Path) : Prop := c.browse.any (·.same directory) = true

instance (c : Configuration) : DecidablePred c.Has := fun _ => inferInstanceAs (Decidable (_ = _))

instance (c : Configuration) : DecidablePred c.Names := fun _ => inferInstanceAs (Decidable (_ = _))

/-- The configurations say the same about every file, and name the same directories. -/
structure Agrees (c d : Configuration) : Prop where
  /-- They say the same about every file. -/
  files : ∀ f, c.files.get? f = d.files.get? f
  /-- They name the same directories. -/
  browse : ∀ directory, c.Names directory ↔ d.Names directory

/-- The configuration says all that the other one says. -/
structure Contains (c d : Configuration) : Prop where
  /-- What the other one says about a file is said. -/
  files : ∀ f configuration, d.files.get? f = some configuration →
    c.files.get? f = some configuration
  /-- The directories of the other one are named. -/
  browse : ∀ directory, d.Names directory → c.Names directory

/-- The configuration has all files and directories of the other one, whatever it says about
them. -/
structure Covers (c d : Configuration) : Prop where
  /-- The files are there. -/
  files : ∀ f, d.Has f → c.Has f
  /-- The directories are there. -/
  browse : ∀ directory, d.Names directory → c.Names directory

/-- One configuration says all that another one says, and beyond that something about files and
directories of a third one, which it covers. -/
structure Exceeds (held more less : Configuration) : Prop where
  /-- It says all that the other one says. -/
  contains : more.Contains less
  /-- It has the files and directories of the third one. -/
  covers : more.Covers held
  /-- Its files are those of one of the others. -/
  files : ∀ f, more.Has f → held.Has f ∨ less.Has f
  /-- So are its directories. -/
  browse : ∀ directory, more.Names directory → held.Names directory ∨ less.Names directory

theorem Agrees.refl (c : Configuration) : c.Agrees c := ⟨fun _ => rfl, fun _ => .rfl⟩

theorem not_names_empty (directory : Path) : ¬ empty.Names directory := by simp [Names, empty]

/-- Every configuration exceeds the empty one by itself. -/
theorem exceeds_empty (held : Configuration) : held.Exceeds held empty where
  contains := ⟨fun _ _ => nofun, fun _ h => absurd h (not_names_empty _)⟩
  covers := ⟨fun _ => id, fun _ => id⟩
  files _ := .inl
  browse _ := .inl

theorem exceeds_self (held : Configuration) : held.Exceeds held held where
  contains := ⟨fun _ _ => id, fun _ => id⟩
  covers := ⟨fun _ => id, fun _ => id⟩
  files _ := .inl
  browse _ := .inl

/-! ## Updates -/

theorem get?_update_merge (h : found.Normal) (f : Path) :
    (c.update found .merge).files.get? f = (found.files.get? f).or (c.files.get? f) :=
  FileIndex.get?_insertAll h.files

theorem has_update_merge_iff (h : found.Normal) {f : Path} :
    (c.update found .merge).Has f ↔ found.Has f ∨ c.Has f := by
  rw [Has, get?_update_merge h, Option.isSome_or, Bool.or_eq_true]
  rfl

theorem names_update_merge_iff {directory : Path} :
    (c.update found .merge).Names directory ↔ c.Names directory ∨ found.Names directory :=
  BrowsePath.any_insertAll_iff

/-- A configuration that says more than another one does so when both are brought up to date. -/
theorem Contains.update (h : more.Contains less) (hfound : found.Normal) :
    (more.update found .merge).Contains (less.update found .merge) where
  files f configuration := by
    rw [get?_update_merge hfound, get?_update_merge hfound, Option.or_eq_some_iff,
      Option.or_eq_some_iff]
    exact Or.imp_right (And.imp_right (h.files f configuration))
  browse directory := by
    rw [names_update_merge_iff, names_update_merge_iff]
    exact Or.imp_left (h.browse directory)

/-- Two configurations that are brought up to date in the same way differ as before, about files
and directories of the third one. -/
theorem Exceeds.update (h : held.Exceeds more less) (hfound : found.Normal) :
    held.Exceeds (more.update found .merge) (less.update found .merge) where
  contains := h.contains.update hfound
  covers :=
    ⟨fun f hf => (has_update_merge_iff hfound).mpr (.inr (h.covers.files f hf)),
      fun d hd => names_update_merge_iff.mpr (.inl (h.covers.browse d hd))⟩
  files f hf := by
    rw [has_update_merge_iff hfound] at hf ⊢
    rcases hf with hf | hf
    · exact .inr (.inl hf)
    · exact (h.files f hf).imp_right .inr
  browse directory hd := by
    rw [names_update_merge_iff] at hd ⊢
    rcases hd with hd | hd
    · exact (h.browse directory hd).imp_right .inl
    · exact .inr (.inr hd)

/-- They agree if nothing is left of the third one that only one of them says. -/
theorem Exceeds.agrees_iff (h : held.Exceeds more less) : more.Agrees less ↔ less.Covers held := by
  refine ⟨fun hagrees => ⟨fun f hf => ?_, fun d hd => ?_⟩,
    fun hcovers => ⟨fun f => ?_, fun d => ?_⟩⟩
  · have hmore := h.covers.files f hf
    rwa [Has, hagrees.files f] at hmore
  · exact (hagrees.browse d).mp (h.covers.browse d hd)
  · cases hless : less.files.get? f with
    | some configuration => exact h.contains.files f configuration hless
    | none =>
      -- The other one says nothing about the file, so the third one has not got it either.
      have hlacks : ¬ less.Has f := by simp [Has, hless]
      rw [← Option.not_isSome_iff_eq_none]
      exact fun hmore => hlacks ((h.files f hmore).elim (hcovers.files f) id)
  · exact ⟨fun hd => (h.browse d hd).elim (hcovers.browse d) id, h.contains.browse d⟩

/-- What has been taken in can be taken in again. -/
theorem update_merge_self (h : found.Normal) :
    (c.update found .merge).update found .merge = c.update found .merge := by
  have hfiles : (c.files.insertAll found.files).insertAll found.files
      = c.files.insertAll found.files := FileIndex.insertAll_self h.files
  have hbrowse : (c.browse.insertAll found.browse).insertAll found.browse
      = c.browse.insertAll found.browse := BrowsePath.insertAll_self
  simp only [update, hfiles, hbrowse]

end Configuration

end BuildTrace
