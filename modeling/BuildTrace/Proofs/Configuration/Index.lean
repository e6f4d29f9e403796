import BuildTrace.Configuration.Basic
import BuildTrace.Proofs.Path.Order

/-!
# Laws of file indices and browse paths

Setting the configuration of a file commutes with setting that of another file, and forgets what
was set for the same file before. So an index that was collected on its own can be taken in file
by file, as if the files had been set one after the other. The same holds for the directories of
a browse path.

## Main results

* `FileIndex.insertAll_insertAll` and `BrowsePath.insertAll_insertAll`: taking in a collected
  index or browse path is taking in what it was collected from;
* `FileIndex.insertAll_eq_self` and `BrowsePath.ofList_eq_self`: a sorted index and a browse path
  without repetitions are collected from themselves;
* `FileIndex.sorted_insertAll` and `BrowsePath.distinct_insertAll`: collecting keeps an index
  sorted and a browse path free of repetitions.
-/

namespace BuildTrace

open Std

namespace FileIndex

variable {f g : Path} {c d : FileConfiguration} {index base : FileIndex}

/-- The files stand in the order of their paths, each path once. -/
def Sorted (index : FileIndex) : Prop := index.Pairwise fun a b => a.1.compare b.1 = .lt

/-- The file is none of the files of the index. -/
def Lacks (index : FileIndex) (f : Path) : Prop := ∀ pair ∈ index, f.compare pair.1 ≠ .eq

/-- A configuration that is set for a file replaces the one set before. -/
theorem insert_insert_same (h : g.compare f = .eq) :
    insert g d (insert f c index) = insert f d index := by
  induction index with
  | nil => simp [insert, h]
  | cons pair index ih =>
    obtain ⟨k, v⟩ := pair
    -- Both files go to the same place of the index.
    have hk : g.compare k = f.compare k := Path.compare_congr_left h k
    cases hf : f.compare k with
    | lt => simp [insert, hf, h]
    | eq => simp [insert, hf, hk]
    | gt => simp [insert, hf, hk, ih]

/-- Configurations of different files may be set in either order. -/
theorem insert_comm (h : f.compare g ≠ .eq) :
    insert f c (insert g d index) = insert g d (insert f c index) := by
  have hswap : g.compare f = (f.compare g).swap := OrientedCmp.eq_swap
  induction index with
  | nil => cases hfg : f.compare g <;> simp_all [insert]
  | cons pair index ih =>
    obtain ⟨k, v⟩ := pair
    cases hfk : f.compare k <;> cases hgk : g.compare k
    -- Both files go in front of the same pair: their own order decides.
    case lt.lt => cases hfg : f.compare g <;> simp_all [insert]
    case eq.eq => exact absurd (TransCmp.eq_trans hfk (OrientedCmp.eq_symm hgk)) h
    -- One of the files goes behind the other or in its place: that tells their own order.
    case lt.eq =>
      have hfg : f.compare g = .lt := (Path.compare_congr_right hgk f).trans hfk
      simp [insert, hfk, hgk, hswap, hfg]
    case eq.lt =>
      have hgf : g.compare f = .lt := (Path.compare_congr_right hfk g).trans hgk
      have hfg : f.compare g = .gt := OrientedCmp.gt_of_lt hgf
      simp [insert, hfk, hgk, hfg]
    case lt.gt =>
      have hgf : g.compare f = .gt := OrientedCmp.gt_of_lt
        (TransCmp.lt_trans hfk (OrientedCmp.lt_of_gt hgk))
      simp [insert, hfk, hgk, hgf]
    case gt.lt =>
      have hfg : f.compare g = .gt := OrientedCmp.gt_of_lt
        (TransCmp.lt_trans hgk (OrientedCmp.lt_of_gt hfk))
      simp [insert, hfk, hgk, hfg]
    -- Different places: the changes do not meet.
    case eq.gt => simp [insert, hfk, hgk]
    case gt.eq => simp [insert, hfk, hgk]
    case gt.gt => simp [insert, hfk, hgk, ih]

/-! ## Sorted indices -/

/-- The pairs of an index in which a file was set: the new one, maybe with the path the file was
written with, and those that were there. -/
theorem mem_insert {pair : Path × FileConfiguration} (h : pair ∈ insert f c index) :
    pair = (f, c) ∨ pair ∈ index ∨ ∃ k, pair = (k, c) ∧ ∃ v, (k, v) ∈ index := by
  -- By induction on the index; a file of the same place keeps the path that is there.
  induction index with
  | nil => exact .inl (by simpa [insert] using h)
  | cons head index ih =>
    obtain ⟨k, v⟩ := head
    cases hk : f.compare k with
    | lt =>
      simp only [insert, hk, List.mem_cons] at h
      rcases h with h | h | h
      · exact .inl h
      · exact .inr (.inl (by simp [h]))
      · exact .inr (.inl (by simp [h]))
    | eq =>
      simp only [insert, hk, List.mem_cons] at h
      rcases h with h | h
      · exact .inr (.inr ⟨k, h, v, by simp⟩)
      · exact .inr (.inl (by simp [h]))
    | gt =>
      simp only [insert, hk, List.mem_cons] at h
      rcases h with h | h
      · exact .inr (.inl (by simp [h]))
      · rcases ih h with h | h | ⟨k', h, v', hv⟩
        · exact .inl h
        · exact .inr (.inl (by simp [h]))
        · exact .inr (.inr ⟨k', h, v', by simp [hv]⟩)

/-- What holds of all configurations that are put together holds of those of the index. -/
theorem forall_mem_insertAll {P : FileConfiguration → Prop}
    {files : List (Path × FileConfiguration)} (hindex : ∀ pair ∈ index, P pair.2)
    (hfiles : ∀ pair ∈ files, P pair.2) : ∀ pair ∈ index.insertAll files, P pair.2 := by
  induction files generalizing index with
  | nil => exact hindex
  | cons file files ih =>
    obtain ⟨hfile, hrest⟩ := List.forall_mem_cons.mp hfiles
    refine ih (fun pair hpair => ?_) hrest
    rcases mem_insert hpair with rfl | hpair | ⟨_, rfl, _⟩
    · exact hfile
    · exact hindex pair hpair
    · exact hfile

/-- A path is among those of an index after a file was set if it is that of the file, or was
there before. -/
theorem key_of_mem_insert {pair : Path × FileConfiguration} (h : pair ∈ insert f c index) :
    pair.1 = f ∨ ∃ v, (pair.1, v) ∈ index := by
  rcases mem_insert h with rfl | h | ⟨k, rfl, v, hv⟩
  · exact .inl rfl
  · exact .inr ⟨pair.2, h⟩
  · exact .inr ⟨v, hv⟩

theorem sorted_insert (h : Sorted index) : Sorted (insert f c index) := by
  induction index with
  | nil => simp [insert, Sorted]
  | cons head index ih =>
    obtain ⟨k, v⟩ := head
    obtain ⟨hk, htail⟩ := List.pairwise_cons.mp h
    cases hfk : f.compare k with
    | lt =>
      simp only [insert, hfk]
      refine List.pairwise_cons.mpr ⟨fun pair hpair => ?_, h⟩
      rcases List.mem_cons.mp hpair with rfl | hpair
      · exact hfk
      · exact TransCmp.lt_trans hfk (hk pair hpair)
    | eq =>
      simp only [insert, hfk]
      exact List.pairwise_cons.mpr ⟨hk, htail⟩
    | gt =>
      simp only [insert, hfk]
      refine List.pairwise_cons.mpr ⟨fun pair hpair => ?_, ih htail⟩
      rcases key_of_mem_insert hpair with hkey | ⟨w, hw⟩
      · simpa [hkey] using OrientedCmp.lt_of_gt hfk
      · exact hk (pair.1, w) hw

theorem sorted_insertAll {files : List (Path × FileConfiguration)} (h : Sorted index) :
    Sorted (index.insertAll files) := by
  induction files generalizing index with
  | nil => exact h
  | cons pair files ih => exact ih (sorted_insert h)

theorem sorted_nil : Sorted [] := List.Pairwise.nil

/-- The first file of a sorted index is none of the others. -/
theorem Sorted.lacks_head {pair : Path × FileConfiguration} (h : Sorted (pair :: index)) :
    Lacks index pair.1 := by
  intro other hother
  rw [(List.pairwise_cons.mp h).1 other hother]
  exact nofun

/-! ## Taking in an index -/

/-- A file that is not taken in may be set before or after the others. -/
theorem insertAll_insert_comm {files : FileIndex} (h : Lacks files f) :
    (insert f c base).insertAll files = insert f c (base.insertAll files) := by
  induction files generalizing base with
  | nil => rfl
  | cons pair files ih =>
    obtain ⟨k, v⟩ := pair
    have hk : k.compare f ≠ .eq := fun hk => h (k, v) (by simp) (OrientedCmp.eq_symm hk)
    have hrest : Lacks files f := fun other hother => h other (by simp [hother])
    calc (insert f c base).insertAll ((k, v) :: files)
        = (insert k v (insert f c base)).insertAll files := rfl
      _ = (insert f c (insert k v base)).insertAll files := by rw [insert_comm hk]
      _ = insert f c ((insert k v base).insertAll files) := ih hrest

/-- Taking in an index in which a file was set last is setting that file last. -/
theorem insertAll_insert (h : Sorted index) :
    base.insertAll (insert f c index) = insert f c (base.insertAll index) := by
  induction index generalizing base with
  | nil => rfl
  | cons pair index ih =>
    obtain ⟨k, v⟩ := pair
    have htail : Sorted index := (List.pairwise_cons.mp h).2
    cases hfk : f.compare k with
    | lt =>
      -- The file goes in front of the whole index and is none of its files, so it may as well be
      -- set last.
      have hlacks : Lacks ((k, v) :: index) f := by
        have hsorted := sorted_insert (f := f) (c := c) h
        simp only [insert, hfk] at hsorted
        exact hsorted.lacks_head
      simp only [insert, hfk]
      exact insertAll_insert_comm hlacks
    | eq =>
      -- The file takes the place of the first one, which is none of the others.
      have hlacks : Lacks index f := by
        intro other hother
        rw [Path.compare_congr_left hfk]
        exact h.lacks_head other hother
      simp only [insert, hfk]
      calc (insert k c base).insertAll index
          = (insert f c (insert k v base)).insertAll index := by rw [insert_insert_same hfk]
        _ = insert f c ((insert k v base).insertAll index) := insertAll_insert_comm hlacks
    | gt =>
      simp only [insert, hfk]
      exact ih htail

/-- Taking in an index that was collected from files is taking in these files. -/
theorem insertAll_insertAll {files : List (Path × FileConfiguration)} (h : Sorted index) :
    base.insertAll (index.insertAll files) = (base.insertAll index).insertAll files := by
  induction files generalizing index with
  | nil => rfl
  | cons pair files ih =>
    calc base.insertAll ((insert pair.1 pair.2 index).insertAll files)
        = (base.insertAll (insert pair.1 pair.2 index)).insertAll files := ih (sorted_insert h)
      _ = (insert pair.1 pair.2 (base.insertAll index)).insertAll files := by
          rw [insertAll_insert h]

/-- A file that goes behind all files of an index is set at its end. -/
theorem insert_of_forall_gt (h : ∀ pair ∈ index, f.compare pair.1 = .gt) :
    insert f c index = index ++ [(f, c)] := by
  induction index with
  | nil => rfl
  | cons pair index ih =>
    have hpair := h pair (by simp)
    simp only [insert, hpair, List.cons_append]
    rw [ih fun other hother => h other (by simp [hother])]

theorem insertAll_of_sorted (h : Sorted (base ++ index)) :
    base.insertAll index = base ++ index := by
  induction index generalizing base with
  | nil => simp [insertAll]
  | cons pair index ih =>
    -- The first file taken in goes behind all that are there, and so on.
    have hbehind : ∀ other ∈ base, pair.1.compare other.1 = .gt := fun other hother =>
      OrientedCmp.gt_of_lt ((List.pairwise_append.mp h).2.2 other hother pair (by simp))
    have happend : base ++ pair :: index = (base ++ [pair]) ++ index := by simp
    calc base.insertAll (pair :: index)
        = (insert pair.1 pair.2 base).insertAll index := rfl
      _ = (base ++ [pair]).insertAll index := by rw [insert_of_forall_gt hbehind]
      _ = (base ++ [pair]) ++ index := ih (happend ▸ h)
      _ = base ++ pair :: index := happend.symm

/-- A sorted index is collected from itself. -/
theorem insertAll_eq_self (h : Sorted index) : insertAll [] index = index :=
  @insertAll_of_sorted index [] h

theorem mem_of_mem_lastOfEach {pair : Path × FileConfiguration}
    {files : List (Path × FileConfiguration)} (h : pair ∈ lastOfEach files) : pair ∈ files := by
  induction files with
  | nil => exact h
  | cons file files ih =>
    rw [lastOfEach] at h
    split at h
    · exact List.mem_cons_of_mem _ (ih h)
    · rcases List.mem_cons.mp h with rfl | h
      · exact List.mem_cons_self
      · exact List.mem_cons_of_mem _ (ih h)

/-- In a sorted index every pair is the last one with its path. -/
theorem lastOfEach_of_sorted (h : Sorted index) : lastOfEach index = index := by
  induction index with
  | nil => rfl
  | cons pair index ih =>
    -- In a sorted index no later pair has the path of the first one.
    have hnone : index.any (·.1.same pair.1) = false := by
      rw [List.any_eq_false]
      intro other hother hsame
      rw [Path.same_comm, Path.same_iff_compare] at hsame
      exact h.lacks_head other hother hsame
    rw [lastOfEach, hnone, ih (List.pairwise_cons.mp h).2]
    rfl

end FileIndex

namespace BrowsePath

variable {directory : Path} {browse base : BrowsePath}

/-- No directory is the same as another one. -/
def Distinct (browse : BrowsePath) : Prop := browse.Pairwise fun a b => a.same b = false

theorem insert_of_any (h : browse.any (·.same directory) = true) :
    browse.insert directory = browse := by
  rw [BrowsePath.insert, if_pos h]

theorem any_insert_self : (browse.insert directory).any (·.same directory) = true := by
  by_cases h : browse.any (·.same directory) = true
  · rwa [insert_of_any h]
  · rw [BrowsePath.insert, if_neg h]
    simp [Path.same_self]

theorem any_insert {other : Path} (h : browse.any (·.same directory) = true) :
    (browse.insert other).any (·.same directory) = true := by
  rw [BrowsePath.insert]
  split
  · exact h
  · rw [List.any_append, h, Bool.true_or]

/-- A directory that is there stays there. -/
theorem any_insertAll_of_any {directories : List Path}
    (h : browse.any (·.same directory) = true) :
    (browse.insertAll directories).any (·.same directory) = true := by
  induction directories generalizing browse with
  | nil => exact h
  | cons other directories ih => exact ih (any_insert h)

/-- A directory that is taken in is there afterwards. -/
theorem any_insertAll {directories : List Path}
    (h : directories.any (·.same directory) = true) :
    (base.insertAll directories).any (·.same directory) = true := by
  induction directories generalizing base with
  | nil => simp at h
  | cons other directories ih =>
    rw [List.any_cons, Bool.or_eq_true] at h
    rcases h with h | h
    -- The directory is the same as the first one taken in, which is there from then on.
    · have hsame : (fun d : Path => d.same directory) = fun d => d.same other :=
        funext fun d => (Path.same_congr_right (Path.same_iff_compare.mp h) d).symm
      have hself : (base.insert other).any (·.same directory) = true := by
        rw [hsame]
        exact any_insert_self
      change List.any ((base.insert other).insertAll directories) _ = true
      exact any_insertAll_of_any hself
    · exact ih h

/-- Taking in a browse path to which a directory was added last is adding it last. -/
theorem insertAll_insert :
    base.insertAll (browse.insert directory) = (base.insertAll browse).insert directory := by
  by_cases h : browse.any (·.same directory) = true
  · rw [insert_of_any h, insert_of_any (any_insertAll h)]
  · rw [BrowsePath.insert.eq_def browse, if_neg h, insertAll, List.foldl_append]
    rfl

/-- Taking in a browse path that was collected from directories is taking in these. -/
theorem insertAll_insertAll {directories : List Path} :
    base.insertAll (browse.insertAll directories)
      = (base.insertAll browse).insertAll directories := by
  induction directories generalizing browse with
  | nil => rfl
  | cons directory directories ih =>
    calc base.insertAll ((browse.insert directory).insertAll directories)
        = (base.insertAll (browse.insert directory)).insertAll directories := ih
      _ = ((base.insertAll browse).insert directory).insertAll directories := by
          rw [insertAll_insert]

theorem distinct_insert (h : Distinct browse) : Distinct (browse.insert directory) := by
  rw [BrowsePath.insert]
  split
  · exact h
  · rename_i hnone
    refine List.pairwise_append.mpr ⟨h, by simp, fun other hother d hd => ?_⟩
    rw [List.mem_singleton.mp hd]
    simp only [List.any_eq_true, not_exists, not_and] at hnone
    exact Bool.eq_false_iff.mpr (hnone other hother)

theorem distinct_insertAll {directories : List Path} (h : Distinct browse) :
    Distinct (browse.insertAll directories) := by
  induction directories generalizing browse with
  | nil => exact h
  | cons directory directories ih => exact ih (distinct_insert h)

theorem insertAll_of_distinct (h : Distinct (base ++ browse)) :
    base.insertAll browse = base ++ browse := by
  induction browse generalizing base with
  | nil => simp [insertAll]
  | cons directory browse ih =>
    have hnone : ¬ base.any (·.same directory) = true := by
      simp only [List.any_eq_true, not_exists, not_and]
      intro other hother
      exact Bool.eq_false_iff.mp ((List.pairwise_append.mp h).2.2 other hother directory (by simp))
    have happend : base ++ directory :: browse = (base ++ [directory]) ++ browse := by simp
    calc base.insertAll (directory :: browse)
        = (base.insert directory).insertAll browse := rfl
      _ = (base ++ [directory]).insertAll browse := by rw [BrowsePath.insert, if_neg hnone]
      _ = (base ++ [directory]) ++ browse := ih (happend ▸ h)
      _ = base ++ directory :: browse := happend.symm

/-- A browse path without repetitions is collected from itself. -/
theorem ofList_eq_self (h : Distinct browse) : ofList browse = browse :=
  @insertAll_of_distinct browse [] h

end BrowsePath

end BuildTrace
