import BuildTrace.LaunchTarget.Extraction
import BuildTrace.Proofs.Directory.Followed
import BuildTrace.Proofs.LaunchTarget.Place

/-!
# Launch targets of a trace

However a trace moves between directories, the targets that are found in it have directories given
from the root and settled binaries, and none of their arguments is empty. So such a target is
legible unless one of the marks of its canonical form is in its own directory or arguments.

## Main definitions

* `LaunchTarget.Placed`: targets in such directories, with settled binaries.

## Main results

* `LaunchTarget.Extractor.placed_of_extract?`: all targets of a trace are placed;
* `LaunchTarget.Extractor.legible_iff_of_extract?`: which of them are legible;
* `LaunchTarget.mem_dedup_iff`: the first target of each canonical form is left;
* `LaunchTarget.dedup_dedup_append` and `LaunchTarget.dedup_append_dedup`: targets that are put
  together may be gone through before;
* `LaunchTarget.dedup_append_self`: targets can be added again;
* `LaunchTarget.Extractor.nodup_of_extract?`: each canonical form is found once.
-/

namespace BuildTrace

/-- What is resolved against a directory that is given from the root is given from there, too. -/
theorem Path.rooted_resolve (base : Path) (hbase : base.Rooted) (written : String) :
    (resolve written base).Rooted :=
  (settled_resolve hbase.absolute written).rooted

/-- The path of an invocation is resolved against the directory. -/
theorem Tool.Matcher.settled_of_invocation? {m : Tool.Matcher} {isFile : Path → Bool}
    {line : String} {base : Path} {i : Tool.Invocation} (hbase : base.isAbsolute = true)
    (h : m.invocation? isFile line base = some i) : i.fullPath.Settled := by
  rw [invocation?, Option.bind_eq_some_iff] at h
  obtain ⟨c, _, h⟩ := h
  have hresolved := Path.settled_resolve hbase (String.ofList (c.directory ++ m.fileName c))
  generalize Path.resolve (String.ofList (c.directory ++ m.fileName c)) base = fullPath
    at h hresolved
  dsimp only at h
  split at h
  · cases h
  · cases h
    exact hresolved

/-- No word is empty. -/
theorem Text.nil_not_mem_words (s : List Char) : [] ∉ Text.words s := by
  induction s with
  | nil => exact List.not_mem_nil
  | cons c s ih =>
    rw [Text.words.eq_def]
    dsimp only
    split
    · exact ih
    -- The character begins a word, or joins the first one that is there.
    · generalize Text.words s = words at ih
      cases words with
      | nil =>
        show [] ∉ [[c]]
        exact fun h => List.cons_ne_nil c [] (List.mem_singleton.mp h).symm
      | cons word words =>
        have hwords : [] ∉ words := fun h => ih (List.mem_cons_of_mem _ h)
        have hconsed : ∀ startsBlank : Bool,
            [] ∉ if startsBlank then [c] :: word :: words else (c :: word) :: words := by
          intro startsBlank
          cases startsBlank with
          | true => simpa using ih
          | false => simpa using hwords
        exact hconsed _

namespace LaunchTarget

/-! ## The first targets of their canonical forms -/

/-- The targets that are left when those with the same canonical form are gone were there before, in
the same order. -/
theorem dedupFrom_sublist (seen : List String) (targets : List LaunchTarget) :
    (dedupFrom seen targets).Sublist targets := by
  induction targets generalizing seen with
  | nil => exact List.Sublist.slnil
  | cons t targets ih =>
    rw [dedupFrom]
    split
    · exact (ih seen).cons t
    · exact (ih _).cons_cons t

theorem mem_of_mem_dedup {targets : List LaunchTarget} {t : LaunchTarget}
    (h : t ∈ dedup targets) : t ∈ targets :=
  (dedupFrom_sublist [] targets).subset h

/-- Of the targets that are left, no two have the same canonical form. -/
theorem nodup_canonical_dedup (targets : List LaunchTarget) :
    ((dedup targets).map canonical).Nodup := by
  -- What has been met does not come again, so it goes into the induction.
  have hfrom : ∀ seen, ((dedupFrom seen targets).map canonical).Nodup ∧
      ∀ form ∈ (dedupFrom seen targets).map canonical, form ∉ seen := by
    induction targets with
    | nil => exact fun _ => ⟨List.nodup_nil, List.forall_mem_nil _⟩
    | cons t targets ih =>
      intro seen
      rw [dedupFrom]
      split
      · exact ih seen
      next hnew =>
        obtain ⟨hnodup, hrest⟩ := ih (t.canonical :: seen)
        have hfirst : t.canonical ∉ seen := fun hseen => hnew (List.contains_iff_mem.mpr hseen)
        rw [List.map_cons]
        refine ⟨List.nodup_cons.mpr ⟨?_, hnodup⟩, List.forall_mem_cons.mpr ⟨hfirst, ?_⟩⟩
        · exact fun hmem => hrest _ hmem List.mem_cons_self
        · exact fun form hform hseen => hrest form hform (List.mem_cons_of_mem _ hseen)
  exact (hfrom []).1

/-- A target is left if it is the first one of its canonical form, and that had not been met. -/
theorem mem_dedupFrom_iff {seen : List String} {targets : List LaunchTarget} {t : LaunchTarget} :
    t ∈ dedupFrom seen targets ↔
      t.canonical ∉ seen ∧ targets.find? (·.canonical == t.canonical) = some t := by
  induction targets generalizing seen with
  | nil => simp [dedupFrom]
  | cons first rest ih =>
    by_cases hform : first.canonical = t.canonical
    · by_cases hseen : t.canonical ∈ seen
      · simp [dedupFrom, hform, hseen, ih]
      -- The first target is the only one of its form that is left.
      · have hfirst : t = first ↔ first = t := eq_comm
        simp [dedupFrom, hform, hseen, ih, hfirst]
    · have hne : t ≠ first := fun heq => hform (heq ▸ rfl)
      by_cases hseen : first.canonical ∈ seen
      · simp [dedupFrom, hform, hseen, ih]
      · simp [dedupFrom, hform, hseen, hne, Ne.symm hform, ih]

/-- What is left are the first targets of their canonical forms. -/
theorem mem_dedup_iff {targets : List LaunchTarget} {t : LaunchTarget} :
    t ∈ dedup targets ↔ targets.find? (·.canonical == t.canonical) = some t := by
  simp [dedup, mem_dedupFrom_iff]

/-- Every canonical form is left. -/
theorem exists_mem_dedup {targets : List LaunchTarget} {t : LaunchTarget} (h : t ∈ targets) :
    ∃ first ∈ dedup targets, first.canonical = t.canonical := by
  have hsome : (targets.find? (·.canonical == t.canonical)).isSome = true := by
    rw [List.find?_isSome]
    exact ⟨t, h, by simp⟩
  obtain ⟨first, hfirst⟩ := Option.isSome_iff_exists.mp hsome
  have hform : first.canonical = t.canonical := by simpa using List.find?_some hfirst
  exact ⟨first, mem_dedup_iff.mpr (hform ▸ hfirst), hform⟩

/-- What is met first does not matter if it is met anyway. -/
theorem dedupFrom_dedupFrom {seen others : List String} (h : seen ⊆ others)
    (targets : List LaunchTarget) :
    dedupFrom others (dedupFrom seen targets) = dedupFrom others targets := by
  induction targets generalizing seen others with
  | nil => rfl
  | cons t targets ih =>
    by_cases hseen : t.canonical ∈ seen
    · have hothers := h hseen
      simp [dedupFrom, hseen, hothers, ih h]
    · by_cases hothers : t.canonical ∈ others
      · have hsub : t.canonical :: seen ⊆ others := List.cons_subset.mpr ⟨hothers, h⟩
        simp [dedupFrom, hseen, hothers, ih hsub]
      · have hsub : t.canonical :: seen ⊆ t.canonical :: others := List.cons_subset_cons _ h
        simp [dedupFrom, hseen, hothers, ih hsub]

/-- Only which canonical forms have been met matters, not how often or in which order. -/
theorem dedupFrom_congr {seen others : List String} (h : ∀ form, form ∈ seen ↔ form ∈ others)
    (targets : List LaunchTarget) : dedupFrom seen targets = dedupFrom others targets := by
  induction targets generalizing seen others with
  | nil => rfl
  | cons t targets ih =>
    have hcons : ∀ form, form ∈ t.canonical :: seen ↔ form ∈ t.canonical :: others := by
      simp [h]
    simp [dedupFrom, h, ih h, ih hcons]

/-- Of two lists, the second one is gone through when the forms of the first one have been met. -/
theorem dedupFrom_append (seen : List String) (targets found : List LaunchTarget) :
    dedupFrom seen (targets ++ found)
      = dedupFrom seen targets ++ dedupFrom (targets.map canonical ++ seen) found := by
  induction targets generalizing seen with
  | nil => rfl
  | cons t targets ih =>
    by_cases hseen : t.canonical ∈ seen
    · have hforms : dedupFrom (t.canonical :: (targets.map canonical ++ seen)) found
          = dedupFrom (targets.map canonical ++ seen) found := by
        refine dedupFrom_congr (fun form => ?_) found
        have hmem : form = t.canonical → form ∈ seen := fun h => h ▸ hseen
        simpa using fun h => .inr (hmem h)
      simp [dedupFrom, hseen, ih, hforms]
    · have hforms : dedupFrom (targets.map canonical ++ t.canonical :: seen) found
          = dedupFrom (t.canonical :: (targets.map canonical ++ seen)) found :=
        dedupFrom_congr (by simp [or_left_comm]) found
      simp [dedupFrom, hseen, ih, hforms]

/-- The first list may be gone through on its own before. -/
theorem dedup_dedup_append (targets found : List LaunchTarget) :
    dedup (dedup targets ++ found) = dedup (targets ++ found) := by
  have hforms : ∀ form, form ∈ (dedup targets).map canonical ++ [] ↔
      form ∈ targets.map canonical ++ [] := by
    intro form
    simp only [List.append_nil, List.mem_map]
    refine ⟨fun ⟨t, ht, hform⟩ => ⟨t, mem_of_mem_dedup ht, hform⟩, fun ⟨t, ht, hform⟩ => ?_⟩
    obtain ⟨first, hfirst, hsame⟩ := exists_mem_dedup ht
    exact ⟨first, hfirst, hsame.trans hform⟩
  have hself : dedup (dedup targets) = dedup targets :=
    dedupFrom_dedupFrom (List.Subset.refl _) targets
  calc dedup (dedup targets ++ found)
      = dedup (dedup targets) ++ dedupFrom ((dedup targets).map canonical ++ []) found :=
        dedupFrom_append [] _ _
    _ = dedup targets ++ dedupFrom (targets.map canonical ++ []) found := by
        rw [hself, dedupFrom_congr hforms]
    _ = dedup (targets ++ found) := (dedupFrom_append [] targets found).symm

/-- So may the second one. -/
theorem dedup_append_dedup (targets found : List LaunchTarget) :
    dedup (targets ++ dedup found) = dedup (targets ++ found) := by
  have hfound : dedupFrom (targets.map canonical ++ []) (dedup found)
      = dedupFrom (targets.map canonical ++ []) found :=
    dedupFrom_dedupFrom (List.nil_subset _) found
  calc dedup (targets ++ dedup found)
      = dedup targets ++ dedupFrom (targets.map canonical ++ []) (dedup found) :=
        dedupFrom_append [] _ _
    _ = dedup targets ++ dedupFrom (targets.map canonical ++ []) found := by rw [hfound]
    _ = dedup (targets ++ found) := (dedupFrom_append [] targets found).symm

/-- Targets that have been added change nothing when they are added again. -/
theorem dedup_append_self (known found : List LaunchTarget) :
    dedup (dedup (known ++ found) ++ found) = dedup (known ++ found) := by
  have hnothing : dedupFrom ((known ++ found).map canonical ++ []) found = [] := by
    refine List.eq_nil_iff_forall_not_mem.mpr fun t ht => ?_
    have hmem : t ∈ known ++ found :=
      List.mem_append_right known ((dedupFrom_sublist _ _).subset ht)
    exact (mem_dedupFrom_iff.mp ht).1 (by simpa using List.mem_map_of_mem (f := canonical) hmem)
  calc dedup (dedup (known ++ found) ++ found)
      = dedup (known ++ found ++ found) := dedup_dedup_append _ _
    _ = dedup (known ++ found) ++ dedupFrom ((known ++ found).map canonical ++ []) found :=
        dedupFrom_append [] _ _
    _ = dedup (known ++ found) := by rw [hnothing, List.append_nil]

/-! ## The targets of a trace -/

/-- The target is in a place that is given from the root, and none of its arguments is empty. -/
structure Placed (t : LaunchTarget) : Prop where
  /-- The directory is given from the root. -/
  directory : t.directory.Rooted
  /-- The binary is settled. -/
  binary : t.binary.Settled
  /-- No argument is empty. -/
  arguments : "" ∉ t.arguments

/-- Only the marks of its canonical form get in the way of a placed target. -/
theorem Placed.legible_iff {t : LaunchTarget} (h : t.Placed) :
    t.Legible ↔ '>' ∉ t.directory.text.toList ∧
      Balanced ([','].intercalate (t.arguments.map String.toList)) ∧
      ∀ a ∈ t.arguments, ',' ∉ a.toList := by
  have harguments : t.arguments ≠ [""] := fun heq => h.arguments (heq ▸ List.mem_singleton_self _)
  rw [LaunchTarget.legible_iff h.directory h.binary]
  simp only [harguments, ne_eq, not_false_eq_true, and_true]

namespace Extractor

variable {ω : Type} {x : Extractor} {isCancelled : ω → Bool} {chunkSize : Nat} {trace : String}
  {found : List LaunchTarget} {w : ω}

/-- The binary a line produces is settled. -/
theorem settled_of_binaryOf? {line : String} {base binary : Path} (hbase : base.isAbsolute = true)
    (h : x.binaryOf? line base = some binary) : binary.Settled := by
  obtain ⟨written, _, rfl⟩ := Option.map_eq_some_iff.mp h
  exact Path.settled_resolve hbase written

/-- No argument that a line gives to a program is empty. -/
theorem empty_not_mem_runArguments (arguments : String) : "" ∉ runArguments arguments := by
  intro h
  obtain ⟨word, hword, hempty⟩ := List.mem_map.mp h
  rw [String.ofList_eq_empty_iff.mp hempty] at hword
  exact Text.nil_not_mem_words _ (List.takeWhile_subset _ hword)

/-! ### The two passes -/

/-- The first pass looks at what the lines produce. -/
theorem binaryScanner_follows (x : Extractor) :
    (x.binaryScanner (ω := ω)).Follows fun line base w =>
      (((x.binaryOf? line base).map (LaunchTarget.mk · x.root [])).toList, w) := by
  refine ⟨fun line history w => ?_, fun _ => rfl⟩
  simp only [binaryScanner, LineScanner.ofPure]
  cases history.follow? line <;> rfl

/-- The second pass looks at the binaries that the lines run. -/
theorem invocationScanner_follows (x : Extractor) (binaries : List LaunchTarget) :
    (x.invocationScanner binaries (ω := ω)).Follows fun line base w =>
      ((((x.runMatcher binaries).invocation? x.isFile line base).map fun i =>
        LaunchTarget.mk i.fullPath base (runArguments i.arguments)).toList, w) := by
  refine ⟨fun line history w => ?_, fun _ => rfl⟩
  simp only [invocationScanner, LineScanner.ofPure]
  cases history.follow? line <;> rfl

/-- An extraction that is not cancelled has read the trace for binaries and then, if there are any,
for what runs them. -/
theorem exists_of_extract? (h : (x.extract? isCancelled chunkSize trace w).1 = some found) :
    ∃ binaries w₁, Scan.complete? x.binaryScanner isCancelled chunkSize trace (.start x.root) w
        = (some binaries, w₁) ∧
      ((dedup binaries).isEmpty = true ∧ found = [] ∨
        (dedup binaries).isEmpty = false ∧ ∃ runs,
          (Scan.complete? (x.invocationScanner (dedup binaries)) isCancelled chunkSize trace
            (.start x.root) w₁).1 = some runs ∧
          found = dedup (dedup binaries ++ runs)) := by
  rw [extract?] at h
  dsimp only at h
  split at h
  · cases h
  next binaries w₁ hfirst =>
  refine ⟨binaries, w₁, hfirst, ?_⟩
  split at h
  next hempty => exact .inl ⟨hempty, (Option.some.inj h).symm⟩
  next hempty =>
  split at h
  · cases h
  next runs w₂ hsecond =>
    exact .inr ⟨Bool.eq_false_iff.mpr hempty, runs, congrArg Prod.fst hsecond,
      (Option.some.inj h).symm⟩

/-- A target of a trace comes from a line that makes a program, or from a line that runs one. -/
theorem forall_mem_extract? {Q : LaunchTarget → Prop}
    (hbinaries : ∀ w found, (Scan.complete? x.binaryScanner isCancelled chunkSize trace
      (.start x.root) w).1 = some found → ∀ t ∈ found, Q t)
    (hruns : ∀ binaries w found, (Scan.complete? (x.invocationScanner binaries) isCancelled
      chunkSize trace (.start x.root) w).1 = some found → ∀ t ∈ found, Q t)
    (h : (x.extract? isCancelled chunkSize trace w).1 = some found) : ∀ t ∈ found, Q t := by
  obtain ⟨binaries, w₁, hfirst, ⟨-, rfl⟩ | ⟨-, runs, hsecond, rfl⟩⟩ := exists_of_extract? h
  · exact nofun
  · intro t ht
    rcases List.mem_append.mp (mem_of_mem_dedup ht) with ht | ht
    · exact hbinaries w binaries (congrArg Prod.fst hfirst) t (mem_of_mem_dedup ht)
    · exact hruns _ w₁ runs hsecond t ht

/-- All targets that are found in a trace are placed. -/
theorem placed_of_extract? (hroot : x.root.Rooted)
    (h : (x.extract? isCancelled chunkSize trace w).1 = some found) : ∀ t ∈ found, t.Placed := by
  refine forall_mem_extract? (fun w found => ?_) (fun binaries w found => ?_) h
  · refine (binaryScanner_follows x).forall_mem_complete? Path.rooted_resolve hroot ?_
    intro line base w hbase t ht
    obtain ⟨binary, hbinary, rfl⟩ := Option.map_eq_some_iff.mp (Option.mem_toList.mp ht)
    exact ⟨hroot, settled_of_binaryOf? hbase.absolute hbinary, List.not_mem_nil⟩
  · refine (invocationScanner_follows x binaries).forall_mem_complete? Path.rooted_resolve hroot ?_
    intro line base w hbase t ht
    obtain ⟨i, hi, rfl⟩ := Option.map_eq_some_iff.mp (Option.mem_toList.mp ht)
    exact ⟨hbase, Tool.Matcher.settled_of_invocation? hbase.absolute hi,
      empty_not_mem_runArguments _⟩

/-- Each canonical form is found once in a trace. -/
theorem nodup_of_extract? (h : (x.extract? isCancelled chunkSize trace w).1 = some found) :
    (found.map canonical).Nodup := by
  obtain ⟨binaries, w₁, -, ⟨-, rfl⟩ | ⟨-, runs, -, rfl⟩⟩ := exists_of_extract? h
  · exact List.nodup_nil
  · exact nodup_canonical_dedup _

/-- A target that is found in a trace is legible unless `>` is in its directory, a comma in one of
its arguments, or a parenthesis in them does not belong to another one. -/
theorem legible_iff_of_extract? (hroot : x.root.Rooted)
    (h : (x.extract? isCancelled chunkSize trace w).1 = some found) {t : LaunchTarget}
    (ht : t ∈ found) :
    t.Legible ↔ '>' ∉ t.directory.text.toList ∧
      Balanced ([','].intercalate (t.arguments.map String.toList)) ∧
      ∀ a ∈ t.arguments, ',' ∉ a.toList :=
  (placed_of_extract? hroot h t ht).legible_iff

end Extractor

end LaunchTarget

end BuildTrace
