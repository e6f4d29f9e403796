import BuildTrace.BuildTarget.Extraction
import BuildTrace.Proofs.Scan.Chunk
import BuildTrace.Proofs.Text.Occurrence

/-!
# Declarations of build targets

A database dump declares a target on a line if the line is a rule for it, stands in a section of the
files, goes on with no line before it, and is not denied by the last line before it that counts. All
that is said about the lines of the dump, without a reader that remembers anything; this module
proves that the extraction finds exactly the targets that are declared so.

## Main definitions

* `BuildTarget.SectionFrom`: the section of the files that a line stands in;
* `BuildTarget.Denied`: what comes next is announced as no target;
* `BuildTarget.Rule`: a line with a rule;
* `BuildTarget.Declares`: a line of the dump declares a target.

## Main results

* `BuildTarget.Reads.step`: what a reader knows of the lines it has read;
* `BuildTarget.extract?_declared`: the extraction finds the declared targets, in order.
-/

namespace BuildTrace.BuildTarget

/-! ## The dump without a reader -/

/-- A section of the files begins or ends with the line. -/
def IsMarker (line : List Char) : Prop :=
  "# Files".toList <+: line ∨ "# Finished Make data base".toList <+: line

/-- Apart from white space, the line ends with a backslash. -/
def IsOpen (line : List Char) : Prop := (Text.trimEnd line).getLast? = some '\\'

/-- A rule for a target: its name, a colon and what it depends on. -/
structure Rule (line target : List Char) : Prop where
  /-- Behind the name there is a colon, and not an assignment. -/
  colon : ∃ rest, line = target ++ ':' :: rest ∧ rest.head? ≠ some '='
  /-- The name is not empty. -/
  nonempty : target ≠ []
  /-- The name has only characters of names. -/
  chars : ∀ c ∈ target, Text.isBlank c = false ∧ c ∉ [':', '#', '=', '%']
  /-- The name is not a special one. -/
  dot : target.head? ≠ some '.'

section Dump

variable (dump : List (List Char))

/-- Line `i` goes on with the line before it. -/
def Continues (i : Nat) : Prop := ∃ k line, i = k + 1 ∧ dump[k]? = some line ∧ IsOpen line

/-- Line `i` counts: it is not blank and does not go on with the line before it. -/
def Counts (i : Nat) : Prop :=
  (∃ line, dump[i]? = some line ∧ ∃ c ∈ line, Text.isBlank c = false) ∧ ¬Continues dump i

/-- Line `i` stands in the section of the files that begins at line `m`: that is the last marker
before it. -/
structure SectionFrom (m i : Nat) : Prop where
  /-- The marker is before the line. -/
  before : m < i
  /-- It begins a section of the files. -/
  opens : ∃ line, dump[m]? = some line ∧ "# Files".toList <+: line
  /-- There is no other marker between them. -/
  last : ∀ k line, m < k → k < i → dump[k]? = some line → ¬IsMarker line

/-- Between lines `m` and `i`, the last line that counts announces that what comes next is no
target. -/
def Denied (m i : Nat) : Prop :=
  ∃ k line, m < k ∧ k < i ∧ dump[k]? = some line ∧ Counts dump k ∧
    (∀ j, k < j → j < i → ¬Counts dump j) ∧ "# Not a target:".toList <+: line

/-- Line `i` of the dump declares the target. -/
structure Declares (i : Nat) (target : List Char) : Prop where
  /-- The line stands in a section of the files, and it is not denied there. -/
  listed : ∃ m, SectionFrom dump m i ∧ ¬Denied dump m i
  /-- The line goes on with no other line. -/
  fresh : ¬Continues dump i
  /-- The line is a rule for the target, and neither a comment nor indented. -/
  rule : ∃ line, dump[i]? = some line ∧
    (∀ c ∈ line.head?, c ≠ '#' ∧ Text.isBlank c = false) ∧ Rule line target

end Dump

/-! ## One line -/

namespace Extraction

variable {line target : List Char}

theorem isNameChar_iff {c : Char} :
    isNameChar c = true ↔ Text.isBlank c = false ∧ c ∉ [':', '#', '=', '%'] := by
  simp [isNameChar]

/-- The target of a line is the one that the line is a rule for. -/
theorem target?_eq_some_iff : target? line = some target ↔ Rule line target := by
  rw [target?]
  constructor
  · intro h
    split at h
    next rest hrest =>
      simp only [Option.ite_none_left_eq_some, Option.some.injEq] at h
      obtain ⟨hname, rfl⟩ := h
      simp only [Bool.or_eq_true, not_or, List.isEmpty_iff, beq_iff_eq] at hname
      refine ⟨⟨rest, ?_, hname.2⟩, hname.1.1, ?_, hname.1.2⟩
      · rw [← hrest, List.takeWhile_append_dropWhile]
      · exact fun c hc => isNameChar_iff.mp (List.mem_takeWhile_imp hc)
    next => cases h
  · rintro ⟨⟨rest, rfl, hequals⟩, hne, hchars, hdot⟩
    -- The name goes up to the colon, which is no character of a name.
    have hname : ∀ c ∈ target, isNameChar c = true := fun c hc => isNameChar_iff.mpr (hchars c hc)
    have htake : (target ++ ':' :: rest).takeWhile isNameChar = target := by
      rw [List.takeWhile_append_of_pos hname, List.takeWhile_cons_of_neg (by decide),
        List.append_nil]
    have hdrop : (target ++ ':' :: rest).dropWhile isNameChar = ':' :: rest := by
      rw [List.dropWhile_append_of_pos hname, List.dropWhile_cons_of_neg (by decide)]
    simp [htake, hdrop, hne, hdot, hequals]

/-- A line that does not begin with a name has no target. -/
theorem target?_of_head (h : ∀ c ∈ line.head?, isNameChar c = false) : target? line = none := by
  refine Option.eq_none_iff_forall_ne_some.mpr fun target htarget => ?_
  obtain ⟨⟨rest, rfl, -⟩, hne, hchars, -⟩ := target?_eq_some_iff.mp htarget
  obtain ⟨c, name, rfl⟩ := List.exists_cons_of_ne_nil hne
  have hc := isNameChar_iff.mpr (hchars c List.mem_cons_self)
  rw [h c rfl] at hc
  cases hc

theorem begins_iff {lead : String} : begins lead line = true ↔ lead.toList <+: line :=
  Text.startsWith_iff

/-- A line that begins like a comment has no target. -/
theorem target?_of_begins {lead : String} (hlead : lead.toList.head? = some '#')
    (h : begins lead line = true) : target? line = none := by
  obtain ⟨rest, rfl⟩ := begins_iff.mp h
  refine target?_of_head fun c hc => ?_
  rw [List.head?_append, hlead, Option.some_or] at hc
  obtain rfl := Option.some.inj hc
  decide

/-- A blank line has no target. -/
theorem target?_of_isBlankText (h : Text.isBlankText line = true) : target? line = none := by
  refine target?_of_head fun c hc => ?_
  have hblank : Text.isBlank c = true := List.all_eq_true.mp h c (List.mem_of_mem_head? hc)
  simp [isNameChar, hblank]

/-- The targets found in a line. -/
def foundIn (e : Extraction) (line : List Char) : List String :=
  if e.inSection && !e.continued && !e.skipNext then
    ((target? line).map String.ofList).toList.filter (!e.seen.contains ·)
  else []

/-- At most one target is found. -/
theorem pairwise_foundIn {R : String → String → Prop} (e : Extraction) (line : List Char) :
    (e.foundIn line).Pairwise R := by
  rw [foundIn]
  split
  · refine List.Pairwise.filter _ ?_
    cases (target? line).map String.ofList <;> simp
  · exact .nil

/-- What is found in a line, and what is known behind it, one thing at a time. -/
theorem read_eq (e : Extraction) (line : List Char) :
    e.read line = (e.foundIn line,
      { inSection := begins "# Files" line ||
          (!begins "# Finished Make data base" line && e.inSection)
        skipNext := !begins "# Files" line &&
          if begins "# Finished Make data base" line || !e.inSection || e.continued ||
            Text.isBlankText line then e.skipNext
          else begins "# Not a target:" line
        continued := (Text.trimEnd line).getLast? == some '\\'
        seen := e.foundIn line ++ e.seen }) := by
  obtain ⟨inSection, skipNext, continued, seen⟩ := e
  simp only [read]
  -- One case for each question the reader asks of a line, in its order. What a question has left
  -- open is a hypothesis of the cases behind it.
  split
  next hfiles => simp [foundIn, target?_of_begins rfl hfiles, hfiles]
  next hfiles =>
  split
  next hfinished => simp [foundIn, target?_of_begins rfl hfinished, hfiles, hfinished]
  next hfinished =>
  split
  next hpasses =>
    simp only [Bool.or_eq_true, Bool.not_eq_true'] at hpasses
    rcases hpasses with (rfl | rfl) | hblank
    · simp [foundIn, hfiles, hfinished]
    · simp [foundIn, hfiles, hfinished]
    · simp [foundIn, target?_of_isBlankText hblank, hfiles, hfinished, hblank]
  next hpasses =>
  simp only [Bool.or_eq_true, Bool.not_eq_true', not_or, Bool.not_eq_true,
    Bool.not_eq_false] at hpasses
  -- From here on the line is in the section, is not part of the one in front of it and is not
  -- blank.
  obtain ⟨⟨rfl, rfl⟩, hblank⟩ := hpasses
  split
  next hdenies => simp [foundIn, target?_of_begins rfl hdenies, hfiles, hfinished, hblank, hdenies]
  next hdenies =>
  split
  next hskip =>
    obtain rfl : skipNext = true := hskip
    simp [foundIn, hfiles, hfinished, hblank, hdenies]
  next hskip =>
  obtain rfl : skipNext = false := by simpa using hskip
  split
  next hhead =>
    have hnone : target? line = none := by
      refine target?_of_head fun c hc => ?_
      rw [hc, Option.any_some, Bool.or_eq_true, decide_eq_true_eq] at hhead
      rcases hhead with rfl | hc
      · rfl
      · simp [isNameChar, hc]
    simp [foundIn, hnone, hfiles, hfinished, hblank, hdenies]
  next hhead =>
  split
  next hnone => simp [foundIn, hnone, hfiles, hfinished, hblank, hdenies]
  next name hname =>
  split
  next hseen =>
    have hmem : String.ofList name ∈ seen := List.contains_iff_mem.mp hseen
    simp [foundIn, hname, hfiles, hfinished, hblank, hdenies, hmem]
  next hseen =>
    have hmem : String.ofList name ∉ seen := fun h => hseen (List.contains_iff_mem.mpr h)
    simp [foundIn, hname, hfiles, hfinished, hblank, hdenies, hmem]

end Extraction

/-! ## One line more -/

section Dump

variable {dump : List (List Char)} {n m : Nat} {line target : List Char}

theorem counts_iff (h : dump[n]? = some line) :
    Counts dump n ↔ Text.isBlankText line = false ∧ ¬Continues dump n := by
  simp [Counts, h, Text.isBlankText]

section Line

variable (h : dump[n]? = some line)

include h

theorem continues_succ : Continues dump (n + 1) ↔ IsOpen line := by
  constructor
  · rintro ⟨k, before, hk, hbefore, hopen⟩
    obtain rfl : n = k := Nat.succ.inj hk
    rw [h] at hbefore
    exact Option.some.inj hbefore ▸ hopen
  · exact fun hopen => ⟨n, line, rfl, h, hopen⟩

/-- A section goes on up to the next marker. -/
theorem sectionFrom_succ : SectionFrom dump m (n + 1) ↔
    (m = n ∧ "# Files".toList <+: line) ∨ (SectionFrom dump m n ∧ ¬IsMarker line) := by
  constructor
  · rintro ⟨hbefore, ⟨marker, hmarker, hopens⟩, hlast⟩
    by_cases hm : m = n
    · subst hm
      rw [h] at hmarker
      exact .inl ⟨rfl, Option.some.inj hmarker ▸ hopens⟩
    · refine .inr ⟨⟨by omega, ⟨marker, hmarker, hopens⟩, ?_⟩, hlast n line (by omega) (by omega) h⟩
      exact fun k between hmk hkn => hlast k between hmk (by omega)
  · rintro (⟨rfl, hopens⟩ | ⟨⟨hbefore, hopens, hlast⟩, hmarker⟩)
    · exact ⟨by omega, ⟨line, h, hopens⟩, fun k _ _ _ => by omega⟩
    · refine ⟨by omega, hopens, fun k between hmk hkn hbetween => ?_⟩
      by_cases hk : k = n
      · subst hk
        rw [h] at hbetween
        exact Option.some.inj hbetween ▸ hmarker
      · exact hlast k between hmk (by omega) hbetween

/-- A line that counts decides whether what comes next is denied. -/
theorem denied_succ_of_counts (hm : m < n) (hcounts : Counts dump n) :
    Denied dump m (n + 1) ↔ "# Not a target:".toList <+: line := by
  constructor
  · rintro ⟨k, announcement, -, hkn, hk, -, hlast, hdenies⟩
    obtain rfl : k = n := by
      by_contra hne
      exact hlast n (by omega) (by omega) hcounts
    rw [h] at hk
    exact Option.some.inj hk ▸ hdenies
  · exact fun hdenies => ⟨n, line, hm, by omega, h, hcounts, fun j _ _ => by omega, hdenies⟩

omit h in
/-- Any other line changes nothing. -/
theorem denied_succ_of_not_counts (hcounts : ¬Counts dump n) :
    Denied dump m (n + 1) ↔ Denied dump m n := by
  constructor
  · rintro ⟨k, announcement, hmk, hkn, hk, hcountsK, hlast, hdenies⟩
    have hne : k ≠ n := fun heq => hcounts (heq ▸ hcountsK)
    exact ⟨k, announcement, hmk, by omega, hk, hcountsK, fun j hkj _ => hlast j hkj (by omega),
      hdenies⟩
  · rintro ⟨k, announcement, hmk, hkn, hk, hcountsK, hlast, hdenies⟩
    refine ⟨k, announcement, hmk, by omega, hk, hcountsK, fun j hkj hjn => ?_, hdenies⟩
    by_cases hj : j = n
    · exact hj ▸ hcounts
    · exact hlast j hkj (by omega)

/-- A line with a rule is no comment and not indented. -/
theorem declares_iff : Declares dump n target ↔
    (∃ m, SectionFrom dump m n ∧ ¬Denied dump m n) ∧ ¬Continues dump n ∧ Rule line target := by
  constructor
  · rintro ⟨hlisted, hfresh, ⟨other, hother, -, hrule⟩⟩
    rw [h] at hother
    exact ⟨hlisted, hfresh, Option.some.inj hother ▸ hrule⟩
  · rintro ⟨hlisted, hfresh, hrule⟩
    refine ⟨hlisted, hfresh, line, h, fun c hc => ?_, hrule⟩
    obtain ⟨⟨rest, rfl, -⟩, hne, hchars, -⟩ := hrule
    obtain ⟨first, name, rfl⟩ := List.exists_cons_of_ne_nil hne
    obtain rfl : first = c := Option.some.inj hc
    obtain ⟨hblank, hmarks⟩ := hchars first List.mem_cons_self
    exact ⟨fun heq => hmarks (by simp [heq]), hblank⟩

end Line

theorem not_denied_succ (m : Nat) : ¬Denied dump m (m + 1) :=
  fun ⟨_, _, hmk, hkm, _⟩ => by omega

/-! ## All lines -/

/-- The first line that declares one target comes before every line that declares the other one. -/
def Precedes (dump : List (List Char)) (a b : String) : Prop :=
  ∃ i, Declares dump i a.toList ∧ ∀ j, Declares dump j b.toList → i < j

/-- What a reader knows that has read `n` lines of the dump and found some targets in them. -/
structure Reads (dump : List (List Char)) (n : Nat) (e : Extraction) (found : List String) :
    Prop where
  /-- It knows whether the next line goes on with the one before it. -/
  continued : e.continued = true ↔ Continues dump n
  /-- It knows whether that line is in a section of the files. -/
  inSection : e.inSection = true ↔ ∃ m, SectionFrom dump m n
  /-- If so, it knows whether that line is denied. -/
  skipNext : ∀ m, SectionFrom dump m n → (e.skipNext = true ↔ Denied dump m n)
  /-- It remembers what it has found. -/
  seen : ∀ target, target ∈ e.seen ↔ target ∈ found
  /-- It has found the targets that were declared. -/
  declared : ∀ target, target ∈ found ↔ ∃ i < n, Declares dump i target.toList
  /-- They are in the order in which they were declared first. -/
  ordered : found.Pairwise (Precedes dump)

namespace Reads

variable {e : Extraction} {found : List String}

theorem start (dump : List (List Char)) : Reads dump 0 {} [] where
  continued := ⟨nofun, fun ⟨_, _, h, _⟩ => by omega⟩
  inSection := ⟨nofun, fun ⟨_, h⟩ => absurd h.before (by omega)⟩
  skipNext _ h := absurd h.before (by omega)
  seen _ := Iff.rfl
  declared _ := ⟨nofun, fun ⟨_, h, _⟩ => by omega⟩
  ordered := .nil

/-- The next line declares a target if it is a rule for it and the reader is to take it for one. -/
theorem declares_iff (h : Reads dump n e found) (hline : dump[n]? = some line) :
    Declares dump n target ↔
      e.inSection = true ∧ e.skipNext = false ∧ e.continued = false ∧ Rule line target := by
  have hlisted : (∃ m, SectionFrom dump m n ∧ ¬Denied dump m n) ↔
      e.inSection = true ∧ e.skipNext = false := by
    rw [h.inSection]
    constructor
    · rintro ⟨m, hsection, hdenied⟩
      exact ⟨⟨m, hsection⟩, Bool.eq_false_iff.mpr fun hskip =>
        hdenied ((h.skipNext m hsection).mp hskip)⟩
    · rintro ⟨⟨m, hsection⟩, hskip⟩
      exact ⟨m, hsection, fun hdenied => Bool.false_ne_true
        (hskip.symm.trans ((h.skipNext m hsection).mpr hdenied))⟩
  rw [BuildTarget.declares_iff hline, hlisted, ← h.continued, Bool.not_eq_true, and_assoc]

/-- A target is found in the next line if the line declares it and it is a new one. -/
theorem mem_foundIn_iff (h : Reads dump n e found) (hline : dump[n]? = some line)
    (target : String) :
    target ∈ e.foundIn line ↔ Declares dump n target.toList ∧ target ∉ found := by
  have htarget : (Extraction.target? line).map String.ofList = some target ↔
      Rule line target.toList := by
    rw [← Extraction.target?_eq_some_iff, Option.map_eq_some_iff]
    constructor
    · rintro ⟨name, hname, rfl⟩
      rwa [String.toList_ofList]
    · exact fun hname => ⟨_, hname, String.ofList_toList⟩
  rw [h.declares_iff hline, ← h.seen, Extraction.foundIn]
  split
  next hreads =>
    simp only [Bool.and_eq_true, Bool.not_eq_true'] at hreads
    simp [hreads, htarget, Option.mem_toList]
  next hreads =>
    simp only [Bool.and_eq_true, Bool.not_eq_true', not_and] at hreads
    refine iff_of_false List.not_mem_nil fun ⟨⟨hin, hskip, hcontinued, _⟩, _⟩ => ?_
    exact hreads ⟨hin, hcontinued⟩ hskip

/-- It knows whether the line behind the next one is denied. -/
theorem skipNext_succ (h : Reads dump n e found) (hline : dump[n]? = some line) (m : Nat)
    (hsection : SectionFrom dump m (n + 1)) :
    (e.read line).2.skipNext = true ↔ Denied dump m (n + 1) := by
  rw [Extraction.read_eq]
  rcases (sectionFrom_succ hline).mp hsection with ⟨rfl, hopens⟩ | ⟨hsection, hmarker⟩
  -- A section begins, and nothing has been denied in it.
  · simp [Extraction.begins_iff.mpr hopens, not_denied_succ]
  · have hin : e.inSection = true := h.inSection.mpr ⟨m, hsection⟩
    simp only [IsMarker, ← Extraction.begins_iff, not_or, Bool.not_eq_true] at hmarker
    by_cases hcounts : Counts dump n
    · rw [denied_succ_of_counts hline hsection.before hcounts, ← Extraction.begins_iff]
      rw [counts_iff hline, ← h.continued, Bool.not_eq_true] at hcounts
      simp [hin, hmarker, hcounts]
    · rw [denied_succ_of_not_counts hcounts, ← h.skipNext m hsection]
      rw [counts_iff hline, ← h.continued] at hcounts
      have hpasses : e.continued = true ∨ Text.isBlankText line = true := by
        by_contra hnot
        simp only [not_or, Bool.not_eq_true] at hnot
        exact hcounts ⟨hnot.2, by simp [hnot.1]⟩
      simp [hin, hmarker, hpasses]

/-- A reader that knows the lines before the next one knows that one, too, when it has read it. -/
theorem step (h : Reads dump n e found) (hline : dump[n]? = some line) :
    Reads dump (n + 1) (e.read line).2 (found ++ (e.read line).1) := by
  have hmem := h.mem_foundIn_iff hline
  have hskip := h.skipNext_succ hline
  rw [Extraction.read_eq] at hskip ⊢
  refine ⟨?continued, ?inSection, hskip, ?seen, ?declared, ?ordered⟩
  case continued =>
    rw [continues_succ hline]
    simp [IsOpen]
  case inSection =>
    simp only [sectionFrom_succ hline, exists_or, exists_and_right, ← h.inSection, IsMarker,
      ← Extraction.begins_iff]
    cases Extraction.begins "# Files" line <;> simp [and_comm]
  case seen =>
    intro target
    simp only [List.mem_append, h.seen]
    exact Or.comm
  case declared =>
    intro target
    rw [List.mem_append, hmem, Nat.exists_lt_succ_right, ← h.declared, or_and_left,
      and_iff_left (Classical.em _)]
  case ordered =>
    refine List.pairwise_append.mpr ⟨h.ordered, e.pairwise_foundIn line, fun a ha b hb => ?_⟩
    obtain ⟨i, hi, hdeclares⟩ := (h.declared a).mp ha
    refine ⟨i, hdeclares, fun j hj => ?_⟩
    -- The new target was not declared before, or it would have been found.
    by_contra hij
    exact ((hmem b).mp hb).2 ((h.declared b).mpr ⟨j, by omega, hj⟩)

/-- A reader knows all lines that it has read, one after the other. -/
theorem scanLines {ω : Type} (h : Reads dump n e found) {lines : List String}
    (hlines : dump.drop n = lines.map String.toList) (w : ω) :
    Reads dump (n + lines.length) (scanner.scanLines lines e w).2.1
      (found ++ (scanner.scanLines lines e w).1) := by
  induction lines generalizing n e found with
  | nil => simpa [LineScanner.scanLines] using h
  | cons line lines ih =>
    have hline : dump[n]? = some line.toList := by
      rw [← List.head?_drop, hlines]
      rfl
    have hrest : dump.drop (n + 1) = lines.map String.toList := by
      rw [← List.tail_drop, hlines]
      rfl
    have hread := ih (h.step hline) hrest
    rw [List.append_assoc, Nat.add_right_comm] at hread
    exact hread

end Reads

end Dump

/-- The extraction finds the targets that the dump declares, each of them once, in the order in
which they are first declared, whatever the size of the chunks. A cancelled one finds none. -/
theorem extract?_declared (dump : String) :
    ∃ targets : List String, targets.Nodup ∧
      (∀ target, target ∈ targets ↔
        ∃ i, Declares (Text.lines dump.toList) i target.toList) ∧
      targets.Pairwise (Precedes (Text.lines dump.toList)) ∧
      ∀ {ω : Type} (isCancelled : ω → Bool) (chunkSize : Nat) (w : ω),
        extract? isCancelled chunkSize dump w
          = (if isCancelled w then none else some targets, w) := by
  have hlines : (Text.lines dump.toList).drop 0 = (Scan.linesOf dump).map String.toList := by
    simp [Scan.linesOf, Function.comp_def]
  have hreads := (Reads.start (Text.lines dump.toList)).scanLines hlines ()
  rw [List.nil_append] at hreads
  refine ⟨_, ?_, fun target => ?_, hreads.ordered, fun isCancelled chunkSize w => ?_⟩
  · refine hreads.ordered.imp fun ⟨i, hi, hfirst⟩ heq => ?_
    exact Nat.lt_irrefl i (hfirst i (heq ▸ hi))
  · rw [hreads.declared]
    refine exists_congr fun i => and_iff_right_of_imp fun hdeclares => ?_
    obtain ⟨line, hline, -⟩ := hdeclares.rule
    have hlength := (List.getElem?_eq_some_iff.mp hline).1
    simpa [Scan.linesOf] using hlength
  · have hfound : (scanner (ω := Unit)).recognize (Scan.linesOf dump) {} ()
        = ((scanner (ω := Unit)).scanLines (Scan.linesOf dump) {} ()).1 := List.append_nil _
    rw [extract?, scanner, Scan.complete?_ofPure_eq, LineScanner.recognize_ofPure, ← hfound]
    rfl

/-- A continued line announces nothing, and a blank line does not come between an announcement and
what it is about. -/
example : (extract? (fun _ => false) 1
    "# Files\nall: a \\\n# Not a target:\nb:\n# Not a target:\n\nc:\nd::=e\n" ()).1
      = some ["all", "b", "d"] := by
  decide +kernel

end BuildTrace.BuildTarget
