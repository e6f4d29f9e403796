import BuildTrace.Proofs.BuildTarget.Declaration
import BuildTrace.Proofs.Text.Split
import Mathlib.Data.List.Sort

/-!
# Assignments in a database dump

A database dump also has lines that assign values to variables. To see what such a line contributes,
put another one in its place that contributes nothing: it is no rule, and all other lines mean what
they meant before. This module compares the targets of both dumps.

With white space in front of its operator, or with an operator that begins with at most one colon,
an assignment contributes nothing. Otherwise the operator begins with two colons right behind the
name of the variable, which is a rule with two colons as well, and the name is a target.

## Main definitions

* `BuildTarget.Assigns`: a line that assigns a value to a variable;
* `BuildTarget.Idle`: a line that contributes nothing;
* `BuildTarget.SameKinds`: dumps that differ in their rules at most.

## Main results

* `BuildTarget.Assigns.rule_iff`: the assignments that are rules;
* `BuildTarget.SameKinds.declares_iff`: a line declares what it is a rule for, whatever the rules of
  the other lines are;
* `BuildTarget.extract?_set`: what an assignment contributes to the targets of its dump.
-/

namespace BuildTrace.BuildTarget

variable {dump dump' : List (List Char)} {line other name gap operator target : List Char}

/-! ## Lines -/

/-- The operators that assign a value to a variable. -/
def operators : List (List Char) :=
  ["=", ":=", "::=", ":::=", "?=", "+=", "!="].map String.toList

/-- The text has only characters of the names of variables. -/
def IsVariable (name : List Char) : Prop :=
  ∀ c ∈ name, Text.isBlank c = false ∧ c ∉ [':', '#', '=', '%']

instance (name : List Char) : Decidable (IsVariable name) :=
  List.decidableBAll (fun c => Text.isBlank c = false ∧ c ∉ [':', '#', '=', '%']) name

/-- The line assigns a value, which may be any text, to a variable. -/
structure Assigns (line name gap operator : List Char) : Prop where
  /-- The operator stands behind the name and in front of the value. -/
  line : ∃ value, line = name ++ gap ++ operator ++ value
  /-- The name is that of a variable. -/
  name : IsVariable name
  /-- There may be white space behind the name. -/
  gap : Text.isBlankText gap = true
  /-- The operator is one of those that assign. -/
  operator : operator ∈ operators

/-- The line is there, but it is no rule, and no other line depends on it. -/
structure Idle (line : List Char) : Prop where
  /-- It does not end a section. -/
  marker : ¬IsMarker line
  /-- It denies nothing. -/
  announcement : ¬"# Not a target:".toList <+: line
  /-- It is no rule. -/
  rule : ∀ target, ¬Rule line target
  /-- It is not blank. -/
  blank : ∃ c ∈ line, Text.isBlank c = false

/-- There are three kinds of operators: with no colon, with one, and with more. -/
theorem of_mem_operators (h : operator ∈ operators) :
    (∃ lead, operator = lead ++ ['='] ∧ ∀ c ∈ lead, Extraction.isNameChar c = true) ∨
      operator = ":=".toList ∨ operator ∈ ["::=".toList, ":::=".toList] := by
  simp only [operators, List.map_cons, List.map_nil, List.mem_cons, List.not_mem_nil,
    or_false] at h
  rcases h with rfl | rfl | h | h | rfl | rfl | rfl
  · exact .inl ⟨[], rfl, List.forall_mem_nil _⟩
  · exact .inr (.inl rfl)
  · exact .inr (.inr (by simp [h]))
  · exact .inr (.inr (by simp [h]))
  · exact .inl ⟨['?'], rfl, List.forall_mem_singleton.mpr rfl⟩
  · exact .inl ⟨['+'], rfl, List.forall_mem_singleton.mpr rfl⟩
  · exact .inl ⟨['!'], rfl, List.forall_mem_singleton.mpr rfl⟩

/-- An assignment that is a rule is one for its name, which the operator follows at once. -/
theorem Assigns.of_rule (h : Assigns line name gap operator) (hrule : Rule line target) :
    target = name ∧ gap = [] ∧ operator ∈ ["::=".toList, ":::=".toList] := by
  obtain ⟨⟨value, rfl⟩, hname, hgap, hoperator⟩ := h
  obtain ⟨⟨rest, hrest, hequals⟩, -, hchars, -⟩ := hrule
  have hname' : ∀ c ∈ name, Extraction.isNameChar c = true :=
    fun c hc => Extraction.isNameChar_iff.mpr (hname c hc)
  have hchars' : ∀ c ∈ target, Extraction.isNameChar c = true :=
    fun c hc => Extraction.isNameChar_iff.mpr (hchars c hc)
  -- The colon of the rule is the first character that is not of the name.
  have hcut : ∀ front behind, name ++ gap ++ operator ++ value = front ++ behind →
      (∀ c ∈ front, Extraction.isNameChar c = true) →
      (∀ c ∈ behind.head?, Extraction.isNameChar c = false) →
      front = target ∧ behind = ':' :: rest := by
    intro front behind heq hfront hbehind
    refine Text.append_inj_of_forall hfront hchars' hbehind ?_ (heq ▸ hrest)
    rintro c ⟨⟩
    rfl
  cases gap with
  | cons blank gap =>
    have hblank : Text.isBlank blank = true := List.all_eq_true.mp hgap blank List.mem_cons_self
    obtain ⟨-, heq⟩ := hcut name (blank :: (gap ++ operator ++ value)) (by simp) hname' (by
      rintro c ⟨⟩
      simp [Extraction.isNameChar, hblank])
    obtain rfl : blank = ':' := (List.cons.inj heq).1
    exact absurd hblank (by decide)
  | nil =>
    rw [List.append_nil] at hcut
    rcases of_mem_operators hoperator with ⟨lead, rfl, hlead⟩ | rfl | hcolons
    · obtain ⟨-, heq⟩ := hcut (name ++ lead) ('=' :: value) (by simp)
        (List.forall_mem_append.mpr ⟨hname', hlead⟩) (by rintro c ⟨⟩; rfl)
      exact absurd (List.cons.inj heq).1 (by decide)
    · obtain ⟨-, heq⟩ := hcut name (":=".toList ++ value) (List.append_assoc ..) hname'
        (by rintro c ⟨⟩; rfl)
      obtain ⟨-, rfl⟩ := List.cons.inj heq
      exact absurd rfl hequals
    · obtain ⟨rfl, -⟩ := hcut name (operator ++ value) (List.append_assoc ..) hname' (by
        simp only [List.mem_cons, List.not_mem_nil, or_false] at hcolons
        rcases hcolons with rfl | rfl <;> rintro c ⟨⟩ <;> rfl)
      exact ⟨rfl, rfl, hcolons⟩

/-- An assignment is a rule if two colons stand right behind the name. -/
theorem Assigns.rule_iff (h : Assigns line name gap operator) :
    Rule line target ↔ target = name ∧ gap = [] ∧ operator ∈ ["::=".toList, ":::=".toList] ∧
      name ≠ [] ∧ name.head? ≠ some '.' := by
  constructor
  · intro hrule
    obtain ⟨rfl, rfl, hcolons⟩ := h.of_rule hrule
    exact ⟨rfl, rfl, hcolons, hrule.nonempty, hrule.dot⟩
  · rintro ⟨rfl, rfl, hoperator, hne, hdot⟩
    obtain ⟨⟨value, rfl⟩, hname, -, -⟩ := h
    have hcolons : ∃ rest, operator = ':' :: ':' :: rest := by
      simp only [List.mem_cons, List.not_mem_nil, or_false] at hoperator
      rcases hoperator with rfl | rfl <;> exact ⟨_, rfl⟩
    obtain ⟨rest, rfl⟩ := hcolons
    exact ⟨⟨':' :: (rest ++ value), by simp, by simp⟩, hne, hname, hdot⟩

/-- An assignment begins with no mark of a comment. -/
theorem Assigns.head (h : Assigns line name gap operator) : line.head? ≠ some '#' := by
  obtain ⟨⟨value, rfl⟩, hname, hgap, hoperator⟩ := h
  have hmark : ∀ operator ∈ operators, operator ≠ [] ∧ operator.head? ≠ some '#' := by decide
  obtain ⟨hne, hhead⟩ := hmark operator hoperator
  intro heq
  rw [List.append_assoc, List.append_assoc] at heq
  cases name with
  | cons c name =>
    obtain rfl := Option.some.inj heq
    exact absurd (hname _ List.mem_cons_self).2 (by decide)
  | nil =>
    cases gap with
    | cons c gap =>
      obtain rfl := Option.some.inj heq
      exact absurd (List.all_eq_true.mp hgap _ List.mem_cons_self) (by decide)
    | nil =>
      rw [List.nil_append, List.nil_append, List.head?_append_of_ne_nil _ hne] at heq
      exact hhead heq

/-- A comment is idle, unless it begins like those that make writes. -/
theorem idle_comment (h : ∀ c ∈ line.head?, Text.isBlank c = false) : Idle ('#' :: line) := by
  have hlead : ∀ lead : List Char, lead.tail.head? = some ' ' → ¬lead <+: '#' :: line := by
    rintro lead hlead ⟨rest, hrest⟩
    obtain ⟨c, lead, rfl⟩ := List.exists_cons_of_ne_nil (l := lead) (by rintro rfl; cases hlead)
    obtain ⟨-, rfl⟩ := List.cons.inj hrest
    refine absurd (h ' ' ?_) (by decide)
    change (lead ++ rest).head? = some ' '
    rw [List.head?_append, show lead.head? = some ' ' from hlead, Option.some_or]
  refine ⟨not_or.mpr ⟨hlead _ rfl, hlead _ rfl⟩, hlead _ rfl, fun target htarget => ?_,
    ⟨'#', List.mem_cons_self, by decide⟩⟩
  rw [← Extraction.target?_eq_some_iff, Extraction.target?_of_head (by rintro c ⟨⟩; rfl)] at htarget
  cases htarget

/-! ## Lines of the same kind -/

/-- The lines mean the same for the lines behind them. -/
structure Alike (line other : List Char) : Prop where
  /-- Both begin a section of the files, or neither does. -/
  opens : "# Files".toList <+: line ↔ "# Files".toList <+: other
  /-- Both are at the limits of a section. -/
  marker : IsMarker line ↔ IsMarker other
  /-- Both deny what comes next. -/
  denies : "# Not a target:".toList <+: line ↔ "# Not a target:".toList <+: other
  /-- Both are more than white space. -/
  blank : (∃ c ∈ line, Text.isBlank c = false) ↔ ∃ c ∈ other, Text.isBlank c = false
  /-- Both are continued. -/
  isOpen : IsOpen line ↔ IsOpen other

theorem Alike.refl (line : List Char) : Alike line line := ⟨.rfl, .rfl, .rfl, .rfl, .rfl⟩

theorem Alike.symm (h : Alike line other) : Alike other line :=
  ⟨h.opens.symm, h.marker.symm, h.denies.symm, h.blank.symm, h.isOpen.symm⟩

/-- An assignment is like an idle line. -/
theorem Assigns.alike (h : Assigns line name gap operator) (hother : Idle other)
    (hopen : IsOpen line ↔ IsOpen other) : Alike line other := by
  have hcomment : ∀ lead : List Char, lead.head? = some '#' → ¬lead <+: line := by
    rintro lead hlead ⟨rest, rfl⟩
    refine h.head ?_
    rw [List.head?_append, hlead, Option.some_or]
  have hmarker : ¬IsMarker line := by
    rw [IsMarker, not_or]
    exact ⟨hcomment _ rfl, hcomment _ rfl⟩
  have hblank : ∃ c ∈ line, Text.isBlank c = false := by
    obtain ⟨⟨value, rfl⟩, -, -, hoperator⟩ := h
    have hequals : ∀ operator ∈ operators, '=' ∈ operator := by decide
    exact ⟨'=', by simp [hequals operator hoperator], by decide⟩
  refine ⟨iff_of_false (hcomment _ rfl) ?_, iff_of_false hmarker hother.marker,
    iff_of_false (hcomment _ rfl) hother.announcement, iff_of_true hblank hother.blank, hopen⟩
  exact fun hfiles => hother.marker (.inl hfiles)

/-! ## Dumps -/

/-- Line by line, the dumps have the same kinds of lines. -/
def SameKinds : List (List Char) → List (List Char) → Prop := List.Forall₂ Alike

namespace SameKinds

variable {i k m : Nat}

theorem symm (h : SameKinds dump dump') : SameKinds dump' dump :=
  (h.imp fun _ _ => Alike.symm).flip

/-- One line may be replaced by one like it. -/
theorem set (hline : dump[i]? = some line) (h : Alike line other) :
    SameKinds dump (dump.set i other) := by
  refine List.forall₂_iff_get.mpr ⟨List.length_set.symm, fun k hk hk' => ?_⟩
  rw [List.get_eq_getElem, List.get_eq_getElem, List.getElem_set]
  split
  next hik =>
    subst hik
    obtain rfl : dump[i] = line := Option.some.inj ((List.getElem?_eq_getElem hk).symm.trans hline)
    exact h
  next => exact .refl _

section Lines

variable (h : SameKinds dump dump')

include h

theorem exists_line (hline : dump[k]? = some line) :
    ∃ other, dump'[k]? = some other ∧ Alike line other := by
  obtain ⟨hk, rfl⟩ := List.getElem?_eq_some_iff.mp hline
  have hk' : k < dump'.length := h.length_eq ▸ hk
  exact ⟨dump'[k], List.getElem?_eq_getElem hk', h.get hk hk'⟩

theorem continues (hcontinues : Continues dump k) : Continues dump' k := by
  obtain ⟨j, line, rfl, hline, hopen⟩ := hcontinues
  obtain ⟨other, hother, halike⟩ := h.exists_line hline
  exact ⟨j, other, rfl, hother, halike.isOpen.mp hopen⟩

theorem counts (hcounts : Counts dump k) : Counts dump' k := by
  obtain ⟨⟨line, hline, hblank⟩, hfresh⟩ := hcounts
  obtain ⟨other, hother, halike⟩ := h.exists_line hline
  exact ⟨⟨other, hother, halike.blank.mp hblank⟩,
    fun hcontinues => hfresh (h.symm.continues hcontinues)⟩

theorem sectionFrom (hsection : SectionFrom dump m k) : SectionFrom dump' m k := by
  obtain ⟨hbefore, ⟨line, hline, hopens⟩, hlast⟩ := hsection
  obtain ⟨other, hother, halike⟩ := h.exists_line hline
  refine ⟨hbefore, ⟨other, hother, halike.opens.mp hopens⟩, fun j between hmj hjk hbetween => ?_⟩
  obtain ⟨original, horiginal, halike⟩ := h.symm.exists_line hbetween
  exact fun hmarker => hlast j original hmj hjk horiginal (halike.marker.mp hmarker)

theorem denied (hdenied : Denied dump m k) : Denied dump' m k := by
  obtain ⟨j, line, hmj, hjk, hline, hcounts, hlast, hdenies⟩ := hdenied
  obtain ⟨other, hother, halike⟩ := h.exists_line hline
  exact ⟨j, other, hmj, hjk, hother, h.counts hcounts,
    fun l hjl hlk hl => hlast l hjl hlk (h.symm.counts hl), halike.denies.mp hdenies⟩

theorem declares (hline : dump[k]? = some line) (hother : dump'[k]? = some other)
    (hrule : Rule line target → Rule other target) (hdeclares : Declares dump k target) :
    Declares dump' k target := by
  rw [BuildTarget.declares_iff hline] at hdeclares
  rw [BuildTarget.declares_iff hother]
  obtain ⟨⟨m, hsection, hdenied⟩, hfresh, htarget⟩ := hdeclares
  exact ⟨⟨m, h.sectionFrom hsection, fun hd => hdenied (h.symm.denied hd)⟩,
    fun hcontinues => hfresh (h.symm.continues hcontinues), hrule htarget⟩

/-- A line declares what it is a rule for, whatever the rules of the other lines are. -/
theorem declares_iff (hline : dump[k]? = some line) (hother : dump'[k]? = some other)
    (hrule : Rule line target ↔ Rule other target) :
    Declares dump k target ↔ Declares dump' k target :=
  ⟨h.declares hline hother hrule.mp, h.symm.declares hother hline hrule.mpr⟩

end Lines

end SameKinds

/-- An idle line declares nothing, and the other lines declare what they declared. -/
theorem declares_set_iff {i : Nat} (hline : dump[i]? = some line) (h : Alike line other)
    (hother : Idle other) (k : Nat) (target : List Char) :
    Declares (dump.set i other) k target ↔ Declares dump k target ∧ k ≠ i := by
  have hkinds : SameKinds dump (dump.set i other) := .set hline h
  by_cases hik : i = k
  · subst hik
    have hset : (dump.set i other)[i]? = some other :=
      List.getElem?_set_self (List.getElem?_eq_some_iff.mp hline).1
    rw [declares_iff hset]
    exact iff_of_false (fun hdeclares => hother.rule target hdeclares.2.2) fun h => h.2 rfl
  · have hsame : (dump.set i other)[k]? = dump[k]? := List.getElem?_set_ne hik
    rw [and_iff_left (Ne.symm hik)]
    cases hk : dump[k]? with
    | none =>
      have hnone : ∀ dump : List (List Char), dump[k]? = none → ¬Declares dump k target := by
        rintro dump hk ⟨-, -, line, hline, -⟩
        rw [hk] at hline
        cases hline
      exact iff_of_false (hnone _ (hsame.trans hk)) (hnone _ hk)
    | some between => exact (hkinds.declares_iff hk (hsame.trans hk) .rfl).symm

/-! ## Targets -/

instance (dump : List (List Char)) : Std.Asymm (Precedes dump) where
  asymm := by
    rintro a b ⟨i, hi, hbefore⟩ ⟨j, hj, hbefore'⟩
    exact Nat.lt_asymm (hbefore j hj) (hbefore' i hi)

/-- Where two dumps declare the same of some targets, these are found in the same order. -/
theorem filter_eq_filter {targets targets' : List String}
    (hmem : ∀ target, target ∈ targets ↔ ∃ i, Declares dump i target.toList)
    (hmem' : ∀ target, target ∈ targets' ↔ ∃ i, Declares dump' i target.toList)
    (hordered : targets.Pairwise (Precedes dump)) (hordered' : targets'.Pairwise (Precedes dump'))
    (p : String → Bool)
    (h : ∀ target, p target = true → ∀ i,
      Declares dump i target.toList ↔ Declares dump' i target.toList) :
    targets.filter p = targets'.filter p := by
  have hprecedes : (targets'.filter p).Pairwise (Precedes dump) := by
    refine (hordered'.filter p).imp_of_mem ?_
    rintro a b ha hb ⟨i, hi, hbefore⟩
    have ha := h a (List.mem_filter.mp ha).2
    have hb := h b (List.mem_filter.mp hb).2
    exact ⟨i, (ha i).mpr hi, fun j hj => hbefore j ((hb j).mp hj)⟩
  refine (hordered.filter p).eq_of_mem_iff hprecedes fun target => ?_
  rw [List.mem_filter, List.mem_filter, and_congr_left_iff]
  intro hp
  rw [hmem, hmem']
  exact exists_congr (h target hp)

/-- Replace an assignment in a dump by a line that contributes nothing. If the assignment stands
where rules count, with two colons right behind a name that a target may have, that name is no
longer found on its account, and all other targets are found as before. Else all targets are found
as before. -/
theorem extract?_set {dump dump' : String} {i : Nat}
    (hline : (Text.lines dump.toList)[i]? = some line) (h : Assigns line name gap operator)
    (hother : Idle other) (hopen : IsOpen line ↔ IsOpen other)
    (hset : Text.lines dump'.toList = (Text.lines dump.toList).set i other) :
    ∃ targets targets' : List String,
      (∀ {ω : Type} (isCancelled : ω → Bool) (chunkSize : Nat) (w : ω),
        extract? isCancelled chunkSize dump w
          = (if isCancelled w then none else some targets, w) ∧
        extract? isCancelled chunkSize dump' w
          = (if isCancelled w then none else some targets', w)) ∧
      (Declares (Text.lines dump.toList) i name ↔
        (∃ m, SectionFrom (Text.lines dump.toList) m i ∧ ¬Denied (Text.lines dump.toList) m i) ∧
        ¬Continues (Text.lines dump.toList) i ∧
        gap = [] ∧ operator ∈ ["::=".toList, ":::=".toList] ∧
        name ≠ [] ∧ name.head? ≠ some '.') ∧
      (¬Declares (Text.lines dump.toList) i name → targets = targets') ∧
      (Declares (Text.lines dump.toList) i name →
        String.ofList name ∈ targets ∧
        (String.ofList name ∈ targets' ↔ ∃ k ≠ i, Declares (Text.lines dump.toList) k name) ∧
        targets.filter (· ≠ String.ofList name) = targets'.filter (· ≠ String.ofList name)) := by
  obtain ⟨targets, -, hmem, hordered, hrun⟩ := extract?_declared dump
  obtain ⟨targets', -, hmem', hordered', hrun'⟩ := extract?_declared dump'
  -- The other line declares nothing, and the lines around it are read as before.
  have hdeclares : ∀ k target, Declares (Text.lines dump'.toList) k target ↔
      Declares (Text.lines dump.toList) k target ∧ k ≠ i := by
    rw [hset]
    exact declares_set_iff hline (h.alike hother hopen) hother
  have hrule : ∀ target, Declares (Text.lines dump.toList) i target → target = name :=
    fun target hi => (h.rule_iff.mp ((declares_iff hline).mp hi).2.2).1
  -- A target that the assignment does not declare is declared by the same lines in both dumps.
  have hkept : ∀ target : String,
      ¬Declares (Text.lines dump.toList) i target.toList → ∀ k,
        Declares (Text.lines dump.toList) k target.toList ↔
          Declares (Text.lines dump'.toList) k target.toList := by
    intro target hi k
    rw [hdeclares, iff_self_and]
    rintro hk rfl
    exact hi hk
  refine ⟨targets, targets', fun isCancelled chunkSize w =>
    ⟨hrun isCancelled chunkSize w, hrun' isCancelled chunkSize w⟩, ?_, fun hi => ?_, fun hi => ?_⟩
  · rw [declares_iff hline, h.rule_iff]
    simp only [true_and]
  · have hsame := filter_eq_filter hmem hmem' hordered hordered' (fun _ => true) fun target _ =>
      hkept target fun htarget => hi (hrule _ htarget ▸ htarget)
    simpa using hsame
  · refine ⟨(hmem _).mpr ⟨i, by rwa [String.toList_ofList]⟩, ?_, ?_⟩
    · rw [hmem', String.toList_ofList]
      exact exists_congr fun k => (hdeclares k name).trans and_comm
    · refine filter_eq_filter hmem hmem' hordered hordered' _ fun target htarget =>
        hkept target fun hi => ?_
      rw [decide_eq_true_eq] at htarget
      exact htarget (String.toList_inj.mp ((hrule _ hi).trans String.toList_ofList.symm))

/-- White space makes the difference. -/
theorem extract?_set_spaced :
    let dump := "# Files\nCC ::= gcc\nall: CC\n"
    let dump' := "# Files\n#CC ::= gcc\nall: CC\n"
    Assigns "CC ::= gcc".toList "CC".toList [' '] "::=".toList ∧ Idle "#CC ::= gcc".toList ∧
      extract? (fun _ => false) 1 dump () = extract? (fun _ => false) 1 dump' () := by
  intro dump dump'
  have hassigns : Assigns "CC ::= gcc".toList "CC".toList [' '] "::=".toList :=
    ⟨⟨" gcc".toList, by decide⟩, by decide, by decide, by decide⟩
  have hidle : Idle "#CC ::= gcc".toList := idle_comment (by rintro c ⟨⟩; rfl)
  have hopen : ∀ line : String, Text.trimEnd line.toList = line.toList →
      line.toList.getLast? ≠ some '\\' → ¬IsOpen line.toList := by
    intro line htrim hlast
    rwa [IsOpen, htrim]
  have hline : (Text.lines dump.toList)[1]? = some "CC ::= gcc".toList := by decide
  have hset : Text.lines dump'.toList = (Text.lines dump.toList).set 1 "#CC ::= gcc".toList := by
    decide
  obtain ⟨targets, targets', hrun, hdeclares, hsame, -⟩ :=
    extract?_set hline hassigns hidle
      (iff_of_false (hopen _ (by decide) (by decide)) (hopen _ (by decide) (by decide))) hset
  have hgap : ¬Declares (Text.lines dump.toList) 1 "CC".toList := by
    rw [hdeclares]
    rintro ⟨-, -, hgap, -⟩
    cases hgap
  obtain ⟨hdump, hdump'⟩ := hrun (fun _ => false) 1 ()
  exact ⟨hassigns, hidle, by rw [hdump, hdump', hsame hgap]⟩

/-- Without it, the operator is read as the colon of a rule. -/
theorem extract?_set_glued :
    let dump := "# Files\na::=b\n"
    let dump' := "# Files\n#a::=b\n"
    Assigns "a::=b".toList ['a'] [] "::=".toList ∧ Idle "#a::=b".toList ∧
      Text.lines dump'.toList = (Text.lines dump.toList).set 1 "#a::=b".toList ∧
      (extract? (fun _ => false) 1 dump ()).1 = some ["a"] ∧
      (extract? (fun _ => false) 1 dump' ()).1 = some [] :=
  ⟨⟨⟨['b'], by decide⟩, by decide, by decide, by decide⟩, idle_comment (by rintro c ⟨⟩; rfl),
    by decide,    by decide +kernel, by decide +kernel⟩

end BuildTrace.BuildTarget
