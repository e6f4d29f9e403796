import BuildTrace.Settings.Validation
import Mathlib.Data.List.Basic

/-!
# What validation reports

Whatever is wrong with the settings is reported once, in the order of the settings. The errors are
collected for each group of settings and then for all of them, and both times one error is given as
it is while several become one. What was put together for a group is taken apart again for all of
them, so no list of errors stands in another one.

## Main definitions

* `Settings.nameProblems`: what is wrong with a list of names, index by index;
* `Settings.problems`: all that is wrong with the settings;
* `Settings.outcome`: how problems are reported.

## Main results

* `Settings.Collector.errors_checkNames`: the problems of a list of names are collected;
* `Settings.Collector.errors_addResult`: so are those of a group, however they were reported;
* `Settings.validate_eq`: the settings are refused for all their problems.
-/

namespace BuildTrace.Settings

/-! ## Problems -/

/-- What is wrong with the name at an index of the list, if something is: it is blank, or an equal
name stands at a smaller index. -/
def nameProblem? (field : String) (names : List String) : String × Nat → Option Problem
  | (name, index) =>
    if isBlank name then some (.emptyText (field ++ "[" ++ toString index ++ "]"))
    else if ∃ i < index, names[i]? = some name then some (.duplicate field index)
    else none

/-- The problems of a list of names, by increasing index. -/
def nameProblems (field : String) (names : List String) : List Problem :=
  names.zipIdx.filterMap (nameProblem? field names)

/-- The problem, if there is one. -/
def problemIf (condition : Prop) [Decidable condition] (problem : Problem) : List Problem :=
  if condition then [problem] else []

/-- The problems of the settings for make, in order. -/
def Make.problems (s : Make) : List Problem :=
  problemIf (s.program.text = "") (.emptyText "make.program") ++
  problemIf (isBlank s.forceRebuildSwitch) (.emptyText "make.force_rebuild_switch") ++
  nameProblems "make.dry_run_switches" s.dryRunSwitches ++
  nameProblems "make.database_switches" s.databaseSwitches

/-- The problems of the settings for the trace, in order. -/
def Trace.problems (s : Trace) : List Problem :=
  problemIf (s.chunkSize = 0) (.notPositive "trace.chunk_size") ++
  problemIf (s.stallTimeout = 0) (.notPositive "trace.stall_timeout")

/-- The problems of the names of tools, in order. -/
def Toolchain.problems (s : Toolchain) : List Problem :=
  nameProblems "toolchain.compilers" s.compilers ++
  nameProblems "toolchain.linkers" s.linkers ++
  nameProblems "toolchain.exclude" s.exclude

/-- The problems of the settings, in order. -/
def problems (s : Settings) : List Problem :=
  s.make.problems ++ s.trace.problems ++ s.toolchain.problems

/-- How problems are reported: a single one as it is, several in one list. -/
def outcome : List Problem → Except ValidationError Unit
  | [] => .ok ()
  | [problem] => .error (.single problem)
  | problems => .error (.multiple (problems.map .single))

/-! ## Names -/

variable {field name : String} {before rest seen seen' : List String}

/-- The names at smaller indices are those in front of the name. -/
theorem nameProblem?_append : nameProblem? field (before ++ rest) (name, before.length) =
    if isBlank name then some (.emptyText (field ++ "[" ++ toString before.length ++ "]"))
    else if name ∈ before then some (.duplicate field before.length)
    else none := by
  have hbefore : (∃ i < before.length, (before ++ rest)[i]? = some name) ↔ name ∈ before := by
    rw [List.mem_iff_getElem?]
    constructor
    · rintro ⟨i, hi, h⟩
      exact ⟨i, by rwa [List.getElem?_append_left hi] at h⟩
    · rintro ⟨i, h⟩
      obtain ⟨hi, -⟩ := List.getElem?_eq_some_iff.mp h
      exact ⟨i, hi, by rwa [List.getElem?_append_left hi]⟩
  simp only [nameProblem?, hbefore]

/-- The names that have been seen are those that stand in front, the blank ones apart. -/
def Seen (seen before : List String) : Prop :=
  ∀ name, isBlank name = false → (name ∈ seen ↔ name ∈ before)

/-- A name that is not blank has been seen from now on. -/
theorem Seen.concat (h : Seen seen before)
    (hseen' : ∀ other, other ∈ seen' ↔ other ∈ seen ∨ isBlank name = false ∧ other = name) :
    Seen seen' (before ++ [name]) := by
  intro other hother
  rw [hseen', List.mem_append, List.mem_singleton, h other hother]
  refine or_congr_right (and_iff_right_of_imp ?_)
  rintro rfl
  exact hother

namespace Collector

variable {c : Collector}

/-- The problems of names are collected, if it is known what stands in front of them. -/
theorem errors_checkNamesFrom (c : Collector) (h : Seen seen before) :
    (checkNamesFrom field before.length seen c rest).errors = c.errors ++
      ((rest.zipIdx before.length).filterMap (nameProblem? field (before ++ rest))).map
        .single := by
  -- The induction is on the names to come; those in front of them become more.
  induction rest generalizing before seen c with
  | nil => simp [checkNamesFrom]
  | cons name rest ih =>
    have hnext : ∀ {seen'} (c : Collector),
        (∀ other, other ∈ seen' ↔ other ∈ seen ∨ isBlank name = false ∧ other = name) →
        (checkNamesFrom field (before.length + 1) seen' c rest).errors = c.errors ++
          ((rest.zipIdx (before.length + 1)).filterMap
            (nameProblem? field (before ++ name :: rest))).map .single := by
      intro seen' c hseen'
      simpa using ih c (h.concat hseen')
    rw [checkNamesFrom, List.zipIdx_cons, List.filterMap_cons, nameProblem?_append]
    by_cases hblank : isBlank name = true
    · rw [if_pos hblank, if_pos hblank, hnext _ (by simp [hblank])]
      simp [add]
    rw [if_neg hblank, if_neg hblank]
    rw [Bool.not_eq_true] at hblank
    have hmem : name ∈ seen ↔ name ∈ before := h name hblank
    by_cases hknown : name ∈ before
    · rw [if_pos (List.contains_iff_mem.mpr (hmem.mpr hknown)), if_pos hknown,
        hnext _ fun other => (or_iff_left_of_imp fun heq => heq.2 ▸ hmem.mpr hknown).symm]
      simp [add]
    · rw [if_neg (mt List.contains_iff_mem.mp (mt hmem.mp hknown)), if_neg hknown,
        hnext _ (by simp [hblank, or_comm])]

/-- The problems of a list of names are collected. -/
theorem errors_checkNames (c : Collector) (field : String) (names : List String) :
    (c.checkNames field names).errors = c.errors ++ (nameProblems field names).map .single := by
  have hseen : Seen [] [] := fun _ _ => Iff.rfl
  exact errors_checkNamesFrom c hseen

theorem errors_addIf (c : Collector) (condition : Bool) (problem : Problem) :
    (c.addIf condition problem).errors
      = c.errors ++ (problemIf (condition = true) problem).map .single := by
  cases condition <;> simp [addIf, add, problemIf]

/-- The problems of a group are collected, however they were reported. -/
theorem errors_addResult (c : Collector) (problems : List Problem) :
    (c.addResult (outcome problems)).errors = c.errors ++ problems.map .single := by
  match problems with
  | [] => simp [outcome, addResult]
  | [_] => rfl
  | _ :: _ :: _ => rfl

/-- What was collected is reported. -/
theorem finish_eq_outcome {problems : List Problem} (h : c.errors = problems.map .single) :
    c.finish = outcome problems := by
  rw [finish, h]
  match problems with
  | [] => rfl
  | [_] => rfl
  | _ :: _ :: _ => rfl

end Collector

/-! ## Settings -/

theorem Make.validate_eq_outcome (s : Make) : s.validate = outcome s.problems := by
  refine Collector.finish_eq_outcome ?_
  simp [Collector.errors_checkNames, Collector.errors_addIf, Make.problems]

theorem Trace.validate_eq_outcome (s : Trace) : s.validate = outcome s.problems := by
  refine Collector.finish_eq_outcome ?_
  simp [Collector.errors_addIf, Trace.problems]

theorem Toolchain.validate_eq_outcome (s : Toolchain) : s.validate = outcome s.problems := by
  refine Collector.finish_eq_outcome ?_
  simp [Collector.errors_checkNames, Toolchain.problems]

/-- The settings are accepted if there is nothing wrong with them. Else they are refused for their
only problem, or for all of them in one list. -/
theorem validate_eq (s : Settings) : s.validate = outcome s.problems := by
  refine Collector.finish_eq_outcome ?_
  rw [Make.validate_eq_outcome, Trace.validate_eq_outcome, Toolchain.validate_eq_outcome]
  simp [Collector.errors_addResult, problems]

/-- The settings that are used where nothing else is said make sense. -/
example : validate {} = .ok () := rfl

end BuildTrace.Settings
