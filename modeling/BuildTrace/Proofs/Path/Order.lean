import BuildTrace.Path.Basic

/-!
# The order of paths

`Path.compare` orders paths by their components. This module proves that it is a total preorder
whose equivalence is `Path.same`, so a list of files that is sorted by it holds every path once.

## Main results

* `Path.compare_eq_eq_iff`: two paths compare equal exactly when they are the same;
* `instTransCmpPath`: the comparison is transitive and oriented.
-/

namespace BuildTrace

open Std

namespace Component

/-- The text that tells names apart; steps that are no names have none. -/
def nameKey : Component → String
  | name n => n
  | _ => ""

theorem compare_eq_compareLex :
    Component.compare = compareLex (compareOn rank) (compareOn nameKey) := by
  funext a b
  -- The names are told apart by their texts, everything else by its rank.
  cases a <;> cases b <;> simp [Component.compare, compareLex, compareOn, rank, nameKey] <;> rfl

instance : TransCmp Component.compare := by
  rw [compare_eq_compareLex]
  infer_instance

theorem compare_eq_eq_iff {a b : Component} : a.compare b = .eq ↔ a = b := by
  rw [compare_eq_compareLex, compareLex_eq_eq]
  cases a <;> cases b <;> simp [compareOn, rank, nameKey]

instance : LawfulEqCmp Component.compare where
  compare_self := compare_eq_eq_iff.mpr rfl
  eq_of_compare := compare_eq_eq_iff.mp

end Component

namespace Path

theorem compareComponents_eq_compareLex (as bs : List Component) :
    compareComponents as bs = List.compareLex Component.compare as bs := by
  induction as generalizing bs with
  | nil => cases bs <;> rfl
  | cons a as ih =>
    cases bs with
    | nil => rfl
    | cons b bs =>
      rw [compareComponents, List.compareLex_cons_cons]
      cases h : a.compare b <;> simp [ih]

instance : TransCmp Path.compare where
  eq_swap {p q} := by
    simp only [compare, compareComponents_eq_compareLex]
    exact OrientedCmp.eq_swap
  isLE_trans {p q r} := by
    simp only [compare, compareComponents_eq_compareLex]
    exact TransCmp.isLE_trans

/-- Two paths compare equal exactly when they have the same components. -/
theorem compare_eq_eq_iff {p q : Path} : p.compare q = .eq ↔ p.components = q.components := by
  rw [compare, compareComponents_eq_compareLex]
  exact LawfulEqCmp.compare_eq_iff_eq

theorem same_iff {p q : Path} : p.same q = true ↔ p.components = q.components := by
  simp [same]

/-- Paths are the same exactly when none of them goes before the other. -/
theorem same_iff_compare {p q : Path} : p.same q = true ↔ p.compare q = .eq := by
  rw [same_iff, compare_eq_eq_iff]

theorem same_self (p : Path) : p.same p = true := same_iff.mpr rfl

theorem same_comm (p q : Path) : p.same q = q.same p := by
  rw [Bool.eq_iff_iff, same_iff, same_iff]
  exact eq_comm

/-- A path that is the same as another one compares in the same way with all paths. -/
theorem compare_congr_left {p q : Path} (h : p.compare q = .eq) (r : Path) :
    p.compare r = q.compare r := by
  simp only [compare, compare_eq_eq_iff.mp h]

theorem compare_congr_right {p q : Path} (h : p.compare q = .eq) (r : Path) :
    r.compare p = r.compare q := by
  simp only [compare, compare_eq_eq_iff.mp h]

theorem same_congr_right {p q : Path} (h : p.compare q = .eq) (r : Path) :
    r.same p = r.same q := by
  simp only [same, compare_eq_eq_iff.mp h]

end Path

end BuildTrace
