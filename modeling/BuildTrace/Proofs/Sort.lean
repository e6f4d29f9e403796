import BuildTrace.Sort
import Mathlib.Data.List.Sort

/-!
# Sorted lists

Sorting by putting one element after the other in its place is the insertion sort of the library,
so it keeps the elements and puts them in order. In a list that is in order, equal elements stand
next to each other; without the repetitions it is strictly increasing.

## Main results

* `sortBy_eq_insertionSort`, and from it `mem_sortBy` and `pairwise_sortBy`;
* `pairwise_sortBy_stable`: elements that go before each other stay in the order they were in;
* `exists_first_of_findSome?`: what is found first goes before all else that could be found;
* `pairwise_eraseReps`: an ordered list without repetitions is strictly increasing.
-/

namespace BuildTrace

variable {α : Type}

theorem insertBy_eq_orderedInsert (goesBefore : α → α → Bool) (a : α) (list : List α) :
    insertBy goesBefore a list = list.orderedInsert (fun a b => goesBefore a b = true) a := by
  induction list with
  | nil => rfl
  | cons b list ih => rw [insertBy, List.orderedInsert_cons, ih]

/-- Lists are sorted by insertion. -/
theorem sortBy_eq_insertionSort (goesBefore : α → α → Bool) (list : List α) :
    sortBy goesBefore list = list.insertionSort fun a b => goesBefore a b = true := by
  induction list with
  | nil => rfl
  | cons a list ih =>
    rw [List.insertionSort_cons, ← ih, ← insertBy_eq_orderedInsert]
    rfl

/-- Sorting keeps the elements. -/
@[simp] theorem mem_sortBy {goesBefore : α → α → Bool} {a : α} {list : List α} :
    a ∈ sortBy goesBefore list ↔ a ∈ list := by
  rw [sortBy_eq_insertionSort]
  exact (List.perm_insertionSort _ list).mem_iff

/-- Each element of a sorted list goes before all that follow it. -/
theorem pairwise_sortBy {goesBefore : α → α → Bool}
    (total : ∀ a b, goesBefore a b = true ∨ goesBefore b a = true)
    (trans : ∀ a b c, goesBefore a b = true → goesBefore b c = true → goesBefore a c = true)
    (list : List α) : (sortBy goesBefore list).Pairwise fun a b => goesBefore a b = true := by
  have htotal : Std.Total fun a b => goesBefore a b = true := ⟨total⟩
  have htrans : IsTrans α fun a b => goesBefore a b = true := ⟨trans⟩
  rw [sortBy_eq_insertionSort]
  exact List.pairwise_insertionSort _ list

section Stable

variable {goesBefore : α → α → Bool} (total : ∀ a b, goesBefore a b = true ∨ goesBefore b a = true)
  (trans : ∀ a b c, goesBefore a b = true → goesBefore b c = true → goesBefore a c = true)
  {r : α → α → Prop} {list : List α}

include total trans

/-- An element that stood in front of all others comes before those that go before it, too. -/
theorem pairwise_insertBy {a : α} (ha : ∀ b ∈ list, r a b)
    (h : list.Pairwise fun a b => goesBefore a b = true ∧ (goesBefore b a = true → r a b)) :
    (insertBy goesBefore a list).Pairwise
      fun a b => goesBefore a b = true ∧ (goesBefore b a = true → r a b) := by
  induction list with
  | nil => exact List.pairwise_singleton _ a
  | cons b list ih =>
    obtain ⟨hb, hlist⟩ := List.pairwise_cons.mp h
    obtain ⟨hab, hrest⟩ := List.forall_mem_cons.mp ha
    rw [insertBy]
    split
    next hbefore =>
      refine List.pairwise_cons.mpr ⟨fun c hc => ⟨?_, fun _ => ha c hc⟩, h⟩
      rcases List.mem_cons.mp hc with rfl | hc
      · exact hbefore
      · exact trans a b c hbefore (hb c hc).1
    next hbehind =>
      refine List.pairwise_cons.mpr ⟨fun c hc => ?_, ih hrest hlist⟩
      rw [insertBy_eq_orderedInsert, List.mem_orderedInsert] at hc
      rcases hc with rfl | hc
      · exact ⟨(total c b).resolve_left hbehind, fun h => absurd h hbehind⟩
      · exact hb c hc

/-- Elements that go before each other stay in the order they were in. -/
theorem pairwise_sortBy_stable (h : list.Pairwise r) : (sortBy goesBefore list).Pairwise
    fun a b => goesBefore a b = true ∧ (goesBefore b a = true → r a b) := by
  induction list with
  | nil => exact List.Pairwise.nil
  | cons a list ih =>
    obtain ⟨ha, hlist⟩ := List.pairwise_cons.mp h
    have hsorted : ∀ b ∈ sortBy goesBefore list, r a b := fun b hb => ha b (mem_sortBy.mp hb)
    exact pairwise_insertBy total trans hsorted (ih hlist)

end Stable

/-- The first element of an ordered list that has a value goes before all others that have one. -/
theorem exists_first_of_findSome? {β : Type} {r : α → α → Prop} {list : List α}
    (hlist : list.Pairwise r) {f : α → Option β} {value : β} (h : list.findSome? f = some value) :
    ∃ a ∈ list, f a = some value ∧ ∀ b ∈ list, (f b).isSome = true → b = a ∨ r a b := by
  obtain ⟨before, a, after, rfl, ha, hbefore⟩ := List.findSome?_eq_some_iff.mp h
  obtain ⟨hafter, -⟩ := List.pairwise_cons.mp (List.pairwise_append.mp hlist).2.1
  refine ⟨a, by simp, ha, fun b hb hsome => ?_⟩
  rcases List.mem_append.mp hb with hb | hb
  · simp [hbefore b hb] at hsome
  · exact (List.mem_cons.mp hb).imp_right (hafter b)

section Repetitions

variable [LinearOrder α]

/-- What is left of an ordered list without its repetitions is strictly increasing. -/
theorem pairwise_eraseReps {list : List α} (h : list.Pairwise (· ≤ ·)) :
    list.eraseReps.Pairwise (· < ·) := by
  -- The induction is on the elements to come; `done` are those kept before `a`, last one first.
  have hloop : ∀ (list : List α) (a : α) (done : List α), (a :: list).Pairwise (· ≤ ·) →
      (a :: done).Pairwise (· > ·) →
      (List.eraseRepsBy.loop (· == ·) a list done).Pairwise (· < ·) := by
    intro list
    induction list with
    | nil =>
      intro a done _ hdone
      rw [List.eraseRepsBy.loop, List.pairwise_reverse]
      exact hdone
    | cons b list ih =>
      intro a done hlist hdone
      obtain ⟨ha, hrest⟩ := List.pairwise_cons.mp hlist
      rw [List.eraseRepsBy.loop]
      split
      next heq =>
        obtain rfl := beq_iff_eq.mp heq
        exact ih a done hrest hdone
      next hne =>
        have hlt : a < b := lt_of_le_of_ne (ha b List.mem_cons_self) (by simpa using hne)
        refine ih b (a :: done) hrest (List.pairwise_cons.mpr ⟨?_, hdone⟩)
        intro c hc
        rcases List.mem_cons.mp hc with rfl | hc
        · exact hlt
        · exact lt_trans ((List.pairwise_cons.mp hdone).1 c hc) hlt
  cases list with
  | nil => exact List.Pairwise.nil
  | cons a list => exact hloop list a [] h (List.pairwise_singleton _ a)

end Repetitions

end BuildTrace
