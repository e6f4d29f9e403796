import BuildTrace.Text.Blank
import BuildTrace.Text.Digit
import Mathlib.Data.List.DropRight

/-!
# Trimming

What is trimmed from a text, and what is not: letters and digits of any script are no white space.

## Main results

* `Text.dropEndWhile_eq_rdropWhile`: ends are dropped as those of lists are;
* `Text.trim_eq_self_of_forall`: a text without white space stays as it is;
* `Text.trim_append_of_forall` and `Text.trim_append_eq_of_forall`: white space at the beginning
  does not matter, nor does white space at the end;
* `Text.length_trimEnd_lt_length_trim_append`: anything else at the beginning does matter;
* `Text.isBlank_of_mem_head?_trim` and `Text.isBlank_of_mem_getLast?_trimEnd`: there is no white
  space at the ends of a trimmed text;
* `Text.words_trim`: a trimmed text has the same words.
-/

namespace BuildTrace.Text

variable {c : Char} {s t : List Char}

/-! ## White space -/

theorem isBlank_eq_false_of_isAlphanum (h : c.isAlphanum = true) : isBlank c = false := by
  change (decide (c.val ≥ 'A'.val ∧ c.val ≤ 'Z'.val) ||
    (decide (c.val ≥ 'a'.val) && decide (c.val ≤ 'z'.val)) ||
    (decide (c.val ≥ '0'.val) && decide (c.val ≤ '9'.val))) = true at h
  simp only [Bool.or_eq_true, Bool.and_eq_true, decide_eq_true_eq, ge_iff_le,
    UInt32.le_iff_toNat_le] at h
  change (65 ≤ c.toNat ∧ c.toNat ≤ 90 ∨ 97 ≤ c.toNat ∧ c.toNat ≤ 122) ∨
    48 ≤ c.toNat ∧ c.toNat ≤ 57 at h
  simp only [isBlank, Bool.or_eq_false_iff, Bool.and_eq_false_iff, decide_eq_false_iff_not,
    beq_eq_false_iff_ne]
  omega

/-- The digits of all scripts stand between the white space characters. -/
theorem isBlank_eq_false_of_isDigit (h : isDigit c = true) : isBlank c = false := by
  have hranges : ∀ range ∈ digitRanges, 0xa0 < range.1 ∧
      (range.2 < 0x1680 ∨ 0x1680 < range.1 ∧ range.2 < 0x2000 ∨
        0x205f < range.1 ∧ range.2 < 0x3000 ∨ 0x3000 < range.1) := by
    decide
  rw [isDigit, Bool.or_eq_true, Bool.and_eq_true] at h
  rcases h with h | ⟨-, h⟩
  · exact isBlank_eq_false_of_isAlphanum (by rw [Char.isAlphanum, h, Bool.or_true])
  · obtain ⟨range, hrange, hin⟩ := List.any_eq_true.mp h
    obtain ⟨hfirst, hplace⟩ := hranges range hrange
    simp only [Bool.and_eq_true, decide_eq_true_eq] at hin
    simp only [isBlank, Bool.or_eq_false_iff, Bool.and_eq_false_iff, decide_eq_false_iff_not,
      beq_eq_false_iff_ne]
    omega

/-! ## Ends -/

/-- Ends are dropped as those of lists are. -/
theorem dropEndWhile_eq_rdropWhile (p : Char → Bool) (s : List Char) :
    dropEndWhile p s = s.rdropWhile p := by
  have hcons : ∀ c s, (c :: s).rdropWhile p =
      if s.rdropWhile p = [] then (if p c then [] else [c]) else c :: s.rdropWhile p := by
    intro c s
    simp only [List.rdropWhile, List.reverse_cons, List.dropWhile_append, List.isEmpty_iff,
      List.reverse_eq_nil_iff]
    split
    · cases hc : p c <;> simp [hc]
    · simp
  induction s with
  | nil => rfl
  | cons c s ih =>
    rw [dropEndWhile, ih, hcons]
    cases s.rdropWhile p <;> rfl

theorem trimEnd_eq_nil_iff : trimEnd s = [] ↔ ∀ c ∈ s, isBlank c = true := by
  rw [trimEnd, dropEndWhile_eq_rdropWhile, List.rdropWhile_eq_nil_iff]

theorem trimEnd_append (s t : List Char) :
    trimEnd (s ++ t) = if trimEnd t = [] then trimEnd s else s ++ trimEnd t := by
  simp only [trimEnd, dropEndWhile_eq_rdropWhile, List.rdropWhile, List.reverse_append,
    List.dropWhile_append, List.isEmpty_iff, List.reverse_eq_nil_iff]
  split
  · rfl
  · rw [List.reverse_append, List.reverse_reverse]

/-- White space at the end is trimmed. -/
theorem trimEnd_append_of_forall (h : ∀ c ∈ t, isBlank c = true) (s : List Char) :
    trimEnd (s ++ t) = trimEnd s := by
  rw [trimEnd_append, if_pos (trimEnd_eq_nil_iff.mpr h)]

/-- White space at the beginning is trimmed. -/
theorem trimStart_append_of_forall (h : ∀ c ∈ s, isBlank c = true) :
    trimStart (s ++ t) = trimStart t :=
  List.dropWhile_append_of_pos h

/-- White space at the beginning does not matter. -/
theorem trim_append_of_forall (h : ∀ c ∈ s, isBlank c = true) : trim (s ++ t) = trim t := by
  rw [trim, trimStart_append_of_forall h, trim]

/-- White space at the end stays there at most. -/
theorem exists_trimStart_append (h : ∀ c ∈ t, isBlank c = true) (s : List Char) :
    ∃ blanks, trimStart (s ++ t) = trimStart s ++ blanks ∧ ∀ c ∈ blanks, isBlank c = true := by
  rw [trimStart, List.dropWhile_append]
  split
  next hs =>
    exact ⟨_, by rw [trimStart, List.isEmpty_iff.mp hs, List.nil_append],
      fun c hc => h c ((List.dropWhile_suffix _).subset hc)⟩
  next => exact ⟨t, rfl, h⟩

/-- White space at the end does not matter. -/
theorem trim_append_eq_of_forall (h : ∀ c ∈ t, isBlank c = true) (s : List Char) :
    trim (s ++ t) = trim s := by
  obtain ⟨blanks, hstart, hblanks⟩ := exists_trimStart_append h s
  rw [trim, hstart, trimEnd_append_of_forall hblanks, trim]

/-- A text that begins with no white space is not trimmed there. -/
theorem trimStart_cons_of_false (h : isBlank c = false) : trimStart (c :: s) = c :: s :=
  List.dropWhile_cons_of_neg (by simp [h])

/-- A text that ends with something else stays as it is at its end. -/
theorem trimEnd_eq_self_iff : trimEnd s = s ↔ ∀ c ∈ s.getLast?, isBlank c = false := by
  rw [trimEnd, dropEndWhile_eq_rdropWhile, List.rdropWhile_eq_self_iff]
  cases s using List.reverseRecOn with
  | nil => simp
  | append_singleton s c => simp

theorem trimEnd_eq_self_of_forall (h : ∀ c ∈ s, isBlank c = false) : trimEnd s = s :=
  trimEnd_eq_self_iff.mpr fun c hc => h c (List.mem_of_mem_getLast? hc)

/-- A text without white space stays as it is. -/
theorem trim_eq_self_of_forall (h : ∀ c ∈ s, isBlank c = false) : trim s = s := by
  have hstart : trimStart s = s := by
    cases s with
    | nil => rfl
    | cons c s => exact trimStart_cons_of_false (h c List.mem_cons_self)
  rw [trim, hstart, trimEnd_eq_self_of_forall h]

/-- Nothing is trimmed in front of a character that is no white space and of others like it. -/
theorem trim_append_cons (hs : ∀ c ∈ s, isBlank c = false) (hc : isBlank c = false)
    (t : List Char) : trim (s ++ c :: t) = s ++ c :: trimEnd t := by
  have hstart : trimStart (s ++ c :: t) = s ++ c :: t := by
    cases s with
    | nil => exact trimStart_cons_of_false hc
    | cons d s => exact trimStart_cons_of_false (hs d List.mem_cons_self)
  have hsc : ∀ d ∈ s ++ [c], isBlank d = false :=
    List.forall_mem_append.mpr ⟨hs, by simpa using hc⟩
  rw [trim, hstart, List.append_cons, trimEnd_append, trimEnd_eq_self_of_forall hsc]
  split
  next ht => rw [ht]
  next => rw [List.append_assoc, List.singleton_append]

/-- An end without white space stays at the end. -/
theorem exists_trim_append (hne : t ≠ []) (h : ∀ c ∈ t, isBlank c = false) (s : List Char) :
    ∃ front, trim (s ++ t) = front ++ t := by
  have hend : trimEnd t = t := trimEnd_eq_self_of_forall h
  rw [trim, trimStart, List.dropWhile_append]
  split
  next => exact ⟨[], trim_eq_self_of_forall h⟩
  next => exact ⟨s.dropWhile isBlank, by rw [trimEnd_append, hend, if_neg hne]⟩

/-- What is trimmed from the end is white space. -/
theorem exists_trimEnd_append (s : List Char) :
    ∃ blanks, s = trimEnd s ++ blanks ∧ ∀ c ∈ blanks, isBlank c = true := by
  refine ⟨s.rtakeWhile isBlank, ?_, fun c hc => List.mem_rtakeWhile_imp hc⟩
  rw [trimEnd, dropEndWhile_eq_rdropWhile, List.rdropWhile_append_rtakeWhile]

/-- Less is left of a shorter end. -/
theorem length_trimEnd_le_of_suffix (h : t <:+ s) : (trimEnd t).length ≤ (trimEnd s).length := by
  obtain ⟨front, rfl⟩ := h
  rw [trimEnd_append]
  split
  next ht => simp [ht]
  next => simp

/-- More is left behind a text that is not only white space. -/
theorem length_trimEnd_lt_length_trim_append (h : ∃ c ∈ s, isBlank c = false) (t : List Char) :
    (trimEnd t).length < (trim (s ++ t)).length := by
  obtain ⟨c, hc, hblank⟩ := h
  have hstart : trimStart s ≠ [] := fun hnil =>
    Bool.false_ne_true (hblank.symm.trans (List.dropWhile_eq_nil_iff.mp hnil c hc))
  have hfirst : trimEnd (trimStart s) ≠ [] := fun hnil =>
    Bool.false_ne_true ((List.head_dropWhile_not isBlank hstart).symm.trans
      (trimEnd_eq_nil_iff.mp hnil _ (List.head_mem hstart)))
  have hfront : trimStart (s ++ t) = trimStart s ++ t := by
    rw [trimStart, List.dropWhile_append, if_neg (by rwa [List.isEmpty_iff])]
    rfl
  rw [trim, hfront, trimEnd_append]
  split
  next ht =>
    rw [ht, List.length_nil]
    exact List.length_pos_iff.mpr hfirst
  next =>
    rw [List.length_append]
    exact Nat.lt_add_of_pos_left (List.length_pos_iff.mpr hstart)

/-! ## Trimmed texts -/

theorem prefix_trimEnd (s : List Char) : trimEnd s <+: s := by
  rw [trimEnd, dropEndWhile_eq_rdropWhile]
  exact List.rdropWhile_prefix isBlank s

theorem prefix_trim (s : List Char) : trim s <+: trimStart s := prefix_trimEnd _

theorem infix_trim (s : List Char) : trim s <:+: s :=
  (prefix_trim s).isInfix.trans (List.dropWhile_suffix isBlank).isInfix

/-- No white space is left at the end. -/
theorem isBlank_of_mem_getLast?_trimEnd (h : c ∈ (trimEnd s).getLast?) : isBlank c = false := by
  rw [trimEnd, dropEndWhile_eq_rdropWhile] at h
  obtain ⟨hne, rfl⟩ := List.mem_getLast?_eq_getLast h
  exact Bool.eq_false_iff.mpr (List.rdropWhile_last_not isBlank _ hne)

/-- No white space is left at the beginning. -/
theorem isBlank_of_mem_head?_trimStart (h : c ∈ (trimStart s).head?) : isBlank c = false := by
  have hstart := List.head?_dropWhile_not isBlank s
  rw [trimStart, Option.mem_def] at h
  rwa [h] at hstart

/-- Nor is it when the end is trimmed, too. -/
theorem isBlank_of_mem_head?_trim (h : c ∈ (trim s).head?) : isBlank c = false := by
  obtain ⟨rest, hrest⟩ := prefix_trim s
  refine isBlank_of_mem_head?_trimStart (s := s) ?_
  rw [← hrest, List.head?_append, Option.mem_def.mp h]
  rfl

/-! ## Words -/

theorem words_cons_of_isBlank {c : Char} (h : isBlank c = true) (s : List Char) :
    words (c :: s) = words s := by
  rw [words.eq_def]
  exact if_pos h

theorem words_append_of_forall (h : ∀ c ∈ s, isBlank c = true) (t : List Char) :
    words (s ++ t) = words t := by
  induction s with
  | nil => rfl
  | cons c s ih =>
    obtain ⟨hc, hs⟩ := List.forall_mem_cons.mp h
    rw [List.cons_append, words_cons_of_isBlank hc, ih hs]

theorem words_append_eq_of_forall (h : ∀ c ∈ t, isBlank c = true) (s : List Char) :
    words (s ++ t) = words s := by
  induction s with
  | nil => simpa using words_append_of_forall h []
  | cons c s ih =>
    by_cases hc : isBlank c = true
    · rw [List.cons_append, words_cons_of_isBlank hc, words_cons_of_isBlank hc, ih]
    · rw [List.cons_append, words.eq_def, words.eq_def (c :: s)]
      dsimp only
      rw [if_neg hc, if_neg hc, ih]
      -- What follows the character is the same, or it is white space and has no words.
      cases s <;> rfl

/-- A text has the words it has without white space at its ends. -/
theorem words_trim (s : List Char) : words (trim s) = words s := by
  obtain ⟨blanks, hend, hblanks⟩ := exists_trimEnd_append (trimStart s)
  have hstart : s = s.takeWhile isBlank ++ trimStart s := List.takeWhile_append_dropWhile.symm
  calc words (trim s) = words (trim s ++ blanks) := (words_append_eq_of_forall hblanks _).symm
    _ = words (trimStart s) := by rw [trim, ← hend]
    _ = words (s.takeWhile isBlank ++ trimStart s) :=
        (words_append_of_forall (fun c hc => List.mem_takeWhile_imp hc) _).symm
    _ = words s := by rw [← hstart]

end BuildTrace.Text
