import BuildTrace.Text.Basic

/-!
# Finding texts

A text begins with another one, or has it inside, as lists do, and it has as many bytes as its parts
together. Nothing is trimmed from a text that has no white space at its ends.

## Main results

* `Text.startsWith_iff` and `Text.occurs_iff`: beginnings and parts of texts are those of lists;
* `Text.occurs_append_of_not_mem` and `Text.occurs_concat_of_not_mem`: characters around a text that
  are not in the part do not matter;
* `Text.eq_of_prefix_of_byteLength_le`: a beginning is the whole if it has as many bytes;
* `Text.trim_eq_self`: what is not trimmed.
-/

namespace BuildTrace.Text

variable {part s t : List Char}

/-- Texts begin as lists do. -/
theorem startsWith_iff : startsWith part s = true ↔ part <+: s := by
  rw [startsWith, Option.isSome_iff_exists]
  constructor
  · rintro ⟨rest, h⟩
    exact ⟨rest, (strip?_eq_some_iff.mp h).symm⟩
  · rintro ⟨rest, h⟩
    exact ⟨rest, strip?_eq_some_iff.mpr h.symm⟩

/-- Texts have parts as lists do. -/
theorem occurs_iff : occurs part s = true ↔ part <:+: s := by
  induction s with
  | nil => rw [occurs, List.isEmpty_iff, List.infix_nil]
  | cons c s ih => rw [occurs, Bool.or_eq_true, startsWith_iff, ih, List.infix_cons_iff]

/-- A part does not begin in a text that has not its first character. -/
theorem occurs_append_of_not_mem {first : Char} {lead : List Char} (h : first ∉ lead) :
    occurs (first :: part) (lead ++ s) = occurs (first :: part) s := by
  induction lead with
  | nil => rfl
  | cons c lead ih =>
    obtain ⟨hc, hlead⟩ := List.ne_and_not_mem_of_not_mem_cons h
    rw [List.cons_append, occurs, ih hlead, startsWith, strip?, if_neg hc]
    rfl

/-- A part does not end with a character that it has not. -/
theorem occurs_concat_of_not_mem {last : Char} (hpart : part ≠ []) (h : last ∉ part) :
    occurs part (s ++ [last]) = occurs part s := by
  rw [Bool.eq_iff_iff, occurs_iff, occurs_iff, List.infix_concat_iff]
  refine or_iff_right fun hsuffix => ?_
  rcases List.suffix_concat_iff.mp hsuffix with hnil | ⟨before, rfl, -⟩
  · exact hpart hnil
  · exact h (by simp)

/-! ## Sizes -/

theorem byteLength_append (s t : List Char) :
    byteLength (s ++ t) = byteLength s + byteLength t := by
  have hfoldl : ∀ (t : List Char) (n : Nat),
      t.foldl (fun n c => n + c.utf8Size) n = n + byteLength t := by
    intro t
    induction t with
    | nil => exact fun n => rfl
    | cons c t ih =>
      intro n
      rw [byteLength, List.foldl_cons, List.foldl_cons, ih, ih (0 + c.utf8Size)]
      omega
  exact (List.foldl_append ..).trans (hfoldl t _)

/-- Only the empty text has no bytes. -/
theorem byteLength_eq_zero_iff : byteLength s = 0 ↔ s = [] := by
  cases s with
  | nil => simp [byteLength]
  | cons c s =>
    have hfirst := byteLength_append [c] s
    have hpos : 0 < byteLength [c] := by simpa [byteLength] using c.utf8Size_pos
    rw [List.singleton_append] at hfirst
    simp
    omega

/-- A beginning with as many bytes as the whole is the whole. -/
theorem eq_of_prefix_of_byteLength_le (h : s <+: t) (hle : byteLength t ≤ byteLength s) :
    s = t := by
  obtain ⟨rest, rfl⟩ := h
  rw [byteLength_append] at hle
  have hrest : rest = [] := byteLength_eq_zero_iff.mp (by omega)
  rw [hrest, List.append_nil]

/-! ## White space -/

/-- Nothing is dropped behind a character that stays. -/
theorem dropEndWhile_concat {p : Char → Bool} {last : Char} (h : p last = false) :
    dropEndWhile p (s ++ [last]) = s ++ [last] := by
  induction s with
  | nil => simp [dropEndWhile, h]
  | cons c s ih =>
    rw [List.cons_append, dropEndWhile, ih]
    cases s <;> rfl

/-- A text between two characters that are no white space stays as it is. -/
theorem trim_eq_self {first last : Char} (hfirst : isBlank first = false)
    (hlast : isBlank last = false) : trim (first :: (s ++ [last])) = first :: (s ++ [last]) := by
  have hstart : trimStart (first :: (s ++ [last])) = first :: (s ++ [last]) := by
    simp [trimStart, hfirst]
  rw [trim, hstart, trimEnd]
  exact dropEndWhile_concat (s := first :: s) hlast

end BuildTrace.Text
