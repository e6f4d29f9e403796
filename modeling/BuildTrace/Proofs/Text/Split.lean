import BuildTrace.Text.Basic

/-!
# Splitting texts

What is cut at a separator comes together again, and what was put together is cut into the same
pieces, as long as no piece has the separator in it.

## Main results

* `Text.splitOn_eq_splitOn` and `Text.joinWith_eq_intercalate`: cutting and joining are those of
  lists;
* `Text.not_mem_of_mem_splitOn`: no piece has the separator in it;
* `Text.append_inj_of_forall`: a text is cut in one place behind a run of characters;
* `Text.stripEnd?_eq_some_iff`, `Text.splitOnce?_eq_some_iff` and `Text.splitLast?_eq_some_iff`:
  where a text is cut;
* `Text.lines_append`: a text is read line by line;
* `Text.lines_flatMap`: lines that were written one after the other are read again.
-/

namespace BuildTrace.Text

variable {separator : Char} {s before after : List Char}

/-- Texts are cut as lists are. -/
theorem splitOn_eq_splitOn (separator : Char) (s : List Char) :
    splitOn separator s = s.splitOn separator := by
  induction s with
  | nil => rfl
  | cons c s ih =>
    rw [splitOn, List.splitOn_cons_eq_if_modifyHead, ih]
    simp only [beq_iff_eq]
    split
    · rfl
    · cases hpieces : s.splitOn separator with
      | nil => exact absurd hpieces (List.splitOn_ne_nil separator s)
      | cons piece pieces => rfl

/-- Texts are joined as lists are. -/
theorem joinWith_eq_intercalate (separator : List Char) (parts : List (List Char)) :
    joinWith separator parts = separator.intercalate parts := by
  induction parts with
  | nil => rfl
  | cons part parts ih =>
    cases parts with
    | nil => simp [joinWith]
    | cons next parts => rw [joinWith, ih, List.intercalate_cons_cons]

/-- No piece of a text has the separator in it. -/
theorem not_mem_of_mem_splitOn {piece : List Char} (h : piece ∈ splitOn separator s) :
    separator ∉ piece := by
  induction s generalizing piece with
  | nil =>
    obtain rfl : piece = [] := List.mem_singleton.mp h
    exact List.not_mem_nil
  | cons c s ih =>
    rw [splitOn] at h
    split at h
    · rcases List.mem_cons.mp h with rfl | h
      · exact List.not_mem_nil
      · exact ih h
    next hc =>
      split at h
      next hpieces =>
        rw [splitOn_eq_splitOn] at hpieces
        exact absurd hpieces (List.splitOn_ne_nil separator s)
      -- The character joins the first piece and is not the separator.
      next first pieces hpieces =>
        rw [hpieces] at ih
        rcases List.mem_cons.mp h with rfl | h
        · rw [List.mem_cons, not_or]
          exact ⟨Ne.symm hc, ih (List.mem_cons_self ..)⟩
        · exact ih (List.mem_cons_of_mem _ h)

/-- A character that is not in the lead ends what the lead is compared with. -/
theorem strip?_append_cons {lead : List Char} {c : Char} (h : c ∉ lead) (s t : List Char) :
    strip? lead (s ++ c :: t) = (strip? lead s).map (· ++ c :: t) := by
  induction lead generalizing s with
  | nil => rfl
  | cons p lead ih =>
    obtain ⟨hp, hlead⟩ := List.ne_and_not_mem_of_not_mem_cons h
    cases s with
    | nil => exact if_neg (Ne.symm hp)
    | cons d s =>
      rw [List.cons_append, strip?, strip?]
      split
      · exact ih hlead s
      · rfl

/-- A run of characters ends where one of another kind follows. -/
theorem append_inj_of_forall {p : Char → Bool} {s t rest rest' : List Char}
    (hs : ∀ c ∈ s, p c = true) (ht : ∀ c ∈ t, p c = true) (hrest : ∀ c ∈ rest.head?, p c = false)
    (hrest' : ∀ c ∈ rest'.head?, p c = false) (h : s ++ rest = t ++ rest') :
    s = t ∧ rest = rest' := by
  have hcut : ∀ s rest : List Char, (∀ c ∈ s, p c = true) → (∀ c ∈ rest.head?, p c = false) →
      (s ++ rest).takeWhile p = s := by
    intro s rest hs hrest
    rw [List.takeWhile_append_of_pos hs]
    cases rest with
    | nil => rw [List.takeWhile_nil, List.append_nil]
    | cons c rest => rw [List.takeWhile_cons_of_neg (by simp [hrest c rfl]), List.append_nil]
  obtain rfl : s = t := by rw [← hcut s rest hs hrest, h, hcut t rest' ht hrest']
  exact ⟨rfl, List.append_cancel_left h⟩

/-- A text is cut exactly when it ends with the given end. -/
theorem stripEnd?_eq_some_iff {tail rest : List Char} :
    stripEnd? tail s = some rest ↔ s = rest ++ tail := by
  rw [stripEnd?, Option.map_eq_some_iff]
  constructor
  · rintro ⟨reversed, h, rfl⟩
    have hs := congrArg List.reverse (strip?_eq_some_iff.mp h)
    simpa using hs
  · rintro rfl
    exact ⟨rest.reverse, strip?_eq_some_iff.mpr (by simp), List.reverse_reverse rest⟩

/-- Texts end as lists do. -/
theorem endsWith_iff {tail : List Char} : endsWith tail s = true ↔ tail <:+ s := by
  rw [endsWith, Option.isSome_iff_exists]
  constructor
  · rintro ⟨rest, h⟩
    exact ⟨rest, (stripEnd?_eq_some_iff.mp h).symm⟩
  · rintro ⟨rest, h⟩
    exact ⟨rest, stripEnd?_eq_some_iff.mpr h.symm⟩

/-- A text is cut at its first separator. -/
theorem splitOnce?_eq_some_iff :
    splitOnce? separator s = some (before, after) ↔
      s = before ++ separator :: after ∧ separator ∉ before := by
  induction s generalizing before with
  | nil => simp [splitOnce?]
  | cons c s ih =>
    rw [splitOnce?]
    split
    next hc =>
      subst hc
      constructor
      · rintro ⟨⟩
        exact ⟨rfl, List.not_mem_nil⟩
      · rintro ⟨heq, hbefore⟩
        cases before with
        | nil => cases heq; rfl
        | cons d before =>
          -- The text would be cut before its first separator.
          obtain rfl : c = d := (List.cons.inj heq).1
          exact absurd (List.mem_cons_self ..) hbefore
    next hc =>
      simp only [Option.map_eq_some_iff, Prod.exists, Prod.mk.injEq]
      constructor
      · rintro ⟨before', after', h, rfl, rfl⟩
        obtain ⟨rfl, hbefore⟩ := ih.mp h
        exact ⟨rfl, by simp [Ne.symm hc, hbefore]⟩
      · rintro ⟨heq, hbefore⟩
        cases before with
        | nil => exact absurd (List.cons.inj heq).1 hc
        | cons d before =>
          obtain ⟨rfl, rfl⟩ := List.cons.inj heq
          have hrest : separator ∉ before := fun h => hbefore (List.mem_cons_of_mem _ h)
          exact ⟨before, after, ih.mpr ⟨rfl, hrest⟩, rfl, rfl⟩

/-- A text without the separator is not cut. -/
theorem splitLast?_eq_none_iff : splitLast? separator s = none ↔ separator ∉ s := by
  induction s with
  | nil => simp [splitLast?]
  | cons c s ih =>
    rw [splitLast?, List.mem_cons, not_or, ← ih]
    cases splitLast? separator s with
    | none => simp [@eq_comm _ c]
    | some parts => simp

theorem splitLast?_of_not_mem (h : separator ∉ s) : splitLast? separator s = none :=
  splitLast?_eq_none_iff.mpr h

/-- A text is cut at its last separator. -/
theorem splitLast?_append (h : separator ∉ after) :
    splitLast? separator (before ++ separator :: after) = some (before, after) := by
  induction before with
  | nil =>
    rw [List.nil_append, splitLast?, splitLast?_of_not_mem h]
    exact if_pos rfl
  | cons c before ih => rw [List.cons_append, splitLast?, ih]

/-- Nowhere else is it cut. -/
theorem splitLast?_eq_some_iff :
    splitLast? separator s = some (before, after) ↔
      s = before ++ separator :: after ∧ separator ∉ after := by
  refine ⟨fun h => ?_, fun ⟨hs, hafter⟩ => hs ▸ splitLast?_append hafter⟩
  induction s generalizing before with
  | nil => cases h
  | cons c s ih =>
    rw [splitLast?] at h
    cases hrest : splitLast? separator s with
    | some parts =>
      rw [hrest] at h
      cases h
      obtain ⟨rfl, hafter⟩ := ih hrest
      exact ⟨rfl, hafter⟩
    -- There is no separator behind the first character.
    | none =>
      rw [hrest, Option.ite_none_right_eq_some] at h
      obtain ⟨rfl, h⟩ := h
      cases h
      exact ⟨rfl, splitLast?_eq_none_iff.mp hrest⟩

/-- There is one last separator at most. -/
theorem append_inj_of_last {before' after' : List Char} (hafter : separator ∉ after)
    (hafter' : separator ∉ after')
    (h : before ++ separator :: after = before' ++ separator :: after') :
    before = before' ∧ after = after' := by
  have hcut : splitLast? separator (before ++ separator :: after) = some (before, after) :=
    splitLast?_append hafter
  rw [h, splitLast?_append hafter'] at hcut
  obtain ⟨rfl, rfl⟩ := Prod.mk.inj (Option.some.inj hcut)
  exact ⟨rfl, rfl⟩

/-- If there is a separator, there is a last one. -/
theorem exists_last_of_mem (h : separator ∈ s) :
    ∃ before after, s = before ++ separator :: after ∧ separator ∉ after := by
  cases hcut : splitLast? separator s with
  | none => exact absurd h (splitLast?_eq_none_iff.mp hcut)
  | some parts => exact ⟨parts.1, parts.2, splitLast?_eq_some_iff.mp hcut⟩

/-! ## Lines -/

theorem linesOfPieces_cons {piece : List Char} {pieces : List (List Char)} (h : pieces ≠ []) :
    linesOfPieces (piece :: pieces) = dropReturn piece :: linesOfPieces pieces := by
  obtain ⟨next, pieces, rfl⟩ := List.exists_cons_of_ne_nil h
  rfl

/-- The first line of a text goes up to its first line feed. -/
theorem lines_append (h : '\n' ∉ s) (t : List Char) :
    lines (s ++ '\n' :: t) = dropReturn s :: lines t := by
  rw [lines, splitOn_eq_splitOn, List.splitOn_append_cons_self, List.splitOn_eq_singleton h,
    List.singleton_append, linesOfPieces_cons (List.splitOn_ne_nil _ t), ← splitOn_eq_splitOn]
  rfl

/-- A text without a line feed is one line. -/
theorem lines_of_not_mem (h : '\n' ∉ s) (hne : s ≠ []) : lines s = [s] := by
  rw [lines, splitOn_eq_splitOn, List.splitOn_eq_singleton h, linesOfPieces,
    if_neg (by simpa using hne)]

/-- A line without a carriage return at its end stays as it is. -/
theorem dropReturn_eq_self (h : s.getLast? ≠ some '\r') : dropReturn s = s := by
  rw [dropReturn]
  cases hstrip : stripEnd? ['\r'] s with
  | none => rfl
  | some before =>
    obtain rfl := stripEnd?_eq_some_iff.mp hstrip
    exact absurd (List.getLast?_concat ..) h

/-- A line is at most shorter by its carriage return. -/
theorem prefix_dropReturn (s : List Char) : dropReturn s <+: s := by
  rw [dropReturn]
  cases hstrip : stripEnd? ['\r'] s with
  | none => exact List.prefix_rfl
  | some before => exact ⟨['\r'], (stripEnd?_eq_some_iff.mp hstrip).symm⟩

/-- No line has a line feed in it. -/
theorem not_mem_of_mem_lines {line : List Char} (h : line ∈ lines s) : '\n' ∉ line := by
  have hpieces : ∀ piece ∈ splitOn '\n' s, '\n' ∉ piece := fun _ => not_mem_of_mem_splitOn
  rw [lines] at h
  generalize splitOn '\n' s = pieces at h hpieces
  induction pieces with
  | nil => cases h
  | cons piece pieces ih =>
    obtain ⟨hpiece, hpieces⟩ := List.forall_mem_cons.mp hpieces
    cases pieces with
    | nil =>
      rw [linesOfPieces] at h
      split at h
      · cases h
      · exact List.mem_singleton.mp h ▸ hpiece
    | cons next pieces =>
      rw [linesOfPieces_cons (List.cons_ne_nil _ _)] at h
      rcases List.mem_cons.mp h with rfl | h
      · exact fun hmem => hpiece ((prefix_dropReturn piece).subset hmem)
      · exact ih h hpieces

/-- Lines that are written one after the other, each with a line feed behind it, are read again. -/
theorem lines_flatMap {texts : List (List Char)}
    (h : ∀ s ∈ texts, '\n' ∉ s ∧ s.getLast? ≠ some '\r') :
    lines (texts.flatMap (· ++ ['\n'])) = texts := by
  induction texts with
  | nil => rfl
  | cons s texts ih =>
    obtain ⟨⟨hline, hreturn⟩, htexts⟩ := List.forall_mem_cons.mp h
    rw [List.flatMap_cons, List.append_assoc, List.singleton_append, lines_append hline, ih htexts,
      dropReturn_eq_self hreturn]

end BuildTrace.Text
