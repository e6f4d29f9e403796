import BuildTrace.Proofs.Path.Name

/-!
# Parents of paths

The parent of a path has the components of the path without the last one.

## Main results

* `Path.components_of_parent?`: the components of the parent.
-/

namespace BuildTrace.Path

variable {part : List Char} {parts front : List (List Char)} {relative : Bool}

/-! ## Trimmed parts -/

theorem partsComponents_cons (part : List Char) (parts : List (List Char)) :
    partsComponents (part :: parts) = (partComponent? part).toList ++ partsComponents parts := by
  rw [partsComponents, List.filterMap_cons]
  cases partComponent? part <;> rfl

/-- The parts that are trimmed have no components. -/
theorem partsComponents_trimParts (parts : List (List Char)) :
    partsComponents (trimParts false parts) = partsComponents parts := by
  induction parts with
  | nil => rfl
  | cons part rest ih =>
    rw [trimParts]
    split
    next hrest =>
      rw [hrest] at ih
      -- Nothing is left behind the part, so it goes, too, if it has no component.
      rw [partsComponents_cons, ← ih]
      split
      next hpart =>
        have hnone : partComponent? part = none := if_pos (hpart.imp_right And.left)
        rw [hnone]
        rfl
      · rw [partsComponents_cons]
    · rw [partsComponents_cons, ih, partsComponents_cons]

theorem relativeComponents_trimParts (parts : List (List Char)) :
    relativeComponents (trimParts true parts) = relativeComponents parts := by
  cases parts with
  | nil => rfl
  | cons part rest =>
    have hrest := partsComponents_trimParts rest
    rw [trimParts]
    by_cases hhere : part = ['.']
    · subst hhere
      split
      next hnil =>
        rw [hnil] at hrest
        rw [if_neg (by simp), relativeComponents, relativeComponents, hrest]
      · rw [relativeComponents, relativeComponents, hrest]
    · rw [relativeComponents_cons hhere, partsComponents_cons, ← hrest]
      split
      next hnil =>
        rw [hnil]
        split
        next hpart =>
          have hnone : partComponent? part = none := if_pos (hpart.imp_right And.left)
          rw [hnone]
          rfl
        · rw [relativeComponents_cons hhere, partsComponents_cons]
      · rw [relativeComponents_cons hhere, partsComponents_cons]

/-- Trimming leaves the first part in front, or nothing. -/
theorem trimParts_cons {first : List Char} (h : trimParts relative parts = first :: front) :
    ∃ rest, parts = first :: rest := by
  cases parts with
  | nil => cases h
  | cons part rest =>
    rw [trimParts] at h
    split at h
    · split at h
      · cases h
      · cases h
        exact ⟨rest, rfl⟩
    · cases h
      exact ⟨rest, rfl⟩

theorem mem_of_mem_trimParts (h : part ∈ trimParts relative parts) : part ∈ parts := by
  induction parts generalizing relative with
  | nil => cases h
  | cons first rest ih =>
    rw [trimParts] at h
    split at h
    · split at h
      · cases h
      · rw [List.mem_singleton.mp h]
        exact List.mem_cons_self
    · rcases List.mem_cons.mp h with rfl | h
      · exact List.mem_cons_self
      · exact List.mem_cons_of_mem _ (ih h)

/-- The last part that is left counts: it has a component, or it is the first part of a relative
path. -/
theorem trimParts_concat {last : List Char} (h : trimParts relative parts = front ++ [last]) :
    (∃ component, partComponent? last = some component) ∨
      (last = ['.'] ∧ front = [] ∧ relative = true) := by
  induction parts generalizing relative front with
  | nil => cases front <;> cases h
  | cons part rest ih =>
    rw [trimParts] at h
    split at h
    · split at h
      · cases front <;> cases h
      next hpart =>
        obtain ⟨rfl, rfl⟩ : front = [] ∧ part = last := by
          cases front with
          | nil => exact ⟨rfl, (List.cons.inj h).1⟩
          | cons _ front => cases front <;> cases h
        -- The part was kept although nothing is left behind it.
        rw [not_or] at hpart
        by_cases hhere : part = ['.']
        · exact .inr ⟨hhere, rfl, Bool.of_not_eq_false fun hfalse => hpart.2 ⟨hhere, hfalse⟩⟩
        · refine .inl ?_
          rw [partComponent?, if_neg (not_or.mpr ⟨hpart.1, hhere⟩)]
          split <;> exact ⟨_, rfl⟩
    next hkept =>
      cases front with
      | nil => exact absurd (List.cons.inj h).2 hkept
      | cons _ front =>
        obtain ⟨rfl, htail⟩ := List.cons.inj h
        rcases ih htail with hcomponent | ⟨_, _, hfalse⟩
        · exact .inl hcomponent
        · cases hfalse

/-! ## Joined parts -/

/-- Parts that were joined are the parts of the text, unless there are none. -/
theorem splitOn_joinWith (hslash : ∀ part ∈ parts, '/' ∉ part) :
    Text.splitOn '/' (Text.joinWith ['/'] parts) = if parts = [] then [[]] else parts := by
  rw [Text.splitOn_eq_splitOn, Text.joinWith_eq_intercalate]
  split
  next hnil => rw [hnil]; rfl
  next hne => exact List.splitOn_intercalate '/' hslash hne

theorem partsComponents_joinWith (hslash : ∀ part ∈ parts, '/' ∉ part) :
    partsComponents (Text.splitOn '/' (Text.joinWith ['/'] parts)) = partsComponents parts := by
  rw [splitOn_joinWith hslash]
  split
  next hnil => rw [hnil]; rfl
  · rfl

theorem relativeComponents_joinWith (hslash : ∀ part ∈ parts, '/' ∉ part) :
    relativeComponents (Text.splitOn '/' (Text.joinWith ['/'] parts))
      = relativeComponents parts := by
  rw [splitOn_joinWith hslash]
  split
  next hnil => rw [hnil]; rfl
  · rfl

/-- A text that begins with a part begins as the part does. -/
theorem head?_joinWith (part : List Char) (hpart : part ≠ []) (parts : List (List Char)) :
    (Text.joinWith ['/'] (part :: parts)).head? = part.head? := by
  rw [Text.joinWith_eq_intercalate]
  cases part with
  | nil => exact absurd rfl hpart
  | cons c part => cases parts <;> simp

/-- The first part of a relative text is empty only if the text is. -/
theorem first_part_ne_nil {s : List Char} (hs : s ≠ []) (hslash : s.head? ≠ some '/')
    (h : Text.splitOn '/' s = part :: parts) : part ≠ [] := by
  rintro rfl
  -- A text whose first part is empty is empty or begins with a slash.
  have hjoined : Text.joinWith ['/'] (Text.splitOn '/' s) = s := by
    rw [Text.joinWith_eq_intercalate, Text.splitOn_eq_splitOn]
    exact List.intercalate_splitOn '/'
  rw [h] at hjoined
  cases parts with
  | nil => exact hs hjoined.symm
  | cons next parts =>
    apply hslash
    rw [← hjoined]
    rfl

/-! ## Parents -/

/-- The components without the last part that counts are those without the last component. -/
theorem partsComponents_concat {last : List Char} {component : Component}
    (hlast : partComponent? last = some component) (front : List (List Char)) :
    partsComponents (front ++ [last]) = partsComponents front ++ [component] := by
  simp [partsComponents, hlast]

theorem relativeComponents_concat {last : List Char}
    (hlast : (∃ component, partComponent? last = some component) ∨ (last = ['.'] ∧ front = [])) :
    (relativeComponents (front ++ [last])).dropLast = relativeComponents front := by
  cases front with
  | nil =>
    by_cases hhere : last = ['.']
    · rw [hhere]
      rfl
    · rw [List.nil_append, relativeComponents_cons hhere, partsComponents_cons]
      cases partComponent? last <;> rfl
  | cons first front =>
    rcases hlast with ⟨component, hcomponent⟩ | ⟨_, hnil⟩
    · have hpart : partsComponents [last] = [component] := by simp [partsComponents, hcomponent]
      rw [relativeComponents_append (List.cons_ne_nil first front), hpart, List.dropLast_concat]
    · cases hnil

/-- A path with a parent has a last part that counts, and its parent has the parts before it. -/
theorem parent?_cases {lead : List Char} {q : Path}
    (h : (match trimParts relative parts with
      | [] => none
      | parts => some (Path.mk (String.ofList (lead ++
          Text.joinWith ['/'] (trimParts relative parts.dropLast))))) = some q) :
    ∃ front last, trimParts relative parts = front ++ [last] ∧
      q = ⟨String.ofList (lead ++ Text.joinWith ['/'] (trimParts relative front))⟩ := by
  split at h
  · cases h
  next hne =>
    rcases List.eq_nil_or_concat (trimParts relative parts) with hnil | ⟨front, last, hconcat⟩
    · exact absurd hnil hne
    · rw [List.concat_eq_append] at hconcat
      refine ⟨front, last, hconcat, ?_⟩
      rw [hconcat, List.dropLast_concat] at h
      exact (Option.some.inj h).symm

theorem slash_not_mem {last : List Char} {s : List Char}
    (h : trimParts relative (Text.splitOn '/' s) = front ++ [last]) :
    ∀ part ∈ trimParts relative front, '/' ∉ part := by
  intro part hpart
  have hmem : part ∈ trimParts relative (Text.splitOn '/' s) := by
    rw [h]
    exact List.mem_append_left _ (mem_of_mem_trimParts hpart)
  exact Text.not_mem_of_mem_splitOn (mem_of_mem_trimParts hmem)

theorem components_of_parent?_absolute {s : List Char} {q : Path}
    (h : (Path.mk (String.ofList ('/' :: s))).parent? = some q) :
    q.components = (Path.mk (String.ofList ('/' :: s))).components.dropLast := by
  simp only [parent?, chars, String.toList_ofList] at h
  obtain ⟨front, last, hparts, rfl⟩ := parent?_cases h
  rcases trimParts_concat hparts with ⟨component, hcomponent⟩ | ⟨_, _, hfalse⟩
  · have hcomponents : partsComponents (Text.splitOn '/' s)
        = partsComponents front ++ [component] := by
      rw [← partsComponents_trimParts, hparts, partsComponents_concat hcomponent]
    rw [List.singleton_append, components_absolute, components_absolute,
      partsComponents_joinWith (slash_not_mem hparts), partsComponents_trimParts, hcomponents,
      ← List.cons_append, List.dropLast_concat]
  · cases hfalse

theorem parent?_relative {s : List Char} (hs : s.head? ≠ some '/') :
    (Path.mk (String.ofList s)).parent? = match trimParts true (Text.splitOn '/' s) with
      | [] => none
      | parts => some (Path.mk (String.ofList ([] ++
          Text.joinWith ['/'] (trimParts true parts.dropLast)))) := by
  unfold parent?
  split
  next lead relative body heq =>
    simp only [chars, String.toList_ofList] at heq
    split at heq
    · exact absurd rfl hs
    · cases heq
      rfl

theorem components_of_parent?_relative {s : List Char} {q : Path} (hs : s.head? ≠ some '/')
    (h : (Path.mk (String.ofList s)).parent? = some q) :
    q.components = (Path.mk (String.ofList s)).components.dropLast := by
  rw [parent?_relative hs] at h
  obtain ⟨front, last, hparts, rfl⟩ := parent?_cases h
  rw [List.nil_append]
  have hslash := slash_not_mem hparts
  -- The parent is relative, too.
  have hhead : (Text.joinWith ['/'] (trimParts true front)).head? ≠ some '/' := by
    cases habove : trimParts true front with
    | nil => exact nofun
    | cons first above =>
      -- The first part of the parent is that of the path, which begins with no slash.
      have hfirst : first ≠ [] := by
        obtain ⟨_, rfl⟩ := trimParts_cons habove
        obtain ⟨_, hsplit⟩ := trimParts_cons hparts
        refine first_part_ne_nil ?_ hs hsplit
        rintro rfl
        cases hparts
      rw [head?_joinWith first hfirst]
      rw [habove] at hslash
      exact fun h => hslash first List.mem_cons_self (List.mem_of_mem_head? h)
  have hlast : (∃ component, partComponent? last = some component) ∨
      (last = ['.'] ∧ front = []) :=
    (trimParts_concat hparts).imp_right fun h => ⟨h.1, h.2.1⟩
  rw [components_relative hhead, components_relative hs, relativeComponents_joinWith hslash,
    relativeComponents_trimParts, ← relativeComponents_trimParts (Text.splitOn '/' s), hparts,
    relativeComponents_concat hlast]

/-- The parent has the components of the path without the last one. -/
theorem components_of_parent? {p q : Path} (h : p.parent? = some q) :
    q.components = p.components.dropLast := by
  obtain ⟨s, rfl⟩ : ∃ s, p = ⟨String.ofList s⟩ := ⟨p.chars, by simp [chars]⟩
  by_cases hs : s.head? = some '/'
  · obtain ⟨rest, rfl⟩ := List.head?_eq_some_iff.mp hs
    exact components_of_parent?_absolute h
  · exact components_of_parent?_relative hs h

end BuildTrace.Path
