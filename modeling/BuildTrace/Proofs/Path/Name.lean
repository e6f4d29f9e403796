import BuildTrace.Path.Basic
import BuildTrace.Proofs.Text.Split

/-!
# Names at the end of paths

A name that is added to a path is its last component, and the components before it are those the
path had.

## Main definitions

* `Path.IsName`: the texts that are the names of entries.

## Main results

* `Path.isName_of_mem_components`: the names among the components of a path are such texts;
* `Path.components_cases`: the root is the first component of a path, or none;
* `Path.components_join_relative` and `Path.components_join_name`: what is joined to a path comes
  behind its components.
-/

namespace BuildTrace.Path

/-- A text that is the name of an entry: one part of a path that leads neither here nor up. -/
structure IsName (n : String) : Prop where
  /-- A name is one part. -/
  slash : '/' ∉ n.toList
  /-- The part is a name. -/
  part : partComponent? n.toList = some (.name n)

variable {n : String} {s : List Char}

/-- The empty part is no name. -/
theorem IsName.ne_nil (h : IsName n) : n.toList ≠ [] := fun hnil => by
  simpa [hnil, partComponent?] using h.part

/-- The names among the components of some parts are such parts. -/
theorem isName_of_mem_partsComponents (h : .name n ∈ partsComponents (Text.splitOn '/' s)) :
    IsName n := by
  obtain ⟨part, hpart, hname⟩ := List.mem_filterMap.mp h
  have hpart' := hname
  rw [partComponent?] at hname
  split at hname
  · cases hname
  · split at hname
    · cases hname
    · obtain rfl : String.ofList part = n := by
        injection hname with hname
        injection hname
      refine ⟨?_, ?_⟩
      · rw [String.toList_ofList]
        exact Text.not_mem_of_mem_splitOn hpart
      · rw [String.toList_ofList]
        exact hpart'

/-- The names among the components of a path are names of entries. -/
theorem isName_of_mem_components {p : Path} (h : .name n ∈ p.components) : IsName n := by
  rw [components] at h
  split at h
  · rcases List.mem_cons.mp h with h | h
    · cases h
    · exact isName_of_mem_partsComponents h
  · split at h
    -- The first part leads here, and the names are among the others.
    next parts hparts =>
      rcases List.mem_cons.mp h with h | h
      · cases h
      · refine isName_of_mem_partsComponents (s := p.chars) ?_
        rw [hparts]
        exact List.mem_filterMap.mpr ((List.mem_filterMap.mp h).imp
          fun part hpart => ⟨List.mem_cons_of_mem _ hpart.1, hpart.2⟩)
    · exact isName_of_mem_partsComponents h

/-- A name with more than two characters behind it is a name. -/
theorem IsName.of_length (hslash : '/' ∉ n.toList) (hlength : 2 < n.toList.length) : IsName n := by
  refine ⟨hslash, ?_⟩
  -- Only short texts lead here or up.
  have hnil : n.toList ≠ [] := fun h => by simp [h] at hlength
  have hhere : n.toList ≠ ['.'] := fun h => by simp [h] at hlength
  have hup : n.toList ≠ ['.', '.'] := fun h => by simp [h] at hlength
  rw [partComponent?, if_neg (by simp [hnil, hhere]), if_neg hup, String.ofList_toList]

/-! ## Components -/

theorem partsComponents_append (parts others : List (List Char)) :
    partsComponents (parts ++ others) = partsComponents parts ++ partsComponents others :=
  List.filterMap_append

theorem splitOn_name (h : IsName n) : Text.splitOn '/' n.toList = [n.toList] := by
  rw [Text.splitOn_eq_splitOn]
  exact List.splitOn_eq_singleton h.slash

/-- A slash between two texts separates their parts. -/
theorem splitOn_append_slash (s t : List Char) :
    Text.splitOn '/' (s ++ '/' :: t) = Text.splitOn '/' s ++ Text.splitOn '/' t := by
  simp only [Text.splitOn_eq_splitOn]
  exact List.splitOn_append_cons_self s t

theorem partsComponents_name (h : IsName n) : partsComponents [n.toList] = [.name n] := by
  simp [partsComponents, h.part]

/-- The components of a path that begins with no slash, from its parts. -/
def relativeComponents : List (List Char) → List Component
  | ['.'] :: parts => .here :: partsComponents parts
  | parts => partsComponents parts

theorem relativeComponents_cons {part : List Char} (h : part ≠ ['.'])
    (parts : List (List Char)) :
    relativeComponents (part :: parts) = partsComponents (part :: parts) := by
  unfold relativeComponents
  split
  next heq => exact absurd (List.cons.inj heq).1 h
  · rfl

theorem relativeComponents_append {parts : List (List Char)} (h : parts ≠ [])
    (others : List (List Char)) :
    relativeComponents (parts ++ others) = relativeComponents parts ++ partsComponents others := by
  cases parts with
  | nil => exact absurd rfl h
  | cons part parts =>
    by_cases hpart : part = ['.']
    · subst hpart
      simp only [relativeComponents, List.cons_append, partsComponents_append]
    · rw [relativeComponents_cons hpart, List.cons_append, relativeComponents_cons hpart,
        ← List.cons_append, partsComponents_append]

theorem components_absolute (s : List Char) :
    (Path.mk (String.ofList ('/' :: s))).components
      = .root :: partsComponents (Text.splitOn '/' s) := by
  simp only [components, chars, String.toList_ofList]

theorem components_relative (h : s.head? ≠ some '/') :
    (Path.mk (String.ofList s)).components = relativeComponents (Text.splitOn '/' s) := by
  simp only [components, chars, String.toList_ofList]
  split
  · exact absurd rfl h
  · rfl

/-! ## The root -/

/-- The parts of a path lead up, or to names. -/
theorem up_or_name_of_mem_partsComponents {parts : List (List Char)} {c : Component}
    (h : c ∈ partsComponents parts) : c = .up ∨ ∃ n, c = .name n := by
  obtain ⟨part, _, hpart⟩ := List.mem_filterMap.mp h
  rw [partComponent?] at hpart
  split at hpart
  · cases hpart
  · split at hpart
    · exact .inl (Option.some.inj hpart).symm
    · exact .inr ⟨_, (Option.some.inj hpart).symm⟩

theorem root_not_mem_partsComponents (parts : List (List Char)) :
    .root ∉ partsComponents parts := fun h => by
  rcases up_or_name_of_mem_partsComponents h with h | ⟨n, h⟩ <;> cases h

theorem root_not_mem_relativeComponents (parts : List (List Char)) :
    .root ∉ relativeComponents parts := by
  unfold relativeComponents
  split
  · rw [List.mem_cons, not_or]
    exact ⟨nofun, root_not_mem_partsComponents _⟩
  · exact root_not_mem_partsComponents _

/-- The root is the first component of an absolute path, and no component of any other one. -/
theorem components_cases (p : Path) :
    (p.isAbsolute = true ∧ ∃ rest, p.components = .root :: rest ∧ .root ∉ rest) ∨
      (p.isAbsolute = false ∧ .root ∉ p.components) := by
  obtain ⟨s, rfl⟩ : ∃ s, p = ⟨String.ofList s⟩ := ⟨p.chars, by simp [chars]⟩
  by_cases hs : s.head? = some '/'
  · obtain ⟨rest, rfl⟩ := List.head?_eq_some_iff.mp hs
    refine .inl ⟨by simp [isAbsolute, chars], _, components_absolute rest, ?_⟩
    exact root_not_mem_partsComponents _
  · refine .inr ⟨by simpa [isAbsolute, chars] using hs, ?_⟩
    rw [components_relative hs]
    exact root_not_mem_relativeComponents _

/-- A path is absolute if its first component is the root. -/
theorem isAbsolute_iff {p : Path} : p.isAbsolute = true ↔ p.components.head? = some .root := by
  rcases components_cases p with ⟨habsolute, rest, hcomponents, _⟩ | ⟨hrelative, hroot⟩
  · simp [habsolute, hcomponents]
  · rw [hrelative]
    exact ⟨nofun, fun h => absurd (List.mem_of_mem_head? h) hroot⟩

/-! ## Joining a name -/

/-- The components of a path with a slash and more behind its text. -/
theorem components_append_slash (hs : s ≠ []) (t : List Char) :
    (Path.mk (String.ofList (s ++ '/' :: t))).components
      = (Path.mk (String.ofList s)).components ++ partsComponents (Text.splitOn '/' t) := by
  cases s with
  | nil => exact absurd rfl hs
  | cons c s =>
    by_cases hc : c = '/'
    · subst hc
      rw [List.cons_append, components_absolute, components_absolute, splitOn_append_slash,
        partsComponents_append, List.cons_append]
    -- The parts in front are not empty, so it is theirs to say whether the path leads here first.
    · have hsplit : Text.splitOn '/' (c :: s) ≠ [] := by
        rw [Text.splitOn_eq_splitOn]
        exact List.splitOn_ne_nil '/' (c :: s)
      rw [components_relative (by simp [hc]), components_relative (by simp [hc]),
        splitOn_append_slash, relativeComponents_append hsplit]

/-- A slash at the end of a path adds no component. -/
theorem components_concat_slash (hs : s ≠ []) :
    (Path.mk (String.ofList (s ++ ['/']))).components = (Path.mk (String.ofList s)).components := by
  rw [components_append_slash hs]
  exact List.append_nil _

/-- A relative text is joined to a path with a slash between them, unless there is one. -/
theorem join_relative {t : List Char} (ht : t.head? ≠ some '/') (s : List Char) :
    (Path.mk (String.ofList s)).join ⟨String.ofList t⟩
      = ⟨String.ofList (if s = [] ∨ s.getLast? = some '/' then s ++ t else s ++ '/' :: t)⟩ := by
  have habsolute : (Path.mk (String.ofList t)).isAbsolute = false := by
    simpa [isAbsolute, chars] using ht
  rw [join, habsolute, if_neg Bool.false_ne_true]
  by_cases hslash : s = [] ∨ s.getLast? = some '/'
  · rw [if_pos hslash, if_pos (by simpa [chars] using hslash), String.ofList_append]
  · rw [if_neg hslash, if_neg (by simpa [chars] using hslash)]
    simp [String.ofList_append, String.ofList_cons, String.append_assoc]

/-- The components of a relative path come behind those of the path it is joined to. -/
theorem components_join_relative {t : List Char} (ht : t.head? ≠ some '/') {base : Path}
    (hbase : base.chars ≠ []) :
    (base.join ⟨String.ofList t⟩).components
      = base.components ++ partsComponents (Text.splitOn '/' t) := by
  obtain ⟨s, rfl⟩ : ∃ s, base = ⟨String.ofList s⟩ := ⟨base.chars, by simp [chars]⟩
  have hs : s ≠ [] := by simpa [chars] using hbase
  rw [join_relative ht]
  obtain ⟨front, last, hconcat⟩ := (List.eq_nil_or_concat s).resolve_left hs
  obtain rfl : s = front ++ [last] := by rw [hconcat, List.concat_eq_append]
  by_cases hlast : last = '/'
  · subst hlast
    -- The slash is there already, and a path has the same components without it.
    rw [if_pos (.inr (by simp)), List.append_assoc, List.singleton_append]
    by_cases hfront : front = []
    · subst hfront
      rw [List.nil_append, List.nil_append, components_absolute, components_absolute]
      rfl
    · rw [components_append_slash hfront, components_concat_slash hfront]
  · rw [if_neg (by simp [hlast]), components_append_slash hs]

/-- A name that is joined to a path is its last component. -/
theorem components_join_name (base : Path) (h : IsName n) :
    (base.join ⟨n⟩).components = base.components ++ [.name n] := by
  have hhead : n.toList.head? ≠ some '/' := fun hhead => h.slash (List.mem_of_mem_head? hhead)
  have hname : partsComponents (Text.splitOn '/' n.toList) = [.name n] := by
    rw [splitOn_name h, partsComponents_name h]
  rw [← String.ofList_toList (s := n)] at hname ⊢
  by_cases hbase : base.chars = []
  -- The path is empty, so the name is all of it.
  · have hhere : n.toList ≠ ['.'] := fun hn => by simpa [hn, partComponent?] using h.part
    obtain rfl : base = ⟨String.ofList []⟩ := by
      cases base
      simpa [chars] using hbase
    have hempty : (Path.mk (String.ofList [])).components = [] := rfl
    rw [join_relative hhead, if_pos (.inl rfl), hempty, List.nil_append, List.nil_append,
      components_relative hhead, splitOn_name h, relativeComponents_cons hhere,
      partsComponents_name h, String.ofList_toList]
  · rw [components_join_relative hhead hbase, ← hname, String.ofList_toList]

end BuildTrace.Path
