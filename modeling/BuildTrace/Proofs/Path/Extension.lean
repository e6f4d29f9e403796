import BuildTrace.Proofs.Path.Normal
import BuildTrace.Proofs.Text.Case
import BuildTrace.Proofs.Text.Trim

/-!
# Extensions of paths

The extension that a path is written with is that of the path it resolves to, or else the name in
front of it is empty: then the entry is hidden, and has no extension.

## Main definitions

* `Path.IsExtension`: the texts that are extensions.

## Main results

* `Path.fileName?_normalize`: a path keeps its name when it is normalized;
* `Path.fileName?_resolve` and `Path.fileName?_resolve_append`: a name that stands alone, or behind
  a slash, is the name of the path it resolves to;
* `Path.extension?_resolve`: a path keeps its extension when it is resolved.
-/

namespace BuildTrace

/-- No later step takes back the last one. -/
theorem Component.normal_concat_name (steps : List Component) (n : String) :
    normal (steps ++ [.name n]) = normal steps ++ [.name n] := by
  have hstep : ∀ way, step way (.name n) = .name n :: way := fun _ => rfl
  rw [normal, List.foldl_concat, hstep, List.reverse_cons, normal]

namespace Path

variable {p : Path} {n : String} {s front tail : List Char}

/-! ## Names -/

/-- A new part of a path begins behind the text. -/
def AtPart (s : List Char) : Prop := s = [] ∨ s.getLast? = some '/'

theorem AtPart.append_slash (h : AtPart front) (s : List Char) : AtPart (s ++ '/' :: front) := by
  refine .inr ?_
  rw [List.getLast?_append, List.getLast?_cons]
  rcases h with rfl | h
  · rfl
  · rw [h]
    rfl

/-- A text is cut where its last part begins. -/
theorem exists_atPart_append (s : List Char) :
    ∃ front part, s = front ++ part ∧ AtPart front ∧ '/' ∉ part := by
  refine ⟨s.rdropWhile (· != '/'), s.rtakeWhile (· != '/'),
    (List.rdropWhile_append_rtakeWhile).symm, ?_, fun h => ?_⟩
  · by_cases hnil : s.rdropWhile (· != '/') = []
    · exact .inl hnil
    · refine .inr ?_
      have hlast := List.rdropWhile_last_not _ _ hnil
      rw [List.getLast?_eq_some_getLast hnil]
      simpa using hlast
  · simpa using List.mem_rtakeWhile_imp h

/-- The name at the end of a path is its file name. -/
theorem fileName?_append (h : IsName n) (hs : AtPart s) :
    (Path.mk (String.ofList (s ++ n.toList))).fileName? = some n := by
  have hhead : n.toList.head? ≠ some '/' := fun hhead => h.slash (List.mem_of_mem_head? hhead)
  have hjoin := join_relative hhead s
  have hs : s = [] ∨ s.getLast? = some '/' := hs
  rw [if_pos hs, String.ofList_toList] at hjoin
  rw [← hjoin, fileName?, components_join_name _ h, List.getLast?_concat]

/-- A text that is more than dots is no text of dots. -/
theorem ne_of_exists_ne_dot (h : ∃ c ∈ s, c ≠ '.') {part : List Char}
    (hpart : ∀ c ∈ part, c = '.') : s ≠ part := by
  rintro rfl
  obtain ⟨c, hc, hdot⟩ := h
  exact hdot (hpart c hc)

/-- A text without slashes is a name if it is more than dots. -/
theorem isName_of_exists (hslash : '/' ∉ s) (h : ∃ c ∈ s, c ≠ '.') :
    IsName (String.ofList s) := by
  have hhere : ¬(s = [] ∨ s = ['.']) :=
    not_or.mpr ⟨ne_of_exists_ne_dot h (by simp), ne_of_exists_ne_dot h (by simp)⟩
  refine ⟨by rwa [String.toList_ofList], ?_⟩
  rw [String.toList_ofList, partComponent?, if_neg hhere, if_neg (ne_of_exists_ne_dot h (by simp))]

/-- A name that stands alone is a file name. -/
theorem fileName?_of_isName (h : IsName n) : (Path.mk n).fileName? = some n := by
  have hname := fileName?_append h (.inl rfl)
  rwa [List.nil_append, String.ofList_toList] at hname

/-- The last step is written at the end. -/
theorem exists_stepChars_concat (steps : List Component) (c : Component) :
    ∃ front, AtPart front ∧ stepChars (steps ++ [c]) = front ++ c.text.toList := by
  simp only [stepChars, Text.joinWith_eq_intercalate, List.map_append, List.map_singleton]
  induction steps with
  | nil => exact ⟨[], .inl rfl, List.intercalate_singleton⟩
  | cons first steps ih =>
    obtain ⟨front, hfront, heq⟩ := ih
    refine ⟨first.text.toList ++ '/' :: front, hfront.append_slash _, ?_⟩
    rw [List.map_cons, List.cons_append, List.intercalate_cons_of_ne_nil (by simp), heq]
    simp

/-- The plainest path whose last step goes to an entry ends with the name of the entry. -/
theorem exists_ofComponents_concat (steps : List Component) (n : String) :
    ∃ front, AtPart front ∧
      ofComponents (steps ++ [.name n]) = ⟨String.ofList (front ++ n.toList)⟩ := by
  by_cases hroot : (steps ++ [Component.name n]).head? = some .root
  · obtain ⟨rest, rfl⟩ : ∃ rest, steps = .root :: rest := by
      cases steps with
      | nil => cases hroot
      | cons c steps => exact ⟨steps, by rw [Option.some.inj hroot]⟩
    obtain ⟨front, hfront, heq⟩ := exists_stepChars_concat rest (.name n)
    refine ⟨'/' :: front, hfront.append_slash [], ?_⟩
    rw [List.cons_append, ofComponents_root, heq]
    rfl
  · obtain ⟨front, hfront, heq⟩ := exists_stepChars_concat steps (.name n)
    exact ⟨front, hfront, by rw [ofComponents_of_head? hroot, heq]; rfl⟩

/-- The file name of a path is its last component. -/
theorem fileName?_eq_some_iff :
    p.fileName? = some n ↔ ∃ steps, p.components = steps ++ [.name n] := by
  rw [fileName?]
  constructor
  · intro h
    split at h
    next name hlast =>
      obtain rfl := Option.some.inj h
      exact List.getLast?_eq_some_iff.mp hlast
    next => cases h
  · rintro ⟨steps, hsteps⟩
    rw [hsteps, List.getLast?_concat]

theorem isName_of_fileName? (h : p.fileName? = some n) : IsName n := by
  obtain ⟨steps, hsteps⟩ := fileName?_eq_some_iff.mp h
  exact isName_of_mem_components (p := p) (by simp [hsteps])

/-- A path keeps its name when it is normalized. -/
theorem fileName?_normalize (h : p.fileName? = some n) : p.normalize.fileName? = some n := by
  obtain ⟨steps, hsteps⟩ := fileName?_eq_some_iff.mp h
  obtain ⟨front, hfront, heq⟩ := exists_ofComponents_concat (Component.normal steps) n
  rw [normalize, hsteps, Component.normal_concat_name, heq,
    fileName?_append (isName_of_fileName? h) hfront]

/-- A path that is joined to another one stands at the end. -/
theorem exists_join_eq (base : Path) (s : List Char) :
    ∃ front, base.join ⟨String.ofList s⟩ = ⟨String.ofList (front ++ s)⟩ := by
  rw [join]
  split
  · exact ⟨[], rfl⟩
  · split
    · exact ⟨base.chars, by simp [chars, String.ofList_append]⟩
    · exact ⟨base.chars ++ ['/'], by simp [chars, String.ofList_append, String.append_assoc]⟩

/-- A name that is written behind a slash is that of the path it resolves to, quotes apart. -/
theorem fileName?_resolve_append {name : List Char} (hfront : ∀ c ∈ front, Text.isBlank c = false)
    (hend : Text.trimEnd name = name) (h : IsName (String.ofList (unquote name))) (base : Path) :
    (resolve (String.ofList (front ++ '/' :: name)) base).fileName?
      = some (String.ofList (unquote name)) := by
  have hunquote : unquote (front ++ '/' :: name) = unquote front ++ ['/'] ++ unquote name := by
    simp [unquote]
  rw [resolve, String.toList_ofList, Text.trim_append_cons hfront (by decide), hend, hunquote]
  refine fileName?_normalize ?_
  obtain ⟨lead, hjoin⟩ := exists_join_eq base (unquote front ++ ['/'] ++ unquote name)
  have hpart : AtPart (lead ++ (unquote front ++ ['/'])) := .inr (by simp)
  have hname := fileName?_append h hpart
  rwa [String.toList_ofList, List.append_assoc, ← hjoin] at hname

/-- A name that is written without white space and quotes is that of the path it resolves to. -/
theorem fileName?_resolve (h : IsName n)
    (hchars : ∀ c ∈ n.toList, Text.isBlank c = false ∧ c ∉ ['"', '\'']) (base : Path) :
    (resolve n base).fileName? = some n := by
  have hunquote : unquote n.toList = n.toList := by
    refine List.filter_eq_self.mpr fun c hc => ?_
    have hquotes := (hchars c hc).2
    simp only [List.mem_cons, not_or] at hquotes
    simp [hquotes]
  rw [resolve, Text.trim_eq_self_of_forall fun c hc => (hchars c hc).1, hunquote,
    String.ofList_toList]
  refine fileName?_normalize ?_
  rw [fileName?, components_join_name base h, List.getLast?_concat]

/-! ## Extensions -/

/-- A name is cut at its last dot, unless that is in front of all. -/
theorem splitName_append (h : ∃ c ∈ s ++ '.' :: tail, c ≠ '.') (htail : '.' ∉ tail) :
    splitName (String.ofList (s ++ '.' :: tail)) =
      if s = [] then (String.ofList ('.' :: tail), none)
      else (String.ofList s, some (String.ofList tail)) := by
  have hup : String.ofList (s ++ '.' :: tail) ≠ ".." := by
    intro hup
    have hdots : s ++ '.' :: tail ≠ ['.', '.'] := ne_of_exists_ne_dot h (by simp)
    exact hdots (by simpa using congrArg String.toList hup)
  rw [splitName, if_neg hup, String.toList_ofList, Text.splitLast?_append htail]
  cases s <;> rfl

theorem splitName_of_not_mem (h : '.' ∉ s) :
    splitName (String.ofList s) = (String.ofList s, none) := by
  rw [splitName, String.toList_ofList, Text.splitLast?_of_not_mem h]
  split <;> rfl

/-- The text is an extension, given without its dot: it keeps to one part of a path, and is written
without white space and quotes. -/
structure IsExtension (tail : List Char) : Prop where
  /-- An extension is not empty. -/
  nonempty : tail ≠ []
  /-- It has none of the characters that mean something in a path as it is written. -/
  chars : ∀ c ∈ tail, Text.isBlank c = false ∧ c ∉ ['.', '/', '"', '\'']

namespace IsExtension

theorem not_mem (h : IsExtension tail) : '.' ∉ tail ∧ '/' ∉ tail :=
  ⟨fun hc => (h.chars _ hc).2 (by decide), fun hc => (h.chars _ hc).2 (by decide)⟩

/-- An extension is more than dots. -/
theorem exists_ne_dot (h : IsExtension tail) (front : List Char) :
    ∃ c ∈ front ++ '.' :: tail, c ≠ '.' := by
  obtain ⟨c, hc⟩ := List.exists_mem_of_ne_nil tail h.nonempty
  exact ⟨c, by simp [hc], fun heq => h.not_mem.1 (heq ▸ hc)⟩

/-- A part with an extension is a name. -/
theorem isName (h : IsExtension tail) (hfront : '/' ∉ front) :
    IsName (String.ofList (front ++ '.' :: tail)) :=
  isName_of_exists (by simpa [hfront] using h.not_mem.2) (h.exists_ne_dot front)

/-- The dot in front of the extension is the last one of the name. -/
theorem splitName_eq (h : IsExtension tail) (stem : List Char) :
    splitName (String.ofList (stem ++ '.' :: tail)) =
      if stem = [] then (String.ofList ('.' :: tail), none)
      else (String.ofList stem, some (String.ofList tail)) :=
  splitName_append (h.exists_ne_dot stem) h.not_mem.1

/-- A text that is an extension in small letters is one as it is. -/
theorem of_map_toLower (h : IsExtension (tail.map Char.toLower)) : IsExtension tail := by
  refine ⟨fun hnil => h.nonempty (by rw [hnil, List.map_nil]), fun c hc => ?_⟩
  rcases Text.toLower_cases c with hsame | ⟨halpha, -⟩
  · exact hsame ▸ h.chars c.toLower (List.mem_map_of_mem hc)
  -- Letters are neither white space nor any of the other characters.
  · refine ⟨Text.isBlank_eq_false_of_isAlphanum (by rw [Char.isAlphanum, halpha, Bool.true_or]), ?_⟩
    intro hmem
    simp only [List.mem_cons, List.not_mem_nil, or_false] at hmem
    rcases hmem with rfl | rfl | rfl | rfl <;> exact absurd halpha (by decide)

end IsExtension

/-- What a path ends with is its extension, unless there is no name before it. -/
theorem extension?_append (h : IsExtension tail) (front : List Char) :
    (Path.mk (String.ofList (front ++ '.' :: tail))).normalize.extension? = none ∨
      (Path.mk (String.ofList (front ++ '.' :: tail))).normalize.extension?
        = some (String.ofList tail) := by
  obtain ⟨front, stem, rfl, hfront, hstem⟩ := exists_atPart_append front
  have hname := fileName?_append (h.isName hstem) hfront
  rw [String.toList_ofList, ← List.append_assoc] at hname
  rw [extension?, fileName?_normalize hname, Option.bind_some, h.splitName_eq]
  split
  · exact .inl rfl
  · exact .inr rfl

/-- The extension of a path as it is written is that of the path it resolves to, unless there is no
name before it. -/
theorem extension?_resolve {written : String} (h : IsExtension tail)
    (hwritten : written.toList = front ++ '.' :: tail) (base : Path) :
    (resolve written base).extension? = none ∨
      (resolve written base).extension? = some (String.ofList tail) := by
  obtain ⟨trimmed, htrim⟩ := Text.exists_trim_append (t := '.' :: tail) (by simp)
    (List.forall_mem_cons.mpr ⟨by decide, fun c hc => (h.chars c hc).1⟩) front
  have htail : unquote ('.' :: tail) = '.' :: tail := by
    refine List.filter_eq_self.mpr (List.forall_mem_cons.mpr ⟨by decide, fun c hc => ?_⟩)
    have hchars := (h.chars c hc).2
    simp only [List.mem_cons, not_or] at hchars
    simp [hchars]
  have hunquote : unquote (trimmed ++ '.' :: tail) = unquote trimmed ++ '.' :: tail := by
    rw [unquote, List.filter_append]
    exact congrArg (unquote trimmed ++ ·) htail
  obtain ⟨before, hjoin⟩ := exists_join_eq base (unquote trimmed ++ '.' :: tail)
  rw [resolve, hwritten, htrim, hunquote, hjoin, ← List.append_assoc]
  exact extension?_append h _

end Path

end BuildTrace
