import BuildTrace.Path.Normal
import BuildTrace.Proofs.Path.Parent

/-!
# Normal paths

A path that has been normalized leads down by names only, from the root or, if it is relative, from
where some steps up lead, and is written in the plainest way. Normalizing it again changes nothing,
and what is joined to it leads where it leads from the path as it was. Whatever is resolved against
an absolute directory is an absolute path of this kind.

## Main definitions

* `Component.Descends`: steps each of which is a name;
* `Component.start`: the steps that a way without detours begins with;
* `Path.Settled`: absolute normal paths;
* `Path.Rooted`: paths that are given from the root without steps up.

## Main results

* `Component.foldl_step_start`: the way that is left of steps up and down;
* `Path.exists_normal_components`: the steps of a normal path;
* `Path.normal_append`: steps are followed from a path as from the normal one;
* `Path.normalize_laws`: normal paths are a normal form, and joining respects it;
* `Path.settled_iff`: a settled path is the plainest one with steps that lead down;
* `Path.settled_resolve`: what is resolved against an absolute directory is settled;
* `Path.rooted_iff`: normalizing a rooted path does not lead elsewhere.
-/

namespace BuildTrace

namespace Component

/-- The steps lead down: each of them is the name of an entry. -/
def Descends (steps : List Component) : Prop := ∀ c ∈ steps, ∃ n, c = .name n ∧ Path.IsName n

/-- The steps lead up or down. -/
def Wanders (steps : List Component) : Prop :=
  ∀ c ∈ steps, c = .up ∨ ∃ n, c = .name n ∧ Path.IsName n

variable {steps way : List Component}

theorem Descends.wanders (h : Descends steps) : Wanders steps := fun c hc => .inr (h c hc)

/-- Names are gone down one after the other. -/
theorem foldl_step_of_descends (h : Descends steps) (way : List Component) :
    steps.foldl step way = steps.reverse ++ way := by
  induction steps generalizing way with
  | nil => rfl
  | cons c steps ih =>
    obtain ⟨⟨n, rfl, _⟩, hsteps⟩ := List.forall_mem_cons.mp h
    rw [List.foldl_cons, ih hsteps, List.reverse_cons, List.append_assoc]
    rfl

/-- As many steps up as names were gone down lead back. -/
theorem foldl_step_up (h : Descends way) (above : List Component) :
    (List.replicate way.length .up).foldl step (way ++ above) = above := by
  induction way with
  | nil => rfl
  | cons c way ih =>
    obtain ⟨⟨n, rfl, _⟩, hway⟩ := List.forall_mem_cons.mp h
    rw [List.length_cons, List.replicate_succ, List.foldl_cons]
    exact ih hway

/-- Where a way without detours begins: at the root or, if it is relative, with some steps up. -/
def start (absolute : Bool) (ups : Nat) : List Component :=
  if absolute then [.root] else List.replicate ups .up

theorem reverse_start (absolute : Bool) (ups : Nat) :
    (start absolute ups).reverse = start absolute ups := by
  cases absolute <;> simp [start]

/-- A step up leads from the root to the root, and from elsewhere further up. -/
theorem step_start_up (absolute : Bool) (ups : Nat) :
    step (start absolute ups) .up = start absolute (ups + 1) := by
  cases absolute with
  | true => rfl
  | false => cases ups <;> rfl

/-- The beginning is gone as it is. -/
theorem foldl_step_of_start (absolute : Bool) (ups : Nat) :
    (start absolute ups).foldl step [] = start absolute ups := by
  cases absolute with
  | true => rfl
  | false =>
    induction ups with
    | zero => rfl
    | succ ups ih =>
      have hlast : start false (ups + 1) = start false ups ++ [.up] := List.replicate_succ'
      have hups := step_start_up false ups
      rw [hlast] at hups ⊢
      rw [List.foldl_append, ih]
      exact hups

/-- What is left of steps up and down leads down from the beginning. -/
theorem foldl_step_start (h : Wanders steps) (hway : Descends way) (absolute : Bool) (ups : Nat) :
    ∃ ups' below, Descends below ∧
      steps.foldl step (way ++ start absolute ups) = below ++ start absolute ups' := by
  induction steps generalizing way ups with
  | nil => exact ⟨ups, way, hway, rfl⟩
  | cons c steps ih =>
    obtain ⟨hc, hsteps⟩ := List.forall_mem_cons.mp h
    rw [List.foldl_cons]
    rcases hc with rfl | ⟨n, rfl, hn⟩
    · cases way with
      -- There is no name to take back.
      | nil =>
        rw [List.nil_append, step_start_up]
        exact ih hsteps hway (ups + 1)
      | cons last way =>
        obtain ⟨⟨n, rfl, _⟩, habove⟩ := List.forall_mem_cons.mp hway
        exact ih hsteps habove ups
    · have hdown : Descends (.name n :: way) := List.forall_mem_cons.mpr ⟨⟨n, rfl, hn⟩, hway⟩
      exact ih hsteps hdown ups

/-- The way without detours, forwards. -/
theorem exists_normal_of_foldl {absolute : Bool}
    (h : ∃ ups below, Descends below ∧ steps.foldl step [] = below ++ start absolute ups) :
    ∃ ups below, Descends below ∧ normal steps = start absolute ups ++ below := by
  obtain ⟨ups, below, hbelow, heq⟩ := h
  refine ⟨ups, below.reverse, fun c hc => hbelow c (List.mem_reverse.mp hc), ?_⟩
  rw [normal, heq, List.reverse_append, reverse_start]

/-- The way from the root without detours leads down. -/
theorem normal_root (h : Wanders steps) :
    ∃ below, Descends below ∧ normal (.root :: steps) = .root :: below := by
  have hnil : Descends [] := nofun
  have hfoldl : ∃ ups below, Descends below ∧
      (.root :: steps).foldl step [] = below ++ start true ups := foldl_step_start h hnil true 0
  obtain ⟨_, below, hbelow, hnormal⟩ := exists_normal_of_foldl hfoldl
  exact ⟨below, hbelow, hnormal⟩

/-- A way that leads down has no detours. -/
theorem normal_of_descends (h : Descends steps) : normal (.root :: steps) = .root :: steps := by
  have hfoldl : (.root :: steps).foldl step [] = steps.reverse ++ [.root] :=
    foldl_step_of_descends h [.root]
  rw [normal, hfoldl, List.reverse_append, List.reverse_reverse]
  rfl

end Component

namespace Path

open Component (Descends Wanders)

variable {p base : Path} {steps : List Component}

/-! ## Written steps -/

/-- The steps are the components of the parts they are written as. -/
theorem partsComponents_text (h : Wanders steps) :
    partsComponents (steps.map fun c => c.text.toList) = steps := by
  induction steps with
  | nil => rfl
  | cons c steps ih =>
    obtain ⟨hc, hsteps⟩ := List.forall_mem_cons.mp h
    rw [List.map_cons, partsComponents_cons, ih hsteps]
    rcases hc with rfl | ⟨n, rfl, hn⟩
    · rfl
    · rw [Component.text, hn.part]
      rfl

theorem slash_not_mem_text (h : Wanders steps) : ∀ part ∈ steps.map fun c => c.text.toList,
    '/' ∉ part := by
  intro part hpart
  obtain ⟨c, hc, rfl⟩ := List.mem_map.mp hpart
  rcases h c hc with rfl | ⟨n, rfl, hn⟩
  · decide
  · exact hn.slash

/-- The characters of steps that are written one after the other. -/
def stepChars (steps : List Component) : List Char :=
  Text.joinWith ['/'] (steps.map fun c => c.text.toList)

/-- The steps are read from what they are written as. -/
theorem partsComponents_stepChars (h : Wanders steps) :
    partsComponents (Text.splitOn '/' (stepChars steps)) = steps := by
  rw [stepChars, partsComponents_joinWith (slash_not_mem_text h), partsComponents_text h]

theorem ofComponents_root (steps : List Component) :
    ofComponents (.root :: steps) = ⟨String.ofList ('/' :: stepChars steps)⟩ := by
  have hchars : (ofComponents (.root :: steps)).text.toList = '/' :: stepChars steps := by
    rw [ofComponents, String.toList_append, String.toList_intercalate, stepChars,
      Text.joinWith_eq_intercalate, List.map_map]
    rfl
  rw [← hchars, String.ofList_toList]

theorem ofComponents_of_head? (h : steps.head? ≠ some .root) :
    ofComponents steps = ⟨String.ofList (stepChars steps)⟩ := by
  have hchars : (ofComponents steps).text.toList = stepChars steps := by
    unfold ofComponents
    split
    · exact absurd rfl h
    · rw [String.toList_intercalate, stepChars, Text.joinWith_eq_intercalate, List.map_map]
      rfl
  rw [← hchars, String.ofList_toList]

theorem ofComponents_of_wanders (h : Wanders steps) :
    ofComponents steps = ⟨String.ofList (stepChars steps)⟩ := by
  refine ofComponents_of_head? fun hroot => ?_
  rcases h _ (List.mem_of_mem_head? hroot) with hup | ⟨n, hname, -⟩
  · cases hup
  · cases hname

/-- Steps are not written with a slash in front. -/
theorem head?_stepChars (h : Wanders steps) (hne : steps ≠ []) :
    ∃ c, (stepChars steps).head? = some c ∧ c ≠ '/' := by
  cases steps with
  | nil => exact absurd rfl hne
  | cons step steps =>
    obtain ⟨hstep, _⟩ := List.forall_mem_cons.mp h
    have hpart : step.text.toList ≠ [] := by
      rcases hstep with rfl | ⟨n, rfl, hn⟩
      · exact nofun
      · exact hn.ne_nil
    obtain ⟨c, rest, hc⟩ := List.exists_cons_of_ne_nil hpart
    refine ⟨c, ?_, ?_⟩
    · rw [stepChars, List.map_cons, head?_joinWith _ hpart, hc, List.head?_cons]
    · have hslash := slash_not_mem_text h _ (List.mem_map_of_mem List.mem_cons_self)
      rw [hc] at hslash
      exact fun heq => hslash (heq ▸ List.mem_cons_self)

/-- The plainest path from the root has the steps as they are. -/
theorem components_ofComponents_root (h : Wanders steps) :
    (ofComponents (.root :: steps)).components = .root :: steps := by
  rw [ofComponents_root, components_absolute, partsComponents_stepChars h]

/-- So has the plainest path with steps that lead up or down. -/
theorem components_ofComponents_of_wanders (h : Wanders steps) :
    (ofComponents steps).components = steps := by
  have hhead : (stepChars steps).head? ≠ some '/' := by
    by_cases hne : steps = []
    · subst hne
      exact nofun
    · obtain ⟨c, hc, hslash⟩ := head?_stepChars h hne
      rw [hc]
      exact fun heq => hslash (Option.some.inj heq)
  rw [ofComponents_of_wanders h, components_relative hhead, stepChars,
    relativeComponents_joinWith (slash_not_mem_text h)]
  cases steps with
  | nil => rfl
  | cons c steps =>
    -- No step is written as a `.`, which would lead here.
    have hhere : c.text.toList ≠ ['.'] := by
      rcases (List.forall_mem_cons.mp h).1 with rfl | ⟨n, rfl, hn⟩
      · decide
      · intro hn'
        have hpart := hn.part
        rw [Component.text] at hn'
        rw [hn'] at hpart
        cases hpart
    rw [List.map_cons, relativeComponents_cons hhere]
    exact partsComponents_text h

/-- The components of an absolute path lead up or down from the root. -/
theorem components_of_isAbsolute (h : p.isAbsolute = true) :
    ∃ steps, Wanders steps ∧ p.components = .root :: steps := by
  obtain ⟨s, rfl⟩ : ∃ s, p = ⟨String.ofList s⟩ := ⟨p.chars, by simp [chars]⟩
  obtain ⟨rest, rfl⟩ : ∃ rest, s = '/' :: rest :=
    List.head?_eq_some_iff.mp (by simpa [isAbsolute, chars] using h)
  refine ⟨_, fun c hc => ?_, components_absolute rest⟩
  -- Behind the root no part leads to the root or stays where it is.
  rcases up_or_name_of_mem_partsComponents hc with rfl | ⟨n, rfl⟩
  · exact .inl rfl
  · exact .inr ⟨n, rfl, isName_of_mem_partsComponents hc⟩

/-! ## Settled paths -/

/-- The path is absolute and normal. -/
structure Settled (p : Path) : Prop where
  /-- It begins at the root. -/
  absolute : p.isAbsolute = true
  /-- It takes no detours. -/
  normal : p.normalize = p

/-- A settled path is the plainest one with steps that lead down from the root. -/
theorem settled_iff :
    p.Settled ↔ ∃ steps, Descends steps ∧ p = ofComponents (.root :: steps) := by
  constructor
  · intro h
    obtain ⟨steps, hsteps, hcomponents⟩ := components_of_isAbsolute h.absolute
    obtain ⟨below, hbelow, hnormal⟩ := Component.normal_root hsteps
    refine ⟨below, hbelow, ?_⟩
    rw [← hnormal, ← hcomponents, ← normalize, h.normal]
  · rintro ⟨steps, hsteps, rfl⟩
    refine ⟨?_, ?_⟩
    · rw [isAbsolute_iff, components_ofComponents_root hsteps.wanders, List.head?_cons]
    · rw [normalize, components_ofComponents_root hsteps.wanders,
        Component.normal_of_descends hsteps]

/-- An absolute path is settled by normalizing it. -/
theorem settled_normalize (h : p.isAbsolute = true) : p.normalize.Settled := by
  obtain ⟨steps, hsteps, hcomponents⟩ := components_of_isAbsolute h
  obtain ⟨below, hbelow, hnormal⟩ := Component.normal_root hsteps
  exact settled_iff.mpr ⟨below, hbelow, by rw [normalize, hcomponents, hnormal]⟩

/-- Whatever is joined to an absolute path, the outcome is absolute. -/
theorem isAbsolute_join (h : base.isAbsolute = true) (child : Path) :
    (base.join child).isAbsolute = true := by
  obtain ⟨rest, hrest⟩ : ∃ rest, base.text.toList = '/' :: rest :=
    List.head?_eq_some_iff.mp (by simpa [isAbsolute, chars] using h)
  rw [join]
  split
  next hchild => exact hchild
  · split <;> simp [isAbsolute, chars, hrest]

/-- What is resolved against an absolute directory is settled. -/
theorem settled_resolve (h : base.isAbsolute = true) (written : String) :
    (resolve written base).Settled :=
  settled_normalize (isAbsolute_join h _)

/-! ## Rooted paths -/

/-- The path is given from the root, without steps up. -/
structure Rooted (p : Path) : Prop where
  /-- It begins at the root. -/
  absolute : p.isAbsolute = true
  /-- It does not lead up. -/
  up : .up ∉ p.components

theorem Settled.rooted (h : p.Settled) : p.Rooted := by
  refine ⟨h.absolute, fun hup => ?_⟩
  obtain ⟨steps, hsteps, hp⟩ := settled_iff.mp h
  rw [hp, components_ofComponents_root hsteps.wanders, List.mem_cons] at hup
  rcases hup with hup | hup
  · cases hup
  · obtain ⟨n, hn, _⟩ := hsteps _ hup
    cases hn

/-- The components of a rooted path lead down from the root. -/
theorem Rooted.components (h : p.Rooted) :
    ∃ steps, Descends steps ∧ p.components = .root :: steps := by
  obtain ⟨steps, hsteps, hcomponents⟩ := components_of_isAbsolute h.absolute
  refine ⟨steps, fun c hc => (hsteps c hc).resolve_left fun heq => ?_, hcomponents⟩
  exact h.up (hcomponents ▸ heq ▸ List.mem_cons_of_mem _ hc)

/-- Normalizing a rooted path does nothing but write it in the plainest way. -/
theorem Rooted.normalize (h : p.Rooted) : p.normalize = ofComponents p.components := by
  obtain ⟨steps, hsteps, hcomponents⟩ := h.components
  rw [Path.normalize, hcomponents, Component.normal_of_descends hsteps]

/-- The rooted paths are the absolute ones that lead the same way when they are normalized. -/
theorem rooted_iff : p.Rooted ↔ p.isAbsolute = true ∧ p.normalize.same p = true := by
  simp only [same, beq_iff_eq]
  constructor
  · intro h
    obtain ⟨steps, hsteps, hcomponents⟩ := h.components
    refine ⟨h.absolute, ?_⟩
    rw [h.normalize, hcomponents, components_ofComponents_root hsteps.wanders]
  · rintro ⟨habsolute, hsame⟩
    exact ⟨habsolute, hsame ▸ (settled_normalize habsolute).rooted.up⟩

/-! ## The normal form -/

/-- A `.` in front of the parts of a path is no step. -/
theorem foldl_step_relativeComponents (parts : List (List Char)) (way : List Component) :
    (relativeComponents parts).foldl Component.step way
      = (partsComponents parts).foldl Component.step way := by
  unfold relativeComponents
  split <;> rfl

/-- The parts of a path lead up or down. -/
theorem wanders_partsComponents (s : List Char) :
    Wanders (partsComponents (Text.splitOn '/' s)) := by
  intro c hc
  rcases up_or_name_of_mem_partsComponents hc with rfl | ⟨n, rfl⟩
  · exact .inl rfl
  · exact .inr ⟨n, rfl, isName_of_mem_partsComponents hc⟩

/-- The steps of a normal path: there is no `.` among them, and steps up are only in front, unless
the path is absolute. -/
theorem exists_normal_components (p : Path) :
    ∃ ups below, Descends below ∧
      Component.normal p.components = Component.start p.isAbsolute ups ++ below := by
  refine Component.exists_normal_of_foldl ?_
  have hnil : Descends [] := nofun
  obtain ⟨s, rfl⟩ : ∃ s, p = ⟨String.ofList s⟩ := ⟨p.chars, by simp [chars]⟩
  by_cases hs : s.head? = some '/'
  · obtain ⟨rest, rfl⟩ := List.head?_eq_some_iff.mp hs
    rw [components_absolute]
    have habsolute : (Path.mk (String.ofList ('/' :: rest))).isAbsolute = true := by
      simp [isAbsolute, chars]
    rw [habsolute]
    exact Component.foldl_step_start (wanders_partsComponents rest) hnil true 0
  · have hrelative : (Path.mk (String.ofList s)).isAbsolute = false := by
      simpa [isAbsolute, chars] using hs
    rw [components_relative hs, foldl_step_relativeComponents, hrelative]
    exact Component.foldl_step_start (wanders_partsComponents s) hnil false 0

/-- The normal path takes the steps without detours. -/
theorem components_normalize (p : Path) :
    p.normalize.components = Component.normal p.components := by
  obtain ⟨ups, below, hbelow, hnormal⟩ := exists_normal_components p
  rw [normalize, hnormal]
  cases p.isAbsolute with
  | true => exact components_ofComponents_root hbelow.wanders
  | false =>
    refine components_ofComponents_of_wanders fun c hc => ?_
    rcases List.mem_append.mp hc with hc | hc
    · exact .inl (List.eq_of_mem_replicate hc)
    · exact hbelow.wanders c hc

/-- Steps are followed from a path as from the normal one. -/
theorem normal_append (p : Path) (steps : List Component) :
    Component.normal (p.normalize.components ++ steps)
      = Component.normal (p.components ++ steps) := by
  obtain ⟨ups, below, hbelow, hnormal⟩ := exists_normal_components p
  -- Both ways are the same where the further steps begin.
  have hway : p.normalize.components.foldl Component.step []
      = p.components.foldl Component.step [] := by
    calc p.normalize.components.foldl Component.step []
        = below.reverse ++ Component.start p.isAbsolute ups := by
          rw [components_normalize, hnormal, List.foldl_append, Component.foldl_step_of_start,
            Component.foldl_step_of_descends hbelow]
      _ = (Component.normal p.components).reverse := by
          rw [hnormal, List.reverse_append, Component.reverse_start]
      _ = p.components.foldl Component.step [] := List.reverse_reverse _
  rw [Component.normal, Component.normal, List.foldl_append, List.foldl_append, hway]

/-- What is joined to a path comes behind its steps, unless it is absolute. -/
theorem normal_components_join (base child : Path) :
    Component.normal (base.join child).components = Component.normal
      (if child.isAbsolute then child.components else base.components ++ child.components) := by
  split
  next habsolute => rw [join, if_pos habsolute]
  next hrelative =>
    obtain ⟨t, rfl⟩ : ∃ t, child = ⟨String.ofList t⟩ := ⟨child.chars, by simp [chars]⟩
    have ht : t.head? ≠ some '/' := by simpa [isAbsolute, chars] using hrelative
    by_cases hbase : base.chars = []
    · obtain rfl : base = ⟨String.ofList []⟩ := by
        cases base
        simpa [chars] using hbase
      rw [join_relative ht, if_pos (.inl rfl)]
      rfl
    · rw [components_join_relative ht hbase, components_relative ht, Component.normal,
        Component.normal, List.foldl_append, List.foldl_append, foldl_step_relativeComponents]

theorem normalize_normalize (p : Path) : p.normalize.normalize = p.normalize := by
  have hnormal := normal_append p []
  rw [List.append_nil, List.append_nil] at hnormal
  rw [normalize, hnormal, normalize]

theorem isAbsolute_normalize (p : Path) : p.normalize.isAbsolute = p.isAbsolute := by
  obtain ⟨ups, below, hbelow, hnormal⟩ := exists_normal_components p
  rw [Bool.eq_iff_iff, isAbsolute_iff, components_normalize, hnormal]
  cases p.isAbsolute with
  | true => exact iff_of_true rfl rfl
  | false =>
    refine iff_of_false (fun hroot => ?_) nofun
    rcases List.mem_append.mp (List.mem_of_mem_head? hroot) with hmem | hmem
    · cases List.eq_of_mem_replicate hmem
    · obtain ⟨n, hn, -⟩ := hbelow _ hmem
      cases hn

/-- A path leads where it leads from the normal one. -/
theorem normalize_join (base child : Path) :
    (base.normalize.join child).normalize = (base.join child).normalize := by
  have hnormal : Component.normal (base.normalize.join child).components
      = Component.normal (base.join child).components := by
    rw [normal_components_join, normal_components_join]
    split
    · rfl
    · exact normal_append base child.components
  exact congrArg ofComponents hnormal

/-- The path that is meant by a written text. -/
def meant (written : String) : Path := ⟨String.ofList (unquote (Text.trim written.toList))⟩

/-- Resolving one path after the other, each against the directory the one before leads to, is
resolving what they are joined to. -/
theorem foldl_resolve (written : List String) (base : Path) :
    written.foldl (fun directory w => resolve w directory) base.normalize
      = (written.foldl (fun p w => p.join (meant w)) base).normalize := by
  induction written generalizing base with
  | nil => rfl
  | cons w written ih =>
    have hresolve : resolve w base.normalize = (base.join (meant w)).normalize :=
      normalize_join base (meant w)
    rw [List.foldl_cons, List.foldl_cons, hresolve, ih]

/-- Normal paths are a normal form: normalizing one changes nothing, its steps lead down by names,
from the root if the path is absolute and else from where some steps up lead, and it is absolute if
the path is. A path that is joined to it leads where it leads from the path itself, so it does not
matter whether paths are resolved one by one or all at once. -/
theorem normalize_laws (a b : Path) :
    a.normalize.normalize = a.normalize ∧
      (∃ ups below, Descends below ∧ a.normalize.components
        = (if a.isAbsolute then [.root] else List.replicate ups .up) ++ below) ∧
      a.normalize.isAbsolute = a.isAbsolute ∧
      (a.normalize.join b).normalize = (a.join b).normalize ∧
      ∀ written : List String,
        written.foldl (fun directory w => resolve w directory) a.normalize
          = (written.foldl (fun p w => p.join (meant w)) a).normalize := by
  obtain ⟨ups, below, hbelow, hnormal⟩ := exists_normal_components a
  refine ⟨normalize_normalize a, ⟨ups, below, hbelow, ?_⟩, isAbsolute_normalize a,
    normalize_join a b, fun written => foldl_resolve written a⟩
  rw [components_normalize, hnormal]
  rfl

end Path

end BuildTrace
