import BuildTrace.Proofs.FileTree.Frame
import BuildTrace.Proofs.Path.Parent

/-!
# Trees that agree outside hidden places

Two trees may differ at some places only. A path that passes none of these leads to the same entry
in both, and what is written at such a path, or at a hidden place itself, makes no further
difference.

## Main definitions

* `FileTree.AgreeOutside`: trees that agree outside hidden places;
* `FileTree.passed`: the places that are looked at on a way;
* `FileTree.Clear`: a way on which no hidden place is looked at;
* `FileTree.Retains`: a tree that has the directories of another one.

## Main results

* `FileTree.AgreeOutside.isFile_eq` and `FileTree.AgreeOutside.readText?_eq`: what is seen on a
  clear way;
* `FileTree.AgreeOutside.makeDirectories` and `FileTree.AgreeOutside.write`: trees that agree do so
  after a change along a clear way.
-/

namespace BuildTrace.FileTree

variable {hidden : Place → Prop} {tree other : FileTree} {place : Place} {p : Path}

/-- The trees have the same entries outside the hidden places. -/
structure AgreeOutside (hidden : Place → Prop) (tree other : FileTree) : Prop where
  /-- Relative paths are followed from the same place. -/
  start : other.start = tree.start
  /-- An entry at any other place is the same. -/
  entry : ∀ place, ¬ hidden place → other.at? place = tree.at? place

namespace AgreeOutside

theorem refl (tree : FileTree) : AgreeOutside hidden tree tree := ⟨rfl, fun _ _ => rfl⟩

theorem symm (h : AgreeOutside hidden tree other) : AgreeOutside hidden other tree :=
  ⟨h.start.symm, fun place hplace => (h.entry place hplace).symm⟩

theorem trans {third : FileTree} (h : AgreeOutside hidden tree other)
    (h' : AgreeOutside hidden other third) : AgreeOutside hidden tree third :=
  ⟨h'.start.trans h.start, fun place hplace => (h'.entry place hplace).trans (h.entry place hplace)⟩

end AgreeOutside

/-! ## Ways -/

/-- The places that are looked at on the way from `place` along the components, and the one it leads
to. -/
def passed (place : Place) : List Component → List Place
  | [] => [place]
  | .root :: rest => passed [] rest
  | .here :: rest => passed place rest
  | .up :: rest => place :: passed place.dropLast rest
  | .name n :: rest => place :: (place ++ [n]) :: passed (place ++ [n]) rest

/-- No hidden place is looked at on the way along the components, which begins at `start` unless
they begin at the root. -/
def Clear (hidden : Place → Prop) (start : Option Place) (components : List Component) : Prop :=
  ∀ place ∈ passed (start.getD []) components, ¬ hidden place

instance (hidden : Place → Prop) [DecidablePred hidden] (start : Option Place)
    (components : List Component) : Decidable (Clear hidden start components) :=
  inferInstanceAs (Decidable (∀ place ∈ passed (start.getD []) components, ¬ hidden place))

/-- A path begins at the root or at the start of the tree. -/
theorem passed_origin {origin : Place} (h : tree.origin? p = some origin) :
    passed origin p.components = passed (tree.start.getD []) p.components := by
  rw [origin?] at h
  split at h
  · cases h
  · rcases Path.components_cases p with ⟨habsolute, rest, hcomponents, -⟩ | ⟨hrelative, -⟩
    · rw [hcomponents]
      rfl
    · rw [hrelative] at h
      rw [show tree.start = some origin from h]
      rfl

/-- The place a way leads to is looked at. -/
theorem mem_passed_of_follow {components : List Component} {last : Place}
    (h : tree.follow place components = some last) : last ∈ passed place components := by
  induction components generalizing place with
  | nil => exact List.mem_singleton.mpr (Option.some.inj h).symm
  | cons component rest ih =>
    have hlast := ih (follow_cons_eq_some_iff.mp h).2
    cases component with
    | root => exact hlast
    | here => exact hlast
    | up => exact List.mem_cons_of_mem _ hlast
    | name n => exact List.mem_cons_of_mem _ (List.mem_cons_of_mem _ hlast)

/-- A way can be followed in two parts. -/
theorem follow_append (tree : FileTree) (place : Place) (components others : List Component) :
    tree.follow place (components ++ others)
      = (tree.follow place components).bind fun next => tree.follow next others := by
  induction components generalizing place with
  | nil => rfl
  | cons component rest ih =>
    cases component with
    | root => exact ih _
    | here => exact ih _
    | up | name n =>
      rw [List.cons_append, follow, follow]
      split
      · exact ih _
      · rfl

namespace AgreeOutside

variable (h : AgreeOutside hidden tree other)

include h

theorem origin?_eq (p : Path) : other.origin? p = tree.origin? p := by
  rw [origin?, origin?, h.start]

theorem hasDirectory_eq (hplace : ¬ hidden place) :
    other.hasDirectory place = tree.hasDirectory place := by
  rw [hasDirectory, hasDirectory, h.entry place hplace]

/-- A clear way leads to the same place. -/
theorem follow_eq {components : List Component}
    (hclear : ∀ q ∈ passed place components, ¬ hidden q) :
    other.follow place components = tree.follow place components := by
  induction components generalizing place with
  | nil => rfl
  | cons component rest ih =>
    cases component with
    | root => exact ih hclear
    | here => exact ih hclear
    | up =>
      obtain ⟨hplace, hrest⟩ := List.forall_mem_cons.mp hclear
      rw [follow, follow, h.hasDirectory_eq hplace, ih hrest]
    | name n =>
      obtain ⟨hplace, hnext⟩ := List.forall_mem_cons.mp hclear
      rw [follow, follow, h.hasDirectory_eq hplace, ih (List.forall_mem_cons.mp hnext).2]

/-- Whether the last step can be made is known when it is clear how far the others lead. -/
theorem follow_concat_eq {components : List Component} {last : Component}
    (hclear : ∀ q ∈ passed place components, ¬ hidden q) :
    other.follow place (components ++ [last]) = tree.follow place (components ++ [last]) := by
  rw [follow_append, follow_append, h.follow_eq hclear]
  cases hfollow : tree.follow place components with
  | none => rfl
  | some q =>
    have hq : ¬ hidden q := hclear q (mem_passed_of_follow hfollow)
    cases last <;> simp only [Option.bind_some, follow, h.hasDirectory_eq hq]

/-! ## What is seen -/

/-- A path on a clear way leads to the same place. -/
theorem place?_eq (hclear : Clear hidden tree.start p.components) :
    other.place? p = tree.place? p := by
  rw [place?, place?, h.origin?_eq]
  cases horigin : tree.origin? p with
  | none => rfl
  | some origin =>
    rw [Clear, ← passed_origin horigin] at hclear
    exact h.follow_eq hclear

/-- It does so already if the way is clear as far as the place above. -/
theorem place?_eq_of_above (hclear : Clear hidden tree.start p.components.dropLast) :
    other.place? p = tree.place? p := by
  rw [place?, place?, h.origin?_eq]
  cases horigin : tree.origin? p with
  | none => rfl
  | some origin =>
    show other.follow origin p.components = tree.follow origin p.components
    rcases Path.components_cases p with ⟨_, rest, hcomponents, _⟩ | ⟨hrelative, _⟩
    · rw [hcomponents] at hclear ⊢
      rcases List.eq_nil_or_concat rest with rfl | ⟨front, last, rfl⟩
      -- The root is everywhere.
      · rfl
      · rw [List.concat_eq_append] at hclear ⊢
        rw [← List.cons_append, List.dropLast_concat] at hclear
        exact h.follow_concat_eq hclear
    -- A relative path is followed from the start of the tree.
    · have hstart : p.isUsable = true ∧ tree.start = some origin := by
        simpa [origin?, hrelative] using horigin
      rcases List.eq_nil_or_concat p.components with hnil | ⟨front, last, hconcat⟩
      · rw [hnil]
        rfl
      · rw [List.concat_eq_append] at hconcat
        rw [hconcat, List.dropLast_concat, Clear, hstart.2] at hclear
        rw [hconcat]
        exact h.follow_concat_eq hclear

theorem node?_eq (hclear : Clear hidden tree.start p.components) :
    other.node? p = tree.node? p := by
  have hat : (other.place? p).bind other.at? = (tree.place? p).bind tree.at? := by
    rw [h.place?_eq hclear]
    cases hplace : tree.place? p with
    | none => rfl
    | some place =>
      obtain ⟨origin, horigin, hfollow⟩ := Option.bind_eq_some_iff.mp hplace
      rw [Clear, ← passed_origin horigin] at hclear
      exact h.entry place (hclear place (mem_passed_of_follow hfollow))
  rw [node?, node?, hat]

/-- A path on a clear way leads to a file in both trees or in none. -/
theorem isFile_eq (hclear : Clear hidden tree.start p.components) :
    other.isFile p = tree.isFile p := by
  rw [isFile, isFile, h.node?_eq hclear]

/-- So it does for executable files. -/
theorem isExecutable_eq (hclear : Clear hidden tree.start p.components) :
    other.isExecutable p = tree.isExecutable p := by
  rw [isExecutable, isExecutable, h.node?_eq hclear]

/-- The text of a file on a clear way is the same. -/
theorem readText?_eq (hclear : Clear hidden tree.start p.components) :
    other.readText? p = tree.readText? p := by
  rw [readText?, readText?, read?, read?, h.node?_eq hclear]

/-! ## Changes -/

/-- The same entry may be put anywhere. -/
theorem put (place : Place) (node : Node) :
    AgreeOutside hidden (tree.put place node) (other.put place node) := by
  refine ⟨h.start, fun q hq => ?_⟩
  by_cases hplace : q = place
  · subst hplace
    by_cases hroot : q = []
    · rw [hroot]
      rfl
    · rw [at?_put_self hroot, at?_put_self hroot]
  · rw [at?_put_of_ne hplace, at?_put_of_ne hplace, h.entry q hq]

/-- The directories on a clear way can be made in both trees or in none. -/
theorem makeAlong {components : List Component}
    (hclear : ∀ q ∈ passed place components, ¬ hidden q) :
    Option.Rel (AgreeOutside hidden) (tree.makeAlong place components)
      (other.makeAlong place components) := by
  induction components generalizing tree other place with
  | nil => exact .some h
  | cons component rest ih =>
    cases component with
    | root => exact ih h hclear
    | here => exact ih h hclear
    | up => exact ih h (List.forall_mem_cons.mp hclear).2
    | name n =>
      obtain ⟨hnext, hrest⟩ := List.forall_mem_cons.mp (List.forall_mem_cons.mp hclear).2
      rw [FileTree.makeAlong, FileTree.makeAlong, h.entry _ hnext]
      cases tree.at? (place ++ [n]) with
      | none => exact ih (h.put _ _) hrest
      | some node =>
        cases node with
        | directory => exact ih h hrest
        | file => exact .none

theorem makeDirectories (hclear : Clear hidden tree.start p.components) :
    Option.Rel (AgreeOutside hidden) (tree.makeDirectories p) (other.makeDirectories p) := by
  rw [FileTree.makeDirectories, FileTree.makeDirectories, h.origin?_eq]
  cases horigin : tree.origin? p with
  | none => exact .none
  | some origin =>
    rw [Clear, ← passed_origin horigin] at hclear
    exact h.makeAlong hclear

end AgreeOutside

/-- An entry that is put at a hidden place makes no difference. -/
theorem agree_put_hidden (hplace : hidden place) (node : Node) :
    AgreeOutside hidden tree (tree.put place node) :=
  ⟨rfl, fun _ hq => at?_put_of_ne fun heq => hq (heq ▸ hplace)⟩

/-- Nor does it make a difference if all that is dropped is hidden. -/
theorem agree_drop_hidden (h : ∀ q, place <+: q → hidden q) :
    AgreeOutside hidden tree (tree.drop place) :=
  ⟨rfl, fun q hq => at?_drop fun hbelow => hq (h q hbelow)⟩

/-- Writing to a hidden file, or trying to, makes no difference. -/
theorem agree_write_hidden (hplace : tree.place? p = some place) (hhidden : hidden place)
    (content : Content) : AgreeOutside hidden tree ((tree.write p content).getD tree) := by
  cases hwrite : tree.write p content with
  | none => exact .refl tree
  | some after =>
    obtain ⟨other, executable, hother, _, rfl⟩ := write_cases hwrite
    obtain rfl : place = other := Option.some.inj (hplace.symm.trans hother)
    exact agree_put_hidden hhidden _

/-- Trees that agree do so after a file was written, or could not be, if the way to the directory of
the file is clear; the file itself may be hidden. -/
theorem AgreeOutside.write (h : AgreeOutside hidden tree other)
    (hclear : Clear hidden tree.start p.components.dropLast) (content : Content) :
    AgreeOutside hidden ((tree.write p content).getD tree)
      ((other.write p content).getD other) := by
  have hplace := h.place?_eq_of_above hclear
  cases hwhere : tree.place? p with
  | none =>
    rw [hwhere] at hplace
    rw [FileTree.write, FileTree.write, hwhere, hplace]
    exact h
  | some place =>
    rw [hwhere] at hplace
    by_cases hhidden : hidden place
    · exact (agree_write_hidden hwhere hhidden content).symm.trans
        (h.trans (agree_write_hidden hplace hhidden content))
    -- At any other place the same is done in both trees.
    · rw [FileTree.write, FileTree.write, hwhere, hplace]
      dsimp only
      rw [h.entry place hhidden]
      split
      · exact h
      · split
        · exact h
        · exact h.put place _
        · exact h.put place _

/-! ## Directories that stay -/

/-- The other tree has all directories of the tree that are not hidden. -/
structure Retains (hidden : Place → Prop) (tree other : FileTree) : Prop where
  /-- Relative paths are followed from the same place. -/
  start : other.start = tree.start
  /-- A directory at any other place stays. -/
  directory : ∀ place, ¬ hidden place → tree.hasDirectory place = true →
    other.hasDirectory place = true

theorem Retains.trans {third : FileTree} (h : Retains hidden tree other)
    (h' : Retains hidden other third) : Retains hidden tree third :=
  ⟨h'.start.trans h.start, fun place hplace hdirectory =>
    h'.directory place hplace (h.directory place hplace hdirectory)⟩

theorem AgreeOutside.retains (h : AgreeOutside hidden tree other) : Retains hidden tree other :=
  ⟨h.start, fun _ hplace hdirectory => (h.hasDirectory_eq hplace).trans hdirectory⟩

/-- What is put where no directory is takes none away. -/
theorem retains_put {node : Node} (h : node = .directory ∨ tree.hasDirectory place = false) :
    Retains hidden tree (tree.put place node) := by
  refine ⟨rfl, fun q _ hq => ?_⟩
  by_cases hplace : q = place
  · subst hplace
    rcases h with rfl | hnone
    · by_cases hroot : q = []
      · rw [hroot]
        rfl
      · rw [hasDirectory, at?_put_self hroot]
        rfl
    · rw [hnone] at hq
      cases hq
  · rwa [hasDirectory, at?_put_of_ne hplace]

theorem retains_makeAlong {components : List Component} {after : FileTree}
    (h : tree.makeAlong place components = some after) : Retains hidden tree after := by
  induction components generalizing tree place with
  | nil =>
    obtain rfl : tree = after := Option.some.inj h
    exact (AgreeOutside.refl tree).retains
  | cons component rest ih =>
    cases component with
    | root => exact ih h
    | here => exact ih h
    | up => exact ih h
    | name n =>
      rw [FileTree.makeAlong] at h
      split at h
      · exact ih h
      · cases h
      · exact (retains_put (.inl rfl)).trans (ih h)

theorem retains_makeDirectories {after : FileTree} (h : tree.makeDirectories p = some after) :
    Retains hidden tree after := by
  obtain ⟨_, _, halong⟩ := Option.bind_eq_some_iff.mp h
  exact retains_makeAlong halong

theorem retains_write {content : Content} {after : FileTree}
    (h : tree.write p content = some after) : Retains hidden tree after := by
  rw [FileTree.write] at h
  split at h
  · cases h
  · split at h
    · cases h
    · split at h
      · cases h
      next hat =>
        cases h
        exact retains_put (.inr (by rw [hasDirectory, hat]; rfl))
      next hat =>
        cases h
        exact retains_put (.inr (by rw [hasDirectory, hat]; rfl))

/-- Where all directories are there already, none is made. -/
theorem makeAlong_of_directories {components : List Component}
    (h : ∀ q ∈ passed place components, tree.hasDirectory q = true) :
    tree.makeAlong place components = some tree := by
  induction components generalizing place with
  | nil => rfl
  | cons component rest ih =>
    cases component with
    | root => exact ih h
    | here => exact ih h
    | up => exact ih (List.forall_mem_cons.mp h).2
    | name n =>
      obtain ⟨hnext, hrest⟩ := List.forall_mem_cons.mp (List.forall_mem_cons.mp h).2
      rw [FileTree.makeAlong, eq_of_beq hnext]
      exact ih hrest

theorem makeDirectories_of_directories {made : FileTree}
    (h : ∀ q ∈ passed (tree.start.getD []) p.components, tree.hasDirectory q = true)
    (hmade : tree.makeDirectories p = some made) : made = tree := by
  obtain ⟨origin, horigin, halong⟩ := Option.bind_eq_some_iff.mp hmade
  rw [← passed_origin horigin] at h
  rw [makeAlong_of_directories h] at halong
  exact (Option.some.inj halong).symm

end BuildTrace.FileTree
