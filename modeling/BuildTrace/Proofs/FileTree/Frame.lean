import BuildTrace.FileTree
import BuildTrace.Proofs.Path.Name

/-!
# What changes leave alone

A path names a place even where the way to it does not exist yet. Every change to a tree says which
place it is about, and the contents of the files at other places stay what they were.

## Main definitions

* `FileTree.destination?`: the place a path names;
* `FileTree.content?`: the content of the file at that place;
* `FileTree.Spares`: a change that leaves the file of a path alone.

## Main results

* `FileTree.destination?_of_place?`: a path that leads somewhere leads to the place it names;
* `FileTree.spares_makeDirectories`: making directories leaves all files alone;
* `FileTree.spares_write` and `FileTree.spares_rename`: writing and renaming leave the files at
  other places alone;
* `FileTree.content?_of_write` and `FileTree.content?_of_rename`: what was written is there;
* `FileTree.node?_of_rename`: the new path of a renamed file leads to it.
-/

namespace BuildTrace

namespace FileTree

variable {tree after : FileTree} {p q : Path} {place other : Place} {content : Content}

/-! ## Places -/

/-- The place the components lead to, if all directories on the way are there. -/
def walk (place : Place) : List Component → Place
  | [] => place
  | .root :: rest => walk [] rest
  | .here :: rest => walk place rest
  | .up :: rest => walk place.dropLast rest
  | .name n :: rest => walk (place ++ [n]) rest

/-- The place a path names, whether or not there is a way to it. -/
def destination? (tree : FileTree) (p : Path) : Option Place :=
  (tree.origin? p).map fun origin => walk origin p.components

/-- The place to which a component leads from a place. -/
def stepTo (place : Place) : Component → Place
  | .root => []
  | .here => place
  | .up => place.dropLast
  | .name n => place ++ [n]

/-- There has to be a directory at the place from which the component leads on. -/
def needsDirectory : Component → Bool
  | .up | .name _ => true
  | .root | .here => false

theorem walk_cons (place : Place) (component : Component) (rest : List Component) :
    walk place (component :: rest) = walk (stepTo place component) rest := by
  cases component <;> rfl

/-- A way is followed component by component. -/
theorem follow_cons_eq_some_iff {component : Component} {rest : List Component} :
    tree.follow place (component :: rest) = some other ↔
      (needsDirectory component = true → tree.hasDirectory place = true) ∧
        tree.follow (stepTo place component) rest = some other := by
  cases component <;> simp [follow, stepTo, needsDirectory]

/-- Directories that are there are gone through as if all were there. -/
theorem walk_of_follow {components : List Component}
    (h : tree.follow place components = some other) : walk place components = other := by
  induction components generalizing place with
  | nil => exact Option.some.inj h
  | cons component rest ih =>
    rw [walk_cons]
    exact ih (follow_cons_eq_some_iff.mp h).2

/-- A path that leads somewhere leads to the place it names. -/
theorem destination?_of_place? (h : tree.place? p = some place) :
    tree.destination? p = some place := by
  obtain ⟨origin, horigin, hfollow⟩ := Option.bind_eq_some_iff.mp h
  rw [destination?, horigin, Option.map_some, walk_of_follow hfollow]

/-- The place a path names depends on the place from which relative paths are followed, and on
nothing else in the tree. -/
theorem destination?_congr (h : after.start = tree.start) (p : Path) :
    after.destination? p = tree.destination? p := by
  simp only [destination?, origin?, h]

/-- An absolute path names the same place in every tree. -/
theorem destination?_absolute (tree : FileTree) {p : Path}
    (h : p.isUsable = true ∧ p.isAbsolute = true) (hplace : walk [] p.components = place) :
    tree.destination? p = some place := by
  simp [destination?, origin?, h.1, h.2, hplace]

theorem walk_append (components others : List Component) :
    walk place (components ++ others) = walk (walk place components) others := by
  induction components generalizing place with
  | nil => rfl
  | cons component rest ih => cases component <;> exact ih

/-! ## Contents -/

/-- The content of the file at the place. -/
def contentAt? (tree : FileTree) (place : Place) : Option Content :=
  match tree.at? place with
  | some (.file content _) => some content
  | _ => none

/-- The content of the file at the place a path names. -/
def content? (tree : FileTree) (p : Path) : Option Content :=
  (tree.destination? p).bind tree.contentAt?

/-- What is read at a path is the content of the file the path names. -/
theorem content?_of_read? (h : tree.read? p = some content) : tree.content? p = some content := by
  rw [read?, node?] at h
  split at h
  next found executable heq =>
    split at heq
    next content' executable' hat =>
      split at heq
      · cases heq
      · cases heq
        obtain ⟨place, hplace, hat⟩ := Option.bind_eq_some_iff.mp hat
        rw [content?, destination?_of_place? hplace, Option.bind_some, contentAt?, hat]
        exact h
    next hne => exact absurd heq (hne _ _)
  · cases h

/-- The change leaves the file of the path alone, and relative paths lead the same way. -/
structure Spares (p : Path) (tree after : FileTree) : Prop where
  /-- Relative paths are followed from the same place. -/
  start : after.start = tree.start
  /-- The file has the content it had, or is not there as before. -/
  content : after.content? p = tree.content? p

namespace Spares

theorem refl (p : Path) (tree : FileTree) : Spares p tree tree := ⟨rfl, rfl⟩

theorem trans {final : FileTree} (h : Spares p tree after) (h' : Spares p after final) :
    Spares p tree final :=
  ⟨h'.start.trans h.start, h'.content.trans h.content⟩

/-- It is enough to look at the place the path names. -/
theorem of_contentAt? (hstart : after.start = tree.start)
    (h : ∀ place, tree.destination? p = some place →
      after.contentAt? place = tree.contentAt? place) : Spares p tree after := by
  refine ⟨hstart, ?_⟩
  rw [content?, content?, destination?_congr hstart]
  cases hplace : tree.destination? p with
  | none => rfl
  | some place => exact h place hplace

end Spares

/-! ## Entries -/

theorem at?_put_self {node : Node} (h : place ≠ []) :
    (tree.put place node).at? place = some node := by
  simp [at?, put, h]

theorem at?_put_of_ne {node : Node} (h : other ≠ place) :
    (tree.put place node).at? other = tree.at? other := by
  have hfind : (tree.entries.filter (·.1 != place)).find? (·.1 == other)
      = tree.entries.find? (·.1 == other) := by
    rw [List.find?_filter]
    congr 1
    funext entry
    by_cases hentry : entry.1 = other
    · simp [hentry, h]
    · simp [hentry]
  simp only [at?, put, List.find?_cons, hfind, beq_false_of_ne (Ne.symm h)]

theorem at?_drop (h : ¬ place <+: other) : (tree.drop place).at? other = tree.at? other := by
  have hfind : (tree.entries.filter fun entry => !place.isPrefixOf entry.1).find? (·.1 == other)
      = tree.entries.find? (·.1 == other) := by
    rw [List.find?_filter]
    congr 1
    funext entry
    by_cases hentry : entry.1 = other
    · have hlead : place.isPrefixOf entry.1 = false := by
        rw [hentry, ← Bool.not_eq_true, List.isPrefixOf_iff_prefix]
        exact h
      simp only [hlead, Bool.not_false, true_and, Bool.decide_eq_true]
    · simp [hentry]
  simp only [at?, drop, hfind]

/-- No directory appears when something is dropped. -/
theorem hasDirectory_of_drop (h : (tree.drop place).hasDirectory other = true) :
    tree.hasDirectory other = true := by
  by_cases hbelow : place <+: other
  · -- What is below is dropped, too, and only the root is always there.
    have hfind : (tree.entries.filter fun entry => !place.isPrefixOf entry.1).find? (·.1 == other)
        = none := by
      refine List.find?_eq_none.mpr fun entry hentry hsame => ?_
      have hbegins : place.isPrefixOf entry.1 = true := by
        rw [eq_of_beq hsame]
        exact List.isPrefixOf_iff_prefix.mpr hbelow
      simp [hbegins] at hentry
    by_cases hroot : other = []
    · subst hroot
      rfl
    · simp [hasDirectory, at?, drop, hfind, hroot] at h
  · rwa [hasDirectory, at?_drop hbelow] at h

theorem contentAt?_congr (h : after.at? place = tree.at? place) :
    after.contentAt? place = tree.contentAt? place := by
  rw [contentAt?, contentAt?, h]

/-! ## Directories -/

/-- Making directories leaves all files alone. -/
theorem makeAlong_spec {components : List Component}
    (h : tree.makeAlong place components = some after) :
    after.start = tree.start ∧ ∀ other, after.contentAt? other = tree.contentAt? other := by
  induction components generalizing tree place with
  | nil =>
    obtain rfl : tree = after := Option.some.inj h
    exact ⟨rfl, fun _ => rfl⟩
  | cons component rest ih =>
    cases component with
    | root => exact ih h
    | here => exact ih h
    | up => exact ih h
    | name n =>
      rw [makeAlong] at h
      split at h
      · exact ih h
      · cases h
      next hmissing =>
        obtain ⟨hstart, hcontent⟩ := ih h
        refine ⟨hstart, fun other => (hcontent other).trans ?_⟩
        -- A directory that is made stands where nothing was, so no file is lost.
        by_cases hother : other = place ++ [n]
        · subst hother
          have hmade : (tree.put (place ++ [n]) .directory).at? (place ++ [n])
              = some .directory := at?_put_self (by simp)
          rw [contentAt?, contentAt?, hmade, hmissing]
        · exact contentAt?_congr (at?_put_of_ne hother)

theorem spares_makeDirectories (h : tree.makeDirectories q = some after) :
    Spares p tree after := by
  obtain ⟨origin, _, halong⟩ := Option.bind_eq_some_iff.mp h
  obtain ⟨hstart, hcontent⟩ := makeAlong_spec halong
  exact .of_contentAt? hstart fun place _ => hcontent place

/-! ## Writing -/

/-- Writing puts a file at the place the path leads to. -/
theorem write_cases (h : tree.write p content = some after) :
    ∃ place executable, tree.place? p = some place ∧ place ≠ [] ∧
      after = tree.put place (.file content executable) := by
  rw [write] at h
  split at h
  · cases h
  next place hplace =>
    split at h
    · cases h
    next hasks =>
      have hne : place ≠ [] := fun hnil => hasks (by simp [hnil])
      split at h
      · cases h
      · exact ⟨place, _, hplace, hne, (Option.some.inj h).symm⟩
      · exact ⟨place, _, hplace, hne, (Option.some.inj h).symm⟩

/-- Writing leaves the files at other places alone. -/
theorem spares_write (h : tree.write q content = some after)
    (hne : tree.destination? q ≠ tree.destination? p) : Spares p tree after := by
  obtain ⟨place, executable, hplace, _, rfl⟩ := write_cases h
  refine .of_contentAt? rfl fun other hother => contentAt?_congr (at?_put_of_ne fun heq => hne ?_)
  rw [destination?_of_place? hplace, hother, heq]

/-- What was written is there. -/
theorem content?_of_write (h : tree.write p content = some after) :
    after.start = tree.start ∧ after.content? p = some content := by
  obtain ⟨place, executable, hplace, hne, rfl⟩ := write_cases h
  refine ⟨rfl, ?_⟩
  have hsame : (tree.put place (.file content executable)).destination? p = tree.destination? p :=
    destination?_congr rfl p
  rw [content?, hsame, destination?_of_place? hplace, Option.bind_some, contentAt?,
    at?_put_self hne]

/-! ## Renaming -/

/-- Renaming takes a file from one place to another, where no directory is. -/
theorem rename_cases (h : tree.rename p q = some after) :
    ∃ origin place content executable, tree.place? p = some origin ∧ tree.place? q = some place ∧
      tree.at? origin = some (.file content executable) ∧ place ≠ [] ∧
      (asksDirectory q = false ∧ tree.hasDirectory place = false) ∧
      after = (tree.drop origin).put place (.file content executable) := by
  rw [rename] at h
  split at h
  next origin place horigin hplace =>
    split at h
    next content executable hat =>
      split at h
      · cases h
      next hasks =>
        simp only [Bool.or_eq_true, not_or, Bool.not_eq_true] at hasks
        obtain ⟨⟨hasks, hempty⟩, hdirectory⟩ := hasks
        have hne : place ≠ [] := fun hnil => by simp [hnil] at hempty
        exact ⟨origin, place, content, executable, horigin, hplace, hat, hne,
          ⟨hasks, hdirectory⟩, (Option.some.inj h).symm⟩
    · cases h
  · cases h

/-- Renaming leaves the files alone that are neither at the new place nor at or below the old
one. -/
theorem spares_rename {source target : Path} (h : tree.rename source target = some after)
    (htarget : tree.destination? target ≠ tree.destination? p)
    (hsource : ∀ origin place, tree.destination? source = some origin →
      tree.destination? p = some place → ¬ origin <+: place) : Spares p tree after := by
  obtain ⟨origin, place, _, _, horigin, hplace, _, _, _, rfl⟩ := rename_cases h
  refine .of_contentAt? rfl fun other hother => contentAt?_congr ?_
  have hne : other ≠ place := by
    intro heq
    apply htarget
    rw [destination?_of_place? hplace, hother, heq]
  rw [at?_put_of_ne hne, at?_drop (hsource origin other (destination?_of_place? horigin) hother)]

/-- What was renamed has its new path. -/
theorem content?_of_rename {source target : Path} (h : tree.rename source target = some after) :
    after.start = tree.start ∧ after.content? target = tree.content? source := by
  obtain ⟨origin, place, content, executable, horigin, hplace, hat, hne, _, rfl⟩ :=
    rename_cases h
  refine ⟨rfl, ?_⟩
  have hsame : ((tree.drop origin).put place (.file content executable)).destination? target
      = tree.destination? target := destination?_congr rfl target
  rw [content?, hsame, destination?_of_place? hplace, Option.bind_some, contentAt?,
    at?_put_self hne, content?, destination?_of_place? horigin, Option.bind_some, contentAt?, hat]

/-! ## The way to a renamed file -/

/-- No way leads out of what is below something that is no directory. -/
theorem prefix_of_follow {origin : Place} {components : List Component}
    (hroot : .root ∉ components) (horigin : tree.hasDirectory origin = false)
    (hbelow : origin <+: place) (h : tree.follow place components = some other) :
    origin <+: other := by
  induction components generalizing place with
  | nil =>
    obtain rfl : place = other := Option.some.inj h
    exact hbelow
  | cons component rest ih =>
    obtain ⟨hdirectory, hrest⟩ := follow_cons_eq_some_iff.mp h
    refine ih (fun hmem => hroot (List.mem_cons_of_mem _ hmem)) ?_ hrest
    cases component with
    | root => exact absurd List.mem_cons_self hroot
    | here => exact hbelow
    | up =>
      -- The place is a directory, so it is strictly below.
      have hne : origin ≠ place := by
        rintro rfl
        rw [hdirectory rfl] at horigin
        cases horigin
      rcases List.eq_nil_or_concat place with rfl | ⟨front, last, hconcat⟩
      · exact hbelow
      · rw [List.concat_eq_append] at hconcat
        subst hconcat
        rw [stepTo, List.dropLast_concat]
        exact (List.prefix_concat_iff.mp hbelow).resolve_left hne
    | name n => exact hbelow.trans (List.prefix_append place [n])

/-- A way that does not end at or below a file is there without that file, too. -/
theorem follow_drop {origin : Place} {components : List Component}
    (hroot : .root ∉ components) (horigin : tree.hasDirectory origin = false)
    (hother : ¬ origin <+: other) (h : tree.follow place components = some other) :
    (tree.drop origin).follow place components = some other := by
  induction components generalizing place with
  | nil => exact h
  | cons component rest ih =>
    -- The way has not got to the file yet, or it would end at it or below.
    have hplace : (tree.drop origin).hasDirectory place = tree.hasDirectory place := by
      have hnot : ¬ origin <+: place := fun hbelow =>
        hother (prefix_of_follow hroot horigin hbelow h)
      rw [hasDirectory, hasDirectory, at?_drop hnot]
    obtain ⟨hdirectory, hrest⟩ := follow_cons_eq_some_iff.mp h
    exact follow_cons_eq_some_iff.mpr ⟨fun hneeds => hplace.trans (hdirectory hneeds),
      ih (fun hmem => hroot (List.mem_cons_of_mem _ hmem)) hrest⟩

/-- Ways go through directories only. -/
theorem follow_congr (h : ∀ place, after.hasDirectory place = tree.hasDirectory place)
    (place : Place) (components : List Component) :
    after.follow place components = tree.follow place components := by
  induction components generalizing place with
  | nil => rfl
  | cons component rest ih => cases component <;> simp only [follow, h, ih]

/-- A file in place of no directory is in no way. -/
theorem hasDirectory_put_file {executable : Bool} (hne : place ≠ [])
    (h : tree.hasDirectory place = false) (other : Place) :
    (tree.put place (.file content executable)).hasDirectory other = tree.hasDirectory other := by
  by_cases hother : other = place
  · subst hother
    rw [h, hasDirectory, at?_put_self hne]
    rfl
  · rw [hasDirectory, hasDirectory, at?_put_of_ne hother]

/-- A path that leads neither to what is renamed nor below it leads where it did. -/
theorem place?_of_rename {source target : Path} (h : tree.rename source target = some after)
    (hbelow : ∀ origin place, tree.destination? source = some origin →
      tree.destination? p = some place → ¬ origin <+: place)
    (hplace : tree.place? p = some other) : after.place? p = some other := by
  obtain ⟨origin, place, content, executable, horigin, _, hat, hne, ⟨_, hdirectory⟩, rfl⟩ :=
    rename_cases h
  have hnot : ¬ origin <+: other :=
    hbelow _ _ (destination?_of_place? horigin) (destination?_of_place? hplace)
  have hfile : tree.hasDirectory origin = false := by
    rw [hasDirectory, hat]
    rfl
  have hdrop : (tree.drop origin).hasDirectory place = false := by
    rw [← Bool.not_eq_true] at hdirectory ⊢
    exact fun hdropped => hdirectory (hasDirectory_of_drop hdropped)
  -- The way is the same after the file was taken from its old place and put down.
  obtain ⟨base, hbase, hfollow⟩ := Option.bind_eq_some_iff.mp hplace
  refine Option.bind_eq_some_iff.mpr ⟨base, hbase, ?_⟩
  rw [follow_congr (hasDirectory_put_file hne hdrop)]
  -- After the root, the way has no root in it, so it cannot leave what is below the file.
  rcases Path.components_cases p with ⟨_, rest, hcomponents, hroot⟩ | ⟨_, hroot⟩
  · rw [hcomponents, follow] at hfollow ⊢
    exact follow_drop hroot hfile hnot hfollow
  · exact follow_drop hroot hfile hnot hfollow

/-- The new path of a renamed file leads to it, unless the file was above its new place. -/
theorem node?_of_rename {source target : Path} (h : tree.rename source target = some after)
    (hbelow : ∀ origin place, tree.destination? source = some origin →
      tree.destination? target = some place → ¬ origin <+: place) :
    ∃ content executable, tree.content? source = some content ∧
      after.node? target = some (.file content executable) := by
  have hway : ∀ place, tree.place? target = some place → after.place? target = some place :=
    fun _ => place?_of_rename h hbelow
  obtain ⟨origin, place, content, executable, horigin, hplace, hat, hne, ⟨hasks, _⟩, rfl⟩ :=
    rename_cases h
  refine ⟨content, executable, ?_, ?_⟩
  · rw [content?, destination?_of_place? horigin, Option.bind_some, contentAt?, hat]
  · rw [node?, hway place hplace, Option.bind_some, at?_put_self hne]
    dsimp only
    rw [hasks, if_neg Bool.false_ne_true]

end FileTree

end BuildTrace
