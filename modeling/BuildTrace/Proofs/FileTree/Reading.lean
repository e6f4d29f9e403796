import BuildTrace.Proofs.FileTree.Agreement

/-!
# Files that can still be read

A file can be read at a path if the way to it exists. So it can still be read after a change that
leaves the file alone and takes nothing away that the path leads over.

## Main definitions

* `FileTree.KeepsWay`: a change after which the path leads where it led before.

## Main results

* `FileTree.KeepsWay.of_retains`: ways that lead over directories only are there as long as these
  are;
* `FileTree.KeepsWay.read?`: what could be read still can be.
-/

namespace BuildTrace.FileTree

variable {tree after : FileTree} {p : Path} {place other : Place} {content : Content}

/-- A file is read if the path leads to it and does not ask for a directory. -/
theorem read?_eq_some_iff : tree.read? p = some content ↔
    asksDirectory p = false ∧
      ∃ place executable, tree.place? p = some place ∧
        tree.at? place = some (.file content executable) := by
  rw [read?, node?]
  cases hplace : tree.place? p with
  | none => simp
  | some place =>
    rw [Option.bind_some]
    rcases hat : tree.at? place with _ | _ | ⟨found, executable⟩
    · simp [hat]
    · simp [hat]
    · cases asksDirectory p <;> cases executable <;> simp [hat]

/-- A way leads on as long as all of its directories are there. -/
theorem follow_of_directories
    (h : ∀ place, tree.hasDirectory place = true → after.hasDirectory place = true)
    {components : List Component} (hfollow : tree.follow place components = some other) :
    after.follow place components = some other := by
  induction components generalizing place with
  | nil => exact hfollow
  | cons component rest ih =>
    obtain ⟨hdirectory, hrest⟩ := follow_cons_eq_some_iff.mp hfollow
    exact follow_cons_eq_some_iff.mpr ⟨fun hneeds => h place (hdirectory hneeds), ih hrest⟩

/-- The path leads where it led before, if it led anywhere. -/
structure KeepsWay (p : Path) (tree after : FileTree) : Prop where
  /-- Relative paths are followed from the same place. -/
  start : after.start = tree.start
  /-- The way is still there. -/
  place : ∀ place, tree.place? p = some place → after.place? p = some place

namespace KeepsWay

theorem refl (p : Path) (tree : FileTree) : KeepsWay p tree tree := ⟨rfl, fun _ h => h⟩

theorem trans {final : FileTree} (h : KeepsWay p tree after) (h' : KeepsWay p after final) :
    KeepsWay p tree final :=
  ⟨h'.start.trans h.start, fun place hplace => h'.place place (h.place place hplace)⟩

/-- The way is still there if all directories are. -/
theorem of_retains (h : Retains (fun _ => False) tree after) : KeepsWay p tree after := by
  refine ⟨h.start, fun place hplace => ?_⟩
  obtain ⟨origin, horigin, hfollow⟩ := Option.bind_eq_some_iff.mp hplace
  have hsame : after.origin? p = some origin := by rwa [origin?, h.start]
  exact Option.bind_eq_some_iff.mpr ⟨origin, hsame,
    follow_of_directories (fun place => h.directory place not_false) hfollow⟩

/-- What could be read at the path can still be read there, if the file was left alone. -/
theorem read? (h : KeepsWay p tree after) (hspares : Spares p tree after)
    (hread : tree.read? p = some content) : after.read? p = some content := by
  obtain ⟨hasks, place, executable, hplace, hat⟩ := read?_eq_some_iff.mp hread
  have hcontent : after.contentAt? place = some content := by
    have hsame := hspares.content
    rw [content?, content?, destination?_congr h.start, destination?_of_place? hplace,
      Option.bind_some, Option.bind_some] at hsame
    rw [hsame, contentAt?, hat]
  -- The content is that of a file, which may be executed or not.
  rw [contentAt?] at hcontent
  split at hcontent
  next found executable' hat' =>
    obtain rfl := Option.some.inj hcontent
    exact read?_eq_some_iff.mpr ⟨hasks, place, executable', h.place place hplace, hat'⟩
  · cases hcontent

/-- So can a text. -/
theorem readText? (h : KeepsWay p tree after) (hspares : Spares p tree after) {text : String}
    (hread : tree.readText? p = some text) : after.readText? p = some text := by
  obtain ⟨content, hcontent, htext⟩ := Option.bind_eq_some_iff.mp hread
  exact Option.bind_eq_some_iff.mpr ⟨content, h.read? hspares hcontent, htext⟩

end KeepsWay

end BuildTrace.FileTree
