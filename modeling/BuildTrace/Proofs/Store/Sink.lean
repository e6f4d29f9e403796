import BuildTrace.Proofs.FileTree.Agreement
import BuildTrace.Proofs.Store.File

/-!
# Sinks that keep to their places

A sink may write to places of its own. This module says what it means that it does not write
anywhere else, whatever is pushed to it, and proves it for a sink in a file.

## Main definitions

* `Store.Sink.Confined`: a sink that writes to hidden places only.

## Main results

* `Store.agree_write`: a document is written to its file and beside it only;
* `Store.FileSink.confined`: a sink in a file keeps to the file and its temporary file.
-/

namespace BuildTrace.Store

open FileTree (AgreeOutside Retains passed)

variable {σ : Type} {hidden : Place → Prop} {files tree other : FileTree}

/-! ## Sinks -/

/-- Whatever has been pushed to the sink, and whatever is pushed next while the directories of the
files are there: nothing is written but to hidden places. -/
def Sink.Confined (sink : Sink σ) (hidden : Place → Prop) (files : FileTree) (state : σ) : Prop :=
  ∀ (pushes : List (Configuration × UpdateMode × FileTree)) (c : Configuration) (mode : UpdateMode)
    (tree : FileTree), Retains hidden files tree →
    let state :=
      pushes.foldl (fun state push => (sink.push push.1 push.2.1 state push.2.2).2.1) state
    AgreeOutside hidden tree (sink.push c mode state tree).2.2

namespace Sink.Confined

variable {sink : Sink σ} {state : σ}

theorem agree (h : sink.Confined hidden files state) (c : Configuration) (mode : UpdateMode)
    (htree : Retains hidden files tree) :
    AgreeOutside hidden tree (sink.push c mode state tree).2.2 :=
  h [] c mode tree htree

/-- It stays so when something is pushed. -/
theorem push (h : sink.Confined hidden files state) (c : Configuration) (mode : UpdateMode)
    (tree : FileTree) : sink.Confined hidden files (sink.push c mode state tree).2.1 :=
  fun pushes => h ((c, mode, tree) :: pushes)

/-- It stays so when there are more directories. -/
theorem of_retains (h : sink.Confined hidden files state) (hother : Retains hidden files other) :
    sink.Confined hidden other state :=
  fun pushes c mode tree htree => h pushes c mode tree (hother.trans htree)

end Sink.Confined

/-! ## Sinks in files -/

variable {p : Path}

/-- Where the directories above the path are there already, none is made. -/
theorem makeParent_of_directories {made : FileTree}
    (hway : ∀ q ∈ passed (tree.start.getD []) p.components.dropLast, tree.hasDirectory q = true)
    (h : makeParent tree p = some made) : made = tree := by
  rcases makeParent_cases h with rfl | ⟨parent, hparent, hmade⟩
  · rfl
  · rw [← Path.components_of_parent? hparent] at hway
    exact FileTree.makeDirectories_of_directories hway hmade

/-- Writing a document changes nothing but its file and what is at its temporary file or below, if
the directories above are there. -/
theorem agree_write
    (hway : ∀ q ∈ passed (tree.start.getD []) p.components.dropLast, tree.hasDirectory q = true)
    (hfile : ∀ place, tree.destination? p = some place → hidden place)
    (htemporary : ∀ origin place, tree.destination? (temporaryPath p) = some origin →
      origin <+: place → hidden place) (document : Json) :
    AgreeOutside hidden tree (write document tree p).2 := by
  rcases write_cases document tree p with ⟨made, heq, hmade⟩ |
    ⟨made, written, hmade, hwritten, hend⟩
  · rw [heq]
    rcases hmade with rfl | hmade
    · exact .refl made
    · obtain rfl := makeParent_of_directories hway hmade
      exact .refl made
  · obtain rfl := makeParent_of_directories hway hmade
    obtain ⟨origin, executable, horigin, _, rfl⟩ := FileTree.write_cases hwritten
    have hbelow : ∀ place, origin <+: place → hidden place :=
      fun place => htemporary origin place (FileTree.destination?_of_place? horigin)
    have hwrote : AgreeOutside hidden made
        (made.put origin (.file (.text document.pretty) executable)) :=
      FileTree.agree_put_hidden (hbelow origin (List.prefix_refl origin)) _
    generalize made.put origin (.file (.text document.pretty) executable) = written at hend hwrote
    have hdestination := FileTree.destination?_congr hwrote.start
    rcases hend with heq | ⟨after, hafter, heq⟩
    · rw [heq]
      exact hwrote
    -- The temporary file is taken away, and its content put at the place of the file.
    · obtain ⟨source, place, content, _, hsource, hplace, _, _, _, rfl⟩ :=
        FileTree.rename_cases hafter
      have hsource := FileTree.destination?_of_place? hsource
      have hplace := FileTree.destination?_of_place? hplace
      rw [hdestination] at hsource hplace
      rw [heq]
      exact (hwrote.trans (FileTree.agree_drop_hidden fun q => htemporary source q hsource)).trans
        (FileTree.agree_put_hidden (hfile place hplace) _)

/-- It is enough to know the directories and the places of the files from an earlier tree. -/
theorem agree_write_of_retains
    (hway : ∀ q ∈ passed (files.start.getD []) p.components.dropLast,
      ¬ hidden q ∧ files.hasDirectory q = true)
    (hfile : ∀ place, files.destination? p = some place → hidden place)
    (htemporary : ∀ origin place, files.destination? (temporaryPath p) = some origin →
      origin <+: place → hidden place) (htree : Retains hidden files tree) (document : Json) :
    AgreeOutside hidden tree (write document tree p).2 := by
  have hdestination := FileTree.destination?_congr htree.start
  refine agree_write ?_ ?_ ?_ document
  · intro q hq
    rw [htree.start] at hq
    exact htree.directory q (hway q hq).1 (hway q hq).2
  · intro place hplace
    exact hfile place (hdestination p ▸ hplace)
  · intro origin place horigin
    exact htemporary origin place (hdestination (temporaryPath p) ▸ horigin)

/-- A sink in a file keeps to the file and its temporary file. -/
theorem FileSink.confined {s : FileSink}
    (hway : ∀ q ∈ passed (files.start.getD []) s.path.components.dropLast,
      ¬ hidden q ∧ files.hasDirectory q = true)
    (hfile : ∀ place, files.destination? s.path = some place → hidden place)
    (htemporary : ∀ origin place, files.destination? (temporaryPath s.path) = some origin →
      origin <+: place → hidden place) : FileSink.sink.Confined hidden files s := by
  intro pushes c mode tree htree
  -- A push changes what the sink holds, but not where it writes.
  have hpath : ∀ (pushes : List (Configuration × UpdateMode × FileTree)) (s : FileSink),
      (pushes.foldl (fun s push => (FileSink.sink.push push.1 push.2.1 s push.2.2).2.1) s).path
        = s.path := by
    intro pushes
    induction pushes with
    | nil => exact fun _ => rfl
    | cons push pushes ih => exact fun s => ih _
  dsimp only
  generalize hstate : pushes.foldl
    (fun s push => (FileSink.sink.push push.1 push.2.1 s push.2.2).2.1) s = state
  have hsame : state.path = s.path := hstate ▸ hpath pushes s
  have hagree : ∀ document, AgreeOutside hidden tree (write document tree state.path).2 := by
    rw [hsame]
    exact agree_write_of_retains hway hfile htemporary htree
  exact hagree _

end BuildTrace.Store
