import BuildTrace.Proofs.FileTree.Reading
import BuildTrace.Proofs.LaunchTarget.Canonical
import BuildTrace.Proofs.Path.Parent
import BuildTrace.Proofs.Store.Document
import BuildTrace.Store.File

/-!
# Documents in files

A document is written as a whole or not at all: the file has the new document afterwards, or what
it had before. The temporary file that is used for it stands beside the file or below its path, so
it is never on the way to the file.

The cache is such a document. Whatever is loaded from it is a well-formed snapshot. A well-formed
snapshot that was stored is loaded again as it was if its launch targets are legible; a single one
that is not makes the cache as a whole useless.

## Main results

* `Store.not_prefix_temporaryPath`: the temporary file is not on the way to the file;
* `Store.spares_of_write_error`: writing that fails leaves the file alone;
* `Store.content?_of_write` and `Store.node?_of_write`: writing that succeeds leaves the document
  in the file;
* `Store.read?_of_write` and `Store.read_of_read?`: the document is read from it;
* `Store.spares_write` and `Store.FileSink.spares_push`: other files are left alone, whatever
  becomes of the writing;
* `Store.keepsWay_write` and `Store.read?_write`: the ways to the file and to other files stay, so
  what could be read there still can be;
* `Store.Cache.sound_of_load`: a snapshot that was loaded is well-formed;
* `Store.Cache.load_store`: what is loaded from a cache in which a snapshot was stored;
* `Store.Cache.load_store_iff`: a snapshot that was stored is loaded again exactly if its launch
  targets are legible.
-/

namespace BuildTrace.Store

variable {tree : FileTree} {p q : Path} {document : Json}

/-! ## Temporary files -/

/-- The temporary file stands below the path of the file, or beside the file. -/
theorem components_temporaryPath (p : Path) :
    (∃ m, (temporaryPath p).components = p.components ++ [.name m]) ∨
      ∃ front n m, m ≠ n ∧ p.components = front ++ [.name n] ∧
        (temporaryPath p).components = front ++ [.name m] := by
  cases hname : p.fileName? with
  | none =>
    -- A path without a name gets one below itself.
    have htemporary : temporaryPath p = p.join ⟨".tmp"⟩ := by
      simp [temporaryPath, Path.withFileName, hname]
    have hsuffix : Path.IsName ".tmp" := .of_length (by decide) (by decide)
    exact .inl ⟨_, by rw [htemporary, Path.components_join_name p hsuffix]⟩
  | some n =>
    have htemporary : temporaryPath p = (p.parent?.getD p).join ⟨n ++ ".tmp"⟩ := by
      simp [temporaryPath, Path.withFileName, hname]
    have hlast : p.components.getLast? = some (.name n) := by
      rw [Path.fileName?] at hname
      split at hname
      next n' heq => rw [heq, Option.some.inj hname]
      · cases hname
    -- A longer name is a name, too, and not the same one.
    have hn : Path.IsName n := Path.isName_of_mem_components (List.mem_of_getLast? hlast)
    have hsuffix : Path.IsName (n ++ ".tmp") := by
      refine .of_length ?_ ?_
      · rw [String.toList_append, List.mem_append, not_or]
        exact ⟨hn.slash, by decide⟩
      · rw [String.toList_append, List.length_append]
        have htmp : ".tmp".toList.length = 4 := rfl
        omega
    rw [htemporary, Path.components_join_name _ hsuffix]
    cases hparent : p.parent? with
    | none => exact .inl ⟨_, rfl⟩
    | some parent =>
      obtain ⟨front, hfront⟩ := List.getLast?_eq_some_iff.mp hlast
      refine .inr ⟨front, n, n ++ ".tmp", ?_, hfront, ?_⟩
      · intro heq
        have hlength := congrArg String.length heq
        simp [String.length_append] at hlength
      · rw [Option.getD_some, Path.components_of_parent? hparent, hfront, List.dropLast_concat]

/-- The temporary file is not on the way to the file. -/
theorem not_prefix_temporaryPath {origin place : Place}
    (horigin : tree.destination? (temporaryPath p) = some origin)
    (hplace : tree.destination? p = some place) : ¬ origin <+: place := by
  obtain ⟨base, hbase, rfl⟩ := Option.map_eq_some_iff.mp horigin
  obtain ⟨base', hbase', rfl⟩ := Option.map_eq_some_iff.mp hplace
  -- Both paths are absolute or none is, so they are followed from the same place.
  have hhead : (temporaryPath p).components.head? = some .root ↔
      p.components.head? = some .root := by
    rcases components_temporaryPath p with ⟨m, hm⟩ | ⟨front, n, m, _, hp, hm⟩
    · rw [hm]
      cases p.components <;> simp
    · rw [hm, hp]
      cases front <;> simp
  have habsolute : (temporaryPath p).isAbsolute = p.isAbsolute := by
    rw [Bool.eq_iff_iff, Path.isAbsolute_iff, Path.isAbsolute_iff, hhead]
  obtain rfl : base = base' := by
    simp only [FileTree.origin?, habsolute, Option.ite_none_left_eq_some] at hbase hbase'
    exact Option.some.inj (hbase.2.symm.trans hbase'.2)
  rcases components_temporaryPath p with ⟨m, hm⟩ | ⟨front, n, m, hne, hp, hm⟩
  · rw [hm, FileTree.walk_append]
    intro hlead
    have hlength := hlead.length_le
    -- The place below the path is longer than that of the path.
    simp only [FileTree.walk, List.length_append, List.length_singleton] at hlength
    omega
  · rw [hm, hp, FileTree.walk_append, FileTree.walk_append]
    intro hlead
    -- The places beside each other are equally long and differ in the name.
    have hlength : (FileTree.walk (FileTree.walk base front) [.name m]).length
        = (FileTree.walk (FileTree.walk base front) [.name n]).length := by simp [FileTree.walk]
    have heq := hlead.eq_of_length hlength
    simp only [FileTree.walk, List.append_cancel_left_eq, List.cons.injEq, and_true] at heq
    exact hne heq

/-- The temporary file is another one than the file. -/
theorem destination?_temporaryPath_ne {origin : Place}
    (horigin : tree.destination? (temporaryPath p) = some origin) :
    tree.destination? p ≠ some origin :=
  fun hplace => not_prefix_temporaryPath horigin hplace (List.prefix_refl origin)

/-! ## Writing -/

/-- The directories above a file are there already, or are made for the parent of its path. -/
theorem makeParent_cases {made : FileTree} (h : makeParent tree p = some made) :
    made = tree ∨ ∃ parent, p.parent? = some parent ∧ tree.makeDirectories parent = some made := by
  rw [makeParent] at h
  split at h
  next parent hparent =>
    split at h
    · exact .inl (Option.some.inj h).symm
    · exact .inr ⟨parent, hparent, h⟩
  · exact .inl (Option.some.inj h).symm

/-- Making the directories above a file leaves all files alone. -/
theorem spares_makeParent {after : FileTree} (h : makeParent tree q = some after) :
    FileTree.Spares p tree after := by
  rcases makeParent_cases h with rfl | ⟨parent, -, hmade⟩
  · exact .refl p after
  · exact FileTree.spares_makeDirectories hmade

/-- Writing fails before the temporary file is written, or before it takes the place of the file,
or it succeeds. -/
theorem write_cases (document : Json) (tree : FileTree) (p : Path) :
    (∃ made, (write document tree p = (.error .io, made)) ∧
        (made = tree ∨ makeParent tree p = some made)) ∨
      ∃ made written, makeParent tree p = some made ∧
        made.write (temporaryPath p) (.text document.pretty) = some written ∧
        (write document tree p = (.error .io, written) ∨
          ∃ after, written.rename (temporaryPath p) p = some after ∧
            write document tree p = (.ok (), after)) := by
  rw [write]
  split
  · exact .inl ⟨tree, rfl, .inl rfl⟩
  next made hmade =>
    split
    · exact .inl ⟨made, rfl, .inr hmade⟩
    next written hwritten =>
      refine .inr ⟨made, written, hmade, hwritten, ?_⟩
      split
      · exact .inl rfl
      next after hafter => exact .inr ⟨after, hafter, rfl⟩

/-- Writing that fails leaves the file alone. -/
theorem spares_of_write_error {error : FileError}
    (h : (write document tree p).1 = .error error) :
    FileTree.Spares p tree (write document tree p).2 := by
  rcases write_cases document tree p with ⟨made, heq, hmade⟩ |
    ⟨made, written, hmade, hwritten, heq | ⟨after, _, heq⟩⟩
  · rw [heq]
    rcases hmade with rfl | hmade
    · exact .refl p made
    · exact spares_makeParent hmade
  · rw [heq]
    -- Only the temporary file was written.
    refine (spares_makeParent hmade).trans (FileTree.spares_write hwritten fun hsame => ?_)
    obtain ⟨place, _, hplace, _⟩ := FileTree.write_cases hwritten
    have hdestination := FileTree.destination?_of_place? hplace
    exact destination?_temporaryPath_ne hdestination (hsame.symm.trans hdestination)
  · rw [heq] at h
    cases h

/-- Writing that succeeds goes through all of its steps. -/
theorem exists_of_write (h : (write document tree p).1 = .ok ()) :
    ∃ made written, makeParent tree p = some made ∧
      made.write (temporaryPath p) (.text document.pretty) = some written ∧
      written.rename (temporaryPath p) p = some (write document tree p).2 := by
  rcases write_cases document tree p with ⟨made, heq, _⟩ |
    ⟨made, written, hmade, hwritten, heq | ⟨after, hafter, heq⟩⟩
  · rw [heq] at h
    cases h
  · rw [heq] at h
    cases h
  · rw [heq]
    exact ⟨made, written, hmade, hwritten, hafter⟩

/-- Writing that succeeds leaves the document in the file. -/
theorem content?_of_write (h : (write document tree p).1 = .ok ()) :
    (write document tree p).2.start = tree.start ∧
      (write document tree p).2.content? p = some (.text document.pretty) := by
  obtain ⟨made, written, hmade, hwritten, hafter⟩ := exists_of_write h
  have hmade : FileTree.Spares p tree made := spares_makeParent hmade
  obtain ⟨hstart, hcontent⟩ := FileTree.content?_of_write hwritten
  obtain ⟨hstart', hcontent'⟩ := FileTree.content?_of_rename hafter
  exact ⟨hstart'.trans (hstart.trans hmade.start), hcontent'.trans hcontent⟩

/-- The path of a file to which a document was written leads to the document. -/
theorem node?_of_write (h : (write document tree p).1 = .ok ()) :
    ∃ executable,
      (write document tree p).2.node? p = some (.file (.text document.pretty) executable) := by
  obtain ⟨made, written, -, hwritten, hafter⟩ := exists_of_write h
  obtain ⟨-, hcontent⟩ := FileTree.content?_of_write hwritten
  obtain ⟨content, executable, hsource, hnode⟩ :=
    FileTree.node?_of_rename hafter fun _ _ => not_prefix_temporaryPath
  rw [hcontent] at hsource
  cases hsource
  exact ⟨executable, hnode⟩

/-- A file to which a document was written is there. -/
theorem contains_write (h : (write document tree p).1 = .ok ()) :
    (write document tree p).2.contains p = true := by
  obtain ⟨executable, hnode⟩ := node?_of_write h
  rw [FileTree.contains, hnode]
  rfl

/-- It holds the document. -/
theorem read?_of_write (h : (write document tree p).1 = .ok ()) :
    (write document tree p).2.read? p = some (.text document.pretty) := by
  obtain ⟨executable, hnode⟩ := node?_of_write h
  rw [FileTree.read?, hnode]

/-- Its text is the document. -/
theorem readText?_of_write (h : (write document tree p).1 = .ok ()) :
    (write document tree p).2.readText? p = some document.pretty := by
  rw [FileTree.readText?, read?_of_write h]
  rfl

/-- Relative paths are followed from the same place afterwards. -/
theorem start_write (document : Json) (tree : FileTree) (p : Path) :
    (write document tree p).2.start = tree.start := by
  cases h : (write document tree p).1 with
  | ok => exact (content?_of_write h).1
  | error error => exact (spares_of_write_error h).start

/-- What is read from a file that holds the document is what the document is read as. -/
theorem read_of_read? {α : Type} (read? : Json → Option α) (hplain : document.Plain)
    (h : tree.read? p = some (.text document.pretty)) :
    Store.read read? tree p =
      match read? document with
      | some value => .ok value
      | none => .error .format := by
  obtain ⟨executable, hnode⟩ : ∃ executable,
      tree.node? p = some (.file (.text document.pretty) executable) := by
    rw [FileTree.read?] at h
    split at h
    next content executable hnode => exact ⟨executable, Option.some.inj h ▸ hnode⟩
    · cases h
  have hparse : value? (.text document.pretty) = some document := Json.parse?_pretty hplain
  rw [Store.read, hnode]
  simp only [hparse, Option.bind_some]
  cases read? document <;> rfl

/-- Whatever is read from a file is read from some document. -/
theorem exists_of_read {α : Type} {read? : Json → Option α} {value : α}
    (h : Store.read read? tree p = .ok value) : ∃ document, read? document = some value := by
  rw [Store.read] at h
  split at h
  · cases h
  · cases h
  · split at h
    · cases h
    next found hfound =>
      obtain rfl := Except.ok.inj h
      obtain ⟨document, -, hread⟩ := Option.bind_eq_some_iff.mp hfound
      exact ⟨document, hread⟩

/-- Writing leaves other files alone that are not below its temporary file. -/
theorem spares_write (htarget : tree.destination? q ≠ tree.destination? p)
    (htemporary : ∀ origin place, tree.destination? (temporaryPath q) = some origin →
      tree.destination? p = some place → ¬ origin <+: place) :
    FileTree.Spares p tree (write document tree q).2 := by
  -- Three things can be done to the tree, one after the other: the directory is made, the temporary
  -- file is written, and it is renamed.
  rcases write_cases document tree q with ⟨made, heq, hmade⟩ |
    ⟨made, written, hmade, hwritten, hend⟩
  · rw [heq]
    rcases hmade with rfl | hmade
    · exact .refl p made
    · exact spares_makeParent hmade
  · have hmade : FileTree.Spares p tree made := spares_makeParent hmade
    have hsame := FileTree.destination?_congr hmade.start
    have hwrote : FileTree.Spares p made written := by
      refine FileTree.spares_write hwritten fun heq => ?_
      obtain ⟨place, _, hplace, _⟩ := FileTree.write_cases hwritten
      have horigin := FileTree.destination?_of_place? hplace
      have hplace := heq.symm.trans horigin
      rw [hsame] at horigin hplace
      exact htemporary place place horigin hplace (List.prefix_refl place)
    have hsame' := FileTree.destination?_congr (hmade.trans hwrote).start
    rcases hend with heq | ⟨after, hafter, heq⟩
    · rw [heq]
      exact hmade.trans hwrote
    · rw [heq]
      refine (hmade.trans hwrote).trans (FileTree.spares_rename hafter ?_ ?_)
      · rw [hsame', hsame']
        exact htarget
      · intro origin place horigin hplace
        rw [hsame'] at horigin hplace
        exact htemporary origin place horigin hplace

/-- Making the directories above a file takes no way away. -/
theorem keepsWay_makeParent {after : FileTree} (h : makeParent tree q = some after) :
    FileTree.KeepsWay p tree after := by
  rcases makeParent_cases h with rfl | ⟨parent, -, hmade⟩
  · exact .refl p after
  · exact .of_retains (FileTree.retains_makeDirectories hmade)

/-- Writing takes no way away that does not lead below the temporary file. -/
theorem keepsWay_write (htemporary : ∀ origin place,
      tree.destination? (temporaryPath q) = some origin →
      tree.destination? p = some place → ¬ origin <+: place) :
    FileTree.KeepsWay p tree (write document tree q).2 := by
  rcases write_cases document tree q with ⟨made, heq, hmade⟩ |
    ⟨made, written, hmade, hwritten, hend⟩
  · rw [heq]
    rcases hmade with rfl | hmade
    · exact .refl p made
    · exact keepsWay_makeParent hmade
  · have hwrote : FileTree.KeepsWay p tree written :=
      (keepsWay_makeParent hmade).trans (.of_retains (FileTree.retains_write hwritten))
    rcases hend with heq | ⟨after, hafter, heq⟩
    · rw [heq]
      exact hwrote
    · rw [heq]
      have hsame := FileTree.destination?_congr hwrote.start
      -- Only the temporary file is taken away, to be put at the place of the file.
      refine hwrote.trans ⟨(FileTree.content?_of_rename hafter).1, fun place => ?_⟩
      refine FileTree.place?_of_rename hafter fun origin place horigin hplace => ?_
      rw [hsame] at horigin hplace
      exact htemporary origin place horigin hplace

/-- What could be read at the path of a file can still be read after another file was written. -/
theorem read?_write {content : Content} (hread : tree.read? p = some content)
    (htarget : tree.destination? q ≠ tree.destination? p)
    (htemporary : ∀ origin place, tree.destination? (temporaryPath q) = some origin →
      tree.destination? p = some place → ¬ origin <+: place) :
    (write document tree q).2.read? p = some content :=
  (keepsWay_write htemporary).read? (spares_write htarget htemporary) hread

/-- What could be read at the path of a file can still be read after a document could not be written
to it. -/
theorem read?_of_write_error {error : FileError} {content : Content}
    (h : (write document tree p).1 = .error error) (hread : tree.read? p = some content) :
    (write document tree p).2.read? p = some content :=
  (keepsWay_write fun _ _ => not_prefix_temporaryPath).read? (spares_of_write_error h) hread

/-- A sink in a file leaves other files alone that are not below its temporary file. -/
theorem FileSink.spares_push {s : FileSink} (c : Configuration) (mode : UpdateMode)
    (htarget : tree.destination? s.path ≠ tree.destination? p)
    (htemporary : ∀ origin place, tree.destination? (temporaryPath s.path) = some origin →
      tree.destination? p = some place → ¬ origin <+: place) :
    (FileSink.push c mode s tree).2.1.path = s.path ∧
      FileTree.Spares p tree (FileSink.push c mode s tree).2.2 :=
  ⟨rfl, spares_write htarget htemporary⟩

/-! ## The cache -/

namespace Cache

variable {snapshot : Snapshot}

/-- What is loaded from a cache is well-formed. -/
theorem sound_of_load (h : load tree p = .ok (some snapshot)) : snapshot.Sound := by
  rw [load] at h
  split at h
  · cases hread : Store.read Snapshot.ofJson? tree p with
    | error error =>
      rw [hread] at h
      cases h
    | ok loaded =>
      rw [hread] at h
      cases h
      obtain ⟨document, hdocument⟩ := exists_of_read hread
      exact Snapshot.sound_of_ofJson? hdocument
  · cases h

/-- What is loaded after a snapshot was stored is what its document is read as. -/
theorem load_store (h : (store snapshot tree p).1 = .ok ()) :
    load (store snapshot tree p).2 p =
      match Snapshot.ofJson? snapshot.toJson with
      | some loaded => .ok (some loaded)
      | none => .error .format := by
  rw [store] at h ⊢
  rw [load, if_pos (contains_write h), read_of_read? _ snapshot.plain_toJson (read?_of_write h)]
  cases Snapshot.ofJson? snapshot.toJson <;> rfl

/-- A well-formed snapshot that was stored is loaded again exactly if its launch targets are
legible. -/
theorem load_store_iff (hsound : snapshot.Sound) (h : (store snapshot tree p).1 = .ok ()) :
    load (store snapshot tree p).2 p = .ok (some snapshot) ↔
      ∀ t ∈ snapshot.launchTargets, t.Legible := by
  have hlegible : Snapshot.ofJson? snapshot.toJson = some snapshot ↔
      ∀ t ∈ snapshot.launchTargets, t.Legible := by
    simp only [Snapshot.ofJson?_toJson_iff hsound, LaunchTarget.parse_canonical_iff]
  rw [load_store h, ← hlegible]
  cases Snapshot.ofJson? snapshot.toJson <;> simp

end Cache

end BuildTrace.Store
