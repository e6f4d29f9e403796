import BuildTrace.Proofs.LaunchTarget.Canonical
import BuildTrace.Proofs.Path.Normal

/-!
# Places of launch targets

The binary of a launch target is written relative to the directory. From a directory that is given
from the root, without steps up, the written path leads back to the binary. So only the marks of the
canonical form can get in the way of a target in such a place.

## Main results

* `LaunchTarget.normal_relativeSteps`: the steps from one place to another lead there;
* `LaunchTarget.legible_iff`: which targets with a settled binary are legible.
-/

namespace BuildTrace.LaunchTarget

open Component (Descends Wanders)

/-! ## Steps from one place to another -/

theorem take_commonSteps (as bs : List Component) :
    as.take (commonSteps as bs) = bs.take (commonSteps as bs) := by
  fun_induction commonSteps as bs with
  | case1 a as bs ih => rw [List.take_succ_cons, List.take_succ_cons, ih]
  | case2 => rfl
  | case3 => rfl

variable {ds bs steps : List Component}

theorem relativeSteps?_root :
    relativeSteps? (.root :: ds) (.root :: bs) =
      let steps := List.replicate (ds.length - commonSteps bs ds) .up ++ bs.drop (commonSteps bs ds)
      if steps = [] then none else some steps := by
  simp [relativeSteps?, commonSteps]

/-- The steps from one place to another lead there. -/
theorem normal_relativeSteps (hd : Descends ds) (hb : Descends bs)
    (h : relativeSteps? (.root :: ds) (.root :: bs) = some steps) :
    Wanders steps ∧ steps ≠ [] ∧ Component.normal (.root :: ds ++ steps) = .root :: bs := by
  rw [relativeSteps?_root] at h
  generalize hcommon : commonSteps bs ds = common at h
  have htake : ds.take common = bs.take common := by rw [← hcommon, take_commonSteps]
  dsimp only at h
  split at h
  · cases h
  next hne =>
  obtain rfl := Option.some.inj h
  have hdown : Descends (bs.drop common) := fun c hc => hb c (List.mem_of_mem_drop hc)
  have hback : Descends (ds.drop common).reverse :=
    fun c hc => hd c (List.mem_of_mem_drop (List.mem_reverse.mp hc))
  refine ⟨fun c hc => ?_, hne, ?_⟩
  · rcases List.mem_append.mp hc with hc | hc
    · exact .inl (List.eq_of_mem_replicate hc)
    · exact .inr (hdown c hc)
  · -- Down to the directory, up to where the ways part, and down to the other place.
    have hdirectory : (.root :: ds).foldl Component.step []
        = (ds.drop common).reverse ++ ((ds.take common).reverse ++ [.root]) := by
      rw [List.foldl_cons, Component.foldl_step_of_descends hd, ← List.append_assoc,
        ← List.reverse_append, List.take_append_drop]
      rfl
    have hlength : ds.length - common = (ds.drop common).reverse.length := by simp
    rw [Component.normal, List.foldl_append, List.foldl_append, hdirectory, hlength,
      Component.foldl_step_up hback, Component.foldl_step_of_descends hdown, htake]
    simp

/-! ## Legible targets -/

variable {t : LaunchTarget}

/-- The written binary is found from a directory that is given without steps up. -/
theorem normalize_join_writtenBinary (hdirectory : t.directory.Rooted)
    (hbinary : t.binary.Rooted) :
    t.writtenBinary.text ≠ "" ∧
      (t.directory.join t.writtenBinary).normalize = t.binary.normalize := by
  obtain ⟨ds, hd, hds⟩ := hdirectory.components
  obtain ⟨bs, hb, hbs⟩ := hbinary.components
  cases hsteps : relativeSteps? (.root :: ds) (.root :: bs) with
  | none =>
    -- No steps lead from the directory to the binary, so it is written as it is.
    have hwritten : t.writtenBinary = t.binary := by
      rw [writtenBinary, hds, hbs, hsteps]
      rfl
    have habsolute := hbinary.absolute
    rw [hwritten, Path.join, if_pos habsolute]
    refine ⟨fun h => ?_, rfl⟩
    simp [Path.isAbsolute, Path.chars, h] at habsolute
  | some steps =>
    obtain ⟨hwanders, hne, hnormal⟩ := normal_relativeSteps hd hb hsteps
    obtain ⟨c, hhead, hslash⟩ := Path.head?_stepChars hwanders hne
    -- The steps are written one after the other, and followed from the directory.
    have hwritten : t.writtenBinary = ⟨String.ofList (Path.stepChars steps)⟩ := by
      rw [writtenBinary, hds, hbs, hsteps, ← Path.ofComponents_of_wanders hwanders]
      rfl
    have hbase : t.directory.chars ≠ [] := fun h => by
      have habsolute := hdirectory.absolute
      rw [Path.isAbsolute, h] at habsolute
      cases habsolute
    have hrelative : (Path.stepChars steps).head? ≠ some '/' := by
      rw [hhead]
      exact fun heq => hslash (Option.some.inj heq)
    rw [hwritten]
    refine ⟨fun h => ?_, ?_⟩
    · rw [String.ofList_eq_empty_iff.mp h] at hhead
      cases hhead
    · rw [hbinary.normalize, Path.normalize, Path.components_join_relative hrelative hbase,
        Path.partsComponents_stepChars hwanders, hds, hnormal, ← hbs]

/-- A target whose binary is settled, and whose directory is given from the root without steps up,
is legible if the marks of its canonical form are none of its own. -/
theorem legible_iff (hdirectory : t.directory.Rooted) (hbinary : t.binary.Settled) :
    t.Legible ↔ '>' ∉ t.directory.text.toList ∧
      Balanced ([','].intercalate (t.arguments.map String.toList)) ∧
      (∀ a ∈ t.arguments, ',' ∉ a.toList) ∧ t.arguments ≠ [""] := by
  constructor
  · exact fun h => ⟨h.directory, h.balanced, h.comma, h.arguments⟩
  · rintro ⟨hmark, hbalanced, hcomma, harguments⟩
    obtain ⟨hwritten, hfound⟩ := normalize_join_writtenBinary hdirectory hbinary.rooted
    exact ⟨hmark, hbalanced, hcomma, harguments, hwritten, hfound.trans hbinary.normal⟩

end BuildTrace.LaunchTarget
