import BuildTrace.LaunchTarget.Basic
import BuildTrace.Proofs.Text.Split

/-!
# Canonical forms of launch targets

The canonical form of a launch target puts its parts side by side as they are, with `>`, a pair of
parentheses and commas between them. So the form of a target is read back as the target only if
none of its parts gets in the way of these marks. This module says exactly when that is so.

## Main definitions

* `LaunchTarget.Balanced`: a text whose parentheses belong together;
* `LaunchTarget.Legible`: a target none of whose parts gets in the way.

## Main results

* `LaunchTarget.parse_canonical_iff`: a target is read back from its canonical form exactly if it
  is legible.
-/

namespace BuildTrace.LaunchTarget

/-! ## Parentheses -/

/-- The number of parentheses that are still to be opened when a text has been read from its end,
where `depth` were before; `none` if a parenthesis is opened that nothing closes. -/
def unopened? : (depth : Nat) → List Char → Option Nat
  | depth, [] => some depth
  | depth, c :: s =>
    if c = ')' then unopened? (depth + 1) s
    else if c = '(' then
      match depth with
      | 0 => none
      | depth + 1 => unopened? depth s
    else unopened? depth s

/-- The parentheses of the text belong together. -/
def Balanced (s : List Char) : Prop := unopened? 0 s.reverse = some 0

instance (s : List Char) : Decidable (Balanced s) := inferInstanceAs (Decidable (_ = _))

variable {behind s before list : List Char} {depth rest : Nat}

/-- A text that opens nothing it does not close is passed on the way from the end. -/
theorem openingFromEnd?_append (h : unopened? depth s = some rest) (behind t : List Char) :
    openingFromEnd? behind depth (s ++ t) = openingFromEnd? (s.reverse ++ behind) rest t := by
  fun_induction unopened? depth s generalizing behind with
  | case1 depth =>
    obtain rfl : depth = rest := Option.some.inj h
    rfl
  | case2 depth s ih =>
    have hnext := ih h (')' :: behind)
    simpa [openingFromEnd?] using hnext
  | case3 s => cases h
  | case4 s depth _ ih =>
    have hnext := ih h ('(' :: behind)
    simpa [openingFromEnd?] using hnext
  | case5 depth c s hclose hopen ih =>
    have hnext := ih h (c :: behind)
    simpa [openingFromEnd?, hclose, hopen] using hnext

/-- In a text that opens what it does not close the way from the end is over before its start. -/
theorem openingFromEnd?_of_none (h : unopened? depth s = none) (behind t : List Char) :
    ∃ before list, openingFromEnd? behind depth (s ++ t) = some (before, list) ∧
      list.length < s.length + behind.length := by
  fun_induction unopened? depth s generalizing behind with
  | case1 depth => cases h
  | case2 depth s ih =>
    obtain ⟨before, list, heq, hlength⟩ := ih h (')' :: behind)
    refine ⟨before, list, by simpa [openingFromEnd?] using heq, ?_⟩
    simp only [List.length_cons] at hlength ⊢
    omega
  | case3 s => exact ⟨(s ++ t).reverse, behind, by simp [openingFromEnd?], by simp⟩
  | case4 s depth _ ih =>
    obtain ⟨before, list, heq, hlength⟩ := ih h ('(' :: behind)
    refine ⟨before, list, by simpa [openingFromEnd?] using heq, ?_⟩
    simp only [List.length_cons] at hlength ⊢
    omega
  | case5 depth c s hclose hopen ih =>
    obtain ⟨before, list, heq, hlength⟩ := ih h (c :: behind)
    refine ⟨before, list, by simpa [openingFromEnd?, hclose, hopen] using heq, ?_⟩
    simp only [List.length_cons] at hlength ⊢
    omega

/-- What has been passed on the way from the end stays behind. -/
theorem length_le_of_openingFromEnd? (h : openingFromEnd? behind depth s = some (before, list)) :
    behind.length ≤ list.length := by
  fun_induction openingFromEnd? behind depth s with
  | case1 => cases h
  | case2 behind depth s ih => exact Nat.le_of_succ_le (ih h)
  | case3 behind s =>
    cases h
    exact Nat.le_refl _
  | case4 behind s depth _ ih => exact Nat.le_of_succ_le (ih h)
  | case5 behind depth c s _ _ ih => exact Nat.le_of_succ_le (ih h)

/-- The text falls into what stands before the parenthesis and what stands behind it. -/
theorem append_of_openingFromEnd? (h : openingFromEnd? behind depth s = some (before, list)) :
    before ++ '(' :: list = s.reverse ++ behind := by
  fun_induction openingFromEnd? behind depth s with
  | case1 => cases h
  | case2 behind depth s ih => simpa using ih h
  | case3 behind s =>
    cases h
    simp
  | case4 behind s depth _ ih => simpa using ih h
  | case5 behind depth c s _ _ ih => simpa using ih h

/-- What stands between the last parentheses is found there exactly if its own parentheses belong
together. -/
theorem openingFromEnd?_eq_some_iff (binary list : List Char) :
    openingFromEnd? [] 0 (binary ++ '(' :: list).reverse = some (before, list) ↔
      before = binary ∧ Balanced list := by
  have hreverse : (binary ++ '(' :: list).reverse = list.reverse ++ '(' :: binary.reverse := by simp
  rw [hreverse]
  constructor
  · intro h
    -- The list was read from its end: it opens too much, or is passed with some depth left.
    cases hrest : unopened? 0 list.reverse with
    | none =>
      obtain ⟨_, found, heq, hlength⟩ :=
        openingFromEnd?_of_none hrest [] ('(' :: binary.reverse)
      -- What is found would be shorter than the list.
      obtain ⟨rfl, rfl⟩ : _ ∧ list = found := by simpa using h.symm.trans heq
      simp at hlength
    | some rest =>
      rw [openingFromEnd?_append hrest, List.reverse_reverse, List.append_nil] at h
      cases rest with
      | zero =>
        obtain rfl : binary = before := by simpa [openingFromEnd?] using h
        exact ⟨rfl, hrest⟩
      | succ rest =>
        -- The parenthesis of the list was passed, so what is found would be longer than the list.
        have hpassed : openingFromEnd? ('(' :: list) rest binary.reverse = some (before, list) := by
          simpa [openingFromEnd?] using h
        have hlength := length_le_of_openingFromEnd? hpassed
        rw [List.length_cons] at hlength
        omega
  · rintro ⟨rfl, h⟩
    rw [openingFromEnd?_append h]
    simp [openingFromEnd?]

/-! ## Arguments -/

/-- The arguments of a list, put together again, are the list. -/
theorem intercalate_argumentsOf (list : List Char) :
    [','].intercalate ((argumentsOf list).map String.toList) = list := by
  rw [argumentsOf]
  split
  next h => rw [List.isEmpty_iff.mp h]; rfl
  next h =>
    rw [Text.splitOn_eq_splitOn, List.map_map]
    have hid : String.toList ∘ String.ofList = id := funext fun s => String.toList_ofList
    rw [hid, List.map_id, List.intercalate_splitOn]

/-- The arguments are read back from their list exactly if no comma stands in them and the list
is not the empty one of an empty argument. -/
theorem argumentsOf_intercalate_iff (arguments : List String) :
    argumentsOf ([','].intercalate (arguments.map String.toList)) = arguments ↔
      (∀ a ∈ arguments, ',' ∉ a.toList) ∧ arguments ≠ [""] := by
  constructor
  · intro h
    refine ⟨fun a ha => ?_, ?_⟩
    · rw [← h, argumentsOf] at ha
      split at ha
      · cases ha
      · obtain ⟨piece, hpiece, rfl⟩ := List.mem_map.mp ha
        rw [String.toList_ofList]
        exact Text.not_mem_of_mem_splitOn hpiece
    · rintro rfl
      exact absurd h (by decide)
  · rintro ⟨hcomma, hne⟩
    rw [argumentsOf]
    have hnil : ([','].intercalate (arguments.map String.toList)).isEmpty ↔ arguments = [] := by
      constructor
      · intro h
        -- One argument is its own list; of several ones the list has a comma.
        rcases arguments with _ | ⟨a, _ | ⟨b, arguments⟩⟩
        · rfl
        · have ha : a = "" := by simpa using h
          exact absurd (congrArg (fun b => [b]) ha) hne
        · simp [List.intercalate_cons_cons] at h
      · rintro rfl
        rfl
    split
    next h => exact (hnil.mp h).symm
    next h =>
      have hne' : arguments.map String.toList ≠ [] := fun heq =>
        h (hnil.mpr (List.map_eq_nil_iff.mp heq))
      rw [Text.splitOn_eq_splitOn,
        List.splitOn_intercalate ',' (List.forall_mem_map.mpr hcomma) hne', List.map_map]
      have hid : String.ofList ∘ String.toList = id := funext fun s => String.ofList_toList
      rw [hid, List.map_id]

/-! ## Canonical forms -/

/-- No part of the target gets in the way of the marks of its canonical form, and the binary is
where the form says it is. -/
structure Legible (t : LaunchTarget) : Prop where
  /-- The directory ends at the first `>`. -/
  directory : '>' ∉ t.directory.text.toList
  /-- The list of arguments is found by its parentheses. -/
  balanced : Balanced ([','].intercalate (t.arguments.map String.toList))
  /-- Each argument ends at a comma. -/
  comma : ∀ a ∈ t.arguments, ',' ∉ a.toList
  /-- An empty argument alone cannot be told from none. -/
  arguments : t.arguments ≠ [""]
  /-- A binary is written. -/
  written : t.writtenBinary.text ≠ ""
  /-- The binary is found from the directory. -/
  found : (t.directory.join t.writtenBinary).normalize = t.binary

instance (t : LaunchTarget) : Decidable t.Legible :=
  decidable_of_iff
    ('>' ∉ t.directory.text.toList ∧ Balanced ([','].intercalate (t.arguments.map String.toList)) ∧
      (∀ a ∈ t.arguments, ',' ∉ a.toList) ∧ t.arguments ≠ [""] ∧ t.writtenBinary.text ≠ "" ∧
      (t.directory.join t.writtenBinary).normalize = t.binary)
    ⟨fun ⟨hd, hb, hc, ha, hw, hf⟩ => ⟨hd, hb, hc, ha, hw, hf⟩,
      fun ⟨hd, hb, hc, ha, hw, hf⟩ => ⟨hd, hb, hc, ha, hw, hf⟩⟩

/-- The characters of a canonical form. -/
theorem toList_canonical (t : LaunchTarget) :
    t.canonical.toList = t.directory.text.toList ++ '>' :: (t.writtenBinary.text.toList ++
      '(' :: [','].intercalate (t.arguments.map String.toList) ++ [')']) := by
  simp [canonical, String.toList_append, String.toList_intercalate]

/-- What is read from a text: it is cut at the first `>` and where the last parenthesis opens. -/
theorem parse_eq_ok_iff {text : String} {t : LaunchTarget} :
    parse text = .ok t ↔ ∃ behind written list,
      Text.splitOnce? '>' text.toList = some (t.directory.text.toList, behind) ∧
      (Text.stripEnd? [')'] behind).bind (fun s => openingFromEnd? [] 0 s.reverse) =
        some (written, list) ∧
      written ≠ [] ∧
      t.binary = (t.directory.join ⟨String.ofList written⟩).normalize ∧
      t.arguments = argumentsOf list := by
  constructor
  · intro h
    rw [parse] at h
    split at h
    · cases h
    next directory behind hcut =>
      split at h
      · cases h
      next written list hfound =>
        split at h
        · cases h
        next hwritten =>
          cases h
          exact ⟨behind, written, list, by rw [hcut, String.toList_ofList], hfound,
            fun heq => hwritten (List.isEmpty_iff.mpr heq), rfl, rfl⟩
  · rintro ⟨behind, written, list, hcut, hfound, hwritten, hbinary, harguments⟩
    have hempty : ¬ written.isEmpty := fun h => hwritten (List.isEmpty_iff.mp h)
    rw [parse, hcut]
    dsimp only
    rw [hfound]
    dsimp only
    rw [if_neg hempty, String.ofList_toList]
    exact congrArg Except.ok (LaunchTarget.mk.injEq .. |>.mpr ⟨hbinary.symm, rfl, harguments.symm⟩)

/-- If none of its parts gets in the way of the marks, a target is read from its canonical form
with the binary that the written one leads to, unless nothing is written. -/
theorem parse_canonical {t : LaunchTarget} (hdirectory : '>' ∉ t.directory.text.toList)
    (hbalanced : Balanced ([','].intercalate (t.arguments.map String.toList)))
    (hcomma : ∀ a ∈ t.arguments, ',' ∉ a.toList) (harguments : t.arguments ≠ [""]) :
    parse t.canonical =
      if t.writtenBinary.text = "" then .error (.missingBinary t.canonical)
      else .ok { t with binary := (t.directory.join t.writtenBinary).normalize } := by
  have hchars := toList_canonical t
  have hlist := (argumentsOf_intercalate_iff t.arguments).mpr ⟨hcomma, harguments⟩
  generalize [','].intercalate (t.arguments.map String.toList) = list at hchars hbalanced hlist
  have hcut := Text.splitOnce?_eq_some_iff.mpr ⟨hchars, hdirectory⟩
  have hstrip : Text.stripEnd? [')'] (t.writtenBinary.text.toList ++ '(' :: list ++ [')'])
      = some (t.writtenBinary.text.toList ++ '(' :: list) := Text.stripEnd?_eq_some_iff.mpr rfl
  have hopening : openingFromEnd? [] 0 (t.writtenBinary.text.toList ++ '(' :: list).reverse
      = some (t.writtenBinary.text.toList, list) :=
    (openingFromEnd?_eq_some_iff _ _).mpr ⟨rfl, hbalanced⟩
  have hempty : t.writtenBinary.text.toList.isEmpty ↔ t.writtenBinary.text = "" := by
    rw [List.isEmpty_iff, String.toList_eq_nil_iff]
  rw [parse, hcut]
  simp only [hstrip, Option.bind_some, hopening, hempty, hlist, String.ofList_toList]

/-- What a text has told about the marks of the target that was read from it. -/
theorem marks_of_parse {text : String} {t : LaunchTarget} (h : parse text = .ok t) :
    '>' ∉ t.directory.text.toList ∧
      Balanced ([','].intercalate (t.arguments.map String.toList)) ∧
      (∀ a ∈ t.arguments, ',' ∉ a.toList) ∧ t.arguments ≠ [""] := by
  obtain ⟨behind, written, list, hcut, hfound, _, _, harguments⟩ := parse_eq_ok_iff.mp h
  -- The arguments are those of the list, so the list is what they make.
  have hlist : [','].intercalate (t.arguments.map String.toList) = list := by
    rw [harguments, intercalate_argumentsOf]
  have hlegible : _ ∧ _ := (argumentsOf_intercalate_iff t.arguments).mp
    (by rw [hlist, harguments])
  obtain ⟨s, _, hopening⟩ := Option.bind_eq_some_iff.mp hfound
  have hs := append_of_openingFromEnd? hopening
  rw [List.reverse_reverse, List.append_nil] at hs
  rw [← hs] at hopening
  rw [hlist]
  exact ⟨(Text.splitOnce?_eq_some_iff.mp hcut).2, ((openingFromEnd?_eq_some_iff _ _).mp hopening).2,
    hlegible⟩

/-- A target is read back from its canonical form exactly if it is legible. -/
theorem parse_canonical_iff (t : LaunchTarget) : parse t.canonical = .ok t ↔ t.Legible := by
  constructor
  · intro h
    obtain ⟨hdirectory, hbalanced, hcomma, harguments⟩ := marks_of_parse h
    rw [parse_canonical hdirectory hbalanced hcomma harguments] at h
    split at h
    · cases h
    next hwritten =>
      have hfound := congrArg LaunchTarget.binary (Except.ok.inj h)
      dsimp only at hfound
      exact ⟨hdirectory, hbalanced, hcomma, harguments, hwritten, hfound⟩
  · intro h
    rw [parse_canonical h.directory h.balanced h.comma h.arguments, if_neg h.written, h.found]

end BuildTrace.LaunchTarget
