import BuildTrace.Proofs.LaunchTarget.Place

/-!
# Round trips of launch targets

The canonical form of a launch target is read back as the target, as far as its parts can be told
apart in the form at all. The binary may be written in any way that leads to the same place; it is
read back in the plainest one. Whatever was read from a text before is read back unchanged.

## Main definitions

* `LaunchTarget.Nested`: a text that closes as many parentheses as it opens, and none before it was
  opened;
* `LaunchTarget.Readable`: a target whose parts can be told apart in its canonical form.

## Main results

* `LaunchTarget.balanced_iff`: it makes no difference from which end the parentheses are counted;
* `LaunchTarget.parse_canonical_of_readable`: reading undoes the canonical form.
-/

namespace BuildTrace.LaunchTarget

/-! ## Parentheses -/

/-- The text closes as many parentheses as it opens, and none before it was opened. -/
structure Nested (s : List Char) : Prop where
  /-- No parenthesis is closed before it was opened. -/
  opened : ∀ p, p <+: s → p.count ')' ≤ p.count '('
  /-- In the end all are closed. -/
  closed : s.count ')' = s.count '('

theorem forall_prefix_cons {P : List Char → Prop} {c : Char} {s : List Char} :
    (∀ p, p <+: c :: s → P p) ↔ P [] ∧ ∀ p, p <+: s → P (c :: p) := by
  constructor
  · intro h
    exact ⟨h [] List.nil_prefix, fun p hp => h _ (List.cons_prefix_cons.mpr ⟨rfl, hp⟩)⟩
  · rintro ⟨hnil, hcons⟩ p hp
    rcases List.prefix_cons_iff.mp hp with rfl | ⟨q, rfl, hq⟩
    · exact hnil
    · exact hcons q hq

/-- The way from the end of a text gets through it with some parentheses still to be opened exactly
if nowhere on it more are opened than are closed behind. -/
theorem unopened?_eq_some_iff {depth rest : Nat} {s : List Char} :
    unopened? depth s = some rest ↔
      (∀ p, p <+: s → p.count '(' ≤ depth + p.count ')') ∧
        rest + s.count '(' = depth + s.count ')' := by
  -- The induction follows the reading. What holds of the prefixes of a text holds of the empty one
  -- and of those that begin with the first character.
  fun_induction unopened? depth s with
  | case1 depth => simp [eq_comm]
  | case2 depth s ih =>
    have hdepth : ∀ p : List Char, depth + (p.count ')' + 1) = depth + 1 + p.count ')' :=
      fun p => by omega
    rw [ih, forall_prefix_cons]
    simp [hdepth]
  | case3 s =>
    constructor
    · intro h
      cases h
    · intro h
      -- The parenthesis alone is opened too much.
      have hfirst := (forall_prefix_cons.mp h.1).2 [] List.nil_prefix
      simp at hfirst
  | case4 s depth _ ih =>
    have hdepth : ∀ p : List Char, p.count '(' + 1 ≤ depth + 1 + p.count ')' ↔
        p.count '(' ≤ depth + p.count ')' := fun p => by omega
    have htotal : rest + (s.count '(' + 1) = depth + 1 + s.count ')' ↔
        rest + s.count '(' = depth + s.count ')' := by omega
    rw [ih, forall_prefix_cons]
    simp [hdepth, htotal]
  | case5 depth c s hclose hopen ih =>
    rw [ih, forall_prefix_cons]
    simp [hclose, hopen]

/-- It makes no difference from which end the parentheses are counted. -/
theorem balanced_iff {s : List Char} : Balanced s ↔ Nested s := by
  rw [Balanced, unopened?_eq_some_iff, List.count_reverse, List.count_reverse]
  simp only [Nat.zero_add]
  constructor
  -- What is left behind a prefix is read first from the end, and in all the counts are the same.
  · rintro ⟨hback, htotal⟩
    refine ⟨?_, htotal.symm⟩
    rintro p ⟨q, rfl⟩
    have hq := hback q.reverse (List.reverse_prefix.mpr (List.suffix_append p q))
    simp only [List.count_reverse, List.count_append] at hq htotal
    omega
  · rintro ⟨hopened, hclosed⟩
    refine ⟨?_, hclosed.symm⟩
    intro p hp
    have hsuffix : p.reverse <:+ s := List.reverse_prefix.mp (by rwa [List.reverse_reverse])
    obtain ⟨q, rfl⟩ := hsuffix
    have hq := hopened q (List.prefix_append q p.reverse)
    simp only [List.count_reverse, List.count_append] at hq hclosed
    omega

/-! ## Targets -/

/-- The parts of the target can be told apart in its canonical form, and lead nowhere else when
they are read from it. -/
structure Readable (t : LaunchTarget) : Prop where
  /-- The directory is given from the root, without steps up. -/
  directory : t.directory.Rooted
  /-- The directory ends at the first `>`. -/
  mark : '>' ∉ t.directory.text.toList
  /-- The binary is given from the root. -/
  absolute : t.binary.isAbsolute = true
  /-- The binary leads the same way when it is normalized. -/
  normal : t.binary.normalize.same t.binary = true
  /-- Each argument ends at a comma. -/
  comma : ∀ a ∈ t.arguments, ',' ∉ a.toList
  /-- An empty argument alone cannot be told from none. -/
  arguments : t.arguments ≠ [""]
  /-- The list of arguments closes what it opens. -/
  nested : Nested ([','].intercalate (t.arguments.map String.toList))

variable {t : LaunchTarget}

/-- A readable target is read back from its canonical form, with the binary in the plainest way. -/
theorem Readable.parse_eq (h : t.Readable) :
    parse t.canonical = .ok { t with binary := t.binary.normalize } := by
  have hbinary : t.binary.Rooted := Path.rooted_iff.mpr ⟨h.absolute, h.normal⟩
  obtain ⟨hwritten, hfound⟩ := normalize_join_writtenBinary h.directory hbinary
  rw [parse_canonical h.mark (balanced_iff.mpr h.nested) h.comma h.arguments, if_neg hwritten,
    hfound]

/-- A target that was read from a text has a settled binary if its directory is absolute. -/
theorem settled_of_parse {text : String} (h : parse text = .ok t)
    (hdirectory : t.directory.isAbsolute = true) : t.binary.Settled := by
  obtain ⟨_, written, _, _, _, _, hbinary, _⟩ := parse_eq_ok_iff.mp h
  rw [hbinary]
  exact Path.settled_normalize (Path.isAbsolute_join hdirectory _)

/-- A target that was read from a text is readable if its directory is given from the root, without
steps up. -/
theorem readable_of_parse {text : String} (h : parse text = .ok t)
    (hdirectory : t.directory.Rooted) : t.Readable := by
  obtain ⟨hmark, hbalanced, hcomma, harguments⟩ := marks_of_parse h
  have hbinary := settled_of_parse h hdirectory.absolute
  obtain ⟨habsolute, hnormal⟩ := Path.rooted_iff.mp hbinary.rooted
  exact ⟨hdirectory, hmark, habsolute, hnormal, hcomma, harguments, balanced_iff.mp hbalanced⟩

/-- Reading undoes the canonical form of a readable target, with the binary in the plainest way that
leads to the same place. What is read from any text has what stands before the first `>` as its
directory. If that is given from the root, without steps up, the target is readable, and it is read
back from its canonical form unchanged. -/
theorem parse_canonical_of_readable :
    (∀ t : LaunchTarget, t.Readable →
      parse t.canonical = .ok { t with binary := t.binary.normalize } ∧
        t.binary.normalize.same t.binary = true) ∧
    ∀ (text : String) (t : LaunchTarget), parse text = .ok t →
      (∃ rest, text.toList = t.directory.text.toList ++ '>' :: rest ∧
        '>' ∉ t.directory.text.toList) ∧
      (t.directory.Rooted → t.Readable ∧ parse t.canonical = .ok t) := by
  refine ⟨fun t h => ⟨h.parse_eq, h.normal⟩, fun text t h => ⟨?_, fun hdirectory => ?_⟩⟩
  · obtain ⟨rest, _, _, hcut, _⟩ := parse_eq_ok_iff.mp h
    exact ⟨rest, Text.splitOnce?_eq_some_iff.mp hcut⟩
  · have hreadable := readable_of_parse h hdirectory
    -- The binary was normalized when it was read, so it stays as it is.
    have hbinary := (settled_of_parse h hdirectory.absolute).normal
    refine ⟨hreadable, ?_⟩
    rw [hreadable.parse_eq, hbinary]

/-- A program outside of the directory, with parentheses in its name and in its arguments, is read
back, and what was read is read back unchanged. -/
theorem parse_canonical_outside :
    let t : LaunchTarget := ⟨⟨"/opt//run (1)/."⟩, ⟨"/w/./app"⟩, ["f(x", "", "y)"]⟩
    let plain : LaunchTarget := { t with binary := ⟨"/opt/run (1)"⟩ }
    t.canonical = "/w/./app>../../opt/run (1)(f(x,,y))" ∧ parse t.canonical = .ok plain ∧
      plain.Readable ∧ parse plain.canonical = .ok plain := by
  intro t plain
  have hreadable : t.Readable :=
    { directory := ⟨by decide +kernel, by decide +kernel⟩
      mark := by decide
      absolute := by decide +kernel
      normal := by decide +kernel
      comma := by decide
      arguments := by decide
      nested := balanced_iff.mp (by decide +kernel) }
  have hplain : t.binary.normalize = ⟨"/opt/run (1)"⟩ := by decide +kernel
  obtain ⟨hback, hagain⟩ := parse_canonical_of_readable
  have hparse : parse t.canonical = .ok plain := by
    rw [(hback t hreadable).1, hplain]
  exact ⟨by decide +kernel, hparse, (hagain _ plain hparse).2 hreadable.directory⟩

end BuildTrace.LaunchTarget
