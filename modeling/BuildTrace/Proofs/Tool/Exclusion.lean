import BuildTrace.LaunchTarget.Extraction
import BuildTrace.Proofs.CompileUnit.Standard
import BuildTrace.Proofs.Tool.Grammar
import BuildTrace.Tool.Set

/-!
# Excluded tools

The names that are excluded are not among those that are looked for. But a name that is looked for
is recognized with decorations in front of it and a version behind it, too, and an excluded name may
be such a form of another one: `clang-cl` is a decorated `cl`. This module says that there is no
other way for an excluded name to be recognized, and which of the known names are concerned.

## Main definitions

* `Tool.Passes`: the lines that can be read as invocations of a name.

## Main results

* `ToolSet.recognized_excluded`: which commands with an excluded name are recognized;
* `Tool.isTool_known_iff`: the known names that are forms of other known names.
-/

namespace BuildTrace

namespace Tool

/-- The word is the name with decorations and a version, and maybe with the extension of executables
behind it. -/
def IsForm (extension : String) (name word : List Char) : Prop :=
  IsTool [name] true word ∨
    extension ≠ "" ∧ ∃ stem, word = stem ++ '.' :: extension.toList ∧ IsTool [name] true stem

/-- A word and what is behind it can be read as an invocation of the given name. White space around
the name is no part of it. -/
def Passes (extension given : String) (word behind : List Char) : Prop :=
  Text.trim given.toList ≠ [] ∧ ∃ taken rest, word ++ behind = taken ++ rest ∧
    IsForm extension (Text.trim given.toList) taken ∧ (Matcher.arguments? rest).isSome = true

variable {names : List (List Char)} {decorated : Bool} {word : List Char}

/-- A word is a form of some name if it is a form of one of them. -/
theorem isTool_iff_exists :
    IsTool names decorated word ↔ ∃ name ∈ names, IsTool [name] decorated word := by
  simp only [IsTool, List.mem_singleton]
  constructor
  · rintro ⟨front, name, hname, version, h⟩
    exact ⟨name, hname, front, name, rfl, version, h⟩
  · rintro ⟨_, hname, front, name, rfl, version, h⟩
    exact ⟨front, name, hname, version, h⟩

instance : Decidable (IsTool names decorated word) :=
  decidable_of_iff ((word, []) ∈ Matcher.tools { names, decorated } word)
    (by simp [Matcher.mem_tools_iff])

/-- Of the known names, these are forms of others. -/
theorem isTool_known_iff :
    ∀ name ∈ defaultCompilers ++ defaultLinkers, ∀ other ∈ defaultCompilers ++ defaultLinkers,
      (other ≠ name ∧ IsTool [other.toList] true name.toList ↔
        (name, other) ∈ [("clang-cl", "cl"), ("clang-cpp", "cpp"), ("lld-link", "link")]) := by
  decide

/-- What can be read behind a word that is taken begins with a gap. -/
theorem exists_gap_of_isSome_arguments? {rest : List Char}
    (h : (Matcher.arguments? rest).isSome = true) :
    ∃ gap more, rest = gap :: more ∧ ¬IsPlain gap := by
  obtain ⟨arguments, harguments⟩ := Option.isSome_iff_exists.mp h
  obtain ⟨gap, more, rfl, hgap, -⟩ := Matcher.arguments?_eq_some_iff.mp harguments
  exact ⟨gap, more, rfl, Matcher.not_isPlain_of_isGap hgap⟩

/-- Nothing is read from a word with nothing behind it. -/
theorem not_passes_nil {extension given : String} (hword : ∀ c ∈ word, IsPlain c) :
    ¬Passes extension given word [] := by
  rintro ⟨-, taken, rest, hread, -, harguments⟩
  obtain ⟨gap, rest, rfl, hgap⟩ := exists_gap_of_isSome_arguments? harguments
  have hmem : gap ∈ word ++ [] := hread ▸ List.mem_append_right _ List.mem_cons_self
  exact hgap (hword gap (by simpa using hmem))

/-- What is put around a plain name is plain. -/
theorem IsForm.isPlain {extension : String} {name : List Char}
    (hextension : ∀ c ∈ extension.toList, IsPlain c) (hname : ∀ c ∈ name, IsPlain c)
    (h : IsForm extension name word) : ∀ c ∈ word, IsPlain c := by
  have htool : ∀ {stem}, IsTool [name] true stem → ∀ c ∈ stem, IsPlain c := fun htool =>
    htool.forall_mem (fun _ hc => hc) (by simpa using hname)
  rcases h with h | ⟨-, stem, rfl, h⟩
  · exact htool h
  · exact List.forall_mem_append.mpr
      ⟨htool h, List.forall_mem_cons.mpr ⟨by decide, hextension⟩⟩

/-- A plain name can be read from a whole word only. -/
theorem passes_iff_of_isPlain {extension given : String} {b : Char} {rest : List Char}
    (hextension : ∀ c ∈ extension.toList, IsPlain c) (hne : given ≠ "")
    (hgiven : ∀ c ∈ given.toList, IsPlain c) (hword : ∀ c ∈ word, IsPlain c)
    (hb : Text.isBlank b = true) :
    Passes extension given word (b :: rest) ↔
      IsForm extension given.toList word ∧ (Matcher.arguments? (b :: rest)).isSome = true := by
  have htrim : Text.trim given.toList = given.toList :=
    Text.trim_eq_self_of_forall fun c hc => (hgiven c hc).1
  rw [Passes, htrim]
  constructor
  · rintro ⟨-, taken, rest', hread, hform, harguments⟩
    obtain ⟨gap, rest', rfl, hgap⟩ := exists_gap_of_isSome_arguments? harguments
    have hgapBlank := Matcher.not_isPlain_of_isGap (Matcher.isGap_of_isBlank hb)
    -- Both are cut at the first character that is not plain.
    obtain rfl : word = taken :=
      Matcher.eq_of_append_cons_eq hword hgapBlank (hform.isPlain hextension hgiven) hgap hread
    rw [List.append_cancel_left hread]
    exact ⟨hform, harguments⟩
  · rintro ⟨hform, harguments⟩
    exact ⟨by simpa using hne, word, b :: rest, rfl, hform, harguments⟩

namespace Matcher

variable {m : Matcher} {blanks behind : List Char}

/-- There is no directory in a bare word. -/
theorem slashes_eq_nil (hword : ∀ c ∈ word, IsPlain c) : slashes false word = [] := by
  induction word with
  | nil => rfl
  | cons c word ih =>
    obtain ⟨⟨hblank, hquote, hslash⟩, hword⟩ := List.forall_mem_cons.mp hword
    simp [slashes, hquote, hblank, hslash, ih hword]

/-- A bare word with nothing behind it is no command. -/
theorem command?_bare_eq_none (hblanks : ∀ c ∈ blanks, Text.isBlank c = true) (hne : word ≠ [])
    (hword : ∀ c ∈ word, IsPlain c) : m.command? (blanks ++ word) = none := by
  obtain ⟨c, tail, rfl⟩ := List.exists_cons_of_ne_nil hne
  obtain ⟨⟨hblank, hquote, -⟩, -⟩ := List.forall_mem_cons.mp hword
  have hstart : Text.trimStart (blanks ++ c :: tail) = c :: tail := by
    rw [Text.trimStart_append_of_forall hblanks, Text.trimStart_cons_of_false hblank]
  have hread : m.afterDirectory? [] ([], c :: tail) = none := by
    rw [← Option.not_isSome_iff_eq_none, isSome_afterDirectory?_iff]
    rintro ⟨name, hasExtension, rest, hcut, -, -, harguments⟩
    obtain ⟨gap, rest, rfl, hgap⟩ := exists_gap_of_isSome_arguments? harguments
    dsimp only at hcut
    have hmem : gap ∈ c :: tail := hcut ▸ List.mem_append_right _ List.mem_cons_self
    exact hgap (hword gap hmem)
  simp only [command?, hstart, slashes_eq_nil hword]
  split
  next heq => exact absurd (List.cons.inj heq).1 hquote
  next => simp [hread]

/-- What a matcher takes is a form of one of the given names. -/
theorem exists_ending_ofNames_iff {names : List String} {extension : String} {taken : List Char} :
    (∃ name hasExtension, taken = name ++ (ofNames names true extension).ending hasExtension ∧
        IsTool (ofNames names true extension).names true name ∧
        ((ofNames names true extension).extension = [] → hasExtension = true)) ↔
      ∃ given ∈ names, Text.trim given.toList ≠ [] ∧
        IsForm extension (Text.trim given.toList) taken := by
  -- The matcher keeps the extension as a list of characters.
  have hempty : (ofNames names true extension).extension ≠ [] ↔ extension ≠ "" :=
    String.toList_eq_nil_iff.not
  have htool : ∀ stem, IsTool (ofNames names true extension).names true stem ↔
      ∃ given ∈ names, Text.trim given.toList ≠ [] ∧
        IsTool [Text.trim given.toList] true stem := by
    intro stem
    rw [isTool_iff_exists]
    constructor
    · rintro ⟨name, hname, h⟩
      obtain ⟨hne, given, hgiven, rfl⟩ := mem_names_ofNames.mp hname
      exact ⟨given, hgiven, hne, h⟩
    · rintro ⟨given, hgiven, hne, h⟩
      exact ⟨_, mem_names_ofNames.mpr ⟨hne, given, hgiven, rfl⟩, h⟩
  rw [exists_ending_iff, hempty]
  simp only [htool, IsForm]
  constructor
  · rintro (⟨given, hgiven, hne, h⟩ | ⟨hdot, stem, hstem, given, hgiven, hne, h⟩)
    · exact ⟨given, hgiven, hne, .inl h⟩
    · exact ⟨given, hgiven, hne, .inr ⟨hdot, stem, hstem, h⟩⟩
  · rintro ⟨given, hgiven, hne, h | ⟨hdot, stem, hstem, h⟩⟩
    · exact .inl ⟨given, hgiven, hne, h⟩
    · exact .inr ⟨hdot, stem, hstem, given, hgiven, hne, h⟩

/-- The lines that are recognized can be read as invocations of one of the given names. -/
theorem isSome_invocation?_ofNames (names : List String) (extension : String)
    (isFile : Path → Bool) (base : Path) (hblanks : ∀ c ∈ blanks, Text.isBlank c = true)
    (hne : word ≠ []) (hword : ∀ c ∈ word, IsPlain c)
    (hbehind : ∀ c ∈ behind.head?, Text.isBlank c = true) :
    ((ofNames names true extension).invocation? isFile
        (String.ofList (blanks ++ word ++ behind)) base).isSome = true ↔
      ∃ given ∈ names, Passes extension given word behind := by
  cases behind with
  | nil =>
    have hnone := command?_bare_eq_none (m := ofNames names true extension) hblanks hne hword
    simp [invocation?, hnone, not_passes_nil hword]
  | cons b rest =>
    rw [invocation?_of_isPlain hblanks hne hword (hbehind b rfl), Option.isSome_map,
      command?_of_isPlain hblanks hne hword (hbehind b rfl), isSome_afterDirectory?_iff]
    simp only [List.append_nil]
    constructor
    · rintro ⟨name, hasExtension, rest', hread, hname, hflag, harguments⟩
      obtain ⟨given, hgiven, hne, hform⟩ :=
        exists_ending_ofNames_iff.mp ⟨name, hasExtension, rfl, hname, hflag⟩
      exact ⟨given, hgiven, hne, _, rest', hread, hform, harguments⟩
    · rintro ⟨given, hgiven, hne, taken, rest', hread, hform, harguments⟩
      obtain ⟨name, hasExtension, rfl, hname, hflag⟩ :=
        exists_ending_ofNames_iff.mpr ⟨given, hgiven, hne, hform⟩
      exact ⟨name, hasExtension, rest', hread, hname, hflag, harguments⟩

end Matcher

end Tool

namespace ToolSet

open Tool (IsPlain IsForm Passes Matcher)

/-- What is excluded is in neither list. -/
theorem not_mem_keep {names exclude : List String} {name : String} (h : name ∈ exclude) :
    name ∉ keep names exclude := by
  rw [keep, List.mem_eraseDups, List.mem_filter]
  simp [h]

variable {ω : Type}

/-- A line that begins with an excluded name is recognized only as an invocation of another name
that is left, of which the excluded one is a form: where there is none, the line gives no compile
unit and no binary. If the other name is plain, it is read from the whole word. -/
theorem recognized_excluded (compilers linkers exclude : List String) (extension : String)
    (isFile : Path → Bool) (base root : Path) (blanks word behind : List Char)
    (hblanks : ∀ c ∈ blanks, Text.isBlank c = true) (hne : word ≠ [])
    (hword : ∀ c ∈ word, IsPlain c) (hbehind : ∀ c ∈ behind.head?, Text.isBlank c = true)
    (hexcluded : String.ofList word ∈ exclude) :
    let tools := extend compilers linkers exclude
    let line := String.ofList (blanks ++ word ++ behind)
    (∀ names ∈ [tools.compilers, tools.linkers],
        (((Matcher.ofNames names true extension).invocation? isFile line base).isSome = true ↔
          ∃ given ∈ names, given ≠ String.ofList word ∧ Passes extension given word behind)) ∧
      ((∀ given ∈ tools.compilers, ¬Passes extension given word behind) →
        ∀ e : CompileUnit.Extractor ω, e.compilers = .ofNames tools.compilers true extension →
          ∀ w, e.extract line base w = ([], w)) ∧
      ((∀ given ∈ tools.compilers ++ tools.linkers, ¬Passes extension given word behind) →
        (LaunchTarget.Extractor.ofTools tools isFile root extension).binaryOf? line base = none) ∧
      ((∀ c ∈ extension.toList, IsPlain c) → ∀ given, given ≠ "" →
        (∀ c ∈ given.toList, IsPlain c) → Passes extension given word behind →
          IsForm extension given.toList word) := by
  intro tools line
  have hrecognized := fun names isFile => Matcher.isSome_invocation?_ofNames names extension isFile
    base hblanks hne hword hbehind
  -- Where no name passes, nothing is recognized.
  have hnone : ∀ {names} isFile, (∀ given ∈ names, ¬Passes extension given word behind) →
      (Matcher.ofNames names true extension).invocation? isFile line base = none := by
    intro names isFile hnames
    rw [← Option.not_isSome_iff_eq_none, hrecognized]
    rintro ⟨given, hgiven, hpasses⟩
    exact hnames given hgiven hpasses
  refine ⟨fun names hnames => ?_, fun h e he w => ?_, fun h => ?_, ?_⟩
  · rw [hrecognized]
    have hleft : String.ofList word ∉ names := by
      simp only [List.mem_cons, List.not_mem_nil, or_false] at hnames
      rcases hnames with rfl | rfl <;> exact not_mem_keep hexcluded
    constructor
    · rintro ⟨given, hgiven, hpasses⟩
      exact ⟨given, hgiven, fun heq => hleft (heq ▸ hgiven), hpasses⟩
    · rintro ⟨given, hgiven, -, hpasses⟩
      exact ⟨given, hgiven, hpasses⟩
  · rw [CompileUnit.Extractor.extract, he, hnone e.isFile h]
  · obtain ⟨hcompilers, hlinkers⟩ := List.forall_mem_append.mp h
    simp only [LaunchTarget.Extractor.binaryOf?, LaunchTarget.Extractor.ofTools,
      hnone isFile hcompilers, hnone isFile hlinkers]
    rfl
  · intro hextension given hgivenNe hgiven hpasses
    cases behind with
    | nil => exact absurd hpasses (Tool.not_passes_nil hword)
    | cons b rest =>
      exact ((Tool.passes_iff_of_isPlain hextension hgivenNe hgiven hword (hbehind b rfl)).mp
        hpasses).1

/-- The extraction with the known compilers that are not excluded, none of which is looked for. -/
def extractorWithout (exclude : List String) : CompileUnit.Extractor Unit :=
  { CompileUnit.Extractor.plain with compilers := .ofNames (extend [] [] exclude).compilers true }

/-- Without `cl`, there is no other name of which `clang-cl` is a form. -/
theorem recognized_excluded_both :
    let exclude := ["cl", "clang-cl"]
    let word := "clang-cl".toList
    let behind := " -c a.c".toList
    ((∀ c ∈ word, IsPlain c) ∧ (∀ c ∈ behind.head?, Text.isBlank c = true) ∧
        String.ofList word ∈ exclude ∧
        ∀ given ∈ (extend [] [] exclude).compilers, ¬Passes "" given word behind) ∧
      (extractorWithout exclude).extract "clang-cl -c a.c" ⟨"/w"⟩ () = ([], ()) := by
  intro exclude word behind
  have hword : ∀ c ∈ word, IsPlain c := List.all_iff_forall_prop.mp (by decide)
  have hbehind : ∀ c ∈ behind.head?, Text.isBlank c = true := by
    rintro c ⟨⟩
    decide
  have hexcluded : String.ofList word ∈ exclude := by decide
  have hnames : ∀ given ∈ (extend [] [] exclude).compilers,
      given ≠ "" ∧ (given.toList.all (IsPlain ·)) = true ∧
        ¬Tool.IsTool [given.toList] true word := by
    decide
  have hpasses : ∀ given ∈ (extend [] [] exclude).compilers, ¬Passes "" given word behind := by
    intro given hgiven hpasses
    obtain ⟨hne, hplain, hform⟩ := hnames given hgiven
    rcases ((Tool.passes_iff_of_isPlain (List.forall_mem_nil _) hne
      (List.all_iff_forall_prop.mp hplain) hword (by decide)).mp hpasses).1 with h | ⟨h, -⟩
    · exact hform h
    · exact h rfl
  obtain ⟨-, hunits, -⟩ := recognized_excluded (ω := Unit) [] [] exclude "" (fun _ => false)
    ⟨"/w"⟩ ⟨"/w"⟩ [] word behind (List.forall_mem_nil _) (by decide) hword hbehind hexcluded
  exact ⟨⟨hword, hbehind, hexcluded, hpasses⟩, hunits hpasses (extractorWithout exclude) rfl ()⟩

/-- With `cl`, an excluded `clang-cl` gives a unit. -/
theorem extract_excluded_decorated :
    "clang-cl" ∉ (extend [] [] ["clang-cl"]).compilers ∧
      ((extractorWithout ["clang-cl"]).extract "clang-cl -c a.c" ⟨"/w"⟩ ()).1.map
        (fun u => (u.compiler, u.sources)) = [(⟨"clang-cl"⟩, [⟨"/w/a.c"⟩])] := by
  decide

end ToolSet

end BuildTrace
