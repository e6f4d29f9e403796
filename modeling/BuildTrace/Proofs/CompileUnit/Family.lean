import BuildTrace.Proofs.CompileUnit.Version

/-!
# Families of compilers

The names of compilers are known in two places. The matcher puts decorations and versions around
the names it is given; the families look for their own names behind the last of some dashes. This
module says that the two agree: a compiler that is invoked by one of the default names, decorated in
any way, is of the clang family if it ends with a name of that family, and of the GNU family
otherwise. The names that are taken as a whole are left out, since they are of no family behind a
dash.

One decorated word may end with several names, as `x86_64-clang-cpp` does. Of two such names, one
ends with the other, so it is enough to compare the names with each other.

## Main definitions

* `Toolchain.EndsWithName`: a word that ends with a name, behind a dash if there is more in front;
* `Toolchain.endingFamily`: the family that the end of a word tells.

## Main results

* `Toolchain.recognize?_decorated`: the family of a decorated compiler;
* `CompileUnit.Extractor.extract_family`: the family of its compile units.
-/

namespace BuildTrace

open Tool (IsPlain IsTool IsDecoration IsVersion IsFileWord EndsInLetter executable)

/-! ## Names at the end -/

namespace Toolchain

/-- The word is the name, or ends with it behind a dash. -/
def EndsWithName (name word : List Char) : Prop := word = name ∨ '-' :: name <:+ word

instance (name word : List Char) : Decidable (EndsWithName name word) :=
  inferInstanceAs (Decidable (_ ∨ _))

variable {word name other : List Char} {names : List (List Char)}

/-- Of two names at the end of a word, one ends with the other. -/
theorem EndsWithName.total (h : EndsWithName name word) (h' : EndsWithName other word) :
    EndsWithName name other ∨ EndsWithName other name := by
  rcases h with rfl | h
  · exact .inr h'
  rcases h' with rfl | h'
  · exact .inl (.inr h)
  -- With the dashes in front, one of the two is at the end of the other.
  have hcons : ∀ {a b : List Char}, '-' :: a <:+ '-' :: b → EndsWithName a b := fun hab =>
    (List.suffix_cons_iff.mp hab).imp_left fun heq => (List.cons.inj heq).2.symm
  exact (List.suffix_or_suffix_of_suffix h h').imp hcons hcons

/-- Names in front of no version stand at the end. -/
theorem endsVersioned_iff_endsWithName (h : EndsInLetter word) :
    endsVersioned names word = true ↔ ∃ name ∈ names, EndsWithName name word := by
  rw [endsVersioned_iff]
  constructor
  · rintro ⟨front, name, hname, version, rfl, hversion, hfront⟩
    obtain rfl := h.eq_nil hversion
    refine ⟨name, hname, ?_⟩
    rcases hfront with rfl | ⟨before, rfl⟩
    · exact .inl (by simp)
    · exact .inr ⟨before, by simp⟩
  · rintro ⟨name, hname, rfl | ⟨before, rfl⟩⟩
    · exact ⟨[], word, hname, [], by simp, .none, .inl rfl⟩
    · exact ⟨before ++ ['-'], name, hname, [], by simp, .none, .inr ⟨before, rfl⟩⟩

/-! ## Families of decorated names -/

/-- The names at the end of the clang compilers that are looked for by default. -/
def clangEndings : List String :=
  ["clang", "clang++", "clang-cl", "clang-cpp", "armclang", "armclang-cpp"]

/-- The family that the end of a word tells: that of the clang compilers if it is one of their
names, and that of the GNU compilers otherwise. -/
def endingFamily (word : List Char) : Family :=
  if ∃ ending ∈ clangEndings, EndsWithName ending.toList word then .clang else .gcc

section Decorated

variable {front version : List Char} {name : String} {compiler : Path}
  (hfront : IsDecoration front) (hname : name ∈ Tool.defaultCompilers)

include hfront hname

/-- A decorated name stands at the end. -/
theorem endsWithName_smallWord : EndsWithName name.toList (smallWord front name) := by
  rw [smallWord_eq hfront hname]
  by_cases hne : front = []
  · subst hne
    exact .inl rfl
  · obtain ⟨before, hlower⟩ := hfront.exists_lower_concat hne
    exact .inr ⟨before, by simp [hlower]⟩

variable (hother : name ≠ "cl" ∧ name ≠ "icl")

include hother

/-- A decorated name is not one that is taken as a whole. -/
theorem smallWord_append_ne (hversion : IsVersion version) :
    smallWord front name ++ version ≠ "cl".toList ∧
      smallWord front name ++ version ≠ "icl".toList := by
  have hnames : ∀ name ∈ Tool.defaultCompilers, name ≠ "cl" ∧ name ≠ "icl" →
      ¬EndsWithName name.toList "cl".toList ∧ ¬EndsWithName name.toList "icl".toList := by
    decide
  have hnot := hnames name hname hother
  have hends := endsWithName_smallWord hfront hname
  -- What is taken as a whole ends with a letter, so there is no version behind it.
  have hbare : ∀ {whole}, EndsInLetter whole → smallWord front name ++ version = whole →
      smallWord front name = whole := by
    rintro whole hwhole rfl
    rw [hwhole.eq_nil hversion, List.append_nil]
  exact ⟨fun heq => hnot.1 (hbare (by decide) heq ▸ hends),
    fun heq => hnot.2 (hbare (by decide) heq ▸ hends)⟩

/-- Of the names of clang compilers, a decorated name ends with those of the default ones only. -/
theorem endsVersioned_clangNames_iff : endsVersioned clangNames (smallWord front name) = true ↔
    ∃ ending ∈ clangEndings, EndsWithName ending.toList (smallWord front name) := by
  rw [endsVersioned_iff_endsWithName (endsInLetter_smallWord hfront hname)]
  constructor
  · rintro ⟨clang, hclang, hends⟩
    -- The default name is at the end, too, so it is enough to compare the names.
    have hnames : ∀ name ∈ Tool.defaultCompilers, name ≠ "cl" ∧ name ≠ "icl" →
        ∀ clang ∈ clangNames, EndsWithName clang name.toList ∨ EndsWithName name.toList clang →
          clang ∈ clangEndings.map String.toList := by
      decide
    obtain ⟨ending, hending, rfl⟩ := List.mem_map.mp (hnames name hname hother clang hclang
      (hends.total (endsWithName_smallWord hfront hname)))
    exact ⟨ending, hending, hends⟩
  · rintro ⟨ending, hending, hends⟩
    have hsubset : ∀ ending ∈ clangEndings, ending.toList ∈ clangNames := by decide
    exact ⟨_, hsubset ending hending, hends⟩

/-- The other default names are those of GNU compilers. -/
theorem endsVersioned_gccNames
    (h : ¬∃ ending ∈ clangEndings, EndsWithName ending.toList (smallWord front name)) :
    endsVersioned gccNames (smallWord front name) = true := by
  have hends := endsWithName_smallWord hfront hname
  have hnames : ∀ name ∈ Tool.defaultCompilers, name ≠ "cl" ∧ name ≠ "icl" →
      name ∈ clangEndings ∨ name.toList ∈ gccNames := by
    decide
  rw [endsVersioned_iff_endsWithName (endsInLetter_smallWord hfront hname)]
  exact ⟨_, (hnames name hname hother).resolve_left fun hclang => h ⟨name, hclang, hends⟩, hends⟩

/-- A decorated compiler is of the family that its end tells, whatever its version is. -/
theorem recognize?_decorated (hversion : IsVersion version)
    (hcompiler : executableName? compiler = some (smallWord front name ++ version)) :
    recognize? compiler = some (endingFamily (smallWord front name)) := by
  -- A version is allowed by both families.
  have hversioned : ∀ names ⊆ clangNames ++ gccNames,
      endsVersioned names (smallWord front name ++ version)
        = endsVersioned names (smallWord front name) := fun names hnames =>
    endsVersioned_append (endsInLetter_smallWord hfront hname)
      (fun name hname => endsInLetter_of_mem (hnames hname)) hversion
  rw [recognize?, hcompiler]
  simp only [if_neg (not_or.mpr (smallWord_append_ne hfront hname hother hversion)),
    hversioned _ (List.subset_append_left _ _), hversioned _ (List.subset_append_right _ _)]
  rw [endingFamily]
  split
  next hclang =>
    rw [if_pos ((endsVersioned_clangNames_iff hfront hname hother).mp hclang)]
  next hclang =>
    rw [endsVersioned_clangNames_iff hfront hname hother] at hclang
    rw [if_pos (endsVersioned_gccNames hfront hname hother hclang), if_neg hclang]

end Decorated

/-- A family that is known is that of the mode. -/
theorem family_modeOf {compiler : Path} {family : Family} (h : recognize? compiler = some family)
    (given : Option Architecture) : (modeOf compiler given).family = family := by
  rw [modeOf, h]

end Toolchain

/-! ## Units -/

namespace CompileUnit.Extractor

variable {ω : Type} {e : Extractor ω} {line : String} {base : Path} {w : ω} {i : Tool.Invocation}

/-- The file name of the compiler is that of the invocation, if the search finds it by its name. -/
theorem fileName?_compiler {n : String} (hn : Path.IsName n) (hfull : i.fullPath.fileName? = some n)
    (hlookup : ∀ found, (e.lookup n w).1 = some found → found.fileName? = some n) :
    (e.compiler i w).1.fileName? = some n := by
  have hname : i.fileName = n := by rw [Tool.Invocation.fileName, hfull, Option.getD_some]
  rw [compiler]
  split
  · exact hfull
  · rw [hname]
    cases hsearch : (e.lookup n w).1 with
    | none => simpa [hsearch] using Path.fileName?_of_isName hn
    | some found => simpa [hsearch] using hlookup found hsearch

/-- The units of a line have its compiler. -/
theorem compiler_of_mem_extract {u : CompileUnit}
    (hi : e.compilers.invocation? e.isFile line base = some i)
    (h : u ∈ (e.extract line base w).1) : u.compiler = (e.compiler i w).1 := by
  rw [fst_extract hi] at h
  obtain ⟨group, -, rfl⟩ := List.mem_map.mp h
  rfl

/-- What a bare word of the grammar invokes is known by its file name. -/
theorem exists_invocation?_of_isTool {names : List String} {extension : String}
    {word blanks rest : List Char} {b : Char}
    (hnames : ∀ name ∈ names, name ≠ "" ∧ ∀ c ∈ name.toList, IsPlain c)
    (hextension : extension = "" ∨ extension = "exe")
    (hcompilers : e.compilers = .ofNames names true extension) (hfile : IsFileWord word)
    (hword : IsTool (names.map String.toList) true word)
    (hblanks : ∀ c ∈ blanks, Text.isBlank c = true) (hb : Text.isBlank b = true)
    (hrest : '\n' ∉ rest) (base : Path) :
    ∃ i, e.compilers.invocation? e.isFile (String.ofList (blanks ++ word ++ b :: rest)) base
        = some i ∧ i.fullPath.fileName? = some (String.ofList (executable extension word)) := by
  have harguments : Tool.Matcher.arguments? (b :: rest) = some (rest.dropWhile Tool.isGap) :=
    Tool.Matcher.arguments?_eq_some_iff.mpr ⟨b, rest, rfl, by simp [Tool.isGap, hb], rfl,
      fun h => hrest ((List.dropWhile_sublist _).mem h)⟩
  obtain ⟨hname, hchars⟩ := hfile.isName_executable hextension
  have hfull := Path.fileName?_resolve hname (by simpa using hchars) base
  rw [hcompilers, Tool.Matcher.invocation?_of_isTool hextension hfile hnames hword e.isFile base
    hblanks hb, harguments, Option.map_some]
  refine ⟨_, rfl, ?_⟩
  dsimp only
  exact hfull

/-- A line whose command is a default compiler, decorated and with a version or not, invokes it, and
the compiler is of the family that the end of its name tells. So are the units of the line, if the
search for the compiler finds it by its file name. -/
theorem extract_family {names : List String} {extension : String} {front version : List Char}
    {name : String} {blanks rest : List Char} {b : Char}
    (hnames : ∀ name ∈ names, name ≠ "" ∧ ∀ c ∈ name.toList, IsPlain c)
    (hextension : extension = "" ∨ extension = "exe")
    (hcompilers : e.compilers = .ofNames names true extension) (hfront : IsDecoration front)
    (hname : name ∈ Tool.defaultCompilers) (hother : name ≠ "cl" ∧ name ≠ "icl")
    (hmem : name ∈ names) (hversion : IsVersion version)
    (hblanks : ∀ c ∈ blanks, Text.isBlank c = true) (hb : Text.isBlank b = true)
    (hrest : '\n' ∉ rest) (base : Path) (w : ω) :
    let line := String.ofList (blanks ++ (front ++ name.toList ++ version) ++ b :: rest)
    let family := Toolchain.endingFamily (Text.lower (front ++ name.toList))
    ∃ i, e.compilers.invocation? e.isFile line base = some i ∧
      Toolchain.recognize? i.fullPath = some family ∧
      ((∀ found, (e.lookup i.fileName w).1 = some found → found.fileName? = some i.fileName) →
        ∀ u ∈ (e.extract line base w).1,
          Toolchain.recognize? u.compiler = some family ∧ u.mode.family = family) := by
  intro line family
  have hword : IsTool (names.map String.toList) true (front ++ name.toList ++ version) :=
    ⟨front, name.toList, List.mem_map_of_mem hmem, version, rfl, hfront, hversion⟩
  have hfile : IsFileWord (front ++ name.toList ++ version) := by
    cases hversion with
    | none => simpa using Tool.isFileWord_compiler hfront hname
    | dash _ hdigits => exact Tool.isFileWord_version hfront hname hdigits
  have hunfound : Toolchain.executableName?
      (Toolchain.unfound extension (front ++ name.toList ++ version))
        = some (Toolchain.smallWord front name ++ version) := by
    cases hversion with
    | none => simpa using Toolchain.executableName?_compiler hfront hname hextension
    | dash _ hdigits => exact Toolchain.executableName?_version hfront hname hdigits hextension
  have hlower : Text.lower (front ++ name.toList) = Toolchain.smallWord front name :=
    (Tool.isFileWord_compiler hfront hname).lower_eq
  have hisName := (hfile.isName_executable hextension).1
  -- Wherever the executable is, its family is told by its file name.
  have hfamily : ∀ compiler : Path, compiler.fileName?
        = some (String.ofList (executable extension (front ++ name.toList ++ version))) →
      Toolchain.recognize? compiler = some family := by
    intro compiler hcompiler
    rw [Toolchain.executableName?, Toolchain.unfound, Path.fileName?_of_isName hisName,
      ← hcompiler] at hunfound
    simp only [family, hlower]
    exact Toolchain.recognize?_decorated hfront hname hother hversion hunfound
  obtain ⟨i, hi, hfull⟩ := exists_invocation?_of_isTool hnames hextension hcompilers hfile hword
    hblanks hb hrest base
  refine ⟨i, hi, hfamily _ hfull, fun hlookup u hu => ?_⟩
  rw [Tool.Invocation.fileName, hfull, Option.getD_some] at hlookup
  have hcompiler := hfamily _ (fileName?_compiler hisName hfull hlookup)
  exact ⟨compiler_of_mem_extract hi hu ▸ hcompiler,
    mode_of_mem_extract hi hu ▸ Toolchain.family_modeOf hcompiler _⟩

/-- A cross compiler whose name ends with those of a clang compiler and of a GNU compiler is of the
clang family. -/
theorem extract_family_cross :
    (IsDecoration "x86_64-CLANG-".toList ∧ "cpp" ∈ Tool.defaultCompilers ∧
        IsVersion "-15.0".toList) ∧
      ∃ i, known.compilers.invocation? known.isFile "x86_64-CLANG-cpp-15.0 -c a.c" ⟨"/w"⟩ = some i ∧
        Toolchain.recognize? i.fullPath = some .clang ∧
        (known.extract "x86_64-CLANG-cpp-15.0 -c a.c" ⟨"/w"⟩ ()).1.length = 1 ∧
        ∀ u ∈ (known.extract "x86_64-CLANG-cpp-15.0 -c a.c" ⟨"/w"⟩ ()).1,
          Toolchain.recognize? u.compiler = some .clang ∧ u.mode.family = .clang := by
  have hfront : IsDecoration "x86_64-CLANG-".toList :=
    @IsDecoration.group "x86_64".toList "CLANG-".toList (List.all_eq_true.mp (by decide))
      (@IsDecoration.group "CLANG".toList [] (List.all_eq_true.mp (by decide)) .none)
  have hversion : IsVersion "-15.0".toList :=
    @IsVersion.dash "15.0".toList (by decide) (List.all_eq_true.mp (by decide))
  have hplain : ∀ name ∈ Tool.defaultCompilers, name ≠ "" ∧
      (name.toList.all fun c => decide (IsPlain c)) = true := by decide
  have hnames : ∀ name ∈ Tool.defaultCompilers, name ≠ "" ∧ ∀ c ∈ name.toList, IsPlain c :=
    fun name hname => (hplain name hname).imp_right List.all_iff_forall_prop.mp
  have hname : "cpp" ∈ Tool.defaultCompilers := by decide
  have hcompilers : known.compilers = .ofNames Tool.defaultCompilers true := rfl
  obtain ⟨i, hi, hfamily, hunits⟩ := extract_family hnames (.inl rfl) hcompilers hfront hname
    (by decide) hname hversion (List.forall_mem_nil _) (by decide : Text.isBlank ' ' = true)
    (by decide : '\n' ∉ "-c a.c".toList) ⟨"/w"⟩ ()
  have hclang : Toolchain.endingFamily (Text.lower ("x86_64-CLANG-".toList ++ "cpp".toList))
      = .clang := by
    decide
  rw [hclang] at hfamily hunits
  exact ⟨⟨hfront, hname, hversion⟩, i, hi, hfamily, by decide, hunits fun _ => nofun⟩

/-- The preprocessor that belongs to `armclang` is of the clang family, too, though its name is not
among the default ones, and does not end with another name of that family. -/
theorem recognize?_armclang_cpp :
    (IsDecoration "armclang-".toList ∧ "cpp" ∈ Tool.defaultCompilers) ∧
      (known.compilers.invocation? known.isFile "armclang-cpp -c a.c" ⟨"/w"⟩).map
          Tool.Invocation.fullPath = some ⟨"/w/armclang-cpp"⟩ ∧
      Toolchain.recognize? ⟨"/w/armclang-cpp"⟩ = some .clang ∧
      ∀ ending ∈ ["clang", "clang++", "clang-cl", "clang-cpp", "armclang"],
        ¬Toolchain.EndsWithName ending.toList (Text.lower "armclang-cpp".toList) := by
  have hfront : IsDecoration "armclang-".toList :=
    @IsDecoration.group "armclang".toList [] (List.all_eq_true.mp (by decide)) .none
  refine ⟨⟨hfront, by decide⟩, ?_⟩
  decide

end CompileUnit.Extractor

end BuildTrace
