import BuildTrace.Proofs.CompileUnit.Standard
import BuildTrace.Proofs.Path.Extension
import Mathlib.Data.List.Nodup

/-!
# The sources of compile units

The sources of an invocation are divided among its units by their languages: no source is lost that
has one, none is in two units, and each unit has its sources in the order of the line. What decides
is the last switch that says anything of the language; if that forces none, it is the extension.

## Main definitions

* `CompileUnit.languageDecision?`: what a switch says of the language;
* `CompileUnit.sourceLanguage?`: the language of a source of an invocation.

## Main results

* `CompileUnit.forcedLanguage?_eq`: the last switch that decides is the one that counts;
* `Language.ofPath?_resolve_eq_none_iff`: the sources without a language are those without an
  extension;
* `CompileUnit.groupByLanguage_eq`: the groups of files;
* `CompileUnit.Extractor.sources_extract`: how the sources are divided among the units.
-/

namespace BuildTrace

/-! ## The languages of sources -/

namespace Language

/-- The extensions of sources are extensions, and small. -/
theorem isExtension_of_mem_sourceExtensions {extension : String}
    (h : extension ∈ sourceExtensions) :
    Path.IsExtension extension.toList ∧ Text.lower extension.toList = extension.toList ∧
      ∀ c ∈ extension.toList, Text.IsPlain c := by
  have hall : ∀ extension ∈ sourceExtensions,
      extension.toList ≠ [] ∧ Text.lower extension.toList = extension.toList ∧
        (extension.toList.all fun c => decide
          ((Text.isBlank c = false ∧ c ∉ ['.', '/', '"', '\'']) ∧ Text.IsPlain c)) = true := by
    decide
  obtain ⟨hne, hsmall, hall⟩ := hall extension h
  have hchars := fun c hc => of_decide_eq_true (List.all_eq_true.mp hall c hc)
  exact ⟨⟨hne, fun c hc => (hchars c hc).1⟩, hsmall, fun c hc => (hchars c hc).2⟩

/-- An extension of sources has a language, in any case. -/
theorem isSome_ofExtension? {tail : List Char}
    (h : String.ofList (tail.map Char.toLower) ∈ sourceExtensions) :
    (ofExtension? (String.ofList tail)).isSome = true := by
  have hascii : ∀ c ∈ tail, c.toNat < 128 := by
    intro c hc
    refine Text.toNat_lt_of_toLower ((isExtension_of_mem_sourceExtensions h).2.2 _ ?_).1
    rw [String.toList_ofList]
    exact List.mem_map_of_mem hc
  rw [ofExtension?]
  split
  · rfl
  · rw [String.toList_ofList, Text.lower_of_forall hascii]
    generalize String.ofList (tail.map Char.toLower) = small at h
    revert small
    decide

end Language

/-- What is taken for a source ends with an extension of sources, in any case. -/
theorem Switch.exists_extension_of_mem_files {style : Style} {arguments file : String}
    (h : file ∈ files style arguments Language.sourceExtensions) :
    ∃ front tail, file.toList = front ++ '.' :: tail ∧
      String.ofList (tail.map Char.toLower) ∈ Language.sourceExtensions := by
  obtain ⟨text, htext, rfl⟩ := List.mem_map.mp h
  obtain ⟨ending, hending, hends⟩ := List.any_eq_true.mp (List.mem_filter.mp htext).2
  obtain ⟨extension, hextension, rfl⟩ := List.mem_map.mp hending
  obtain ⟨-, hsmall, hplain⟩ := Language.isExtension_of_mem_sourceExtensions hextension
  rw [hsmall, Bool.and_eq_true, Text.endsWith_iff] at hends
  obtain ⟨front, rest, rfl, hrest⟩ := Text.exists_of_suffix_lower hends.1
    (List.forall_mem_cons.mpr ⟨by decide, hplain⟩)
  obtain ⟨dot, tail, rfl, hdot, htail⟩ := List.map_eq_cons_iff.mp hrest
  -- The dot is no letter, so it is the same in the file.
  obtain rfl : dot = '.' := by
    rcases Text.toLower_cases dot with hsame | ⟨-, halpha⟩
    · rw [← hsame, hdot]
    · rw [hdot] at halpha
      exact absurd halpha (by decide)
  exact ⟨front, tail, String.toList_ofList, by rwa [htail, String.ofList_toList]⟩

/-- A source has no language by its extension only if its path has no extension. -/
theorem Language.ofPath?_resolve_eq_none_iff {style : Switch.Style} {arguments file : String}
    (h : file ∈ Switch.files style arguments sourceExtensions) (base : Path) :
    ofPath? (Path.resolve file base) = none ↔ (Path.resolve file base).extension? = none := by
  obtain ⟨front, tail, hfile, htail⟩ := Switch.exists_extension_of_mem_files h
  have hextension := (isExtension_of_mem_sourceExtensions htail).1
  rw [String.toList_ofList] at hextension
  rw [ofPath?]
  rcases Path.extension?_resolve hextension.of_map_toLower hfile base with hnone | hsome
  · simp [hnone]
  · have hlanguage := Option.isSome_iff_ne_none.mp (isSome_ofExtension? htail)
    simp [hsome, hlanguage]

namespace CompileUnit

/-! ## The language the switches force -/

/-- What a switch says of the language: a language is forced, or none is forced any more. Other
switches say nothing. -/
def languageDecision? (switch : Switch) : Option (Option Language) :=
  if switch.name = "TC" then some (some .c)
  else if switch.name = "TP" then some (some .cpp)
  else
    match switch.value with
    | some "c" | some "c-header" => some (some .c)
    | some "c++" | some "c++-header" => some (some .cpp)
    | some "none" => some none
    | _ => none

/-- What a switch decides takes the place of what was decided before it. -/
theorem forcedLanguage?_eq_foldl (style : Switch.Style) (arguments : String) :
    forcedLanguage? style arguments =
      (Switch.ordered style arguments ["TC", "TP"] ["x"]).foldl
        (fun current switch => (languageDecision? switch).getD current) none := by
  rw [forcedLanguage?]
  congr 1
  funext current switch
  rw [languageDecision?]
  split
  · rfl
  · split
    · rfl
    · split <;> simp [*]

/-- The last switch that decides is the one that counts. -/
theorem forcedLanguage?_eq (style : Switch.Style) (arguments : String) :
    forcedLanguage? style arguments =
      ((Switch.ordered style arguments ["TC", "TP"] ["x"]).filterMap
        languageDecision?).getLast?.join := by
  rw [forcedLanguage?_eq_foldl]
  induction Switch.ordered style arguments ["TC", "TP"] ["x"] using List.reverseRecOn with
  | nil => rfl
  | append_singleton switches switch ih =>
    rw [List.foldl_concat, ih, List.filterMap_append, List.filterMap_cons, List.filterMap_nil]
    cases languageDecision? switch with
    | none => rw [Option.getD_none, List.append_nil]
    | some decision => rw [Option.getD_some, List.getLast?_concat, Option.join_some]

/-! ## Groups of files -/

/-- A new element counts if it was not there before. -/
theorem eraseDups_concat {α : Type} [DecidableEq α] (l : List α) (a : α) :
    (l ++ [a]).eraseDups = if a ∈ l then l.eraseDups else l.eraseDups ++ [a] := by
  rw [List.eraseDups_append]
  split
  next h => simp [List.removeAll, h]
  next h => simp [List.removeAll, h, List.eraseDups_cons]

theorem nodup_eraseDups {α : Type} [DecidableEq α] (l : List α) : l.eraseDups.Nodup := by
  induction l using List.reverseRecOn with
  | nil => exact List.nodup_nil
  | append_singleton l a ih =>
    rw [eraseDups_concat]
    split
    · exact ih
    next ha => exact List.concat_eq_append ▸ ih.concat (List.mem_eraseDups.not.mpr ha)

/-- Among groups of different languages, a file goes to that of its language, at the end. -/
theorem addToGroup_map {languages : List Language} {l : Language} (filesOf : Language → List Path)
    (hnodup : languages.Nodup) (hnew : l ∉ languages → filesOf l = []) (file : Path) :
    addToGroup l file (languages.map fun k => (k, filesOf k)) =
      (if l ∈ languages then languages else languages ++ [l]).map fun k =>
        (k, filesOf k ++ if k = l then [file] else []) := by
  induction languages with
  | nil => simp [addToGroup, hnew]
  | cons k languages ih =>
    obtain ⟨hk, hnodup⟩ := List.nodup_cons.mp hnodup
    rw [List.map_cons, addToGroup]
    by_cases hkl : k = l
    -- The group is found, and no group behind it has the language.
    · subst hkl
      rw [if_pos rfl, if_pos List.mem_cons_self, List.map_cons, if_pos rfl]
      refine congrArg _ (List.map_congr_left fun k' hk' => ?_)
      have hne : k' ≠ k := fun heq => hk (heq ▸ hk')
      rw [if_neg hne, List.append_nil]
    · rw [if_neg hkl, ih hnodup fun hl => hnew (by simp [hl, Ne.symm hkl])]
      by_cases hl : l ∈ languages
      · simp [hl, hkl]
      · simp [hl, hkl, Ne.symm hkl]

/-- Files that are added to groups one after the other are divided by their languages. -/
theorem foldl_addToGroup (language? : Path → Option Language) (files : List Path) :
    files.foldl
        (fun groups file =>
          match language? file with
          | some l => addToGroup l file groups
          | none => groups) []
      = (files.filterMap language?).eraseDups.map fun l =>
          (l, files.filter fun file => language? file = some l) := by
  induction files using List.reverseRecOn with
  | nil => rfl
  | append_singleton files file ih =>
    rw [List.foldl_concat, ih, List.filterMap_append]
    cases hlanguage : language? file with
    | none => simp [hlanguage]
    | some l =>
      have hnew : l ∉ (files.filterMap language?).eraseDups →
          (files.filter fun file => language? file = some l) = [] := by
        intro hl
        rw [List.mem_eraseDups, List.mem_filterMap] at hl
        exact List.filter_eq_nil_iff.mpr fun other hother hsome =>
          hl ⟨other, hother, of_decide_eq_true hsome⟩
      have hadded := addToGroup_map (fun k => files.filter fun file => language? file = some k)
        (nodup_eraseDups _) hnew file
      simp only [List.mem_eraseDups] at hadded
      rw [List.filterMap_cons, hlanguage, List.filterMap_nil, eraseDups_concat]
      refine hadded.trans (List.map_congr_left fun k _ => ?_)
      by_cases hk : k = l
      · simp [List.filter_append, hlanguage, hk]
      · simp [List.filter_append, hlanguage, hk, Ne.symm hk]

/-- The groups have the languages of the files, in the order of first appearance, and each has all
files of its language. -/
theorem groupByLanguage_eq (forced : Option Language) (files : List Path) :
    groupByLanguage forced files =
      (files.filterMap fun file => forced.or (Language.ofPath? file)).eraseDups.map fun l =>
        (l, files.filter fun file => forced.or (Language.ofPath? file) = some l) :=
  foldl_addToGroup (fun file => forced.or (Language.ofPath? file)) files

/-! ## The units of an invocation -/

section Invocation

variable (i : Tool.Invocation) (base : Path)

/-- The sources of an invocation, as they are written. -/
def sourceFiles : List String :=
  Switch.files (.ofTool i.toolName) i.arguments Language.sourceExtensions

/-- The language that the last switch of an invocation that decides forces, if it forces one. -/
def decidedLanguage? : Option Language :=
  ((Switch.ordered (.ofTool i.toolName) i.arguments ["TC", "TP"] ["x"]).filterMap
    languageDecision?).getLast?.join

/-- The language of a source of an invocation. -/
def sourceLanguage? (file : String) : Option Language :=
  (decidedLanguage? i).or (Language.ofPath? (Path.resolve file base))

end Invocation

namespace Extractor

variable {ω : Type} {e : Extractor ω} {line : String} {base : Path} {w : ω} {i : Tool.Invocation}
  {u : CompileUnit}

/-- There is a unit for each language of a source, which has all sources of the language. -/
theorem map_extract (h : e.compilers.invocation? e.isFile line base = some i) (w : ω) :
    (e.extract line base w).1.map (fun u => (u.language, u.sources)) =
      ((sourceFiles i).filterMap (sourceLanguage? i base)).eraseDups.map fun l =>
        (some l, ((sourceFiles i).filter fun file => sourceLanguage? i base file = some l).map
          (Path.resolve · base)) := by
  have hgroups : languageGroups i base =
      ((sourceFiles i).filterMap (sourceLanguage? i base)).eraseDups.map fun l =>
        (l, ((sourceFiles i).filter fun file => sourceLanguage? i base file = some l).map
          (Path.resolve · base)) := by
    rw [languageGroups, groupByLanguage_eq, forcedLanguage?_eq, List.filterMap_map]
    simp only [List.filter_map]
    rfl
  rw [fst_extract h, List.map_map, hgroups, List.map_map]
  rfl

/-- The languages of the units are those of the sources, in the order of first appearance. -/
theorem map_language_extract (h : e.compilers.invocation? e.isFile line base = some i) (w : ω) :
    (e.extract line base w).1.map CompileUnit.language =
      ((sourceFiles i).filterMap (sourceLanguage? i base)).eraseDups.map some := by
  have hlanguages := congrArg (List.map Prod.fst) (map_extract h w)
  rwa [List.map_map, List.map_map] at hlanguages

/-- A unit has all sources of its language, in order. -/
theorem sources_of_mem_extract (h : e.compilers.invocation? e.isFile line base = some i)
    (hu : u ∈ (e.extract line base w).1) :
    u.sources = ((sourceFiles i).filter fun file => sourceLanguage? i base file = u.language).map
      (Path.resolve · base) := by
  have hpair := List.mem_map_of_mem (f := fun u : CompileUnit => (u.language, u.sources)) hu
  rw [map_extract h] at hpair
  obtain ⟨l, -, hl⟩ := List.mem_map.mp hpair
  obtain ⟨hlanguage, hsources⟩ := Prod.mk.inj hl
  rw [← hlanguage, hsources]

/-- The sources that no unit has are those without a language. -/
theorem forall_notMem_sources_iff (h : e.compilers.invocation? e.isFile line base = some i)
    {file : String} (hfile : file ∈ sourceFiles i) :
    (∀ u ∈ (e.extract line base w).1, Path.resolve file base ∉ u.sources) ↔
      sourceLanguage? i base file = none := by
  have hmem : ∀ language?, language? ∈ (e.extract line base w).1.map CompileUnit.language ↔
      ∃ l, (∃ file ∈ sourceFiles i, sourceLanguage? i base file = some l) ∧
        some l = language? := by
    simp [map_language_extract h]
  constructor
  · intro hnone
    by_contra hsome
    obtain ⟨l, hl⟩ := Option.ne_none_iff_exists'.mp hsome
    obtain ⟨u, hu, hlanguage⟩ := List.mem_map.mp ((hmem _).mpr ⟨l, ⟨file, hfile, hl⟩, rfl⟩)
    refine hnone u hu ?_
    rw [sources_of_mem_extract h hu, hlanguage]
    exact List.mem_map_of_mem (List.mem_filter.mpr ⟨hfile, decide_eq_true hl⟩)
  -- The language depends on the path only, so no other source has the path and a language.
  · intro hnone u hu hpath
    rw [sources_of_mem_extract h hu] at hpath
    obtain ⟨other, hother, heq⟩ := List.mem_map.mp hpath
    have hlanguage := of_decide_eq_true (List.mem_filter.mp hother).2
    obtain ⟨l, -, hl⟩ := (hmem _).mp (List.mem_map_of_mem hu)
    rw [sourceLanguage?, heq, ← sourceLanguage?, hnone, ← hl] at hlanguage
    cases hlanguage

/-- The sources of an invocation are divided among its units by their languages. The units have
different languages, in the order in which the sources first have them, and each unit has all
sources of its language, in order. The sources that no unit has are those without an extension,
where no language is forced. -/
theorem sources_extract (h : e.compilers.invocation? e.isFile line base = some i) (w : ω) :
    (e.extract line base w).1.map CompileUnit.language =
        ((sourceFiles i).filterMap (sourceLanguage? i base)).eraseDups.map some ∧
      ((e.extract line base w).1.map CompileUnit.language).Nodup ∧
      (∀ u ∈ (e.extract line base w).1, u.sources =
        ((sourceFiles i).filter fun file => sourceLanguage? i base file = u.language).map
          (Path.resolve · base)) ∧
      ∀ file ∈ sourceFiles i,
        (∀ u ∈ (e.extract line base w).1, Path.resolve file base ∉ u.sources) ↔
          decidedLanguage? i = none ∧ (Path.resolve file base).extension? = none := by
  refine ⟨map_language_extract h w, ?_, fun u hu => sources_of_mem_extract h hu, ?_⟩
  · rw [map_language_extract h]
    exact (nodup_eraseDups _).map fun _ _ => Option.some.inj
  · intro file hfile
    rw [forall_notMem_sources_iff h hfile, sourceLanguage?, Option.or_eq_none_iff,
      Language.ofPath?_resolve_eq_none_iff hfile]

/-- A hidden file has no extension, so no unit has it. -/
theorem sources_extract_hidden :
    (plain.extract "g++ -c a.cc b.c dir/.c d.C" ⟨"/w"⟩ ()).1.map CompileUnit.language
        = [some .cpp, some .c] ∧
      ∀ u ∈ (plain.extract "g++ -c a.cc b.c dir/.c d.C" ⟨"/w"⟩ ()).1,
        ⟨"/w/dir/.c"⟩ ∉ u.sources := by
  have hinvocation : plain.compilers.invocation? plain.isFile "g++ -c a.cc b.c dir/.c d.C" ⟨"/w"⟩
      = some ⟨"", "g++", ⟨"/w/g++"⟩, false, "-c a.cc b.c dir/.c d.C"⟩ := by decide +kernel
  obtain ⟨hlanguages, -, -, hlost⟩ := sources_extract hinvocation ()
  have hpath : Path.resolve "dir/.c" ⟨"/w"⟩ = ⟨"/w/dir/.c"⟩ := by decide +kernel
  refine ⟨hlanguages.trans (by decide +kernel), ?_⟩
  rw [← hpath]
  exact (hlost "dir/.c" (by decide +kernel)).mpr (by decide +kernel)

/-- The last switch alone does not tell: one that says nothing of the language leaves it as it was
forced before. -/
theorem sources_extract_undecidedLast :
    ¬∀ i, plain.compilers.invocation? plain.isFile "g++ -x c++ -x assembler -c a.c" ⟨"/w"⟩
        = some i →
      ∀ u ∈ (plain.extract "g++ -x c++ -x assembler -c a.c" ⟨"/w"⟩ ()).1, u.sources =
        ((sourceFiles i).filter fun file =>
          ((Switch.ordered (.ofTool i.toolName) i.arguments ["TC", "TP"] ["x"]).getLast?.bind
              fun switch => (languageDecision? switch).join).or
            (Language.ofPath? (Path.resolve file ⟨"/w"⟩)) = u.language).map
          (Path.resolve · ⟨"/w"⟩) := by
  intro hall
  have hinvocation : plain.compilers.invocation? plain.isFile
      "g++ -x c++ -x assembler -c a.c" ⟨"/w"⟩ = some
        ⟨"", "g++", ⟨"/w/g++"⟩, false, "-x c++ -x assembler -c a.c"⟩ := by decide +kernel
  have hunits : (plain.extract "g++ -x c++ -x assembler -c a.c" ⟨"/w"⟩ ()).1.map
      (fun u => (u.language, u.sources)) = [(some .cpp, [⟨"/w/a.c"⟩])] := by decide +kernel
  obtain ⟨u, hu, heq⟩ := List.mem_map.mp (hunits ▸ List.mem_singleton_self _)
  obtain ⟨hlanguage, hsources⟩ := Prod.mk.inj heq
  -- The extension of the only source says C.
  have hclaimed := hall _ hinvocation u hu
  rw [hlanguage, hsources] at hclaimed
  exact absurd hclaimed (by decide +kernel)

end Extractor

end CompileUnit

end BuildTrace
