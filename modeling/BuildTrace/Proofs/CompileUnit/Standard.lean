import BuildTrace.CompileUnit.Extraction
import BuildTrace.Proofs.Switch.Mention

/-!
# The language standards of compile units

A compile unit has the standard of the last `std` switch on its line, or the default standard of its
language. Longer names that begin with `std` count as that switch when they stand behind a short
lead: their remainder is no standard, as a rule, and then the default takes the place of the
standard that was asked for. This module says exactly when the last switch proper decides.

## Main definitions

* `CompileUnit.Extractor.unitOf`: the unit of an invocation for the sources of a language.

## Main results

* `Standard.resolve_of_parse?`: a token that means a standard decides;
* `CompileUnit.Extractor.fst_extract` and `CompileUnit.Extractor.snd_extract_cases`: what a line
  gives, and what is done to the surroundings;
* `CompileUnit.Extractor.of_mem_extract`: where the standard of a unit comes from;
* `CompileUnit.Extractor.standard_of_mem_extract`: when the last switch proper decides.
-/

namespace BuildTrace

/-- A token that means a standard decides. -/
theorem Standard.resolve_of_parse? {token : String} {language : Language} {allowGnu : Bool}
    {standard : Standard} (h : parse? token (some language) allowGnu = some standard) :
    resolve (some token) language allowGnu = standard := by
  rw [resolve, Option.bind_some, h, Option.getD_some]

namespace CompileUnit.Extractor

open Switch (Mention Mentions)

variable {ω : Type} {e : Extractor ω} {line : String} {base : Path} {w : ω} {u : CompileUnit}
  {i : Tool.Invocation}

/-! ## The units of a line -/

/-- The sources of an invocation by their languages. -/
def languageGroups (i : Tool.Invocation) (base : Path) : List (Language × List Path) :=
  let style := Switch.Style.ofTool i.toolName
  let sources := Switch.files style i.arguments Language.sourceExtensions
  groupByLanguage (forcedLanguage? style i.arguments) (sources.map (Path.resolve · base))

/-- The unit of an invocation for the sources of a language. -/
def unitOf (e : Extractor ω) (i : Tool.Invocation) (base compiler : Path)
    (group : Language × List Path) : CompileUnit :=
  let style := Switch.Style.ofTool i.toolName
  { defines := Switch.repeatable style i.arguments "D"
    includePaths := pathsOf style i.arguments ["I", "isystem", "iquote", "idirafter"] base
    forcedIncludes := pathsOf style i.arguments ["FI", "include"] base
    standard :=
      some (Standard.resolve (Switch.single? style i.arguments ["std"]) group.1 e.allowGnu)
    mode := Toolchain.modeOf compiler (architecture? style i.arguments)
    compiler
    sources := group.2
    sdkVersion := e.sdkVersion
    language := some group.1 }

/-- A line that invokes no compiler gives nothing. -/
theorem extract_none (hi : e.compilers.invocation? e.isFile line base = none) :
    e.extract line base w = ([], w) := by
  rw [extract, hi]

/-- An invocation gives a unit for each language of its sources. -/
theorem fst_extract (hi : e.compilers.invocation? e.isFile line base = some i) :
    (e.extract line base w).1
      = (languageGroups i base).map (e.unitOf i base (e.compiler i w).1) := by
  rw [extract, hi]
  dsimp only
  split
  -- Without sources, there are no groups.
  next hnil =>
    rw [languageGroups, List.isEmpty_iff.mp hnil]
    rfl
  next => rfl

/-- Each unit of a line is one of its invocation. -/
theorem exists_of_mem_extract (h : u ∈ (e.extract line base w).1) :
    ∃ i group, e.compilers.invocation? e.isFile line base = some i ∧
      group ∈ languageGroups i base ∧ u = e.unitOf i base (e.compiler i w).1 group := by
  cases hi : e.compilers.invocation? e.isFile line base with
  | none =>
    rw [extract_none hi] at h
    cases h
  | some i =>
    rw [fst_extract hi] at h
    obtain ⟨group, hgroup, rfl⟩ := List.mem_map.mp h
    exact ⟨i, group, rfl, hgroup, rfl⟩

/-- Nothing but a search for the compiler is done to the surroundings. -/
theorem snd_extract_cases (e : Extractor ω) (line : String) (base : Path) (w : ω) :
    (e.extract line base w).2 = w ∨ ∃ name, (e.extract line base w).2 = (e.lookup name w).2 := by
  rw [extract]
  split
  · exact .inl rfl
  next i _ =>
    dsimp only
    split
    · exact .inl rfl
    · rw [compiler]
      split
      · exact .inl rfl
      · exact .inr ⟨i.fileName, rfl⟩

/-! ## The switch that decides -/

/-- The units of a line have languages, and their standards come from the switches of the
invocation. -/
theorem of_mem_extract (h : u ∈ (e.extract line base w).1) :
    ∃ i language, e.compilers.invocation? e.isFile line base = some i ∧
      u.language = some language ∧
      u.standard = some (Standard.resolve
        (Switch.single? (.ofTool i.toolName) i.arguments ["std"]) language e.allowGnu) := by
  obtain ⟨i, group, hi, -, rfl⟩ := exists_of_mem_extract h
  exact ⟨i, group.1, hi, rfl, rfl⟩

/-- A unit has the standard that the last `std` switch proper of its line asks for, unless a longer
name comes behind it whose remainder means another standard or, what it does as a rule, none. -/
theorem standard_of_mem_extract (h : u ∈ (e.extract line base w).1) :
    ∃ i language, e.compilers.invocation? e.isFile line base = some i ∧
      u.language = some language ∧
      (∃ mentions, Mentions (.ofTool i.toolName) "std".toList (Switch.tokens i.arguments.toList)
        mentions) ∧
      ∀ (before : List Mention) (value : List Char) (rests : List (List Char)) standard,
        Mentions (.ofTool i.toolName) "std".toList (Switch.tokens i.arguments.toList)
          (before ++ .own value :: rests.map .longer) →
        Standard.parse? (Mention.own value).value (some language) e.allowGnu = some standard →
        (u.standard = some standard ↔ ∀ rest ∈ rests.getLast?,
          Standard.resolve (some (Mention.longer rest).value) language e.allowGnu = standard) := by
  obtain ⟨i, language, hi, hlanguage, hstandard⟩ := of_mem_extract h
  refine ⟨i, language, hi, hlanguage, Switch.exists_mentions _ _ _, ?_⟩
  intro before value rests standard hmentions hparse
  have hsingle := hmentions.single?_eq (by decide) (by decide)
  rw [String.ofList_toList, List.map_append, List.map_cons, List.map_map] at hsingle
  rw [hstandard, hsingle, Option.some_inj]
  -- The last mention is the switch proper only if there is no longer name behind it.
  cases rests using List.reverseRecOn with
  | nil => simpa using Standard.resolve_of_parse? hparse
  | append_singleton rests rest =>
    rw [List.getLast?_concat, List.map_append, List.map_singleton, ← List.cons_append,
      ← List.append_assoc, List.getLast?_concat]
    simp

/-- The extraction with the compiler `g++`, which is not looked for. -/
def plain : Extractor Unit where
  compilers := Tool.Matcher.ofNames ["g++"] false
  isFile _ := false
  lookup _ w := (none, w)

/-- The token does not spell the switch if it is not recognized. -/
theorem not_spells {style : Switch.Style} {token : List Char}
    (h : (Switch.recognize? style [⟨"std".toList, true⟩] token).isNone = true) :
    ∀ mention?, ¬Switch.Spells style "std".toList (Switch.unwrapQuotes token) mention? :=
  (Switch.recognize?_eq_none_iff (by decide) (by decide)).mp (Option.isNone_iff_eq_none.mp h)

/-- A longer name in front of the switch proper makes no difference. -/
theorem standard_of_mem_extract_longerInFront :
    ∃ u ∈ (plain.extract "g++ -stdlib=libc++ -c -std=c++14 a.cc" ⟨"/w"⟩ ()).1,
      u.standard = some ⟨.cpp, 14, false⟩ := by
  have hmentions : Mentions .gnu "std".toList
      (Switch.tokens "-stdlib=libc++ -c -std=c++14 a.cc".toList)
      [.longer "lib=libc++".toList, .own "c++14".toList] := by
    have htokens : Switch.tokens "-stdlib=libc++ -c -std=c++14 a.cc".toList =
        ["-stdlib=libc++".toList, "-c".toList, "-std=c++14".toList, "a.cc".toList] := by decide
    rw [htokens]
    -- The first token with the name glues it to a longer one, the third is the switch proper.
    refine .glued ?_ (.other (not_spells (by decide)) (.glued ?_
      (.other (not_spells (by decide)) .nil)))
    · exact @Switch.Spells.longer .gnu "std".toList ['-'] "ib=libc++".toList 'l' (by decide)
        (by decide) (by decide) (by decide)
    · exact @Switch.Spells.equals .gnu "std".toList ['-'] "c++14".toList (by decide)
  have hunits : (plain.extract "g++ -stdlib=libc++ -c -std=c++14 a.cc" ⟨"/w"⟩ ()).1.map
      CompileUnit.language = [some .cpp] := by decide +kernel
  have hinvocation : (plain.compilers.invocation? plain.isFile
      "g++ -stdlib=libc++ -c -std=c++14 a.cc" ⟨"/w"⟩).map (fun i => (i.toolName, i.arguments))
        = some ("g++", "-stdlib=libc++ -c -std=c++14 a.cc") := by decide +kernel
  obtain ⟨u, hu⟩ : ∃ u, (plain.extract "g++ -stdlib=libc++ -c -std=c++14 a.cc" ⟨"/w"⟩ ()).1 = [u] :=
    List.length_eq_one_iff.mp (by simpa using congrArg List.length hunits)
  have hmem : u ∈ (plain.extract "g++ -stdlib=libc++ -c -std=c++14 a.cc" ⟨"/w"⟩ ()).1 := by
    rw [hu]
    exact List.mem_singleton_self u
  refine ⟨u, hmem, ?_⟩
  obtain ⟨i, language, hi, hlanguage, -, hiff⟩ := standard_of_mem_extract hmem
  rw [hu, List.map_singleton, hlanguage] at hunits
  rw [hi, Option.map_some] at hinvocation
  obtain ⟨htool, harguments⟩ := Prod.mk.inj (Option.some.inj hinvocation)
  obtain rfl : language = .cpp := by simpa using hunits
  rw [htool, harguments] at hiff
  have hstyle : Switch.Style.ofTool "g++" = .gnu := by decide +kernel
  rw [hstyle] at hiff
  exact (hiff [.longer "lib=libc++".toList] "c++14".toList [] ⟨.cpp, 14, false⟩ hmentions
    (by decide +kernel)).mpr (by simp)

/-- A longer name behind the switch proper makes the default take its place. -/
theorem standard_of_mem_extract_longerBehind :
    Mentions .gnu "std".toList (Switch.tokens "-std=c++14 -stdlib=libc++ -c a.cc".toList)
        [.own "c++14".toList, .longer "lib=libc++".toList] ∧
      Standard.parse? "c++14" (some .cpp) true = some ⟨.cpp, 14, false⟩ ∧
      (plain.extract "g++ -std=c++14 -stdlib=libc++ -c a.cc" ⟨"/w"⟩ ()).1.map CompileUnit.standard
        = [some ⟨.cpp, 17, false⟩] := by
  refine ⟨?_, by decide +kernel, by decide +kernel⟩
  have htokens : Switch.tokens "-std=c++14 -stdlib=libc++ -c a.cc".toList =
      ["-std=c++14".toList, "-stdlib=libc++".toList, "-c".toList, "a.cc".toList] := by decide
  rw [htokens]
  refine .glued ?_ (.glued ?_ (.other (not_spells (by decide)) (.other (not_spells (by decide))
    .nil)))
  · exact @Switch.Spells.equals .gnu "std".toList ['-'] "c++14".toList (by decide)
  · exact @Switch.Spells.longer .gnu "std".toList ['-'] "ib=libc++".toList 'l' (by decide)
      (by decide) (by decide) (by decide)

end CompileUnit.Extractor

end BuildTrace
