import BuildTrace.Proofs.CompileUnit.Standard
import BuildTrace.Proofs.Toolchain.Version

/-!
# Compilers with versions

The name of a compiler is looked at three times: by the matcher, for the style of its switches and
for the toolchain. A version behind the name should make no difference to any of them. This module
says when it does make one. The style is looked up for the whole stem of the file, so a compiler
with Microsoft's switches loses them behind a version; and what is in front of the version is taken
for a target, which differs from the target in the name itself only in two corners.

## Main definitions

* `Toolchain.IsVersionNeutral`: the compilers that a version does not change;
* `CompileUnit.anonymous`: units without the path of the compiler.

## Main results

* `Tool.Matcher.invocation?_of_isTool`: how a bare word of the grammar is read;
* `Toolchain.IsVersionNeutral.modeOf_eq`, `Toolchain.target_of_modeOf_none_eq` and
  `Toolchain.digits_of_modeOf_none_eq`: when the mode is the same;
* `CompileUnit.Extractor.extract_version_iff`: when the units are the same.
-/

namespace BuildTrace

open Tool (IsPlain IsTool IsDecoration IsFileWord EndsInLetter executable isVersionChar)

/-! ## Names of compilers -/

namespace Tool

variable {front digits : List Char} {name : String} {c : Char}

/-- What is needed of the names of the known compilers. -/
theorem of_mem_defaultCompilers (h : name ∈ defaultCompilers) :
    EndsInLetter name.toList ∧ '.' ∉ name.toList ∧
      (∀ c ∈ name.toList.getLast?, c.toLower ≠ 'e') ∧
      ∀ c ∈ name.toList, (c.toNat < 128 ∧ c.toLower = c) ∧ Text.isBlank c = false ∧
        c ∉ ['/', '"', '\''] := by
  have hall : ∀ name ∈ defaultCompilers, EndsInLetter name.toList ∧ '.' ∉ name.toList ∧
      (name.toList.getLast?.all fun c => decide (c.toLower ≠ 'e')) = true ∧
      (name.toList.all fun c => decide ((c.toNat < 128 ∧ c.toLower = c) ∧ Text.isBlank c = false ∧
        c ∉ ['/', '"', '\''])) = true := by
    decide
  obtain ⟨hletter, hdot, hlast, hchars⟩ := hall name h
  refine ⟨hletter, hdot, fun c hc => ?_,
    fun c hc => of_decide_eq_true (List.all_eq_true.mp hchars c hc)⟩
  rw [Option.mem_def.mp hc] at hlast
  exact of_decide_eq_true hlast

/-- What is in front of the last dash in the name of a compiler ends with a letter, too. -/
theorem endsInLetter_of_mem_defaultCompilers {stem ending : List Char}
    (h : name ∈ defaultCompilers) (hname : name.toList = stem ++ '-' :: ending)
    (hending : '-' ∉ ending) : EndsInLetter stem := by
  have hall : ∀ name ∈ defaultCompilers, (Text.splitLast? '-' name.toList).all
      (fun parts => decide (EndsInLetter parts.1)) = true := by decide
  have hstem := hall name h
  rw [Text.splitLast?_eq_some_iff.mpr ⟨hname, hending⟩] at hstem
  exact of_decide_eq_true hstem

theorem of_isDecorationChar (h : isDecorationChar c = true) :
    c.toNat < 128 ∧ Text.isBlank c = false ∧ c ∉ ['/', '"', '\''] := by
  have hascii : c.toNat < 128 := by
    simp only [isDecorationChar, Char.isAlphanum, Bool.or_eq_true, decide_eq_true_eq] at h
    rcases h with ((h | h) | rfl) | rfl
    · exact Nat.lt_of_le_of_lt (Text.bounds_of_isAlpha h).2 (by decide)
    · exact Nat.lt_of_le_of_lt (Text.bounds_of_isDigit h).2 (by decide)
    · decide
    · decide
  refine ⟨hascii, (isPlain_of_isDecorationChar h).1, ?_⟩
  simp only [List.mem_cons, List.not_mem_nil, or_false]
  rintro (rfl | rfl | rfl) <;> exact absurd h (by decide)

/-- What is needed of decorations. -/
theorem IsDecoration.of_mem (h : IsDecoration front) :
    ∀ c ∈ front, c.toNat < 128 ∧ Text.isBlank c = false ∧ c ∉ ['/', '"', '\''] := by
  induction h with
  | none => exact List.forall_mem_nil _
  | group hfront _ ih =>
    rw [List.forall_mem_append, List.forall_mem_cons]
    exact ⟨fun c hc => of_isDecorationChar (hfront c hc), by decide, ih⟩

/-- Decorations end with a dash. -/
theorem IsDecoration.exists_concat (h : IsDecoration front) (hne : front ≠ []) :
    ∃ before, front = before ++ ['-'] := by
  induction h with
  | none => exact absurd rfl hne
  | @group group rest _ _ ih =>
    by_cases hrest : rest = []
    · exact ⟨group, by rw [hrest]⟩
    · obtain ⟨before, rfl⟩ := ih hrest
      exact ⟨group ++ '-' :: before, by simp⟩

theorem IsDecoration.exists_lower_concat (h : IsDecoration front) (hne : front ≠ []) :
    ∃ before, Text.lower front = before ++ ['-'] := by
  obtain ⟨before, rfl⟩ := h.exists_concat hne
  exact ⟨_, Text.lower_append_dash before []⟩

variable (hfront : IsDecoration front) (hname : name ∈ defaultCompilers)

include hfront hname

/-- A decorated compiler is known by its file name. -/
theorem isFileWord_compiler : IsFileWord (front ++ name.toList) := by
  obtain ⟨hletter, hdot, hlast, hchars⟩ := of_mem_defaultCompilers hname
  have hne : name.toList ≠ [] := by
    intro hnil
    rw [hnil] at hletter
    exact absurd hletter (by decide)
  refine ⟨?_, ?_, ?_⟩
  · refine List.forall_mem_append.mpr ⟨fun c hc => ?_, fun c hc => ?_⟩
    · exact (hfront.of_mem c hc).imp_left Text.isSimple_of_lt
    · exact (hchars c hc).imp_left fun hascii => Text.isSimple_of_lt hascii.1
  · obtain ⟨c, hc⟩ := List.exists_mem_of_ne_nil _ hne
    exact ⟨c, List.mem_append_right _ hc, fun heq => hdot (heq ▸ hc)⟩
  · rw [List.getLast?_append_of_ne_nil _ hne]
    exact hlast

/-- So is one with a version. -/
theorem isFileWord_version (hdigits : ∀ c ∈ digits, isVersionChar c = true) :
    IsFileWord (front ++ name.toList ++ '-' :: digits) := by
  have hword := isFileWord_compiler hfront hname
  -- A version has neither letters nor characters with a meaning in paths.
  have hversion : ∀ c ∈ '-' :: digits,
      Text.IsSimple c ∧ (Text.isBlank c = false ∧ c ∉ ['/', '"', '\'']) ∧ c.toLower ≠ 'e' := by
    refine List.forall_mem_cons.mpr
      ⟨⟨Text.isSimple_of_lt (by decide), by decide, by decide⟩, fun c hc => ?_⟩
    obtain ⟨hsimple, hsame, hletter⟩ := of_isVersionChar (hdigits c hc)
    have hplain := isPlain_of_isVersionChar (hdigits c hc)
    refine ⟨hsimple, ⟨hplain.1, ?_⟩, ?_⟩
    · simp only [List.mem_cons, List.not_mem_nil, or_false]
      rintro (rfl | rfl | rfl) <;> exact absurd (hdigits _ hc) (by decide)
    · rw [hsame]
      rintro rfl
      exact absurd hletter (by decide)
  refine ⟨?_, ?_, ?_⟩
  · exact List.forall_mem_append.mpr
      ⟨hword.chars, fun c hc => ⟨(hversion c hc).1, (hversion c hc).2.1⟩⟩
  · obtain ⟨c, hc, hdot⟩ := hword.name
    exact ⟨c, List.mem_append_left _ hc, hdot⟩
  · rw [List.getLast?_append_of_ne_nil _ (List.cons_ne_nil _ _)]
    exact fun c hc => (hversion c (List.mem_of_mem_getLast? hc)).2.2

end Tool

/-! ## Modes -/

namespace Toolchain

variable {front digits : List Char} {name extension : String}

/-- A version behind a decorated compiler changes nothing but the path of the compiler. -/
structure IsVersionNeutral (front : List Char) (name : String) (digits : List Char) : Prop where
  /-- A tool in Microsoft's style is so by what is in front of a dot, and the version has none. -/
  style : Switch.Style.ofTool (String.ofList (front ++ name.toList)) = .msvc →
    '.' ∈ front ∧ '.' ∉ digits
  /-- The decorations are no `x86-64` that would be taken as a whole, or nothing is made of them. -/
  target : Text.lower front = "x86-64-".toList → name ∈ ["cl", "icl", "clang-cl", "clang-cpp"]
  /-- The one name that begins with an architecture has a version of ASCII characters. -/
  digits : front = [] → name = "armclang" → ∀ c ∈ digits, c.toNat < 128

/-- The path of a compiler that is not found. -/
def unfound (extension : String) (word : List Char) : Path :=
  ⟨String.ofList (executable extension word)⟩

section Compiler

variable (hfront : IsDecoration front) (hname : name ∈ Tool.defaultCompilers)
  (hdigits : ∀ c ∈ digits, isVersionChar c = true)
  (hextension : extension = "" ∨ extension = "exe")

/-- The word in small letters. -/
def smallWord (front : List Char) (name : String) : List Char :=
  (front ++ name.toList).map Char.toLower

include hfront hname

theorem smallWord_eq : smallWord front name = Text.lower front ++ name.toList := by
  obtain ⟨-, -, -, hchars⟩ := Tool.of_mem_defaultCompilers hname
  have hsmall : name.toList.map Char.toLower = name.toList :=
    (List.map_congr_left fun c hc => (hchars c hc).1.2).trans (List.map_id _)
  rw [smallWord, List.map_append, hsmall,
    Text.lower_of_forall fun c hc => (hfront.of_mem c hc).1]

theorem endsInLetter_smallWord : EndsInLetter (smallWord front name) := by
  rw [smallWord_eq hfront hname]
  exact (Tool.of_mem_defaultCompilers hname).1.append _

theorem isSmall_smallWord : IsSmall (smallWord front name) := by
  obtain ⟨-, -, -, hchars⟩ := Tool.of_mem_defaultCompilers hname
  have hword : ∀ c ∈ front ++ name.toList, c.toNat < 128 ∧ Text.isBlank c = false :=
    List.forall_mem_append.mpr ⟨fun c hc => (hfront.of_mem c hc).imp_right And.left,
      fun c hc => ⟨(hchars c hc).1.1, (hchars c hc).2.1⟩⟩
  intro small hsmall
  obtain ⟨c, hc, rfl⟩ := List.mem_map.mp hsmall
  obtain ⟨hascii, hblank⟩ := hword c hc
  rcases Text.toLower_cases c with hsame | ⟨-, halpha⟩
  · rw [hsame]
    exact ⟨hblank, Text.isSimple_of_lt hascii, hsame⟩
  · have hbound := Nat.lt_of_le_of_lt (Text.bounds_of_isAlpha halpha).2 (by decide : 122 < 128)
    exact ⟨Text.isBlank_eq_false_of_isAlphanum (by rw [Char.isAlphanum, halpha, Bool.true_or]),
      Text.isSimple_of_lt hbound, Char.toLower_toLower_eq_toLower c⟩

/-- The word itself is a part of the target behind `x86-64` only if the decorations are that. -/
theorem of_splitLast?_smallWord {last : List Char}
    (hcut : Text.splitLast? '-' (smallWord front name) = some ("x86-64".toList, last)) :
    Text.lower front = "x86-64-".toList ∧ '-' ∉ name.toList := by
  obtain ⟨hs, hlast⟩ := Text.splitLast?_eq_some_iff.mp hcut
  rw [smallWord_eq hfront hname] at hs
  have hdash : '-' ∉ name.toList := by
    intro hdash
    obtain ⟨stem, ending, hname', hending⟩ := Text.exists_last_of_mem hdash
    have hstem := Tool.endsInLetter_of_mem_defaultCompilers hname hname' hending
    rw [hname', ← List.append_assoc] at hs
    have hwhole := (Text.append_inj_of_last hending hlast hs).1
    exact absurd (hwhole ▸ hstem.append (Text.lower front)) (by decide)
  refine ⟨?_, hdash⟩
  -- So the last dash is that of the decorations.
  have hne : front ≠ [] := by
    rintro rfl
    have hmem : '-' ∈ Text.lower [] ++ name.toList := by rw [hs]; simp
    exact hdash hmem
  obtain ⟨before, hlower⟩ := hfront.exists_lower_concat hne
  rw [hlower, List.append_assoc, List.singleton_append] at hs
  rw [hlower, (Text.append_inj_of_last hdash hlast hs).1]
  rfl

/-- Without a dash there are no decorations. -/
theorem eq_nil_of_dash_not_mem (h : '-' ∉ smallWord front name) : front = [] := by
  by_contra hne
  obtain ⟨before, hlower⟩ := hfront.exists_lower_concat hne
  exact h (by simp [smallWord_eq hfront hname, hlower])

include hdigits in
/-- Under the first condition the style is the same. -/
theorem ofTool_version_eq_iff :
    Switch.Style.ofTool (String.ofList (front ++ name.toList ++ '-' :: digits))
        = .ofTool (String.ofList (front ++ name.toList)) ↔
      (Switch.Style.ofTool (String.ofList (front ++ name.toList)) = .msvc →
        '.' ∈ front ∧ '.' ∉ digits) := by
  have hdot : '.' ∈ front ++ name.toList ↔ '.' ∈ front := by
    simp [(Tool.of_mem_defaultCompilers hname).2.1]
  rw [Switch.Style.ofTool_version (Tool.isFileWord_compiler hfront hname)
    (Tool.isFileWord_version hfront hname hdigits) hdigits, ← hdot]
  split
  next h => exact iff_of_true rfl fun _ => h
  next h =>
    cases Switch.Style.ofTool (String.ofList (front ++ name.toList)) with
    | gnu => exact iff_of_true rfl nofun
    | msvc => exact iff_of_false nofun fun himp => h (himp rfl)

include hextension in
theorem executableName?_compiler :
    executableName? (unfound extension (front ++ name.toList)) = some (smallWord front name) :=
  (Tool.isFileWord_compiler hfront hname).executableName?_eq hextension

include hextension hdigits in
theorem executableName?_version :
    executableName? (unfound extension (front ++ name.toList ++ '-' :: digits))
      = some (smallWord front name ++ '-' :: digits) := by
  rw [unfound, (Tool.isFileWord_version hfront hname hdigits).executableName?_eq hextension,
    List.map_append, List.map_cons,
    List.map_congr_left fun c hc => (Tool.of_isVersionChar (hdigits c hc)).2.1, List.map_id']
  rfl

include hextension hdigits

/-- The family is the same, unless the name is one that is taken as a whole. -/
theorem recognize?_compiler_version (hne : digits ≠ [])
    (hwhole : smallWord front name ≠ "cl".toList ∧ smallWord front name ≠ "icl".toList) :
    recognize? (unfound extension (front ++ name.toList ++ '-' :: digits))
      = recognize? (unfound extension (front ++ name.toList)) :=
  recognize?_version (executableName?_compiler hfront hname hextension)
    (executableName?_version hfront hname hdigits hextension)
    (endsInLetter_smallWord hfront hname) (.dash hne hdigits) (by simp) hwhole

/-- With a dash in the name, the target is another one only behind `x86-64`. -/
theorem crossArchitecture?_compiler_version {target last : List Char}
    (hcut : Text.splitLast? '-' (smallWord front name) = some (target, last)) :
    (target ≠ "x86-64".toList →
        crossArchitecture? (unfound extension (front ++ name.toList ++ '-' :: digits))
          = crossArchitecture? (unfound extension (front ++ name.toList))) ∧
      (target = "x86-64".toList →
        crossArchitecture? (unfound extension (front ++ name.toList)) = some .x64 ∧
          crossArchitecture? (unfound extension (front ++ name.toList ++ '-' :: digits))
            = some .x86) :=
  crossArchitecture?_of_dash (executableName?_compiler hfront hname hextension)
    (executableName?_version hfront hname hdigits hextension)
    (endsInLetter_smallWord hfront hname) (Tool.dash_not_mem hdigits)
    (isSmall_smallWord hfront hname) hcut

/-- Without one there is a target only in front of a version that is not of ASCII characters. -/
theorem crossArchitecture?_compiler_version_of_not_mem (hdash : '-' ∉ smallWord front name) :
    crossArchitecture? (unfound extension (front ++ name.toList)) = none ∧
      crossArchitecture? (unfound extension (front ++ name.toList ++ '-' :: digits)) =
        if ∀ c ∈ digits, c.toNat < 128 then none
        else Architecture.parse? (String.ofList (smallWord front name)) := by
  have hascii : (∃ c ∈ digits, c.isDigit = false ∧ c ≠ '.') ↔ ¬∀ c ∈ digits, c.toNat < 128 := by
    push Not
    refine exists_congr fun c => and_congr_right fun hc => ?_
    rw [← not_lt, Tool.toNat_lt_iff_of_isVersionChar (hdigits c hc), not_or,
      Bool.not_eq_true]
  have hcross := crossArchitecture?_of_not_mem (executableName?_compiler hfront hname hextension)
    (executableName?_version hfront hname hdigits hextension)
    (endsInLetter_smallWord hfront hname) (Tool.dash_not_mem hdigits) hdash
  simpa only [hascii, ite_not] using hcross

section Neutral

variable (h : IsVersionNeutral front name digits)

include h

omit hextension hdigits in
/-- The compilers of Microsoft's family have no decorations, and are in Microsoft's style. -/
theorem IsVersionNeutral.smallWord_ne {whole : String} (hdash : '-' ∉ whole.toList)
    (hstyle : Switch.Style.ofTool whole = .msvc) : smallWord front name ≠ whole.toList := by
  intro hsmall
  obtain rfl := eq_nil_of_dash_not_mem hfront hname (hsmall ▸ hdash)
  rw [smallWord_eq hfront hname] at hsmall
  obtain rfl : name = whole := String.toList_inj.mp hsmall
  exact List.not_mem_nil (h.style (by simpa using hstyle)).1

/-- If the name begins with a target, a version does not change its architecture, or no family is
known. -/
theorem IsVersionNeutral.cross_of_dash (hdash : '-' ∈ smallWord front name) :
    recognize? (unfound extension (front ++ name.toList)) = none ∨
      crossArchitecture? (unfound extension (front ++ name.toList ++ '-' :: digits))
        = crossArchitecture? (unfound extension (front ++ name.toList)) := by
  obtain ⟨target, last, hs, hlast⟩ := Text.exists_last_of_mem hdash
  have hcut := Text.splitLast?_eq_some_iff.mpr ⟨hs, hlast⟩
  by_cases htarget : target = "x86-64".toList
  · subst htarget
    obtain ⟨hlower, hname'⟩ := of_splitLast?_smallWord hfront hname hcut
    have hexempt := h.target hlower
    have hcompiler := executableName?_compiler hfront hname hextension
    rw [smallWord_eq hfront hname, hlower] at hcompiler
    left
    rw [recognize?, hcompiler]
    -- Two of the exempt names are of no family behind `x86-64-`, the others have a dash themselves.
    simp only [List.mem_cons, List.not_mem_nil, or_false] at hexempt
    rcases hexempt with rfl | rfl | rfl | rfl
    · decide
    · decide
    · exact absurd (by decide) hname'
    · exact absurd (by decide) hname'
  · exact .inr
      ((crossArchitecture?_compiler_version hfront hname hdigits hextension hcut).1 htarget)

/-- If it is a plain name, no architecture is told by it. -/
theorem IsVersionNeutral.cross_of_not_mem (hdash : '-' ∉ smallWord front name) :
    crossArchitecture? (unfound extension (front ++ name.toList ++ '-' :: digits))
      = crossArchitecture? (unfound extension (front ++ name.toList)) := by
  obtain ⟨hnone, hcross⟩ :=
    crossArchitecture?_compiler_version_of_not_mem hfront hname hdigits hextension hdash
  obtain rfl := eq_nil_of_dash_not_mem hfront hname hdash
  rw [hnone, hcross]
  split
  · rfl
  next hother =>
    -- Only one name without a dash begins with an architecture.
    have hnames : ∀ name ∈ Tool.defaultCompilers, '-' ∉ name.toList → name ≠ "armclang" →
        Architecture.parse? name = none := by decide
    have hsmall : smallWord [] name = name.toList := smallWord_eq hfront hname
    rw [hsmall] at hdash
    rw [hsmall, String.ofList_toList]
    exact hnames name hname hdash fun harm => hother (h.digits rfl harm)

/-- Under these conditions the mode is the same. -/
theorem IsVersionNeutral.modeOf_eq (hne : digits ≠ []) (given : Option Architecture) :
    modeOf (unfound extension (front ++ name.toList ++ '-' :: digits)) given
      = modeOf (unfound extension (front ++ name.toList)) given := by
  have hwhole : smallWord front name ≠ "cl".toList ∧ smallWord front name ≠ "icl".toList :=
    ⟨h.smallWord_ne hfront hname (by decide) (by decide),
      h.smallWord_ne hfront hname (by decide) (by decide)⟩
  have hfamily := recognize?_compiler_version hfront hname hdigits hextension hne hwhole
  have hcompiler := executableName?_compiler hfront hname hextension
  refine modeOf_congr hfamily (recognize?_ne_msvc hcompiler hwhole) ?_ given
  by_cases hdash : '-' ∈ smallWord front name
  · exact h.cross_of_dash hfront hname hdigits hextension hdash
  · exact .inr (h.cross_of_not_mem hfront hname hdigits hextension hdash)

end Neutral

section Same

variable (hne : digits ≠ [])
  (h : modeOf (unfound extension (front ++ name.toList ++ '-' :: digits)) none
    = modeOf (unfound extension (front ++ name.toList)) none)

include hne h

/-- Where the mode is the same without any switch, and a family is known, so is the architecture in
the name. -/
theorem crossArchitecture?_of_modeOf_none_eq {family : Family} (hmsvc : family ≠ .msvc)
    (hfamily : recognize? (unfound extension (front ++ name.toList)) = some family)
    (hwhole : smallWord front name ≠ "cl".toList ∧ smallWord front name ≠ "icl".toList) :
    (crossArchitecture? (unfound extension (front ++ name.toList ++ '-' :: digits))).getD .x64
      = (crossArchitecture? (unfound extension (front ++ name.toList))).getD .x64 := by
  have hsame := recognize?_compiler_version hfront hname hdigits hextension hne hwhole
  rw [modeOf_none hfamily hmsvc, modeOf_none (hsame.trans hfamily) hmsvc] at h
  exact (Mode.mk.inj h).2

/-- So it is not behind `x86-64`, which would be refined. -/
theorem target_of_modeOf_none_eq (hlower : Text.lower front = "x86-64-".toList) :
    name ∈ ["cl", "icl", "clang-cl", "clang-cpp"] := by
  by_contra hother
  have hnames : ∀ name ∈ Tool.defaultCompilers, name ∉ ["cl", "icl", "clang-cl", "clang-cpp"] →
      '-' ∉ name.toList ∧
      executableName? ⟨"x86-64-" ++ name⟩ = some ("x86-64-".toList ++ name.toList) ∧
      ∃ family ∈ [Family.clang, .gcc], recognize? ⟨"x86-64-" ++ name⟩ = some family := by
    decide
  obtain ⟨hname', hnamed, family, hknown, hfamily⟩ := hnames name hname hother
  have heq : smallWord front name = "x86-64-".toList ++ name.toList := by
    rw [smallWord_eq hfront hname, hlower]
  have hcut : Text.splitLast? '-' (smallWord front name)
      = some ("x86-64".toList, name.toList) := by
    exact Text.splitLast?_eq_some_iff.mpr ⟨heq, hname'⟩
  obtain ⟨hx64, hx86⟩ :=
    (crossArchitecture?_compiler_version hfront hname hdigits hextension hcut).2 rfl
  have hcompiler := executableName?_compiler hfront hname hextension
  rw [← recognize?_congr (hcompiler.trans (heq ▸ hnamed.symm))] at hfamily
  have hmsvc : family ≠ .msvc := by
    rintro rfl
    exact absurd hknown (by decide)
  have hsame := crossArchitecture?_of_modeOf_none_eq hfront hname hdigits hextension hne h hmsvc
    hfamily (by simp [heq])
  rw [hx64, hx86] at hsame
  cases hsame

/-- And it is not the one name that begins with an architecture, if that is taken for a target. -/
theorem digits_of_modeOf_none_eq (hbare : front = []) (harm : name = "armclang") :
    ∀ c ∈ digits, c.toNat < 128 := by
  by_contra hother
  subst hbare harm
  have hsmall : smallWord [] "armclang" = "armclang".toList := smallWord_eq hfront hname
  have hcompiler := executableName?_compiler hfront hname hextension
  have hnamed : executableName? ⟨"armclang"⟩ = some "armclang".toList := by decide
  have hfamily : recognize? (unfound extension ([] ++ "armclang".toList)) = some .clang := by
    rw [recognize?_congr (hcompiler.trans (hsmall ▸ hnamed.symm))]
    decide
  -- With other digits behind it, the name is taken for a target, and names the architecture.
  obtain ⟨hnone, hcross⟩ := crossArchitecture?_compiler_version_of_not_mem hfront hname hdigits
    hextension (by rw [hsmall]; decide)
  have hsame := crossArchitecture?_of_modeOf_none_eq hfront hname hdigits hextension hne h
    (by decide) hfamily (by rw [hsmall]; decide)
  have hparse : Architecture.parse? (String.ofList "armclang".toList) = some .arm := by
    decide
  rw [hnone, hcross, if_neg hother, hsmall, hparse] at hsame
  cases hsame

end Same

end Compiler

end Toolchain

/-! ## Invocations -/

namespace Tool.Matcher

variable {m : Matcher} {blanks word rest : List Char} {b : Char}

/-- A bare word of the grammar is read as a whole, if it does not end with the extension. -/
theorem afterDirectory?_of_isTool (hnames : ∀ name ∈ m.names, ∀ c ∈ name, IsPlain c)
    (hextension : ∀ c ∈ m.extension, IsPlain c) (hword : IsTool m.names m.decorated word)
    (hends : m.extension = [] ∨ ¬m.dotted <:+ word) (hb : Text.isBlank b = true) :
    m.afterDirectory? [] ([], word ++ b :: rest) =
      (arguments? (b :: rest)).map fun arguments =>
        ⟨[], word, m.extension.isEmpty, arguments⟩ := by
  have hplain := hword.forall_mem (fun _ hc => hc) hnames
  cases hread : m.afterDirectory? [] ([], word ++ b :: rest) with
  | none =>
    have hnone : arguments? (b :: rest) = none := by
      rw [← Option.not_isSome_iff_eq_none]
      intro harguments
      refine Option.isSome_iff_ne_none.mp (isSome_afterDirectory?_iff.mpr
        ⟨word, m.extension.isEmpty, b :: rest, ?_, hword, by simp, harguments⟩) hread
      simp [ending]
    rw [hnone]
    rfl
  | some c =>
    have hwhole := word_eq_of_isPlain hnames hextension hplain hb hread
    obtain ⟨hdirectory, -, hflag, behind, hcut, harguments⟩ := of_afterDirectory? hread
    -- The flag is that of an absent extension, and nothing was taken for one.
    have hkept : c.hasExtension = m.extension.isEmpty ∧ m.ending c.hasExtension = [] := by
      by_cases hnone : m.extension = []
      · simp [hflag hnone, hnone, ending]
      · have hnot : c.hasExtension = false := by
          rw [Bool.eq_false_iff]
          intro htaken
          refine hends.resolve_left hnone ⟨c.name, ?_⟩
          rw [← hwhole, Matcher.word, ending]
          simp [htaken, hnone]
        simp [hnot, hnone, ending]
    rw [Matcher.word, hkept.2, List.append_nil] at hwhole
    obtain rfl : b :: rest = behind := by
      simpa [Matcher.word, hkept.2, hwhole] using hcut
    obtain ⟨directory, name, hasExtension, arguments⟩ := c
    obtain rfl : directory = [] := hdirectory
    obtain rfl : name = word := hwhole
    obtain rfl : hasExtension = m.extension.isEmpty := hkept.1
    rw [harguments, Option.map_some]

section Names

variable {names : List String} {extension : String}
  (hextension : extension = "" ∨ extension = "exe") (hfile : IsFileWord word)

include hextension hfile

/-- File names of tools do not end with the extension. -/
theorem ends_of_isFileWord : (ofNames names true extension).extension = [] ∨
    ¬(ofNames names true extension).dotted <:+ word := by
  refine hextension.imp (by rintro rfl; rfl) ?_
  rintro rfl ⟨front, rfl⟩
  exact hfile.last 'e' (by simp [dotted, ofNames]) (by decide)

/-- The file name is the word, with the extension if there is one. -/
theorem fileName_of_isFileWord (arguments : List Char) : (ofNames names true extension).fileName
    ⟨[], word, (ofNames names true extension).extension.isEmpty, arguments⟩
      = executable extension word := by
  have hnone : (ofNames names true extension).extension = [] ↔ extension = "" :=
    String.toList_eq_nil_iff
  have hends : (ofNames names true extension).extension = [] ∨
      ¬(ofNames names true extension).dotted <:+ word := ends_of_isFileWord hextension hfile
  rw [fileName_eq, Matcher.word, ending, executable]
  simp only [Bool.and_not_self, Bool.false_eq_true, if_false, List.append_nil, hnone]
  by_cases hextension : extension = ""
  · rw [if_pos (.inl hextension), if_pos hextension]
  · rw [if_neg (not_or.mpr ⟨hextension, hends.resolve_left (mt hnone.mp hextension)⟩),
      if_neg hextension]
    rfl

/-- The name of the tool is the word. -/
theorem toolName_of_isFileWord (arguments : List Char) : (ofNames names true extension).toolName
    ⟨[], word, (ofNames names true extension).extension.isEmpty, arguments⟩ = word := by
  have hends : (ofNames names true extension).extension = [] ∨
      ¬(ofNames names true extension).dotted <:+ word := ends_of_isFileWord hextension hfile
  rw [toolName]
  split
  · rfl
  next hdotted =>
    have hnot : Text.stripEnd? (ofNames names true extension).dotted word = none := by
      rw [← Option.not_isSome_iff_eq_none]
      exact fun h => hends.resolve_left (by simpa using hdotted) (Text.endsWith_iff.mp h)
    rw [hnot, Option.getD_none]

/-- The invocation of a bare word of the grammar, known by its file name, is that of the word. -/
theorem invocation?_of_isTool (hnames : ∀ name ∈ names, name ≠ "" ∧ ∀ c ∈ name.toList, IsPlain c)
    (hword : IsTool (names.map String.toList) true word) (isFile : Path → Bool) (base : Path)
    (hblanks : ∀ c ∈ blanks, Text.isBlank c = true) (hb : Text.isBlank b = true) :
    (ofNames names true extension).invocation? isFile
        (String.ofList (blanks ++ word ++ b :: rest)) base =
      (arguments? (b :: rest)).map fun arguments =>
        { pathInTrace := ""
          toolName := String.ofList word
          fullPath := Path.resolve (String.ofList (executable extension word)) base
          found := isFile (Path.resolve (String.ofList (executable extension word)) base)
          arguments := String.ofList (Text.trim arguments) } := by
  have hmem := @mem_names_ofNames_of_isPlain names true extension hnames
  have htool : IsTool (ofNames names true extension).names true word :=
    (isTool_congr fun name => hmem).mpr hword
  have hplainNames : ∀ name ∈ (ofNames names true extension).names, ∀ c ∈ name, IsPlain c := by
    intro name hname
    obtain ⟨given, hgiven, rfl⟩ := List.mem_map.mp (hmem.mp hname)
    exact (hnames given hgiven).2
  have hplain := htool.forall_mem (fun _ hc => hc) hplainNames
  have hplainExtension : ∀ c ∈ (ofNames names true extension).extension, IsPlain c := by
    rcases hextension with rfl | rfl
    · exact List.forall_mem_nil _
    · have hexe : ∀ c ∈ "exe".toList, IsPlain c := List.all_iff_forall_prop.mp (by decide)
      exact hexe
  have hne : word ≠ [] := by
    obtain ⟨c, hc, -⟩ := hfile.name
    exact List.ne_nil_of_mem hc
  rw [invocation?_of_isPlain hblanks hne hplain hb, command?_of_isPlain hblanks hne hplain hb,
    afterDirectory?_of_isTool hplainNames hplainExtension htool
      (ends_of_isFileWord hextension hfile) hb, Option.map_map]
  refine congrArg (Option.map · _) (funext fun arguments => ?_)
  simp only [Function.comp_apply, fileName_of_isFileWord hextension hfile,
    toolName_of_isFileWord hextension hfile]

end Names

end Tool.Matcher

/-! ## Units -/

namespace CompileUnit

/-- The unit without the path of its compiler. -/
def anonymous (u : CompileUnit) : CompileUnit := { u with compiler := ⟨""⟩ }

namespace Extractor

variable {ω : Type} {e : Extractor ω} {line line' : String} {base : Path} {w : ω}
  {i i' : Tool.Invocation}

/-- Invocations with the same arguments, read in the same style and for the same mode, give the same
units. -/
theorem map_anonymous_extract (hi : e.compilers.invocation? e.isFile line base = some i)
    (hi' : e.compilers.invocation? e.isFile line' base = some i')
    (harguments : i'.arguments = i.arguments)
    (hstyle : Switch.Style.ofTool i'.toolName = .ofTool i.toolName)
    (hmode : ∀ given, Toolchain.modeOf (e.compiler i' w).1 given
      = Toolchain.modeOf (e.compiler i w).1 given) :
    (e.extract line' base w).1.map anonymous = (e.extract line base w).1.map anonymous := by
  have hgroups : languageGroups i' base = languageGroups i base := by
    simp only [languageGroups, harguments, hstyle]
  have hunit : ∀ group, anonymous (e.unitOf i' base (e.compiler i' w).1 group)
      = anonymous (e.unitOf i base (e.compiler i w).1 group) := by
    intro group
    simp only [anonymous, unitOf, harguments, hstyle, hmode]
  rw [fst_extract hi, fst_extract hi', hgroups, List.map_map, List.map_map]
  exact List.map_congr_left fun group _ => hunit group

/-- A compiler that is not found is known by its file name. -/
theorem compiler_of_not_found (hfound : i.found = false)
    (hlookup : (e.lookup i.fileName w).1 = none) : (e.compiler i w).1 = ⟨i.fileName⟩ := by
  rw [compiler, hfound]
  simp [hlookup]

/-- Arguments that each style reads in its own way, and that leave the mode to the compiler. -/
def probe : String := "/DX -x c a.c"

/-- What the probe tells of the style and of the mode. -/
theorem extract_probe (hi : e.compilers.invocation? e.isFile line base = some i)
    (harguments : i.arguments = probe) :
    (e.extract line base w).1.map (fun u => (u.defines, u.mode)) =
      [(if Switch.Style.ofTool i.toolName = .msvc then ["X"] else [],
        Toolchain.modeOf (e.compiler i w).1 none)] := by
  rw [extract, hi]
  simp only [harguments]
  generalize Switch.Style.ofTool i.toolName = style
  have hsources : Switch.files style probe Language.sourceExtensions = ["a.c"] := by
    cases style <;> decide
  have hforced : forcedLanguage? style probe = some .c := by cases style <;> decide
  have hdefines : Switch.repeatable style probe "D" = if style = .msvc then ["X"] else [] := by
    cases style <;> decide
  have harchitecture : architecture? style probe = none := by cases style <;> decide
  simp only [hsources, hforced, hdefines, harchitecture]
  rfl

section Compiler

variable {names : List String} {extension : String} {word : List Char}
  (hnames : ∀ name ∈ names, name ≠ "" ∧ ∀ c ∈ name.toList, IsPlain c)
  (hextension : extension = "" ∨ extension = "exe")
  (hcompilers : e.compilers = .ofNames names true extension)

include hnames hextension hcompilers

/-- What is invoked by a bare word that is not found: a compiler that is known by its file name. -/
theorem exists_invocation?_of_missing (hfile : IsFileWord word)
    (hword : IsTool (names.map String.toList) true word)
    (hmissing : e.isFile (Path.resolve (String.ofList (executable extension word)) base) = false ∧
      (e.lookup (String.ofList (executable extension word)) w).1 = none) :
    ∃ invocation : String → Tool.Invocation,
      (∀ arguments, (invocation arguments).toolName = String.ofList word ∧
        (invocation arguments).arguments = arguments ∧
        (e.compiler (invocation arguments) w).1 = Toolchain.unfound extension word) ∧
      ∀ (blanks : List Char) (b : Char) (rest : List Char),
        (∀ c ∈ blanks, Text.isBlank c = true) → Text.isBlank b = true →
        e.compilers.invocation? e.isFile (String.ofList (blanks ++ word ++ b :: rest)) base =
          (Tool.Matcher.arguments? (b :: rest)).map fun arguments =>
            invocation (String.ofList (Text.trim arguments)) := by
  refine ⟨fun arguments =>
    { pathInTrace := ""
      toolName := String.ofList word
      fullPath := Path.resolve (String.ofList (executable extension word)) base
      found := e.isFile (Path.resolve (String.ofList (executable extension word)) base)
      arguments }, fun arguments => ⟨rfl, rfl, ?_⟩, fun blanks b rest hblanks hb => ?_⟩
  · obtain ⟨hname, hchars⟩ := hfile.isName_executable hextension
    have hfileName := Path.fileName?_resolve hname (by simpa using hchars) base
    rw [compiler_of_not_found hmissing.1]
    · rw [Tool.Invocation.fileName, hfileName, Option.getD_some]
      rfl
    · rw [Tool.Invocation.fileName, hfileName, Option.getD_some]
      exact hmissing.2
  · rw [hcompilers, Tool.Matcher.invocation?_of_isTool hextension hfile hnames hword e.isFile base
      hblanks hb]

/-- What the probe tells of such a compiler. -/
theorem extract_probe_of_missing (hfile : IsFileWord word)
    (hword : IsTool (names.map String.toList) true word)
    (hmissing : e.isFile (Path.resolve (String.ofList (executable extension word)) base) = false ∧
      (e.lookup (String.ofList (executable extension word)) w).1 = none) :
    (e.extract (String.ofList ([] ++ word ++ ' ' :: probe.toList)) base w).1.map
        (fun u => (u.defines, u.mode)) =
      [(if Switch.Style.ofTool (String.ofList word) = .msvc then ["X"] else [],
        Toolchain.modeOf (Toolchain.unfound extension word) none)] := by
  obtain ⟨invocation, hinvocation, hline⟩ := exists_invocation?_of_missing
    hnames hextension hcompilers hfile hword hmissing
  obtain ⟨htoolName, harguments, hcompiler⟩ := hinvocation probe
  have hread := hline [] ' ' probe.toList (List.forall_mem_nil _) (by decide)
  have hbehind : Tool.Matcher.arguments? (' ' :: probe.toList) = some probe.toList := by decide
  have htrim : String.ofList (Text.trim probe.toList) = probe := by decide
  rw [hbehind, Option.map_some, htrim] at hread
  rw [extract_probe hread harguments, htoolName, hcompiler]

/-- Where a decorated compiler is not found, with or without a version, the version changes nothing
but the path of the compiler, whatever the arguments are, exactly if it changes neither the style
nor the architecture that the name tells. -/
theorem extract_version_iff {front digits : List Char} {name : String}
    (hfront : IsDecoration front) (hname : name ∈ Tool.defaultCompilers) (hmem : name ∈ names)
    (hne : digits ≠ []) (hdigits : ∀ c ∈ digits, isVersionChar c = true)
    (hmissing : ∀ word ∈ [front ++ name.toList, front ++ name.toList ++ '-' :: digits],
      e.isFile (Path.resolve (String.ofList (executable extension word)) base) = false ∧
        (e.lookup (String.ofList (executable extension word)) w).1 = none) :
    (∀ (blanks : List Char) (b : Char) (rest : List Char),
      (∀ c ∈ blanks, Text.isBlank c = true) → Text.isBlank b = true →
      let line word := String.ofList (blanks ++ word ++ b :: rest)
      (e.extract (line (front ++ name.toList ++ '-' :: digits)) base w).1.map anonymous =
        (e.extract (line (front ++ name.toList)) base w).1.map anonymous) ↔
      Toolchain.IsVersionNeutral front name digits := by
  have hfile := Tool.isFileWord_compiler hfront hname
  have hfileVersion := Tool.isFileWord_version hfront hname hdigits
  have hstyle := Toolchain.ofTool_version_eq_iff hfront hname hdigits
  have htool : IsTool (names.map String.toList) true (front ++ name.toList) :=
    ⟨front, name.toList, List.mem_map_of_mem hmem, [], by simp, hfront, .none⟩
  have htoolVersion :
      IsTool (names.map String.toList) true (front ++ name.toList ++ '-' :: digits) :=
    ⟨front, name.toList, List.mem_map_of_mem hmem, _, rfl, hfront, .dash hne hdigits⟩
  obtain ⟨invocation, hinvocation, hline⟩ := exists_invocation?_of_missing
    hnames hextension hcompilers hfile htool (hmissing _ (by simp))
  obtain ⟨versioned, hversioned, hlineVersion⟩ := exists_invocation?_of_missing
    hnames hextension hcompilers hfileVersion htoolVersion (hmissing _ (by simp))
  constructor
  -- One line is enough to see the style and the mode of both.
  · intro h
    have htells := extract_probe_of_missing hnames hextension hcompilers hfile htool
      (hmissing _ (by simp))
    have htellsVersion := extract_probe_of_missing hnames hextension hcompilers hfileVersion
      htoolVersion (hmissing _ (by simp))
    have hsame := congrArg (List.map fun u : CompileUnit => (u.defines, u.mode))
      (h [] ' ' probe.toList (List.forall_mem_nil _) (by decide))
    simp only [List.map_map] at hsame
    have hprobe := (htellsVersion.symm.trans hsame).trans htells
    obtain ⟨hdefines, hmode⟩ := Prod.mk.inj (List.cons.inj hprobe).1
    refine ⟨hstyle.mp ?_,
      Toolchain.target_of_modeOf_none_eq hfront hname hdigits hextension hne hmode,
      Toolchain.digits_of_modeOf_none_eq hfront hname hdigits hextension hne hmode⟩
    -- Only Microsoft's style reads a definition behind the slash.
    generalize Switch.Style.ofTool (String.ofList (front ++ name.toList)) = style at hdefines ⊢
    generalize Switch.Style.ofTool _ = styleVersion at hdefines ⊢
    cases style <;> cases styleVersion <;> simp at hdefines ⊢
  -- Both lines are read with the same arguments, or neither is.
  · intro h blanks b rest hblanks hb line
    have hread := hline blanks b rest hblanks hb
    have hreadVersion := hlineVersion blanks b rest hblanks hb
    cases harguments : Tool.Matcher.arguments? (b :: rest) with
    | none =>
      rw [harguments] at hread hreadVersion
      rw [extract, extract, hread, hreadVersion]
      rfl
    | some arguments =>
      rw [harguments] at hread hreadVersion
      obtain ⟨htoolName, hargs, hcompiler⟩ := hinvocation (String.ofList (Text.trim arguments))
      obtain ⟨htoolName', hargs', hcompiler'⟩ := hversioned (String.ofList (Text.trim arguments))
      refine map_anonymous_extract hread hreadVersion (hargs'.trans hargs.symm) ?_ fun given => ?_
      · rw [htoolName, htoolName']
        exact hstyle.mpr h.style
      · rw [hcompiler, hcompiler']
        exact h.modeOf_eq hfront hname hdigits hextension hne given

end Compiler

/-- The extraction with the known compilers, none of which is found. -/
def known : Extractor Unit := { plain with compilers := .ofNames Tool.defaultCompilers true }

/-- A cross compiler is not changed by its version. -/
theorem extract_version_iff_cross :
    (IsDecoration "arm-none-eabi-".toList ∧ "gcc" ∈ Tool.defaultCompilers ∧
        (∀ c ∈ "9.2".toList, isVersionChar c = true) ∧
        Toolchain.IsVersionNeutral "arm-none-eabi-".toList "gcc" "9.2".toList) ∧
      ∀ arguments : String,
        (known.extract ("arm-none-eabi-gcc-9.2 " ++ arguments) ⟨"/w"⟩ ()).1.map anonymous =
          (known.extract ("arm-none-eabi-gcc " ++ arguments) ⟨"/w"⟩ ()).1.map anonymous := by
  have hfront : IsDecoration "arm-none-eabi-".toList :=
    @IsDecoration.group "arm".toList "none-eabi-".toList (List.all_eq_true.mp (by decide))
      (@IsDecoration.group "none".toList "eabi-".toList (List.all_eq_true.mp (by decide))
        (@IsDecoration.group "eabi".toList [] (List.all_eq_true.mp (by decide)) .none))
  have hdigits : ∀ c ∈ "9.2".toList, isVersionChar c = true := List.all_eq_true.mp (by decide)
  have hneutral : Toolchain.IsVersionNeutral "arm-none-eabi-".toList "gcc" "9.2".toList :=
    ⟨fun h => absurd h (by decide), fun h => absurd h (by decide +kernel),
      fun h => absurd h (by decide)⟩
  have hplain : ∀ name ∈ Tool.defaultCompilers, name ≠ "" ∧
      (name.toList.all fun c => decide (IsPlain c)) = true := by decide
  have hnames : ∀ name ∈ Tool.defaultCompilers, name ≠ "" ∧ ∀ c ∈ name.toList, IsPlain c :=
    fun name hname => (hplain name hname).imp_right List.all_iff_forall_prop.mp
  have hname : "gcc" ∈ Tool.defaultCompilers := by decide
  have hcompilers : known.compilers = .ofNames Tool.defaultCompilers true := rfl
  refine ⟨⟨hfront, hname, hdigits, hneutral⟩, fun arguments => ?_⟩
  -- Neither spelling of the word is found as a file or on the search path.
  have hmissing : ∀ word ∈ ["arm-none-eabi-".toList ++ "gcc".toList,
        "arm-none-eabi-".toList ++ "gcc".toList ++ '-' :: "9.2".toList],
      known.isFile (Path.resolve (String.ofList (executable "" word)) ⟨"/w"⟩) = false ∧
        (known.lookup (String.ofList (executable "" word)) ()).1 = none := fun _ _ => ⟨rfl, rfl⟩
  have hsame := (extract_version_iff hnames (.inl rfl) hcompilers hfront hname hname (by decide)
    hdigits hmissing).mpr hneutral [] ' ' arguments.toList (List.forall_mem_nil _) (by decide)
  have hline : ∀ word : String, String.ofList ([] ++ word.toList ++ ' ' :: arguments.toList)
      = word ++ " " ++ arguments := by
    intro word
    rw [← String.toList_inj]
    simp
  have hversioned := hline "arm-none-eabi-gcc-9.2"
  have hcompiler := hline "arm-none-eabi-gcc"
  exact hversioned ▸ hcompiler ▸ hsame

/-- A version takes a compiler out of Microsoft's style, and its definition is no definition any
more. -/
theorem extract_version_style :
    (known.extract "clang-cl /DFOO a.c" ⟨"/w"⟩ ()).1.map (fun u => (u.defines, u.sources))
        = [(["FOO"], [⟨"/w/a.c"⟩])] ∧
      (known.extract "clang-cl-15 /DFOO a.c" ⟨"/w"⟩ ()).1.map (fun u => (u.defines, u.sources))
        = [([], [⟨"/w/a.c"⟩])] := by
  decide

end Extractor

end CompileUnit

end BuildTrace
