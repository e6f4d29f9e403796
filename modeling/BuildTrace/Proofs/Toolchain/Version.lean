import BuildTrace.Proofs.Path.Extension
import BuildTrace.Proofs.Tool.Grammar
import BuildTrace.Proofs.Toolchain.Architecture
import BuildTrace.Tool.Set
import Mathlib

/-!
# Versions behind names

What a version behind the name of a compiler does to the family and the target that are told by the
name, and to the style of its switches. A name ends with a letter or a plus sign, a version does
not, so it is always clear where the version begins. The family looks for names with any version
and does not change. The target in front of a version has the name in it, and the architecture is
still that of the first part. The style knows nothing of versions.

## Main definitions

* `Tool.EndsInLetter`: texts that end as the names of compilers do;
* `Tool.IsFileWord`: words that are the file names of tools;
* `Toolchain.crossArchitecture?`: the architecture in the name of a cross compiler.

## Main results

* `Toolchain.endsVersioned_iff` and `Toolchain.endsVersioned_append`: the names in front of
  versions;
* `Toolchain.recognize?_version`: the family behind a version;
* `Toolchain.crossArchitecture?_of_dash`: the architecture behind a version;
* `Switch.Style.ofTool_version`: the style behind a version.
-/

namespace BuildTrace

/-! ## Versions -/

namespace Tool

variable {s version digits : List Char} {c : Char}

/-- The text ends with a letter or a plus sign, as the names of compilers do. -/
def EndsInLetter (s : List Char) : Prop := (s.getLast?.any fun c => c.isAlpha || c = '+') = true

instance : DecidablePred EndsInLetter := fun s =>
  inferInstanceAs (Decidable ((s.getLast?.any fun c => c.isAlpha || c = '+') = true))

/-- Digits and dots are made small as they are, and are neither letters nor plus signs. -/
theorem of_isVersionChar (h : isVersionChar c = true) :
    Text.IsSimple c ∧ c.toLower = c ∧ (c.isAlpha || c = '+') = false := by
  rw [isVersionChar, Bool.or_eq_true, decide_eq_true_eq] at h
  rcases h with h | rfl
  · obtain ⟨hsimple, hsame⟩ := Text.isSimple_of_isDigit h
    refine ⟨hsimple, hsame, ?_⟩
    -- Letters stand between the ten digits of ASCII and those of the other scripts.
    have hdigit : c.toNat ≤ 57 ∨ 128 ≤ c.toNat := by
      rw [Text.isDigit, Bool.or_eq_true, Bool.and_eq_true, decide_eq_true_eq] at h
      exact h.imp (fun h => (Text.bounds_of_isDigit h).2) And.left
    rw [Bool.eq_false_iff, Ne, Bool.or_eq_true, decide_eq_true_eq]
    rintro (halpha | rfl)
    · have hbounds := Text.bounds_of_isAlpha halpha
      omega
    · exact absurd h (by decide)
  · exact ⟨Text.isSimple_of_lt (by decide), by decide, by decide⟩

/-- The digits of ASCII are those that are read as such. -/
theorem toNat_lt_iff_of_isVersionChar (h : isVersionChar c = true) :
    c.toNat < 128 ↔ c.isDigit = true ∨ c = '.' := by
  rw [isVersionChar, Bool.or_eq_true, decide_eq_true_eq, Text.isDigit, Bool.or_eq_true,
    Bool.and_eq_true, decide_eq_true_eq] at h
  constructor
  · intro hascii
    exact h.imp_left fun h => h.resolve_right fun hother => absurd hascii (Nat.not_lt.mpr hother.1)
  · rintro (h | rfl)
    · exact Nat.lt_of_le_of_lt (Text.bounds_of_isDigit h).2 (by decide)
    · decide

/-- A version is small. -/
theorem lower_append_version (h : ∀ c ∈ digits, isVersionChar c = true) (s : List Char) :
    Text.lower (s ++ '-' :: digits) = Text.lower s ++ '-' :: digits := by
  rw [Text.lower_append_dash, Text.lower_of_isSimple fun c hc => (of_isVersionChar (h c hc)).1,
    List.map_congr_left fun c hc => (of_isVersionChar (h c hc)).2.1, List.map_id']

theorem dash_not_mem (h : ∀ c ∈ digits, isVersionChar c = true) : '-' ∉ digits :=
  fun hmem => absurd (h _ hmem) (by decide)

/-- What ends with a letter does not end with a version. -/
theorem EndsInLetter.eq_nil (h : EndsInLetter (s ++ version)) (hversion : IsVersion version) :
    version = [] := by
  cases hversion with
  | none => rfl
  | @dash digits hne hdigits =>
    obtain ⟨front, last, rfl⟩ : ∃ front last, digits = front ++ [last] :=
      ⟨_, _, (List.dropLast_concat_getLast hne).symm⟩
    rw [EndsInLetter, ← List.cons_append, ← List.append_assoc, List.getLast?_concat,
      Option.any_some, (of_isVersionChar (hdigits last (by simp))).2.2] at h
    cases h

/-- It does not end with a dash and digits, either. -/
theorem not_endsInLetter_dash (h : ∀ c ∈ digits, isVersionChar c = true) (s : List Char) :
    ¬EndsInLetter (s ++ '-' :: digits) := by
  intro hs
  cases digits with
  | nil => simp [EndsInLetter] at hs
  | cons c digits => cases hs.eq_nil (.dash (List.cons_ne_nil c digits) h)

/-- The version at the end of a text is determined. -/
theorem EndsInLetter.append_inj {t version' : List Char} (hs : EndsInLetter s) (ht : EndsInLetter t)
    (hversion : IsVersion version) (hversion' : IsVersion version')
    (h : s ++ version = t ++ version') : s = t ∧ version = version' := by
  have hnone : ∀ {s t version : List Char}, EndsInLetter s → IsVersion version →
      s = t ++ version → s = t ∧ version = [] := by
    rintro s t version hs hversion rfl
    obtain rfl := hs.eq_nil hversion
    exact ⟨List.append_nil t, rfl⟩
  cases hversion with
  | none => exact (hnone hs hversion' (by simpa using h)).imp_right Eq.symm
  | dash _ hdigits =>
    cases hversion' with
    | none => exact (hnone ht (.dash ‹_› hdigits) (by simpa using h.symm)).imp_left Eq.symm
    -- Both are cut at the last dash.
    | dash _ hdigits' =>
      obtain ⟨rfl, rfl⟩ :=
        Text.append_inj_of_last (dash_not_mem hdigits) (dash_not_mem hdigits') h
      exact ⟨rfl, rfl⟩

theorem EndsInLetter.append (h : EndsInLetter s) (front : List Char) :
    EndsInLetter (front ++ s) := by
  rw [EndsInLetter, List.getLast?_append]
  cases hlast : s.getLast? with
  | none => simp [EndsInLetter, hlast] at h
  | some c => simpa [EndsInLetter, hlast] using h

end Tool

namespace Toolchain

open Tool (IsVersion EndsInLetter)

variable {names : List (List Char)} {s version : List Char}

/-! ## Families -/

theorem isVersionSuffix_iff : isVersionSuffix s = true ↔ IsVersion s := by
  rw [Tool.isVersion_iff]
  cases s with
  | nil => simp [isVersionSuffix]
  | cons c version =>
    simp only [isVersionSuffix, Bool.and_eq_true, decide_eq_true_eq, Bool.not_eq_true',
      List.isEmpty_eq_false_iff, List.all_eq_true, Tool.isVersionChar, reduceCtorEq, false_or,
      List.cons.injEq]
    constructor
    · rintro ⟨⟨rfl, hne⟩, hchars⟩
      exact ⟨version, hne, hchars, rfl, rfl⟩
    · rintro ⟨digits, hne, hchars, rfl, rfl⟩
      exact ⟨⟨rfl, hne⟩, hchars⟩

theorem isVersioned_iff : isVersioned names s = true ↔
    ∃ name ∈ names, ∃ version, IsVersion version ∧ s = name ++ version := by
  simp only [isVersioned, List.any_eq_true, Option.any_eq_true, Text.strip?_eq_some_iff,
    isVersionSuffix_iff]
  constructor
  · rintro ⟨name, hname, version, hs, hversion⟩
    exact ⟨name, hname, version, hversion, hs⟩
  · rintro ⟨name, hname, version, hversion, hs⟩
    exact ⟨name, hname, version, hs, hversion⟩

theorem isVersionedBehindDash_iff : isVersionedBehindDash names s = true ↔
    ∃ front t, s = front ++ '-' :: t ∧ isVersioned names t = true := by
  induction s with
  | nil => simp [isVersionedBehindDash]
  | cons c s ih =>
    rw [isVersionedBehindDash, Bool.or_eq_true, Bool.and_eq_true, decide_eq_true_eq, ih]
    constructor
    · rintro (⟨rfl, h⟩ | ⟨front, t, rfl, h⟩)
      · exact ⟨[], s, rfl, h⟩
      · exact ⟨c :: front, t, rfl, h⟩
    · rintro ⟨front, t, hs, h⟩
      cases front with
      | nil =>
        obtain ⟨rfl, rfl⟩ := List.cons.inj hs
        exact .inl ⟨rfl, h⟩
      | cons d front =>
        obtain ⟨rfl, rfl⟩ := List.cons.inj hs
        exact .inr ⟨front, t, rfl, h⟩

/-- A text is put together of what ends with a dash, a name and a version. -/
theorem endsVersioned_iff : endsVersioned names s = true ↔
    ∃ front, ∃ name ∈ names, ∃ version, s = front ++ name ++ version ∧ IsVersion version ∧
      (front = [] ∨ ∃ before, front = before ++ ['-']) := by
  rw [endsVersioned, Bool.or_eq_true, isVersionedBehindDash_iff]
  simp only [isVersioned_iff]
  constructor
  · rintro (⟨name, hname, version, hversion, rfl⟩ |
      ⟨front, _, rfl, name, hname, version, hversion, rfl⟩)
    · exact ⟨[], name, hname, version, rfl, hversion, .inl rfl⟩
    · exact ⟨front ++ ['-'], name, hname, version, by simp, hversion, .inr ⟨front, rfl⟩⟩
  · rintro ⟨_, name, hname, version, rfl, hversion, rfl | ⟨before, rfl⟩⟩
    · exact .inl ⟨name, hname, version, hversion, rfl⟩
    · exact .inr ⟨before, name ++ version, by simp, name, hname, version, hversion, rfl⟩

/-- A version behind a name makes no difference. -/
theorem endsVersioned_append (hs : EndsInLetter s) (hnames : ∀ name ∈ names, EndsInLetter name)
    (hversion : IsVersion version) :
    endsVersioned names (s ++ version) = endsVersioned names s := by
  rw [Bool.eq_iff_iff, endsVersioned_iff, endsVersioned_iff]
  constructor
  · rintro ⟨front, name, hname, version', heq, hversion', hfront⟩
    have hsame := (hs.append_inj ((hnames name hname).append front) hversion hversion' heq).1
    exact ⟨front, name, hname, [], by simpa using hsame, .none, hfront⟩
  · rintro ⟨front, name, hname, version', rfl, hversion', hfront⟩
    obtain rfl := hs.eq_nil hversion'
    exact ⟨front, name, hname, version, by simp, hversion, hfront⟩

/-- The names of the families end as those of compilers do. -/
theorem endsInLetter_of_mem {name : List Char} (h : name ∈ clangNames ++ gccNames) :
    EndsInLetter name := by
  have hall : ∀ name ∈ clangNames ++ gccNames, EndsInLetter name := by decide
  exact hall name h

variable {compiler versioned : Path}

/-- Only the names that are taken as a whole get another family with a version behind them. -/
theorem recognize?_version (hcompiler : executableName? compiler = some s)
    (hversioned : executableName? versioned = some (s ++ version)) (hs : EndsInLetter s)
    (hversion : IsVersion version) (hne : version ≠ [])
    (hwhole : s ≠ "cl".toList ∧ s ≠ "icl".toList) :
    recognize? versioned = recognize? compiler := by
  -- Behind a version, no name is one that is taken as a whole.
  have hwhole' : ¬(s ++ version = "cl".toList ∨ s ++ version = "icl".toList) := by
    have hends : ∀ {name}, EndsInLetter name → s ++ version ≠ name := by
      rintro _ hname rfl
      exact hne (hname.eq_nil hversion)
    rintro (h | h)
    · exact hends (by decide) h
    · exact hends (by decide) h
  have hfamilies : ∀ names ⊆ clangNames ++ gccNames,
      endsVersioned names (s ++ version) = endsVersioned names s := fun names hnames =>
    endsVersioned_append hs (fun name hname => endsInLetter_of_mem (hnames hname)) hversion
  rw [recognize?, recognize?, hcompiler, hversioned]
  simp only [if_neg hwhole', if_neg (not_or.mpr hwhole),
    hfamilies _ (List.subset_append_left _ _), hfamilies _ (List.subset_append_right _ _)]

/-- The family depends on the name in small letters. -/
theorem recognize?_congr (h : executableName? versioned = executableName? compiler) :
    recognize? versioned = recognize? compiler := by
  rw [recognize?, recognize?, h]

theorem recognize?_ne_msvc (hcompiler : executableName? compiler = some s)
    (hwhole : s ≠ "cl".toList ∧ s ≠ "icl".toList) : recognize? compiler ≠ some .msvc := by
  rw [recognize?, hcompiler]
  simp only [if_neg (not_or.mpr hwhole)]
  split
  · exact nofun
  · split <;> exact nofun

/-! ## Cross compilers -/

/-- The architecture in the name of a cross compiler. -/
def crossArchitecture? (compiler : Path) : Option Architecture :=
  (crossTarget? compiler).bind fun target => Architecture.parse? (String.ofList target)

/-- In front of a name the last dash is no version's. -/
theorem crossTarget?_of_endsInLetter (hcompiler : executableName? compiler = some s)
    (hs : EndsInLetter s) : crossTarget? compiler = (Text.splitLast? '-' s).map Prod.fst := by
  rw [crossTarget?, hcompiler, Option.bind_some]
  cases hcut : Text.splitLast? '-' s with
  | none => rfl
  | some parts =>
    obtain ⟨target, last⟩ := parts
    obtain ⟨rfl, -⟩ := Text.splitLast?_eq_some_iff.mp hcut
    -- What is behind the dash is not digits only, since the name would end with a version.
    have hlast : last.all (fun c => c.isDigit || c = '.') = false := by
      rw [Bool.eq_false_iff]
      intro hall
      have hchars : ∀ c ∈ last, Tool.isVersionChar c = true := by
        intro c hc
        have hc := List.all_eq_true.mp hall c hc
        rw [Bool.or_eq_true] at hc
        rw [Tool.isVersionChar, Bool.or_eq_true]
        exact hc.imp_left Text.isDigit_of_charIsDigit
      exact Tool.not_endsInLetter_dash hchars target hs
    simp [hlast]

/-- A version of ASCII characters is told from what is in front of it, others are only where there
is a dash before theirs. -/
theorem crossTarget?_version {digits : List Char}
    (hversioned : executableName? versioned = some (s ++ '-' :: digits)) (hdigits : '-' ∉ digits) :
    crossTarget? versioned =
      if '-' ∈ s ∨ ∃ c ∈ digits, c.isDigit = false ∧ c ≠ '.' then some s else none := by
  rw [crossTarget?, hversioned, Option.bind_some, Text.splitLast?_append hdigits]
  simp

/-- A text in small letters, without white space. -/
def IsSmall (s : List Char) : Prop :=
  ∀ c ∈ s, Text.isBlank c = false ∧ Text.IsSimple c ∧ c.toLower = c

theorem IsSmall.lower_eq (h : IsSmall s) : Text.lower s = s := by
  rw [Text.lower_of_isSimple fun c hc => (h c hc).2.1]
  exact (List.map_congr_left fun c hc => (h c hc).2.2).trans (List.map_id s)

section Cross

variable {digits : List Char} (hcompiler : executableName? compiler = some s)
  (hversioned : executableName? versioned = some (s ++ '-' :: digits)) (hs : EndsInLetter s)
  (hdigits : '-' ∉ digits)

include hcompiler hversioned hs hdigits

/-- With a version behind it, the name itself is a part of the target. Only behind `x86-64` that
makes a difference. -/
theorem crossArchitecture?_of_dash (hsmall : IsSmall s) {target last : List Char}
    (hcut : Text.splitLast? '-' s = some (target, last)) :
    (target ≠ "x86-64".toList → crossArchitecture? versioned = crossArchitecture? compiler) ∧
      (target = "x86-64".toList →
        crossArchitecture? compiler = some .x64 ∧ crossArchitecture? versioned = some .x86) := by
  have htarget : crossTarget? compiler = some target := by
    rw [crossTarget?_of_endsInLetter hcompiler hs, hcut, Option.map_some]
  obtain ⟨rfl, -⟩ := Text.splitLast?_eq_some_iff.mp hcut
  have htargetVersioned : crossTarget? versioned = some (target ++ '-' :: last) := by
    rw [crossTarget?_version hversioned hdigits, if_pos (.inl (by simp))]
  rw [crossArchitecture?, crossArchitecture?, htarget, htargetVersioned, Option.bind_some,
    Option.bind_some]
  have hsmallTarget : IsSmall target := fun c hc => hsmall c (List.mem_append_left _ hc)
  constructor
  · intro hne
    refine Architecture.parse?_append_dash (fun c hc => (hsmallTarget c hc).1)
      (by rwa [hsmallTarget.lower_eq]) fun hwhole => ?_
    have hlast : ∀ c ∈ last, Text.isBlank c = false := fun c hc => (hsmall c (by simp [hc])).1
    rw [Text.trimEnd_eq_self_of_forall hlast, ← Text.lower_append_dash, hsmall.lower_eq] at hwhole
    -- A name does not end with a number.
    rw [hwhole] at hs
    exact absurd hs (by decide)
  · rintro rfl
    refine ⟨by decide, ?_⟩
    -- With a dash behind it, `x86-64` is no name as a whole, and its first part is another one.
    have htrim := Text.trim_eq_self_of_forall fun c hc => (hsmall c hc).1
    simp only [Architecture.parse?, String.toList_ofList, htrim, hsmall.lower_eq]
    rw [if_neg (by simp)]
    rfl

/-- A name without a dash is a target only where the version is not of ASCII characters. -/
theorem crossArchitecture?_of_not_mem (hdash : '-' ∉ s) :
    crossArchitecture? compiler = none ∧ crossArchitecture? versioned =
      if ∃ c ∈ digits, c.isDigit = false ∧ c ≠ '.' then Architecture.parse? (String.ofList s)
      else none := by
  rw [crossArchitecture?, crossArchitecture?, crossTarget?_of_endsInLetter hcompiler hs,
    Text.splitLast?_of_not_mem hdash, crossTarget?_version hversioned hdigits]
  simp only [hdash, false_or]
  refine ⟨rfl, ?_⟩
  split <;> rfl

end Cross

/-! ## Modes -/

/-- The mode depends on the family and the architecture that the name tells. -/
theorem modeOf_congr (hfamily : recognize? versioned = recognize? compiler)
    (hmsvc : recognize? compiler ≠ some .msvc)
    (hcross : recognize? compiler = none ∨
      crossArchitecture? versioned = crossArchitecture? compiler)
    (given : Option Architecture) : modeOf versioned given = modeOf compiler given := by
  rw [modeOf, modeOf, hfamily]
  cases hknown : recognize? compiler with
  | none => rfl
  | some family =>
    have hcross := hcross.resolve_left (hknown ▸ Option.some_ne_none family)
    rw [crossArchitecture?, crossArchitecture?] at hcross
    cases family with
    | msvc => exact absurd hknown hmsvc
    | clang => simp only [hcross]
    | gcc => simp only [hcross]

/-- Without a switch that names one, the architecture is that of the name. -/
theorem modeOf_none {family : Family} (hfamily : recognize? compiler = some family)
    (hmsvc : family ≠ .msvc) :
    modeOf compiler none = ⟨family, (crossArchitecture? compiler).getD .x64⟩ := by
  rw [modeOf, hfamily]
  cases family with
  | msvc => exact absurd rfl hmsvc
  | clang => rfl
  | gcc => rfl

end Toolchain

/-! ## Words -/

namespace Tool

variable {word digits : List Char}

/-- The word is the file name of a tool: it is made small as in ASCII, no character of it means
anything in a path, and it does not end like the extension of executables. -/
structure IsFileWord (word : List Char) : Prop where
  /-- The characters are simple, and written as they are. -/
  chars : ∀ c ∈ word, Text.IsSimple c ∧ Text.isBlank c = false ∧ c ∉ ['/', '"', '\'']
  /-- The word is more than dots. -/
  name : ∃ c ∈ word, c ≠ '.'
  /-- It does not end with `e`. -/
  last : ∀ c ∈ word.getLast?, c.toLower ≠ 'e'

/-- The file name of a tool, with the extension of executables if there is one. -/
def executable (extension : String) (word : List Char) : List Char :=
  if extension = "" then word else word ++ '.' :: extension.toList

namespace IsFileWord

theorem slash_not_mem (h : IsFileWord word) : '/' ∉ word :=
  fun hslash => (h.chars _ hslash).2.2 (by decide)

theorem fileName?_eq (h : IsFileWord word) :
    (Path.mk (String.ofList word)).fileName? = some (String.ofList word) :=
  Path.fileName?_of_isName (Path.isName_of_exists h.slash_not_mem h.name)

theorem lower_eq (h : IsFileWord word) : Text.lower word = word.map Char.toLower :=
  Text.lower_of_isSimple fun c hc => (h.chars c hc).1

/-- The file name is a name, and is written without white space and quotes. -/
theorem isName_executable (h : IsFileWord word) {extension : String}
    (hextension : extension = "" ∨ extension = "exe") :
    Path.IsName (String.ofList (executable extension word)) ∧
      ∀ c ∈ executable extension word, Text.isBlank c = false ∧ c ∉ ['"', '\''] := by
  have hchars : ∀ c ∈ word, Text.isBlank c = false ∧ c ∉ ['"', '\''] := fun c hc =>
    (h.chars c hc).2.imp_right fun hnot hmem => hnot (List.mem_cons_of_mem _ hmem)
  rcases hextension with rfl | rfl
  · exact ⟨Path.isName_of_exists h.slash_not_mem h.name, hchars⟩
  · have hexecutable : executable "exe" word = word ++ ".exe".toList := rfl
    have hexe : ∀ c ∈ ".exe".toList, Text.isBlank c = false ∧ c ∉ ['"', '\''] := by simp; decide
    rw [hexecutable]
    refine ⟨Path.isName_of_exists ?_ ⟨'e', by simp, by decide⟩,
      List.forall_mem_append.mpr ⟨hchars, hexe⟩⟩
    simpa using h.slash_not_mem

/-- Without the extension, a tool is recognized by its word. -/
theorem executableName?_eq (h : IsFileWord word) {extension : String}
    (hextension : extension = "" ∨ extension = "exe") :
    Toolchain.executableName? ⟨String.ofList (executable extension word)⟩
      = some (word.map Char.toLower) := by
  have hname := (h.isName_executable hextension).1
  rw [Toolchain.executableName?, Path.fileName?_of_isName hname, Option.map_some,
    String.toList_ofList]
  rcases hextension with rfl | rfl
  -- A word that does not end with `e` does not lose an extension.
  · have hstrip : Text.stripEnd? ".exe".toList (word.map Char.toLower) = none := by
      rw [Option.eq_none_iff_forall_ne_some]
      intro rest hrest
      have hlast := congrArg List.getLast? (Text.stripEnd?_eq_some_iff.mp hrest)
      rw [List.getLast?_map, List.getLast?_append] at hlast
      obtain ⟨c, hc, hsmall⟩ := Option.map_eq_some_iff.mp hlast
      exact h.last c hc hsmall
    rw [executable, if_pos rfl, h.lower_eq]
    dsimp only
    rw [hstrip, Option.getD_none]
  -- The extension that was put behind the word is taken off again.
  · have hlower : Text.lower (word ++ ".exe".toList) = word.map Char.toLower ++ ".exe".toList := by
      rw [Text.lower_of_isSimple, List.map_append]
      · rfl
      · have hascii : ∀ c ∈ ".exe".toList, c.toNat < 128 := by simp
        exact List.forall_mem_append.mpr
          ⟨fun c hc => (h.chars c hc).1, fun c hc => Text.isSimple_of_lt (hascii c hc)⟩
    have hstrip : Text.stripEnd? ".exe".toList (word.map Char.toLower ++ ".exe".toList)
        = some (word.map Char.toLower) := Text.stripEnd?_eq_some_iff.mpr rfl
    have hexecutable : executable "exe" word = word ++ ".exe".toList := rfl
    rw [hexecutable, hlower]
    dsimp only
    rw [hstrip, Option.getD_some]

end IsFileWord

end Tool

/-! ## Styles -/

namespace Switch.Style

open Tool (IsFileWord EndsInLetter)

variable {word digits : List Char}

/-- The tools of Microsoft's style have plain names. -/
theorem of_mem_msvcTools {stem : List Char} (h : String.ofList stem ∈ msvcTools) :
    EndsInLetter stem ∧ '.' ∉ stem := by
  have hall : ∀ tool ∈ msvcTools, EndsInLetter tool.toList ∧ '.' ∉ tool.toList := by decide
  simpa using hall _ h

/-- The stem of a word decides on the style. -/
theorem ofTool_eq (h : IsFileWord word) : ofTool (String.ofList word) =
    if String.ofList (Text.lower (Path.splitName (String.ofList word)).1.toList) ∈ msvcTools
    then msvc else gnu := by
  rw [ofTool, Path.fileStem?, h.fileName?_eq, Option.map_some]
  simp only [List.contains_iff_mem]

/-- Behind the last dot there is only the extension. -/
theorem stem_append {stem extension : List Char} (h : IsFileWord (stem ++ '.' :: extension))
    (hstem : stem ≠ []) (hextension : '.' ∉ extension) :
    (Path.splitName (String.ofList (stem ++ '.' :: extension))).1 = String.ofList stem := by
  rw [Path.splitName_append h.name hextension, if_neg hstem]

/-- What ends with a version, or has a dot in it, is in the usual style. -/
theorem ofTool_eq_gnu {stem : List Char} (h : IsFileWord word)
    (hstem : (Path.splitName (String.ofList word)).1 = String.ofList stem)
    (hother : ¬EndsInLetter (Text.lower stem) ∨ '.' ∈ Text.lower stem) :
    ofTool (String.ofList word) = gnu := by
  rw [ofTool_eq h, hstem, String.toList_ofList, if_neg]
  intro hmem
  obtain ⟨hletter, hdot⟩ := of_mem_msvcTools hmem
  exact hother.elim (fun hnot => hnot hletter) hdot

/-- A dot at the front cuts nothing. -/
theorem ofTool_eq_gnu_of_hidden {name : List Char} (h : IsFileWord ('.' :: name))
    (hname : '.' ∉ name) : ofTool (String.ofList ('.' :: name)) = gnu := by
  have hwhole := Path.splitName_append (s := []) h.name hname
  rw [List.nil_append, if_pos rfl] at hwhole
  refine ofTool_eq_gnu h (congrArg Prod.fst hwhole) (.inr ?_)
  rw [h.lower_eq]
  exact List.mem_cons_self

/-- A version takes a tool out of Microsoft's style, unless it belongs to what is taken for the
extension of the tool. -/
theorem ofTool_version (hword : IsFileWord word)
    (hversioned : IsFileWord (word ++ '-' :: digits))
    (hdigits : ∀ c ∈ digits, Tool.isVersionChar c = true) :
    ofTool (String.ofList (word ++ '-' :: digits)) =
      if '.' ∈ word ∧ '.' ∉ digits then ofTool (String.ofList word) else gnu := by
  have hversion : ∀ part, (∀ c ∈ part, Tool.isVersionChar c = true) →
      ¬EndsInLetter (Text.lower (word ++ '-' :: part)) := by
    intro part hpart
    rw [Tool.lower_append_version hpart]
    exact Tool.not_endsInLetter_dash hpart _
  by_cases hdigitsDot : '.' ∈ digits
  -- The version is cut, and its beginning is left at the end of the stem.
  · rw [if_neg fun h => h.2 hdigitsDot]
    obtain ⟨major, minor, rfl, hminor⟩ := Text.exists_last_of_mem hdigitsDot
    have hassoc : word ++ '-' :: (major ++ '.' :: minor)
        = (word ++ '-' :: major) ++ '.' :: minor := by simp
    rw [hassoc] at hversioned ⊢
    refine ofTool_eq_gnu hversioned (stem_append hversioned (by simp) hminor) (.inl ?_)
    exact hversion major fun c hc => hdigits c (List.mem_append_left _ hc)
  by_cases hwordDot : '.' ∈ word
  -- The version is behind the last dot, so both words have the same stem.
  · rw [if_pos ⟨hwordDot, hdigitsDot⟩]
    obtain ⟨stem, extension, rfl, hextension⟩ := Text.exists_last_of_mem hwordDot
    have hassoc : stem ++ '.' :: extension ++ '-' :: digits
        = stem ++ '.' :: (extension ++ '-' :: digits) := by simp
    have hbehind : '.' ∉ extension ++ '-' :: digits := by simp [hextension, hdigitsDot]
    rw [hassoc] at hversioned ⊢
    by_cases hstem : stem = []
    · subst hstem
      rw [List.nil_append] at hversioned hword ⊢
      rw [List.nil_append, ofTool_eq_gnu_of_hidden hversioned hbehind,
        ofTool_eq_gnu_of_hidden hword hextension]
    · rw [ofTool_eq hversioned, ofTool_eq hword,
        stem_append hversioned hstem hbehind, stem_append hword hstem hextension]
  · rw [if_neg fun h => hwordDot h.1]
    have hnone : '.' ∉ word ++ '-' :: digits := by simp [hwordDot, hdigitsDot]
    have hstem := congrArg Prod.fst (Path.splitName_of_not_mem hnone)
    exact ofTool_eq_gnu hversioned hstem (.inl (hversion digits hdigits))

end Switch.Style
end BuildTrace
