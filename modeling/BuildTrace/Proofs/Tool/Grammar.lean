import BuildTrace.Tool.Matcher
import BuildTrace.Proofs.Sort
import BuildTrace.Proofs.Text.Split
import BuildTrace.Proofs.Text.Trim
import Mathlib.Data.Bool.AllAny
import Mathlib.Data.List.TakeWhile

/-!
# The grammar of bare commands

A bare command is a word without a directory. Its grammar is small: decorations, the name of a tool
and a version, and behind them the extension of executables. The matcher works through lists of
cuts, in the order in which they are preferred, and looks at what is behind the command before it is
content with a cut. This module says what each of the lists has in it, and that on a line that
begins with a bare word the matcher finds a command exactly when the word is in the grammar: it
takes neither a part of the word nor a later one.

## Main definitions

* `IsDecoration` and `IsVersion`: what may stand in front of a name and behind it;
* `IsTool`: the grammar of the words that name a tool;
* `Matcher.word`: the word that a command was read from.

## Main results

* `Matcher.mem_tools_iff`: the cuts that take a tool are those at the end of a word of the grammar;
* `Matcher.isSome_afterDirectory?_iff`: there is a command if there is a way to read one;
* `Matcher.invocation?_bare`: the lines with a bare word at the beginning that are invocations, and
  the paths of their tools.
-/

namespace BuildTrace.Tool

/-! ## Words -/

/-- Any number of groups of letters, digits, underscores and dots with a dash behind each. -/
@[mk_iff]
inductive IsDecoration : List Char → Prop where
  /-- There may be no group. -/
  | none : IsDecoration []
  /-- A group stands in front of the others. -/
  | group {front rest : List Char} : (∀ c ∈ front, isDecorationChar c = true) →
      IsDecoration rest → IsDecoration (front ++ '-' :: rest)

/-- Nothing, or a dash and some digits and dots. -/
@[mk_iff]
inductive IsVersion : List Char → Prop where
  /-- There may be no version. -/
  | none : IsVersion []
  /-- There is something behind the dash. -/
  | dash {digits : List Char} : digits ≠ [] → (∀ c ∈ digits, isVersionChar c = true) →
      IsVersion ('-' :: digits)

/-- The word is one of the names, with decorations in front of it and a version behind it if there
may be some. -/
def IsTool (names : List (List Char)) (decorated : Bool) (word : List Char) : Prop :=
  ∃ front, ∃ name ∈ names, ∃ version, word = front ++ name ++ version ∧
    if decorated then IsDecoration front ∧ IsVersion version else front = [] ∧ version = []

/-- A character that may stand in a bare word: neither white space nor a quote nor a slash. -/
def IsPlain (c : Char) : Prop := Text.isBlank c = false ∧ c ≠ '"' ∧ isSlash c = false

instance : DecidablePred IsPlain := fun _ => inferInstanceAs (Decidable (_ ∧ _ ∧ _))

/-- White space and double quotes stand between a command and its arguments. -/
def isGap (c : Char) : Bool := Text.isBlank c || c = '"'

/-- What is taken of the extension behind a name. -/
def Matcher.ending (m : Matcher) (hasExtension : Bool) : List Char :=
  if hasExtension && !m.extension.isEmpty then m.dotted else []

/-- The word a command was read from. -/
def Matcher.word (m : Matcher) (c : Command) : List Char := c.name ++ m.ending c.hasExtension

variable {c : Char} {s word : List Char} {cut : Cut}

/-- A class of characters is plain if it has neither white space nor a quote nor a slash. -/
theorem isPlain_of_class {p : Char → Bool} (hblank : ∀ c, p c = true → Text.isBlank c = false)
    (hquote : p '"' = false) (hslash : p '/' = false) (hbackslash : p '\\' = false)
    (h : p c = true) : IsPlain c := by
  refine ⟨hblank c h, ?_, ?_⟩
  · rintro rfl
    exact Bool.false_ne_true (hquote.symm.trans h)
  · rw [isSlash, Bool.or_eq_false_iff, decide_eq_false_iff_not, decide_eq_false_iff_not]
    constructor
    · rintro rfl
      exact Bool.false_ne_true (hslash.symm.trans h)
    · rintro rfl
      exact Bool.false_ne_true (hbackslash.symm.trans h)

theorem isPlain_of_isDecorationChar (h : isDecorationChar c = true) : IsPlain c := by
  refine isPlain_of_class (fun c hc => ?_) (by decide) (by decide) (by decide) h
  simp only [isDecorationChar, Bool.or_eq_true, decide_eq_true_eq] at hc
  rcases hc with (hc | rfl) | rfl
  · exact Text.isBlank_eq_false_of_isAlphanum hc
  · decide
  · decide

theorem isPlain_of_isVersionChar (h : isVersionChar c = true) : IsPlain c := by
  refine isPlain_of_class (fun c hc => ?_) (by decide) (by decide) (by decide) h
  simp only [isVersionChar, Bool.or_eq_true, decide_eq_true_eq] at hc
  rcases hc with hc | rfl
  · exact Text.isBlank_eq_false_of_isDigit hc
  · decide

theorem IsDecoration.isPlain (h : IsDecoration word) : ∀ c ∈ word, IsPlain c := by
  induction h with
  | none => exact List.forall_mem_nil _
  | group hfront _ ih =>
    rw [List.forall_mem_append, List.forall_mem_cons]
    exact ⟨fun c hc => isPlain_of_isDecorationChar (hfront c hc), by decide, ih⟩

theorem IsVersion.isPlain (h : IsVersion word) : ∀ c ∈ word, IsPlain c := by
  cases h with
  | none => exact List.forall_mem_nil _
  | dash _ hdigits =>
    rw [List.forall_mem_cons]
    exact ⟨by decide, fun c hc => isPlain_of_isVersionChar (hdigits c hc)⟩

variable {names : List (List Char)} {decorated : Bool}

/-- What is put around the names is plain, so what holds of plain characters and of the names holds
of the word. -/
theorem IsTool.forall_mem {P : Char → Prop} (h : IsTool names decorated word)
    (hplain : ∀ c, IsPlain c → P c) (hnames : ∀ name ∈ names, ∀ c ∈ name, P c) :
    ∀ c ∈ word, P c := by
  obtain ⟨front, name, hname, version, rfl, haround⟩ := h
  rw [List.forall_mem_append, List.forall_mem_append]
  cases decorated with
  | false =>
    obtain ⟨rfl, rfl⟩ := haround
    exact ⟨⟨List.forall_mem_nil _, hnames name hname⟩, List.forall_mem_nil _⟩
  | true =>
    obtain ⟨hfront, hversion⟩ := haround
    exact ⟨⟨fun c hc => hplain c (hfront.isPlain c hc), hnames name hname⟩,
      fun c hc => hplain c (hversion.isPlain c hc)⟩

theorem isTool_congr {names' : List (List Char)} (h : ∀ name, name ∈ names ↔ name ∈ names') :
    IsTool names decorated word ↔ IsTool names' decorated word := by
  simp only [IsTool, h]

/-! ## Cuts -/

variable {taken rest : List Char}

namespace Cut

theorem mem_andThen_iff {first second : List Char → List Cut} :
    (taken, rest) ∈ andThen first second s ↔
      ∃ a b between, taken = a ++ b ∧ (a, between) ∈ first s ∧ (b, rest) ∈ second between := by
  simp only [andThen, List.mem_flatMap, List.mem_map, Prod.exists, Prod.mk.injEq]
  constructor
  · rintro ⟨a, between, hfirst, b, rest, hsecond, rfl, rfl⟩
    exact ⟨a, b, between, rfl, hfirst, hsecond⟩
  · rintro ⟨a, b, between, rfl, hfirst, hsecond⟩
    exact ⟨a, between, hfirst, b, rest, hsecond, rfl, rfl⟩

@[simp]
theorem nil_notMem_map_cons {cuts : List Cut} : ([], rest) ∉ cuts.map (cons c) := by
  simp [cons]

@[simp]
theorem cons_mem_map_cons_iff {d : Char} {cuts : List Cut} :
    (d :: taken, rest) ∈ cuts.map (cons c) ↔ c = d ∧ (taken, rest) ∈ cuts := by
  simp [cons, and_comm]

/-- The cuts of a run are behind all of its beginnings. -/
theorem mem_runs_iff {p : Char → Bool} :
    (taken, rest) ∈ runs p s ↔ s = taken ++ rest ∧ taken ≠ [] ∧ ∀ c ∈ taken, p c = true := by
  induction s generalizing taken with
  | nil =>
    constructor
    · exact fun h => nomatch h
    · rintro ⟨hs, htaken, -⟩
      exact absurd (List.append_eq_nil_iff.mp hs.symm).1 htaken
  | cons c s ih =>
    cases taken with
    | nil => simp [runs]
    | cons d taken =>
      rw [runs]
      split
      next hc =>
        rw [List.mem_append, cons_mem_map_cons_iff, ih]
        -- The run may end behind its first character.
        by_cases htaken : taken = []
        · subst htaken
          grind
        · grind
      next hc => grind

/-- The cuts of words are behind all of them that the text begins with. -/
theorem mem_words_iff {words : List (List Char)} :
    (taken, rest) ∈ Cut.words words s ↔ s = taken ++ rest ∧ taken ∈ words := by
  simp only [Cut.words, List.mem_filterMap, Option.map_eq_some_iff, Text.strip?_eq_some_iff,
    Prod.mk.injEq]
  constructor
  · rintro ⟨word, hword, rest, hs, rfl, rfl⟩
    exact ⟨hs, hword⟩
  · rintro ⟨hs, hword⟩
    exact ⟨taken, hword, rest, hs, rfl, rfl⟩

end Cut

/-- A group may consist of its dash alone. -/
theorem isDecoration_dash_cons_iff : IsDecoration ('-' :: word) ↔ IsDecoration word := by
  constructor
  · rw [isDecoration_iff]
    rintro (h | ⟨front, rest, hfront, hrest, h⟩)
    · cases h
    · cases front with
      | nil =>
        obtain rfl := (List.cons.inj h).2
        exact hrest
      | cons c front =>
        obtain rfl := (List.cons.inj h).1
        exact absurd (hfront _ List.mem_cons_self) (by decide)
  · exact IsDecoration.group (List.forall_mem_nil _)

/-- A character that is no dash stands in front of a group. -/
theorem isDecoration_cons_iff (hc : c ≠ '-') :
    IsDecoration (c :: word) ↔ isDecorationChar c = true ∧ word ≠ [] ∧ IsDecoration word := by
  constructor
  · rw [isDecoration_iff]
    rintro (h | ⟨front, rest, hfront, hrest, h⟩)
    · cases h
    · cases front with
      | nil => exact absurd (List.cons.inj h).1 hc
      | cons d front =>
        obtain ⟨rfl, rfl⟩ := List.cons.inj h
        obtain ⟨hd, hfront⟩ := List.forall_mem_cons.mp hfront
        exact ⟨hd, by simp, .group hfront hrest⟩
  · rintro ⟨hchar, hword, h⟩
    cases h with
    | none => exact absurd rfl hword
    | group hfront hrest => exact .group (List.forall_mem_cons.mpr ⟨hchar, hfront⟩) hrest

/-- The cuts behind dashes are behind decorations. -/
theorem mem_dashes_iff :
    (taken, rest) ∈ dashes s ↔ s = taken ++ rest ∧ taken ≠ [] ∧ IsDecoration taken := by
  induction s generalizing taken with
  | nil =>
    constructor
    · exact fun h => nomatch h
    · rintro ⟨hs, htaken, -⟩
      exact absurd (List.append_eq_nil_iff.mp hs.symm).1 htaken
  | cons c s ih =>
    cases taken with
    | nil => grind [dashes, Cut.nil_notMem_map_cons]
    | cons d taken =>
      rw [dashes]
      split
      -- Behind a dash the decorations may end, and a character needs a dash to come.
      next hc =>
        subst hc
        rw [List.mem_append, Cut.cons_mem_map_cons_iff, ih]
        have hnone := IsDecoration.none
        grind [isDecoration_dash_cons_iff]
      next hc =>
        split
        next hchar =>
          rw [Cut.cons_mem_map_cons_iff, ih]
          grind [isDecoration_cons_iff]
        next hchar => grind [isDecoration_cons_iff]

/-- The decorations are taken, all of them or not. -/
theorem mem_decorations_iff :
    (taken, rest) ∈ decorations s ↔ s = taken ++ rest ∧ IsDecoration taken := by
  rw [decorations, List.mem_append, mem_dashes_iff, List.mem_singleton, Prod.mk.injEq]
  have hnone := IsDecoration.none
  grind

/-- A version is taken, all of it or not. -/
theorem mem_versions_iff :
    (taken, rest) ∈ versions s ↔ s = taken ++ rest ∧ IsVersion taken := by
  have hnone : IsVersion [] := .none
  unfold versions
  rw [List.mem_append, List.mem_singleton, Prod.mk.injEq]
  split
  next s =>
    cases taken with
    | nil => grind [Cut.nil_notMem_map_cons]
    | cons d taken =>
      rw [Cut.cons_mem_map_cons_iff, Cut.mem_runs_iff, isVersion_iff]
      grind
  next hdash =>
    constructor
    · rintro (h | ⟨rfl, rfl⟩)
      · exact nomatch h
      · exact ⟨rfl, .none⟩
    · rintro ⟨rfl, hversion⟩
      cases hversion with
      | none => exact .inr ⟨rfl, rfl⟩
      | dash => exact absurd rfl (hdash _)

namespace Matcher

variable {m : Matcher}

/-- The cuts that take a tool are behind all words of the grammar that the text begins with. -/
theorem mem_tools_iff :
    (taken, rest) ∈ m.tools s ↔ s = taken ++ rest ∧ IsTool m.names m.decorated taken := by
  rw [tools, IsTool]
  cases m.decorated with
  | false =>
    simp only [Bool.false_eq_true, if_false, Cut.mem_words_iff]
    grind
  | true =>
    simp only [if_true, Cut.mem_andThen_iff, Cut.mem_words_iff, mem_decorations_iff,
      mem_versions_iff]
    constructor
    · rintro ⟨_, version, between, rfl, ⟨front, name, _, rfl, ⟨rfl, hfront⟩, rfl, hname⟩, rfl,
        hversion⟩
      exact ⟨by simp, front, name, hname, version, rfl, hfront, hversion⟩
    · rintro ⟨rfl, front, name, hname, version, rfl, hfront, hversion⟩
      exact ⟨_, version, version ++ rest, rfl,
        ⟨front, name, _, rfl, ⟨by simp, hfront⟩, rfl, hname⟩, rfl, hversion⟩

/-! ## Commands -/

/-- The extension is taken, or it is left where it is if there is one to take. -/
theorem mem_extensions_iff {hasExtension : Bool} :
    (hasExtension, rest) ∈ m.extensions s ↔
      s = m.ending hasExtension ++ rest ∧ (m.extension = [] → hasExtension = true) := by
  rw [extensions, ending, ← List.isEmpty_iff]
  cases m.extension.isEmpty <;> cases hasExtension <;>
    simp [Text.strip?_eq_some_iff, @eq_comm _ rest]

/-- A command that was read tells what it was read from. -/
theorem of_afterDirectory? {close : List Char} {c : Command}
    (h : m.afterDirectory? close cut = some c) :
    c.directory = cut.1 ∧ IsTool m.names m.decorated c.name ∧
      (m.extension = [] → c.hasExtension = true) ∧
        ∃ rest, cut.2 = m.word c ++ close ++ rest ∧ arguments? rest = some c.arguments := by
  obtain ⟨⟨name, behind⟩, htool, h⟩ := List.exists_of_findSome?_eq_some h
  obtain ⟨⟨hasExtension, behind'⟩, hextension, h⟩ := List.exists_of_findSome?_eq_some h
  obtain ⟨arguments, hread, rfl⟩ := Option.map_eq_some_iff.mp h
  obtain ⟨rest, hclose, harguments⟩ := Option.bind_eq_some_iff.mp hread
  obtain ⟨hcut, hname⟩ := mem_tools_iff.mp htool
  obtain ⟨rfl, hflag⟩ := mem_extensions_iff.mp hextension
  obtain rfl := Text.strip?_eq_some_iff.mp hclose
  exact ⟨rfl, hname, hflag, rest, by simp [hcut, word], harguments⟩

/-- There is a command if there is a way to read one. -/
theorem isSome_afterDirectory?_iff {close : List Char} :
    (m.afterDirectory? close cut).isSome = true ↔
      ∃ name hasExtension rest, cut.2 = name ++ m.ending hasExtension ++ close ++ rest ∧
        IsTool m.names m.decorated name ∧ (m.extension = [] → hasExtension = true) ∧
          (arguments? rest).isSome = true := by
  constructor
  · intro h
    obtain ⟨c, h⟩ := Option.isSome_iff_exists.mp h
    obtain ⟨-, hname, hflag, rest, hcut, harguments⟩ := of_afterDirectory? h
    exact ⟨c.name, c.hasExtension, rest, hcut, hname, hflag, by simp [harguments]⟩
  · rintro ⟨name, hasExtension, rest, hcut, hname, hflag, harguments⟩
    rw [afterDirectory?, List.findSome?_isSome_iff]
    refine ⟨(name, m.ending hasExtension ++ close ++ rest), mem_tools_iff.mpr ⟨?_, hname⟩, ?_⟩
    · simpa using hcut
    · rw [List.findSome?_isSome_iff]
      refine ⟨(hasExtension, close ++ rest), mem_extensions_iff.mpr ⟨by simp, hflag⟩, ?_⟩
      rw [Option.isSome_map, Text.strip?_eq_some_iff.mpr rfl]
      exact harguments

theorem arguments?_eq_some_iff {arguments : List Char} :
    arguments? s = some arguments ↔ ∃ c rest, s = c :: rest ∧ isGap c = true ∧
      rest.dropWhile isGap = arguments ∧ '\n' ∉ arguments := by
  cases s with
  | nil => simp [arguments?]
  | cons c rest =>
    change (if isGap c && !(rest.dropWhile isGap).contains '\n' then some (rest.dropWhile isGap)
      else none) = some arguments ↔ _
    rw [Option.ite_none_right_eq_some]
    grind

/-! ## Bare words -/

variable {blanks : List Char} {b : Char}

/-- There is no directory in front of a bare word. -/
theorem slashes_of_isPlain (hword : ∀ c ∈ word, IsPlain c) (hb : Text.isBlank b = true) :
    slashes false (word ++ b :: rest) = [] := by
  induction word with
  | nil =>
    have hquote : b ≠ '"' := by
      rintro rfl
      exact absurd hb (by decide)
    simp [slashes, hquote, hb]
  | cons c word ih =>
    obtain ⟨⟨hblank, hquote, hslash⟩, hword⟩ := List.forall_mem_cons.mp hword
    simp [slashes, hquote, hblank, hslash, ih hword]

/-- The command of a line that begins with a bare word is read right there. -/
theorem command?_of_isPlain (hblanks : ∀ c ∈ blanks, Text.isBlank c = true) (hne : word ≠ [])
    (hword : ∀ c ∈ word, IsPlain c) (hb : Text.isBlank b = true) :
    m.command? (blanks ++ word ++ b :: rest) = m.afterDirectory? [] ([], word ++ b :: rest) := by
  obtain ⟨c, tail, rfl⟩ := List.exists_cons_of_ne_nil hne
  have hslashes : slashes false (c :: tail ++ b :: rest) = [] := slashes_of_isPlain hword hb
  obtain ⟨⟨hblank, hquote, -⟩, -⟩ := List.forall_mem_cons.mp hword
  have hstart : Text.trimStart (blanks ++ (c :: tail) ++ b :: rest) = c :: tail ++ b :: rest := by
    rw [List.append_assoc, Text.trimStart_append_of_forall hblanks, List.cons_append,
      Text.trimStart_cons_of_false hblank]
  simp only [command?, hstart, hslashes]
  split
  next heq => exact absurd (List.cons.inj heq).1 hquote
  next => simp

/-- The word in front of the first character that is not plain is determined. -/
theorem eq_of_append_cons_eq {word' rest' : List Char} {c : Char}
    (hword : ∀ c ∈ word, IsPlain c) (hb : ¬IsPlain b) (hword' : ∀ c ∈ word', IsPlain c)
    (hc : ¬IsPlain c) (h : word ++ b :: rest = word' ++ c :: rest') :
    word = word' := by
  have htake : ∀ (word rest : List Char) (b : Char), (∀ c ∈ word, IsPlain c) → ¬IsPlain b →
      (word ++ b :: rest).takeWhile (IsPlain ·) = word := by
    intro word rest b hword hb
    rw [List.takeWhile_append_of_pos (by simpa using hword), List.takeWhile_cons_of_neg (by simpa),
      List.append_nil]
  rw [← htake word rest b hword hb, h, htake word' rest' c hword' hc]

theorem not_isPlain_of_isGap {c : Char} (h : isGap c = true) : ¬IsPlain c := by
  rintro ⟨hblank, hquote, -⟩
  simp [isGap, hblank, hquote] at h

/-- A character of white space is a gap. -/
theorem isGap_of_isBlank {c : Char} (h : Text.isBlank c = true) : isGap c = true := by
  rw [isGap, h, Bool.true_or]

/-- What holds of plain characters, of the names and of the extension holds of what was read. -/
theorem forall_mem_word {P : Char → Prop} {c : Command} (hplain : ∀ c, IsPlain c → P c)
    (hnames : ∀ name ∈ m.names, ∀ c ∈ name, P c) (hextension : ∀ c ∈ m.extension, P c)
    (h : IsTool m.names m.decorated c.name) : ∀ d ∈ m.word c, P d := by
  refine List.forall_mem_append.mpr ⟨h.forall_mem hplain hnames, ?_⟩
  rw [ending]
  split
  · exact List.forall_mem_cons.mpr ⟨hplain '.' (by decide), hextension⟩
  · exact List.forall_mem_nil _

/-- The file name of the tool is the word, with the extension behind it if it is not there. -/
theorem fileName_eq (m : Matcher) (c : Command) :
    m.fileName c =
      if m.extension = [] ∨ m.dotted <:+ m.word c then m.word c else m.word c ++ m.dotted := by
  rw [fileName, word, ending]
  by_cases hextension : m.extension = []
  · simp [hextension]
  cases c.hasExtension with
  | true => simp [hextension]
  | false =>
    by_cases hdotted : Text.endsWith m.dotted c.name = true <;>
      simp [hextension, hdotted, ← Text.endsWith_iff]

/-- A bare word is read if it is in the grammar, its extension apart. -/
theorem isSome_of_isTool (hb : Text.isBlank b = true) (hrest : '\n' ∉ rest) {name : List Char}
    {hasExtension : Bool} (hname : IsTool m.names m.decorated name)
    (hflag : m.extension = [] → hasExtension = true) :
    (m.afterDirectory? [] ([], name ++ m.ending hasExtension ++ b :: rest)).isSome = true := by
  refine isSome_afterDirectory?_iff.mpr
    ⟨name, hasExtension, b :: rest, by simp, hname, hflag, ?_⟩
  rw [Option.isSome_iff_exists]
  refine ⟨rest.dropWhile isGap, arguments?_eq_some_iff.mpr
    ⟨b, rest, rfl, isGap_of_isBlank hb, rfl, fun hmem => hrest ?_⟩⟩
  exact (List.dropWhile_sublist _).mem hmem

/-- What is taken behind a name is nothing or, if there is an extension, all of it. -/
theorem exists_ending_iff {P : List Char → Prop} :
    (∃ name hasExtension, word = name ++ m.ending hasExtension ∧ P name ∧
        (m.extension = [] → hasExtension = true)) ↔
      P word ∨ m.extension ≠ [] ∧ ∃ stem, word = stem ++ m.dotted ∧ P stem := by
  by_cases hextension : m.extension = []
  · simp [ending, hextension, @and_comm (word = _)]
  · constructor
    · rintro ⟨name, hasExtension, rfl, hname, -⟩
      cases hasExtension with
      | false => exact .inl (by simpa [ending] using hname)
      | true => exact .inr ⟨hextension, name, by simp [ending, hextension], hname⟩
    · rintro (h | ⟨-, stem, rfl, h⟩)
      · exact ⟨word, false, by simp [ending], h, fun hnone => absurd hnone hextension⟩
      · exact ⟨stem, true, by simp [ending, hextension], h, fun _ => rfl⟩

section Bare

variable (hnames : ∀ name ∈ m.names, ∀ c ∈ name, IsPlain c)
  (hextension : ∀ c ∈ m.extension, IsPlain c) (hblanks : ∀ c ∈ blanks, Text.isBlank c = true)
  (hne : word ≠ []) (hword : ∀ c ∈ word, IsPlain c) (hb : Text.isBlank b = true)

include hblanks hne hword hb in
/-- A command without a directory is an invocation, whether there is a file or not. -/
theorem invocation?_of_isPlain (m : Matcher) (isFile : Path → Bool) (base : Path) :
    m.invocation? isFile (String.ofList (blanks ++ word ++ b :: rest)) base =
      (m.command? (blanks ++ word ++ b :: rest)).map fun c =>
        { pathInTrace := ""
          toolName := String.ofList (m.toolName c)
          fullPath := Path.resolve (String.ofList (m.fileName c)) base
          found := isFile (Path.resolve (String.ofList (m.fileName c)) base)
          arguments := String.ofList (Text.trim c.arguments) } := by
  rw [invocation?, String.toList_ofList]
  cases hread : m.command? (blanks ++ word ++ b :: rest) with
  | none => rfl
  | some c =>
    rw [command?_of_isPlain hblanks hne hword hb] at hread
    simp [(of_afterDirectory? hread).1, Path.unquote]

include hnames hextension hword hb in
/-- A command that begins with a bare word was read from that word. -/
theorem word_eq_of_isPlain {c : Command}
    (h : m.afterDirectory? [] ([], word ++ b :: rest) = some c) : m.word c = word := by
  obtain ⟨-, hname, -, behind, hcut, harguments⟩ := of_afterDirectory? h
  obtain ⟨gap, behind, rfl, hgap, -, -⟩ := arguments?_eq_some_iff.mp harguments
  have hread : ∀ d ∈ m.word c, IsPlain d :=
    forall_mem_word (fun _ hd => hd) hnames hextension hname
  rw [List.append_nil] at hcut
  exact (eq_of_append_cons_eq hword (not_isPlain_of_isGap (isGap_of_isBlank hb)) hread
    (not_isPlain_of_isGap hgap) hcut).symm

include hnames hextension hblanks hne hword hb

/-- There is a command on a line that begins with a bare word if the word, or what is in front of
the extension at its end, is in the grammar. -/
theorem isSome_command?_iff (hrest : '\n' ∉ rest) :
    (m.command? (blanks ++ word ++ b :: rest)).isSome = true ↔
      IsTool m.names m.decorated word ∨
        m.extension ≠ [] ∧ ∃ stem, word = stem ++ m.dotted ∧ IsTool m.names m.decorated stem := by
  rw [command?_of_isPlain hblanks hne hword hb, ← exists_ending_iff]
  constructor
  · intro h
    obtain ⟨c, h⟩ := Option.isSome_iff_exists.mp h
    obtain ⟨-, hname, hflag, -⟩ := of_afterDirectory? h
    exact ⟨c.name, c.hasExtension, (word_eq_of_isPlain hnames hextension hword hb h).symm, hname,
      hflag⟩
  · rintro ⟨name, hasExtension, rfl, hname, hflag⟩
    exact isSome_of_isTool hb hrest hname hflag

/-- The path of a bare tool leads to its word, which gets the extension if it does not end with
it. -/
theorem fullPath_of_invocation? {isFile : Path → Bool} {base : Path} {i : Invocation}
    (h : m.invocation? isFile (String.ofList (blanks ++ word ++ b :: rest)) base = some i) :
    i.fullPath = Path.resolve (String.ofList
      (if m.extension = [] ∨ m.dotted <:+ word then word else word ++ m.dotted)) base := by
  rw [invocation?_of_isPlain hblanks hne hword hb, command?_of_isPlain hblanks hne hword hb] at h
  obtain ⟨c, hread, rfl⟩ := Option.map_eq_some_iff.mp h
  have hfile := m.fileName_eq c
  rw [word_eq_of_isPlain hnames hextension hword hb hread] at hfile
  rw [hfile]

end Bare

/-- The names of a matcher are the given ones without white space at their ends. -/
theorem mem_names_ofNames {names : List String} {decorated : Bool} {extension : String}
    {name : List Char} : name ∈ (ofNames names decorated extension).names ↔
      name ≠ [] ∧ ∃ given ∈ names, Text.trim given.toList = name := by
  simp [ofNames, and_comm]

/-- Plain names are taken as they are given. -/
theorem mem_names_ofNames_of_isPlain {names : List String} {decorated : Bool} {extension : String}
    (h : ∀ name ∈ names, name ≠ "" ∧ ∀ c ∈ name.toList, IsPlain c) {name : List Char} :
    name ∈ (ofNames names decorated extension).names ↔ name ∈ names.map String.toList := by
  rw [mem_names_ofNames, List.mem_map]
  have htrim : ∀ given ∈ names, Text.trim given.toList = given.toList :=
    fun given hgiven => Text.trim_eq_self_of_forall fun c hc => ((h given hgiven).2 c hc).1
  constructor
  · rintro ⟨-, given, hgiven, rfl⟩
    exact ⟨given, hgiven, (htrim given hgiven).symm⟩
  · rintro ⟨given, hgiven, rfl⟩
    exact ⟨by simpa using (h given hgiven).1, given, hgiven, htrim given hgiven⟩

/-- A line that begins with a bare word is an invocation exactly when the word, or what is in front
of the extension at its end, is in the grammar. The path of the tool leads from the directory to
the word, which gets the extension if it does not end with it. -/
theorem invocation?_bare (names : List String) (decorated : Bool) (extension : String)
    (known : List Path) (isFile : Path → Bool) (base : Path) (blanks word rest : List Char)
    (b : Char) (hnames : ∀ name ∈ names, name ≠ "" ∧ ∀ c ∈ name.toList, IsPlain c)
    (hextension : ∀ c ∈ extension.toList, IsPlain c)
    (hblanks : ∀ c ∈ blanks, Text.isBlank c = true) (hne : word ≠ [])
    (hword : ∀ c ∈ word, IsPlain c) (hb : Text.isBlank b = true) (hrest : '\n' ∉ rest) :
    let m : Matcher := { ofNames names decorated extension with knownPaths := known }
    let found := m.invocation? isFile (String.ofList (blanks ++ word ++ b :: rest)) base
    let dotted := '.' :: extension.toList
    (found.isSome = true ↔ IsTool (names.map String.toList) decorated word ∨
        extension ≠ "" ∧ ∃ stem, word = stem ++ dotted ∧
          IsTool (names.map String.toList) decorated stem) ∧
      ∀ i, found = some i → i.fullPath =
        Path.resolve (String.ofList
          (if extension = "" ∨ dotted <:+ word then word else word ++ dotted)) base := by
  intro m found dotted
  have hmem : ∀ name, name ∈ m.names ↔ name ∈ names.map String.toList :=
    fun name => @mem_names_ofNames_of_isPlain names decorated extension hnames name
  have hplain : ∀ name ∈ m.names, ∀ c ∈ name, IsPlain c := by
    intro name hname
    obtain ⟨given, hgiven, rfl⟩ := List.mem_map.mp ((hmem name).mp hname)
    exact (hnames given hgiven).2
  -- The matcher keeps the extension as a list of characters.
  have hempty : m.extension = [] ↔ extension = "" := String.toList_eq_nil_iff
  constructor
  · have hsome := isSome_command?_iff hplain hextension hblanks hne hword hb hrest
    simp only [isTool_congr hmem, ne_eq, hempty] at hsome
    rw [show found = _ from invocation?_of_isPlain hblanks hne hword hb m isFile base,
      Option.isSome_map]
    exact hsome
  · intro i hi
    rw [fullPath_of_invocation? hplain hextension hblanks hne hword hb hi]
    simp only [hempty]
    rfl

/-- A cross compiler with a version and the extension is recognized, and its path is the word. -/
theorem invocation?_bare_cross :
    (∀ name ∈ ["gcc", "clang", "clang-cl"], name ≠ "" ∧ ∀ c ∈ name.toList, IsPlain c) ∧
      (∀ c ∈ "exe".toList, IsPlain c) ∧ (∀ c ∈ [' ', '\t'], Text.isBlank c = true) ∧
      (∀ c ∈ "arm-none.1-gcc-9.2.exe".toList, IsPlain c) ∧ '\n' ∉ "-c \"a b\".c".toList ∧
      ∃ i, { ofNames ["gcc", "clang", "clang-cl"] true "exe" with knownPaths := [] }.invocation?
          (fun _ => false) " \tarm-none.1-gcc-9.2.exe -c \"a b\".c" ⟨"/w"⟩ = some i ∧
        i.fullPath = ⟨"/w/arm-none.1-gcc-9.2.exe"⟩ := by
  have hall : ∀ name ∈ ["gcc", "clang", "clang-cl"],
      name ≠ "" ∧ (name.toList.all (IsPlain ·)) = true := by
    decide
  have hnames : ∀ name ∈ ["gcc", "clang", "clang-cl"],
      name ≠ "" ∧ ∀ c ∈ name.toList, IsPlain c :=
    fun name hname => (hall name hname).imp_right List.all_iff_forall_prop.mp
  have hextension : ∀ c ∈ "exe".toList, IsPlain c := List.all_iff_forall_prop.mp (by decide)
  have hblanks : ∀ c ∈ [' ', '\t'], Text.isBlank c = true := List.all_eq_true.mp (by decide)
  have hword : ∀ c ∈ "arm-none.1-gcc-9.2.exe".toList, IsPlain c :=
    List.all_iff_forall_prop.mp (by decide)
  have hrest : '\n' ∉ "-c \"a b\".c".toList := by decide
  refine ⟨hnames, hextension, hblanks, hword, hrest, ?_⟩
  obtain ⟨hiff, hpath⟩ := invocation?_bare ["gcc", "clang", "clang-cl"] true "exe" []
    (fun _ => false) ⟨"/w"⟩ [' ', '\t'] "arm-none.1-gcc-9.2.exe".toList "-c \"a b\".c".toList ' '
    hnames hextension hblanks (by decide) hword (by decide) hrest
  -- The word is taken apart: two groups in front of the name, and a version behind it.
  have hfront : IsDecoration "arm-none.1-".toList :=
    @IsDecoration.group "arm".toList "none.1-".toList (List.all_eq_true.mp (by decide))
      (@IsDecoration.group "none.1".toList [] (List.all_eq_true.mp (by decide)) .none)
  have hversion : IsVersion "-9.2".toList :=
    @IsVersion.dash "9.2".toList (by decide) (List.all_eq_true.mp (by decide))
  have htool : IsTool (["gcc", "clang", "clang-cl"].map String.toList) true
      "arm-none.1-gcc-9.2".toList :=
    ⟨"arm-none.1-".toList, "gcc".toList, by decide, "-9.2".toList, by decide, hfront, hversion⟩
  obtain ⟨i, hi⟩ := Option.isSome_iff_exists.mp
    (hiff.mpr (.inr ⟨by decide, "arm-none.1-gcc-9.2".toList, by decide, htool⟩))
  exact ⟨i, hi, (hpath i hi).trans (by decide +kernel)⟩

end Matcher

end BuildTrace.Tool
