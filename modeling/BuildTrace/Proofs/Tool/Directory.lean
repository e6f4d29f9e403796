import BuildTrace.Proofs.Text.Occurrence
import BuildTrace.Proofs.Tool.Arguments

/-!
# Commands with a directory

The matcher cuts a command behind each of its slashes, the last one first, and behind a cut it
looks for the longest name that fits. So a command whose last part is a name is read up to its end,
unless a name with white space in it goes on behind it: then the command is read beyond its first
word. This module says exactly when that does not happen, for names that carry no decorations, where
executables have no extension.

## Main definitions

* `IsTail`: what is left of a word behind a slash;
* `Matcher.Fits`: a name at the beginning of a text, with arguments behind it;
* `Overruns`: a name goes on behind a word;
* `EndsAt`: the command is read up to the end of its first word.

## Main results

* `mem_slashes_iff` and `pairwise_slashes`: where a word is cut, and in which order;
* `Matcher.name_of_afterDirectory?`: behind a cut the longest name is read;
* `Matcher.exists_shortest_of_isTail`: the command is read behind the last slash where one can be;
* `Matcher.command?_of_isTail`: what is read of a word with a directory.
-/

namespace BuildTrace

namespace Tool

variable {m : Matcher} {word tail a : List Char} {b : Char} {rest : List Char}

/-! ## Slashes -/

/-- What is left of the word behind one of its slashes. -/
def IsTail (word tail : List Char) : Prop :=
  ∃ front slash, word = front ++ slash :: tail ∧ isSlash slash = true

theorem slashes_cons {c : Char} {s : List Char} (hc : isGap c = false) :
    slashes false (c :: s) =
      (slashes false s).map (Cut.cons c) ++ if isSlash c then [([c], s)] else [] := by
  obtain ⟨hblank, hquote⟩ : Text.isBlank c = false ∧ c ≠ '"' := by simpa [isGap] using hc
  simp [slashes, hquote, hblank]

/-- A directory ends in front of white space. -/
theorem slashes_of_isBlank {s : List Char} (hb : Text.isBlank b = true) :
    slashes false (b :: s) = [] := by
  have hquote : b ≠ '"' := by
    rintro rfl
    exact absurd hb (by decide)
  simp [slashes, hquote, hb]

section Word

variable (hword : ∀ c ∈ word, isGap c = false) (hb : Text.isBlank b = true)

include hword hb

/-- A word without white space and quotes can be cut behind each of its slashes. -/
theorem mem_slashes_iff {cut : Cut} : cut ∈ slashes false (word ++ b :: rest) ↔
    ∃ front slash tail, word = front ++ slash :: tail ∧ isSlash slash = true ∧
      cut = (front ++ [slash], tail ++ b :: rest) := by
  induction word generalizing cut with
  | nil => simp [slashes_of_isBlank hb]
  | cons c word ih =>
    obtain ⟨hc, hword⟩ := List.forall_mem_cons.mp hword
    rw [List.cons_append, slashes_cons hc, List.mem_append, List.mem_map]
    constructor
    · rintro (⟨cut, hcut, rfl⟩ | hcut)
      · obtain ⟨front, slash, tail, rfl, hslash, rfl⟩ := (ih hword).mp hcut
        exact ⟨c :: front, slash, tail, rfl, hslash, rfl⟩
      · split at hcut
        next hslash => exact ⟨[], c, word, rfl, hslash, List.mem_singleton.mp hcut⟩
        next => cases hcut
    · rintro ⟨front, slash, tail, heq, hslash, rfl⟩
      cases front with
      | nil =>
        obtain ⟨rfl, rfl⟩ := List.cons.inj heq
        exact .inr (by simp [hslash])
      | cons d front =>
        obtain ⟨rfl, rfl⟩ := List.cons.inj heq
        exact .inl ⟨_, (ih hword).mpr ⟨front, slash, tail, rfl, hslash, rfl⟩, rfl⟩

/-- Something is cut off with each slash. -/
theorem length_of_mem_slashes {cut : Cut} (h : cut ∈ slashes false (word ++ b :: rest)) :
    cut.2.length < (word ++ b :: rest).length := by
  obtain ⟨front, slash, tail, rfl, -, rfl⟩ := (mem_slashes_iff hword hb).mp h
  simp
  omega

/-- The last slash comes first. -/
theorem pairwise_slashes :
    (slashes false (word ++ b :: rest)).Pairwise fun a b => a.2.length < b.2.length := by
  induction word with
  | nil => simp [slashes_of_isBlank hb]
  | cons c word ih =>
    obtain ⟨hc, hword⟩ := List.forall_mem_cons.mp hword
    rw [List.cons_append, slashes_cons hc]
    refine List.pairwise_append.mpr
      ⟨List.pairwise_map.mpr (ih hword), by split <;> simp, fun cut hcut whole hwhole => ?_⟩
    -- More is left behind the first slash than behind any later one.
    obtain ⟨longer, hlonger, rfl⟩ := List.mem_map.mp hcut
    have hless := length_of_mem_slashes hword hb hlonger
    split at hwhole
    · rw [List.mem_singleton.mp hwhole]
      exact hless
    · cases hwhole

end Word

/-! ## Names in order of preference -/

namespace Matcher

theorem byteLength_le_of_goesBefore {s t : List Char} (h : goesBefore s t = true) :
    Text.byteLength t ≤ Text.byteLength s := by
  simp only [goesBefore, Bool.or_eq_true, Bool.and_eq_true, decide_eq_true_eq, beq_iff_eq] at h
  omega

/-- Of two names, one goes before the other. -/
theorem goesBefore_total (s t : List Char) : goesBefore s t = true ∨ goesBefore t s = true := by
  simp only [goesBefore, Bool.or_eq_true, Bool.and_eq_true, Bool.not_eq_true', decide_eq_true_eq,
    decide_eq_false_iff_not, beq_iff_eq]
  rcases Nat.lt_trichotomy (Text.byteLength s) (Text.byteLength t) with h | h | h
  · exact .inr (.inl h)
  · rcases List.le_total s t with hle | hle
    · exact .inl (.inr ⟨h, hle⟩)
    · exact .inr (.inr ⟨h.symm, hle⟩)
  · exact .inl (.inl h)

theorem goesBefore_trans (s t u : List Char) (hst : goesBefore s t = true)
    (htu : goesBefore t u = true) : goesBefore s u = true := by
  simp only [goesBefore, Bool.or_eq_true, Bool.and_eq_true, Bool.not_eq_true', decide_eq_true_eq,
    decide_eq_false_iff_not, beq_iff_eq] at hst htu ⊢
  rcases hst with hst | ⟨hst, hle⟩
  · exact .inl (by omega)
  · rcases htu with htu | ⟨htu, hle'⟩
    · exact .inl (by omega)
    · exact .inr ⟨hst.trans htu, List.le_trans hle hle'⟩

/-- The names of a matcher are in order. -/
theorem pairwise_names_ofNames (names : List String) (decorated : Bool) (extension : String) :
    (ofNames names decorated extension).names.Pairwise fun s t => goesBefore s t = true :=
  pairwise_sortBy goesBefore_total goesBefore_trans _

/-- The text begins with the name, and there are arguments behind it. -/
def Fits (name s : List Char) : Prop :=
  ∃ rest, s = name ++ rest ∧ (arguments? rest).isSome = true

theorem isSome_strip?_bind_iff {name s : List Char} {f : List Char → Command} :
    ((Text.strip? name s).bind fun rest => (arguments? rest).map f).isSome = true ↔
      Fits name s := by
  simp only [Fits, ← Text.strip?_eq_some_iff]
  cases Text.strip? name s <;> simp

variable {cut : Cut} {c : Command}

/-- A command without decorations begins with the first name that fits. -/
theorem afterDirectory?_of_undecorated (hplain : m.decorated = false)
    (hextension : m.extension = []) (cut : Cut) :
    m.afterDirectory? [] cut = m.names.findSome? fun name =>
      (Text.strip? name cut.2).bind fun rest =>
        (arguments? rest).map (Command.mk cut.1 name true) := by
  have hextensions : ∀ s, m.extensions s = [(true, s)] := by simp [extensions, hextension]
  rw [afterDirectory?, tools, hplain, if_neg Bool.false_ne_true, Cut.words]
  simp only [hextensions, List.findSome?_singleton, Text.strip?, Option.bind_some]
  induction m.names with
  | nil => rfl
  | cons name names ih =>
    cases hstrip : Text.strip? name cut.2 <;> simp [List.findSome?_cons, hstrip, ih]

section Undecorated

variable (hplain : m.decorated = false) (hextension : m.extension = [])

include hplain hextension

theorem isSome_afterDirectory?_of_undecorated : (m.afterDirectory? [] cut).isSome = true ↔
    ∃ name ∈ m.names, Fits name cut.2 := by
  rw [afterDirectory?_of_undecorated hplain hextension, List.findSome?_isSome_iff]
  simp only [isSome_strip?_bind_iff]

/-- The name of such a command is the longest one that fits. -/
theorem name_of_afterDirectory? (hsorted : m.names.Pairwise fun s t => goesBefore s t = true)
    (h : m.afterDirectory? [] cut = some c) :
    c.directory = cut.1 ∧ c.name ∈ m.names ∧
      (∃ rest, cut.2 = c.name ++ rest ∧ arguments? rest = some c.arguments) ∧
      ∀ name ∈ m.names, Fits name cut.2 → name <+: c.name := by
  rw [afterDirectory?_of_undecorated hplain hextension] at h
  obtain ⟨name, hname, hread, hfirst⟩ := exists_first_of_findSome? hsorted h
  obtain ⟨rest, hstrip, hread⟩ := Option.bind_eq_some_iff.mp hread
  obtain ⟨arguments, harguments, rfl⟩ := Option.map_eq_some_iff.mp hread
  have hcut := Text.strip?_eq_some_iff.mp hstrip
  refine ⟨rfl, hname, ⟨rest, hcut, harguments⟩, ?_⟩
  intro other hother hfits
  have hbefore := hfirst other hother (isSome_strip?_bind_iff.mpr hfits)
  obtain ⟨rest', hcut', -⟩ := hfits
  rcases hbefore with rfl | hbefore
  · exact List.prefix_rfl
  -- The text begins with both names, and the one that goes before is not the shorter one.
  · rcases List.prefix_or_prefix_of_prefix ⟨rest', hcut'.symm⟩ ⟨rest, hcut.symm⟩ with h | h
    · exact h
    · have hsame := Text.eq_of_prefix_of_byteLength_le h (byteLength_le_of_goesBefore hbefore)
      exact hsame ▸ List.prefix_rfl

end Undecorated

end Matcher

/-! ## Words in front of arguments -/

theorem IsTail.ne_nil (h : IsTail word tail) : word ≠ [] := by
  obtain ⟨front, slash, rfl, -⟩ := h
  simp

theorem IsTail.suffix (h : IsTail word tail) : tail <:+ word := by
  obtain ⟨front, slash, rfl, -⟩ := h
  exact ⟨front ++ [slash], by simp⟩

theorem IsTail.eq_of_length_le {other : List Char} (h : IsTail word tail)
    (hother : IsTail word other) (hle : tail.length ≤ other.length)
    (hge : other.length ≤ tail.length) : tail = other :=
  (List.suffix_of_suffix_length_le h.suffix hother.suffix hle).eq_of_length_le hge

/-- A name goes on behind the word, over the white space that follows it, and there are arguments
behind it. -/
def Overruns (names : List (List Char)) (word a : List Char) : Prop :=
  ∃ more gap rest, word ++ ' ' :: more ∈ names ∧ a = more ++ gap :: rest ∧ isGap gap = true

/-- A tail of the word is a name, and no name goes on behind it or behind a shorter tail. -/
def EndsAt (names : List (List Char)) (word a : List Char) : Prop :=
  ∃ tail ∈ names, IsTail word tail ∧
    ∀ other, IsTail word other → other.length ≤ tail.length → ¬Overruns names other a

namespace Matcher

theorem arguments?_cons {gap : Char} (hgap : isGap gap = true) (hrest : '\n' ∉ rest) :
    arguments? (gap :: rest) = some (rest.dropWhile isGap) :=
  arguments?_eq_some_iff.mpr
    ⟨gap, rest, rfl, hgap, rfl, fun h => hrest ((List.dropWhile_sublist _).mem h)⟩

/-- A name fits if it is the word, or goes on behind it. -/
theorem fits_iff (htail : ∀ c ∈ tail, isGap c = false) (ha : '\n' ∉ a) {name : List Char} :
    Fits name (tail ++ ' ' :: a) ↔ name = tail ∨
      ∃ more gap rest, name = tail ++ ' ' :: more ∧ a = more ++ gap :: rest ∧ isGap gap = true := by
  constructor
  · rintro ⟨rest, hcut, hsome⟩
    obtain ⟨arguments, harguments⟩ := Option.isSome_iff_exists.mp hsome
    obtain ⟨gap, rest, rfl, hgap, -, -⟩ := arguments?_eq_some_iff.mp harguments
    obtain ⟨more, rfl, hrest⟩ := exists_append_of_isGap_eq_false htail hgap hcut
    cases more with
    | nil => exact .inl (List.append_nil _)
    | cons space more =>
      obtain ⟨rfl, rfl⟩ := List.cons.inj hrest
      exact .inr ⟨more, gap, rest, rfl, rfl, hgap⟩
  · rintro (rfl | ⟨more, gap, rest, rfl, rfl, hgap⟩)
    · exact ⟨' ' :: a, rfl, by rw [arguments?_cons (by decide) ha]; rfl⟩
    · have hrest : '\n' ∉ rest := fun h => ha (by simp [h])
      exact ⟨gap :: rest, by simp, by rw [arguments?_cons hgap hrest]; rfl⟩

/-- The command of a line that begins with a word is the first one that is read behind a slash of
the word, or without a directory. -/
theorem command?_of_forall (hne : word ≠ []) (hword : ∀ c ∈ word, isGap c = false) :
    m.command? (word ++ ' ' :: a) =
      (slashes false (word ++ ' ' :: a) ++ [([], word ++ ' ' :: a)]).findSome?
        (m.afterDirectory? []) := by
  obtain ⟨c, tail, rfl⟩ := List.exists_cons_of_ne_nil hne
  obtain ⟨hblank, hquote⟩ : Text.isBlank c = false ∧ c ≠ '"' := by
    simpa [isGap] using hword c List.mem_cons_self
  rw [command?, List.cons_append, Text.trimStart_cons_of_false hblank]
  split
  next heq => exact absurd (List.cons.inj heq).1 hquote
  next => rw [Option.none_or]

variable {c : Command} {directory : List Char} (hplain : m.decorated = false)
  (hextension : m.extension = [])

include hplain hextension

/-- A command is read behind a directory if a name ends where the word does, or goes on. -/
theorem isSome_afterDirectory?_word_iff (htail : ∀ c ∈ tail, isGap c = false) (ha : '\n' ∉ a) :
    (m.afterDirectory? [] (directory, tail ++ ' ' :: a)).isSome = true ↔
      tail ∈ m.names ∨ Overruns m.names tail a := by
  simp only [isSome_afterDirectory?_of_undecorated hplain hextension, fits_iff htail ha, Overruns]
  constructor
  · rintro ⟨name, hname, rfl | ⟨more, gap, rest, rfl, hmore⟩⟩
    · exact .inl hname
    · exact .inr ⟨more, gap, rest, hname, hmore⟩
  · rintro (hname | ⟨more, gap, rest, hname, hmore⟩)
    · exact ⟨tail, hname, .inl rfl⟩
    · exact ⟨_, hname, .inr ⟨more, gap, rest, rfl, hmore⟩⟩

/-- The word is cut in front of such a tail. -/
theorem exists_cut_of_isTail (hword : ∀ c ∈ word, isGap c = false) (ha : '\n' ∉ a)
    (htail : IsTail word tail) (h : tail ∈ m.names ∨ Overruns m.names tail a) :
    ∃ cut ∈ slashes false (word ++ ' ' :: a), cut.2 = tail ++ ' ' :: a ∧
      (m.afterDirectory? [] cut).isSome = true := by
  obtain ⟨front, slash, rfl, hslash⟩ := htail
  have hgaps : ∀ c ∈ tail, isGap c = false := fun c hc => hword c (by simp [hc])
  exact ⟨_, (mem_slashes_iff hword (by decide)).mpr ⟨front, slash, tail, rfl, hslash, rfl⟩, rfl,
    (isSome_afterDirectory?_word_iff hplain hextension hgaps ha).mpr h⟩

/-- The command of a word is read behind the shortest such tail. -/
theorem exists_shortest_of_isTail (hword : ∀ c ∈ word, isGap c = false) (ha : '\n' ∉ a)
    (hname : ∃ tail ∈ m.names, IsTail word tail) :
    ∃ c directory tail, m.command? (word ++ ' ' :: a) = some c ∧ directory ≠ [] ∧
      word = directory ++ tail ∧ IsTail word tail ∧
      m.afterDirectory? [] (directory, tail ++ ' ' :: a) = some c ∧
      ∀ other, IsTail word other → other ∈ m.names ∨ Overruns m.names other a →
        tail.length ≤ other.length := by
  have hspace : Text.isBlank ' ' = true := by decide
  obtain ⟨known, hknown, hknownTail⟩ := hname
  obtain ⟨cut, hcut, -, hsome⟩ :=
    exists_cut_of_isTail hplain hextension hword ha hknownTail (.inl hknown)
  obtain ⟨c, hc⟩ := Option.isSome_iff_exists.mp (List.findSome?_isSome_iff.mpr ⟨cut, hcut, hsome⟩)
  obtain ⟨first, hfirst, hread, hshortest⟩ :=
    exists_first_of_findSome? (pairwise_slashes hword hspace) hc
  obtain ⟨front, slash, tail, heq, hslash, rfl⟩ := (mem_slashes_iff hword hspace).mp hfirst
  refine ⟨c, front ++ [slash], tail, ?_, by simp, by simp [heq], ⟨front, slash, heq, hslash⟩,
    hread, fun other hother hreads => ?_⟩
  -- It is read there, so nothing is read without a directory.
  · rw [command?_of_forall hknownTail.ne_nil hword, List.findSome?_append, hc, Option.some_or]
  · obtain ⟨cut, hcut, hrest, hsome⟩ :=
      exists_cut_of_isTail hplain hextension hword ha hother hreads
    rcases hshortest cut hcut hsome with rfl | hless
    · rw [List.append_cancel_right hrest]
    · simp [hrest] at hless
      omega

variable (hsorted : m.names.Pairwise fun s t => goesBefore s t = true)

include hsorted

/-- Names that go on are preferred to the word. -/
theorem cases_of_afterDirectory? (htail : ∀ c ∈ tail, isGap c = false) (ha : '\n' ∉ a)
    (h : m.afterDirectory? [] (directory, tail ++ ' ' :: a) = some c) :
    c.directory = directory ∧ c.name ∈ m.names ∧
      (¬Overruns m.names tail a ∧ c.name = tail ∧ c.arguments = a.dropWhile isGap ∨
        Overruns m.names tail a ∧ ∃ more, c.name = tail ++ ' ' :: more) := by
  obtain ⟨hdirectory, hname, ⟨rest, hcut, harguments⟩, hlongest⟩ :=
    name_of_afterDirectory? hplain hextension hsorted h
  refine ⟨hdirectory, hname, ?_⟩
  rcases (fits_iff htail ha).mp ⟨rest, hcut, by simp [harguments]⟩ with
    heq | ⟨more, gap, rest', heq, hmore⟩
  · refine .inl ⟨?_, heq, ?_⟩
    -- A name that goes on would be longer than the one that was read.
    · rintro ⟨more, gap, rest', hlonger, hmore⟩
      have hfits := (fits_iff htail ha).mpr (.inr ⟨more, gap, rest', rfl, hmore⟩)
      have hlength := (hlongest _ hlonger hfits).length_le
      rw [heq, List.length_append, List.length_cons] at hlength
      omega
    · obtain rfl : ' ' :: a = rest := List.append_cancel_left (hcut.trans (by rw [heq]))
      rw [arguments?_cons (by decide) ha] at harguments
      exact (Option.some.inj harguments).symm
  · exact .inr ⟨⟨more, gap, rest', heq ▸ hname, hmore⟩, more, heq⟩

/-- Of a word with a directory in front of a name, the command is read up to its end, or a name goes
on behind it and is read instead. -/
theorem command?_of_isTail (hword : ∀ c ∈ word, isGap c = false) (ha : '\n' ∉ a)
    (hname : ∃ tail ∈ m.names, IsTail word tail) :
    ∃ c, m.command? (word ++ ' ' :: a) = some c ∧ c.directory ≠ [] ∧ c.name ∈ m.names ∧
      (EndsAt m.names word a ∧ c.directory ++ c.name = word ∧ c.arguments = a.dropWhile isGap ∨
        ¬EndsAt m.names word a ∧
          ∃ tail more, c.directory ++ tail = word ∧ c.name = tail ++ ' ' :: more) := by
  obtain ⟨c, directory, tail, hcommand, hdirectory, heq, htail, hread, hshortest⟩ :=
    exists_shortest_of_isTail hplain hextension hword ha hname
  have hgaps : ∀ c ∈ tail, isGap c = false := fun c hc => hword c (htail.suffix.subset hc)
  obtain ⟨rfl, hname, hcases⟩ := cases_of_afterDirectory? hplain hextension hsorted hgaps ha hread
  refine ⟨c, hcommand, hdirectory, hname, ?_⟩
  -- Whether a name goes on is settled at the shortest tail where something can be read.
  rcases hcases with ⟨hover, hword, harguments⟩ | ⟨hover, more, hword⟩
  · refine .inl ⟨⟨tail, hword ▸ hname, htail, fun other hother hle hover' => ?_⟩, ?_, harguments⟩
    · have hge := hshortest other hother (.inr hover')
      exact hover (htail.eq_of_length_le hother hge hle ▸ hover')
    · rw [hword, heq]
  · refine .inr ⟨?_, tail, more, heq.symm, hword⟩
    rintro ⟨other, hother, hotherTail, hends⟩
    exact hends tail htail (hshortest other hotherTail (.inl hother)) hover

end Matcher

end Tool

end BuildTrace
