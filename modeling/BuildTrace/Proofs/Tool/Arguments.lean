import BuildTrace.Proofs.Tool.Grammar
import BuildTrace.Proofs.Switch.Token

/-!
# The arguments of bare commands

Between a command and its arguments stand white space and double quotes: a quote there belongs to
the end of the command. It may as well be the beginning of the first argument, which then comes out
with one quote less, and with other tokens. This module says exactly when the arguments of a line
that begins with a bare word are handed over as they are, white space around them apart. Two things
can go wrong: the arguments begin with a double quote, or a name with white space in it is read
beyond the first word.

## Main definitions

* `Matcher.read?`: what the command of a line was read from.

## Main results

* `trim_dropWhile_isGap_iff`: when it makes no difference that quotes are skipped;
* `Matcher.invocation?_arguments`: when the arguments are handed over as they are, and that they
  have the same tokens then.
-/

namespace BuildTrace.Tool

/-- What the command of the line was read from. -/
def Matcher.read? (m : Matcher) (line : List Char) : Option (List Char) :=
  (m.command? line).map m.word

variable {word s : List Char}

/-! ## Gaps -/

theorem isBlank_eq_false_of_isGap {c : Char} (h : isGap c = false) : Text.isBlank c = false :=
  (Bool.or_eq_false_iff.mp h).1

/-- No more is left behind a gap than is left of the whole text. -/
theorem length_trim_dropWhile_isGap_le (s : List Char) :
    (Text.trim (s.dropWhile isGap)).length ≤ (Text.trimEnd s).length :=
  Text.length_trimEnd_le_of_suffix
    ((List.dropWhile_suffix Text.isBlank).trans (List.dropWhile_suffix isGap))

/-- Skipping white space and quotes is the same as skipping white space if no quote comes first. -/
theorem trim_dropWhile_isGap_iff :
    Text.trim (s.dropWhile isGap) = Text.trim s ↔ (Text.trimStart s).head? ≠ some '"' := by
  induction s with
  | nil => simp [Text.trimStart]
  | cons c s ih =>
    by_cases hgap : isGap c = true
    · rw [List.dropWhile_cons_of_pos hgap]
      by_cases hblank : Text.isBlank c = true
      · have hfirst : ∀ d ∈ [c], Text.isBlank d = true := by simpa using hblank
        have htrim := Text.trim_append_of_forall (t := s) hfirst
        have hstart := Text.trimStart_append_of_forall (t := s) hfirst
        rw [List.singleton_append] at htrim hstart
        rw [htrim, hstart]
        exact ih
      -- A quote is skipped that would stay.
      · rw [Bool.not_eq_true] at hblank
        obtain rfl : c = '"' := by simpa [isGap, hblank] using hgap
        have hless := Text.length_trimEnd_lt_length_trim_append
          ⟨_, List.mem_singleton_self _, hblank⟩ s
        rw [List.singleton_append] at hless
        refine iff_of_false (fun heq => ?_) (by simp [Text.trimStart_cons_of_false hblank])
        exact absurd (heq ▸ hless) (length_trim_dropWhile_isGap_le s).not_gt
    · have hblank := isBlank_eq_false_of_isGap (Bool.not_eq_true _ ▸ hgap)
      rw [List.dropWhile_cons_of_neg hgap, Text.trimStart_cons_of_false hblank]
      refine iff_of_true rfl fun h => ?_
      rw [Option.some.inj h] at hgap
      exact hgap (by decide)

namespace Matcher

variable {m : Matcher} {a read : List Char}

/-- What is read in front of a gap takes all of a word without gaps. -/
theorem exists_append_of_isGap_eq_false {rest rest' : List Char} {gap : Char}
    (hword : ∀ c ∈ word, isGap c = false) (hgap : isGap gap = true)
    (h : word ++ rest = read ++ gap :: rest') :
    ∃ more, read = word ++ more ∧ rest = more ++ gap :: rest' := by
  rcases List.append_eq_append_iff.mp h with ⟨more, hread, hrest⟩ | ⟨more, hread, hrest⟩
  · exact ⟨more, hread, hrest⟩
  · cases more with
    | nil => exact ⟨[], by simpa using hread.symm, by simpa using hrest.symm⟩
    | cons c more =>
      -- There is no gap inside of the word.
      obtain rfl : gap = c := (List.cons.inj hrest).1
      exact absurd hgap (by simp [hword gap (by simp [hread])])

/-- There is no gap in a plain word. -/
theorem exists_append_of_isPlain {rest rest' : List Char} {gap : Char}
    (hword : ∀ c ∈ word, IsPlain c) (hgap : isGap gap = true)
    (h : word ++ rest = read ++ gap :: rest') :
    ∃ more, read = word ++ more ∧ rest = more ++ gap :: rest' :=
  exists_append_of_isGap_eq_false
    (fun c hc => Bool.eq_false_iff.mpr fun hgap => not_isPlain_of_isGap hgap (hword c hc)) hgap h

/-- A word that is taken with a blank behind it is taken with any arguments behind it. -/
theorem isSome_of_isSome (hword : ∀ c ∈ word, IsPlain c) (ha : '\n' ∉ a)
    (h : (m.afterDirectory? [] ([], word ++ [' '])).isSome = true) :
    (m.afterDirectory? [] ([], word ++ ' ' :: a)).isSome = true := by
  obtain ⟨name, hasExtension, rest, hcut, hname, hflag, harguments⟩ :=
    isSome_afterDirectory?_iff.mp h
  obtain ⟨arguments, harguments⟩ := Option.isSome_iff_exists.mp harguments
  obtain ⟨gap, rest, rfl, hgap, -, -⟩ := arguments?_eq_some_iff.mp harguments
  rw [List.append_nil] at hcut
  obtain ⟨more, hread, hblank⟩ := exists_append_of_isPlain hword hgap hcut
  obtain rfl : more = [] := by
    cases more with
    | nil => rfl
    | cons c more => simp at hblank
  rw [List.append_nil] at hread
  rw [← hread]
  exact isSome_of_isTool (by decide) ha hname hflag

/-- The arguments behind what was read are those of the line if nothing but white space was read
behind the word and no quote comes first. -/
theorem trim_arguments_iff {more rest : List Char} {gap : Char} (hgap : isGap gap = true)
    (h : ' ' :: a = more ++ gap :: rest) :
    Text.trim (rest.dropWhile isGap) = Text.trim a ↔
      (∀ c ∈ more, Text.isBlank c = true) ∧ (Text.trimStart a).head? ≠ some '"' := by
  have hspace : ∀ c ∈ [' '], Text.isBlank c = true := List.all_eq_true.mp (by decide)
  have hline : [' '] ++ a = (more ++ [gap]) ++ rest := by simpa using h
  rw [← Text.trim_append_of_forall (t := a) hspace,
    ← Text.trimStart_append_of_forall (t := a) hspace, hline]
  -- Anything but white space that is read behind the word is lost, and the text gets shorter.
  have hlonger : (∃ c ∈ more ++ [gap], Text.isBlank c = false) →
      Text.trim (rest.dropWhile isGap) ≠ Text.trim ((more ++ [gap]) ++ rest) := by
    intro hnot heq
    have hless := Text.length_trimEnd_lt_length_trim_append hnot rest
    exact absurd (heq ▸ hless) (length_trim_dropWhile_isGap_le rest).not_gt
  by_cases hmore : ∀ c ∈ more, Text.isBlank c = true
  -- The gap is white space, or it is the quote that comes first.
  · by_cases hblank : Text.isBlank gap = true
    · have hall : ∀ c ∈ more ++ [gap], Text.isBlank c = true :=
        List.forall_mem_append.mpr ⟨hmore, by simpa using hblank⟩
      rw [Text.trim_append_of_forall hall, Text.trimStart_append_of_forall hall,
        trim_dropWhile_isGap_iff, and_iff_right hmore]
    · rw [Bool.not_eq_true] at hblank
      obtain rfl : gap = '"' := by simpa [isGap, hblank] using hgap
      refine iff_of_false (hlonger ⟨'"', by simp, hblank⟩) ?_
      rintro ⟨-, hfirst⟩
      rw [List.append_assoc, Text.trimStart_append_of_forall hmore, List.singleton_append,
        Text.trimStart_cons_of_false hblank] at hfirst
      exact hfirst rfl
  · refine iff_of_false (hlonger ?_) fun h => hmore h.1
    push Not at hmore
    obtain ⟨c, hc, hblank⟩ := hmore
    exact ⟨c, List.mem_append_left _ hc, Bool.not_eq_true _ ▸ hblank⟩

/-- A bare word that is taken is taken with any arguments behind it. They are handed over as they
are, white space around them apart, exactly when the command was read from the word and no quote
comes first, and they have the same tokens then. A command is read from the word if there is no
white space in the names. -/
theorem invocation?_arguments (m : Matcher) (isFile : Path → Bool) (base : Path)
    (word a : List Char) (hne : word ≠ []) (hword : ∀ c ∈ word, IsPlain c) (ha : '\n' ∉ a)
    (h : (m.invocation? isFile (String.ofList (word ++ [' '])) base).isSome = true) :
    ∃ i read, m.invocation? isFile (String.ofList (word ++ ' ' :: a)) base = some i ∧
      m.read? (word ++ ' ' :: a) = some read ∧
      (i.arguments = String.ofList (Text.trim a) ↔
        (∃ more, read = word ++ more ∧ ∀ c ∈ more, Text.isBlank c = true) ∧
          (Text.trimStart a).head? ≠ some '"') ∧
      (i.arguments = String.ofList (Text.trim a) →
        Switch.tokenize i.arguments = Switch.tokenize (String.ofList a)) ∧
      ((∀ name ∈ m.names, ∀ c ∈ name, Text.isBlank c = false) →
        (∀ c ∈ m.extension, Text.isBlank c = false) → read = word) := by
  have hspace : Text.isBlank ' ' = true := by decide
  have hinvocation := fun a : List Char =>
    show m.invocation? isFile (String.ofList ([] ++ word ++ ' ' :: a)) base = _ from
      invocation?_of_isPlain (List.forall_mem_nil _) hne hword hspace m isFile base
  have hcommand := fun a : List Char =>
    show m.command? ([] ++ word ++ ' ' :: a) = _ from
      command?_of_isPlain (List.forall_mem_nil _) hne hword hspace
  simp only [List.nil_append] at hinvocation hcommand
  rw [hinvocation, Option.isSome_map, hcommand] at h
  obtain ⟨c, hread⟩ := Option.isSome_iff_exists.mp (isSome_of_isSome hword ha h)
  obtain ⟨-, hname, -, rest, hcut, harguments⟩ := of_afterDirectory? hread
  obtain ⟨gap, rest, rfl, hgap, harguments, -⟩ := arguments?_eq_some_iff.mp harguments
  rw [List.append_nil] at hcut
  obtain ⟨more, hmore, hrest⟩ := exists_append_of_isPlain hword hgap hcut
  rw [← hcommand] at hread
  refine ⟨_, m.word c, by rw [hinvocation, hread]; rfl, by rw [read?, hread]; rfl, ?_, ?_, ?_⟩
  · rw [String.ofList_inj, ← harguments, trim_arguments_iff hgap hrest, hmore]
    simp
  · intro heq
    rw [heq, Switch.tokenize, Switch.tokenize, String.toList_ofList, String.toList_ofList,
      Switch.tokens_trim]
  · intro hnames hextension
    -- The white space behind the word would be part of what was read.
    cases more with
    | nil => rw [hmore, List.append_nil]
    | cons d more =>
      obtain rfl : ' ' = d := (List.cons.inj hrest).1
      have hblank := forall_mem_word (fun _ hd => hd.1) hnames hextension hname ' '
        (by simp [hmore])
      exact absurd hspace (by simp [hblank])

/-- Quotes that do not come first stay, and so do the tokens. -/
theorem invocation?_arguments_quotesInside :
    (∀ c ∈ "gcc".toList, IsPlain c) ∧ '\n' ∉ "  -c \"a b\".c ".toList ∧
      ((ofNames ["clang", "gcc"] true).invocation? (fun _ => false) "gcc " ⟨"/w"⟩).isSome = true ∧
      ∃ i, (ofNames ["clang", "gcc"] true).invocation? (fun _ => false) "gcc   -c \"a b\".c " ⟨"/w"⟩
          = some i ∧
        i.arguments = "-c \"a b\".c" ∧ Switch.tokenize i.arguments = ["-c", "\"a b\".c"] := by
  have hword : ∀ c ∈ "gcc".toList, IsPlain c := List.all_iff_forall_prop.mp (by decide)
  have ha : '\n' ∉ "  -c \"a b\".c ".toList := by decide
  have hsome : ((ofNames ["clang", "gcc"] true).invocation? (fun _ => false) "gcc " ⟨"/w"⟩).isSome
      = true := by decide +kernel
  refine ⟨hword, ha, hsome, ?_⟩
  obtain ⟨i, read, hi, -, hiff, htokens, hread⟩ := invocation?_arguments
    (ofNames ["clang", "gcc"] true) (fun _ => false) ⟨"/w"⟩ "gcc".toList "  -c \"a b\".c ".toList
    (by decide) hword ha hsome
  have hall : ∀ name ∈ (ofNames ["clang", "gcc"] true).names,
      (name.all fun c => !Text.isBlank c) = true := by
    decide +kernel
  have hnames : ∀ name ∈ (ofNames ["clang", "gcc"] true).names, ∀ c ∈ name,
      Text.isBlank c = false :=
    fun name hname c hc => by simpa using List.all_eq_true.mp (hall name hname) c hc
  have hplain := hiff.mpr
    ⟨⟨[], hread hnames (List.forall_mem_nil _), List.forall_mem_nil _⟩, by decide⟩
  refine ⟨i, hi, hplain.trans (by decide +kernel), ?_⟩
  rw [htokens hplain]
  decide +kernel

/-- A quote that comes first is lost, and with it the token that it begins. -/
theorem invocation?_arguments_quoteFirst :
    (∀ c ∈ "gcc".toList, IsPlain c) ∧ '\n' ∉ "\"a b\" -c".toList ∧
      ((ofNames ["gcc"] false).invocation? (fun _ => false) "gcc " ⟨"/w"⟩).isSome = true ∧
      ((ofNames ["gcc"] false).invocation? (fun _ => false) "gcc \"a b\" -c" ⟨"/w"⟩).map
          Invocation.arguments = some "a b\" -c" ∧
      Switch.tokenize "a b\" -c" = ["a", "b", "-c"] ∧
      String.ofList (Text.trim "\"a b\" -c".toList) = "\"a b\" -c" ∧
      Switch.tokenize "\"a b\" -c" = ["\"a b\"", "-c"] :=
  ⟨List.all_iff_forall_prop.mp (by decide), by decide +kernel⟩

end Matcher

end BuildTrace.Tool
