import BuildTrace.Proofs.Command.Normal
import BuildTrace.Proofs.Switch.Quotation

/-!
# Written commands

There are many ways to write the same commands down: one or several on a line, a command on one or
several lines, alone or behind the launchers that run it. This module lists them, and says that all
of them are read as the commands they were written for.

Line breaks within a command are taken out first: what is read stays the same when a space stands in
the place of one. Then the text is read from left to right. What is known in front of a command is
the beginning of its line, which holds the commands up to the last mark.

## Main definitions

* `Command.Written`: the ways to write commands down;
* `Command.IsCommand`: the commands that can be written so.

## Main results

* `Command.ofText_break`: a line break behind a backslash is read as a space;
* `Command.bare_append`: a command is found behind its launchers;
* `Command.Written.ofText_append`: what is written is read, whatever was read in front of it;
* `Command.normalize?_written`: the commands come out of the trace in which they are written.
-/

namespace BuildTrace.Command

variable {s t u gap piece text : List Char} {command words : List (List Char)}

/-! ## Ways to write commands -/

/-- White space within a line. -/
def IsSpacing (s : List Char) : Prop := ∀ c ∈ s, Text.isBlank c = true ∧ c ≠ '\n'

instance (s : List Char) : Decidable (IsSpacing s) :=
  List.decidableBAll (fun c => Text.isBlank c = true ∧ c ≠ '\n') s

/-- Some white space within a line. -/
def IsSpace (s : List Char) : Prop := IsSpacing s ∧ s ≠ []

/-- The end of a line. -/
inductive LineEnd : List Char → Prop where
  /-- A line feed. -/
  | feed : LineEnd ['\n']
  /-- A line feed behind a carriage return. -/
  | returned : LineEnd ['\r', '\n']

/-- A line break behind a backslash, with any white space around it. -/
inductive Break : List Char → Prop where
  /-- White space, the backslash, white space, the end of the line, and white space. -/
  | mk {before between feed behind : List Char} : IsSpacing before → IsSpacing between →
      LineEnd feed → IsSpacing behind → Break (before ++ '\\' :: (between ++ feed ++ behind))

/-- The words one after the other, with a gap behind each of them. -/
inductive Spread (isGap : List Char → Prop) : List (List Char) → List Char → Prop where
  /-- There is no word. -/
  | nil : Spread isGap [] []
  /-- There is one word more. -/
  | cons {word gap text : List Char} {words : List (List Char)} : isGap gap →
      Spread isGap words text → Spread isGap (word :: words) (word ++ gap ++ text)

/-- What libtool says in front of a command, and launchers that run it. -/
inductive IsLaunch : List (List Char) → Prop where
  /-- Any number of launchers. -/
  | launchers {words : List (List Char)} : (∀ word ∈ words, word ∈ launchers) → IsLaunch words
  /-- The announcement of a mode, and any number of launchers. -/
  | libtool {mode : List Char} {words : List (List Char)} :
      mode = "compile:".toList ∨ mode = "link:".toList → (∀ word ∈ words, word ∈ launchers) →
      IsLaunch ("libtool:".toList :: mode :: words)

/-- One command, as it is written: its words, perhaps with launchers in front of them. -/
inductive Presented : List (List Char) → List Char → Prop where
  /-- The launchers, all words but the last one, and the last one. -/
  | mk {launch words : List (List Char)} {last front body : List Char} : IsLaunch launch →
      Spread (fun gap => IsSpace gap ∨ Break gap) launch front →
      Spread (fun gap => gap = [' '] ∨ Break gap) words body →
      Presented (words ++ [last]) (front ++ (body ++ last))

/-- What may stand between two commands on one line. -/
inductive Mark : List Char → Prop where
  /-- The next command runs unless the one before it fails. -/
  | conjunction : Mark ['&', '&']
  /-- The next command runs in any case. -/
  | sequence : Mark [';']

/-- Several commands, as they are written. -/
inductive Written : List (List (List Char)) → List Char → Prop where
  /-- There is no command. -/
  | nil : Written [] []
  /-- The last command, at the end of the text. -/
  | last {command : List (List Char)} {text : List Char} : Presented command text →
      Written [command] text
  /-- A command at the end of a line. -/
  | line {command : List (List Char)} {commands : List (List (List Char))}
      {text feed rest : List Char} : Presented command text → LineEnd feed →
      Written commands rest → Written (command :: commands) (text ++ (feed ++ rest))
  /-- A command in front of another one, with any white space around the mark between them. -/
  | mark {command next : List (List Char)} {commands : List (List (List Char))}
      {text before mark behind rest : List Char} : Presented command text → IsSpacing before →
      Mark mark → IsSpacing behind → Written (next :: commands) rest →
      Written (command :: next :: commands) (text ++ (before ++ mark ++ behind ++ rest))

/-! ## The commands -/

/-- A word of a command: there are no marks and no backslashes in it. -/
structure IsWord (word : List Char) : Prop where
  /-- The word is not empty. -/
  nonempty : word ≠ []
  /-- There is no white space in it. -/
  blank : ∀ c ∈ word, Text.isBlank c = false
  /-- There is neither a part of a mark nor a backslash in it. -/
  mark : ∀ c ∈ word, c ∉ ['&', ';', '\\']

instance (word : List Char) : Decidable (IsWord word) :=
  decidable_of_iff
    (word ≠ [] ∧ (word.all fun c => decide (Text.isBlank c = false ∧ c ∉ ['&', ';', '\\'])) = true)
    (by
      simp only [List.all_eq_true, decide_eq_true_eq]
      exact ⟨fun h => ⟨h.1, fun c hc => (h.2 c hc).1, fun c hc => (h.2 c hc).2⟩,
        fun h => ⟨h.nonempty, fun c hc => ⟨h.blank c hc, h.mark c hc⟩⟩⟩)

/-- A word that a command can begin with. -/
structure IsTool (word : List Char) : Prop where
  /-- There is no quote in it. -/
  quote : ∀ c ∈ word, Switch.isQuote c = false
  /-- It is no launcher. -/
  launcher : word ∉ launchers
  /-- It is no announcement. -/
  libtool : word ≠ "libtool:".toList
  /-- It is no tool that may link what it has compiled. -/
  style : Switch.Style.ofTool (String.ofList word) ≠ .msvc

instance (word : List Char) : Decidable (IsTool word) :=
  decidable_of_iff
    ((word.all (!Switch.isQuote ·)) = true ∧ word ∉ launchers ∧ word ≠ "libtool:".toList ∧
      Switch.Style.ofTool (String.ofList word) ≠ .msvc)
    (by
      simp only [List.all_eq_true, Bool.not_eq_true']
      exact ⟨fun h => ⟨h.1, h.2.1, h.2.2.1, h.2.2.2⟩,
        fun h => ⟨h.quote, h.launcher, h.libtool, h.style⟩⟩)

/-- The words of a command, of which the first one is a tool. -/
structure IsCommand (command : List (List Char)) : Prop where
  /-- There is a first word. -/
  nonempty : command ≠ []
  /-- The command has words only. -/
  word : ∀ word ∈ command, IsWord word
  /-- The first word is a tool. -/
  tool : ∀ word ∈ command.head?, IsTool word

instance (command : List (List Char)) : Decidable (IsCommand command) :=
  decidable_of_iff
    (command ≠ [] ∧ (∀ word ∈ command, IsWord word) ∧ ∀ word ∈ command.head?, IsTool word)
    ⟨fun h => ⟨h.1, h.2.1, h.2.2⟩, fun h => ⟨h.nonempty, h.word, h.tool⟩⟩

/-- The words with single spaces between them. -/
def textOf (command : List (List Char)) : List Char := Text.joinWith [' '] command

/-! ## Words and gaps -/

/-- The text begins with a character that is no white space. -/
def IsFlush (s : List Char) : Prop := ∃ c ∈ s.head?, Text.isBlank c = false

theorem IsFlush.append (h : IsFlush s) (t : List Char) : IsFlush (s ++ t) := by
  obtain ⟨c, hc, hblank⟩ := h
  obtain ⟨rest, rfl⟩ := List.head?_eq_some_iff.mp hc
  exact ⟨c, rfl, hblank⟩

theorem IsFlush.trimStart_eq (h : IsFlush s) : Text.trimStart s = s := by
  obtain ⟨c, hc, hblank⟩ := h
  obtain ⟨rest, rfl⟩ := List.head?_eq_some_iff.mp hc
  exact Text.trimStart_cons_of_false hblank

theorem IsWord.isFlush (h : IsWord s) : IsFlush s := by
  obtain ⟨c, rest, rfl⟩ := List.exists_cons_of_ne_nil h.nonempty
  exact ⟨c, rfl, h.blank c List.mem_cons_self⟩

/-- A word at the end of a text is not trimmed. -/
theorem IsWord.trimEnd_append (h : IsWord t) (s : List Char) : Text.trimEnd (s ++ t) = s ++ t := by
  rw [Text.trimEnd_append, Text.trimEnd_eq_self_of_forall h.blank, if_neg h.nonempty]

/-- The character ends neither a command nor a line. -/
def IsPlain (c : Char) : Prop := c ∉ ['&', ';', '\\', '\n']

theorem isPlain_of_not_mem {c : Char} (hmark : c ∉ ['&', ';', '\\']) (hline : c ≠ '\n') :
    IsPlain c := by
  simp only [IsPlain, List.mem_cons, List.not_mem_nil, or_false, not_or] at hmark ⊢
  exact ⟨hmark.1, hmark.2.1, hmark.2.2, hline⟩

theorem IsWord.isPlain (h : IsWord s) : ∀ c ∈ s, IsPlain c := by
  intro c hc
  refine isPlain_of_not_mem (h.mark c hc) ?_
  rintro rfl
  exact absurd (h.blank _ hc) (by decide)

theorem IsSpacing.blank (h : IsSpacing s) : ∀ c ∈ s, Text.isBlank c = true := fun c hc => (h c hc).1

theorem IsSpacing.isPlain (h : IsSpacing s) : ∀ c ∈ s, IsPlain c := by
  intro c hc
  obtain ⟨hblank, hline⟩ := h c hc
  refine isPlain_of_not_mem (fun hmem => ?_) hline
  simp only [List.mem_cons, List.not_mem_nil, or_false] at hmem
  rcases hmem with rfl | rfl | rfl <;> exact absurd hblank (by decide)

theorem not_mem_of_isPlain (h : ∀ c ∈ s, IsPlain c) : '\n' ∉ s :=
  fun hmem => h _ hmem (by decide)

/-- A line ends with a line feed, and perhaps white space in front of it. -/
theorem LineEnd.exists_eq {feed : List Char} (h : LineEnd feed) :
    ∃ returns, feed = returns ++ ['\n'] ∧ IsSpacing returns := by
  cases h with
  | feed => exact ⟨[], rfl, List.forall_mem_nil _⟩
  | returned => exact ⟨['\r'], rfl, by decide⟩

theorem isWord_launcher {word : List Char} (h : word ∈ launchers) : IsWord word := by
  revert word
  decide

theorem isWord_announcement {word : List Char}
    (h : word = "libtool:".toList ∨ word = "compile:".toList ∨ word = "link:".toList) :
    IsWord word := by
  rcases h with rfl | rfl | rfl <;> decide

theorem IsLaunch.isWord (h : IsLaunch words) : ∀ word ∈ words, IsWord word := by
  cases h with
  | launchers h => exact fun word hword => isWord_launcher (h word hword)
  | libtool hmode h =>
    refine List.forall_mem_cons.mpr ⟨isWord_announcement (.inl rfl), ?_⟩
    exact List.forall_mem_cons.mpr
      ⟨isWord_announcement (.inr hmode), fun word hword => isWord_launcher (h word hword)⟩

section Spread

variable {isGap : List Char → Prop}

/-- A text behind words makes one that begins with no white space, unless that text does. -/
theorem Spread.isFlush (h : Spread isGap words text) (hwords : ∀ word ∈ words, IsWord word)
    (ht : IsFlush t) : IsFlush (text ++ t) := by
  cases h with
  | nil => exact ht
  | cons =>
    rw [List.append_assoc, List.append_assoc]
    exact (hwords _ List.mem_cons_self).isFlush.append _

/-- The characters are those of the words and of the gaps. -/
theorem Spread.isPlain (h : Spread isGap words text) (hwords : ∀ word ∈ words, IsWord word)
    (hgap : ∀ gap, isGap gap → ∀ c ∈ gap, IsPlain c) : ∀ c ∈ text, IsPlain c := by
  induction h with
  | nil => exact List.forall_mem_nil _
  | cons hword _ ih =>
    obtain ⟨hfirst, hwords⟩ := List.forall_mem_cons.mp hwords
    exact List.forall_mem_append.mpr
      ⟨List.forall_mem_append.mpr ⟨hfirst.isPlain, hgap _ hword⟩, ih hwords⟩

theorem Spread.length_le (h : Spread isGap words text) (hwords : ∀ word ∈ words, IsWord word) :
    words.length ≤ text.length := by
  induction h with
  | nil => exact Nat.le_refl _
  | cons _ _ ih =>
    obtain ⟨hfirst, hwords⟩ := List.forall_mem_cons.mp hwords
    have hpos := List.length_pos_iff.mpr hfirst.nonempty
    have hrest := ih hwords
    simp only [List.length_cons, List.length_append]
    omega

/-- Words with single spaces between them, and a word behind them. -/
theorem Spread.append_eq (h : Spread (· = [' ']) words text) (last : List Char) :
    text ++ last = textOf (words ++ [last]) := by
  induction h with
  | nil => rfl
  | @cons word gap text words hgap _ ih =>
    obtain ⟨next, others, hothers⟩ : ∃ next others, words ++ [last] = next :: others :=
      List.exists_cons_of_ne_nil (List.append_ne_nil_of_right_ne_nil _ (List.cons_ne_nil _ _))
    rw [List.append_assoc, ih, hgap, List.cons_append, hothers]
    rfl

end Spread

/-! ## Line breaks -/

theorem read_append {blanks : List Char} (h : ∀ c ∈ blanks, Text.isBlank c = true)
    (pending : Option (List Char)) (line : List Char) :
    read pending (line ++ blanks) = read pending line := by
  rw [read_eq, read_eq, trimEnd_joined_append h]

/-- The first line of a text is read first. -/
theorem readAll_lines_append (h : '\n' ∉ s) (pending : Option (List Char)) (t : List Char) :
    readAll pending (Text.lines (s ++ '\n' :: t))
      = (read pending s).1 ++ readAll (read pending s).2 (Text.lines t) := by
  have hreturn : read pending (Text.dropReturn s) = read pending s := by
    rw [Text.dropReturn]
    cases hstrip : Text.stripEnd? ['\r'] s with
    | none => rfl
    | some before =>
      rw [Text.stripEnd?_eq_some_iff.mp hstrip, read_append (List.forall_mem_singleton.mpr rfl)]
      rfl
  rw [Text.lines_append h, readAll, hreturn]

/-- Two texts that differ in front of their first lines only are read alike if these lines are. -/
theorem readAll_lines_congr {pending pending' : Option (List Char)} (hs : '\n' ∉ s) (hu : '\n' ∉ u)
    (ht : IsFlush t)
    (h : ∀ line, IsFlush line → read pending (s ++ line) = read pending' (u ++ line)) :
    readAll pending (Text.lines (s ++ t)) = readAll pending' (Text.lines (u ++ t)) := by
  by_cases hmem : '\n' ∈ t
  · obtain ⟨line, rest, rfl, hline⟩ := List.eq_append_cons_of_mem hmem
    have hflush : IsFlush line := by
      obtain ⟨c, hc, hblank⟩ := ht
      cases line with
      | nil =>
        -- A line feed is white space.
        obtain rfl : '\n' = c := Option.some.inj hc
        exact absurd hblank (by decide)
      | cons d line => exact ⟨c, hc, hblank⟩
    have hfirst : ∀ front : List Char, '\n' ∉ front → '\n' ∉ front ++ line := by
      intro front hfront
      rw [List.mem_append, not_or]
      exact ⟨hfront, hline⟩
    rw [← List.append_assoc, ← List.append_assoc, readAll_lines_append (hfirst s hs),
      readAll_lines_append (hfirst u hu), h line hflush]
  · have hlines : ∀ front : List Char, '\n' ∉ front → Text.lines (front ++ t) = [front ++ t] := by
      intro front hfront
      obtain ⟨c, hc, -⟩ := ht
      refine Text.lines_of_not_mem (by simp [hfront, hmem]) fun hnil => ?_
      rw [(List.append_eq_nil_iff.mp hnil).2] at hc
      cases hc
    rw [hlines s hs, hlines u hu, readAll, readAll, h t ht]
    rfl

/-- A line break behind a backslash is read as a space. -/
theorem ofText_break (hgap : Break gap) (hu : '\n' ∉ u) (hend : Text.trimEnd u = u)
    (ht : IsFlush t) : ofText (u ++ gap ++ t) = ofText (u ++ [' '] ++ t) := by
  obtain ⟨hbefore, hbetween, hfeed, hbehind⟩ := hgap
  rename_i before between feed behind
  obtain ⟨returns, rfl, hreturns⟩ := hfeed.exists_eq
  have hblank : ∀ c ∈ between ++ returns, Text.isBlank c = true :=
    List.forall_mem_append.mpr ⟨hbetween.blank, hreturns.blank⟩
  -- Up to the line feed there is the first line, with a backslash at its end.
  have hcut : u ++ (before ++ '\\' :: (between ++ (returns ++ ['\n']) ++ behind)) ++ t
      = (u ++ before ++ ['\\'] ++ (between ++ returns)) ++ '\n' :: (behind ++ t) := by
    simp
  have hline : '\n' ∉ u ++ before ++ ['\\'] ++ (between ++ returns) := by
    simp [hu, not_mem_of_isPlain hbefore.isPlain, not_mem_of_isPlain hbetween.isPlain,
      not_mem_of_isPlain hreturns.isPlain]
  have hfirst : read none (u ++ before ++ ['\\'] ++ (between ++ returns)) = ([], some u) := by
    have hbackslash : Text.trimEnd (u ++ before ++ ['\\']) = u ++ before ++ ['\\'] := by
      rw [Text.trimEnd_append]
      rfl
    rw [read_append hblank, read_eq, joined, hbackslash, Text.stripEnd?_eq_some_iff.mpr rfl]
    dsimp only
    rw [Text.trimEnd_append_of_forall hbefore.blank, hend]
  rw [ofText, hcut, readAll_lines_append hline, hfirst, List.nil_append, ofText]
  refine readAll_lines_congr (not_mem_of_isPlain hbehind.isPlain) (by simp [hu]) ht
    fun line hflush => ?_
  rw [read_eq, read_eq, joined, joined, Text.trimStart_append_of_forall hbehind.blank,
    hflush.trimStart_eq, List.append_assoc, List.singleton_append]

/-- With spaces in the place of its line breaks, the text is read as before. -/
theorem Spread.exists_flat {isGap : List Char → Prop}
    (h : Spread (fun gap => isGap gap ∨ Break gap) words text) (hspace : isGap [' '])
    (hgap : ∀ gap, isGap gap → IsSpacing gap) (hwords : ∀ word ∈ words, IsWord word) :
    ∃ flat, Spread isGap words flat ∧
      ∀ u t, '\n' ∉ u → IsFlush t → ofText (u ++ text ++ t) = ofText (u ++ flat ++ t) := by
  -- A gap is replaced first, in front of a text that still has its line breaks.
  induction h with
  | nil => exact ⟨[], .nil, fun _ _ _ _ => rfl⟩
  | @cons word gap text words hword htext ih =>
    obtain ⟨hfirst, hwords⟩ := List.forall_mem_cons.mp hwords
    obtain ⟨flat, hflat, hread⟩ := ih hwords
    obtain ⟨space, hspaced, hbreak⟩ : ∃ space, isGap space ∧ ∀ u t, '\n' ∉ u →
        Text.trimEnd u = u → IsFlush t → ofText (u ++ gap ++ t) = ofText (u ++ space ++ t) := by
      rcases hword with hword | hword
      · exact ⟨gap, hword, fun _ _ _ _ _ => rfl⟩
      · exact ⟨[' '], hspace, fun _ _ => ofText_break hword⟩
    refine ⟨word ++ space ++ flat, .cons hspaced hflat, fun u t hu ht => ?_⟩
    have hline : '\n' ∉ u ++ word := by
      rw [List.mem_append, not_or]
      exact ⟨hu, not_mem_of_isPlain hfirst.isPlain⟩
    have hline' : '\n' ∉ u ++ word ++ space := by
      rw [List.mem_append, not_or]
      exact ⟨hline, not_mem_of_isPlain (hgap _ hspaced).isPlain⟩
    calc ofText (u ++ (word ++ gap ++ text) ++ t)
        = ofText (u ++ word ++ gap ++ (text ++ t)) := by simp only [List.append_assoc]
      _ = ofText (u ++ word ++ space ++ (text ++ t)) :=
          hbreak _ _ hline (hfirst.trimEnd_append u) (htext.isFlush hwords ht)
      _ = ofText (u ++ word ++ space ++ text ++ t) := by simp only [List.append_assoc]
      _ = ofText (u ++ word ++ space ++ flat ++ t) := hread _ _ hline' ht
      _ = ofText (u ++ (word ++ space ++ flat) ++ t) := by simp only [List.append_assoc]

/-! ## Launchers -/

/-- A word that white space follows is taken off a text that begins with it. -/
theorem afterWord?_append (hgap : IsSpace gap) (ht : IsFlush t) (word : List Char) :
    afterWord? word (word ++ gap ++ t) = some t := by
  obtain ⟨hspacing, hne⟩ := hgap
  obtain ⟨c, rest, rfl⟩ := List.exists_cons_of_ne_nil hne
  obtain ⟨hc, hrest⟩ := List.forall_mem_cons.mp hspacing.blank
  rw [afterWord?, Text.strip?_eq_some_iff.mpr (List.append_assoc ..)]
  dsimp only [List.cons_append]
  rw [if_pos hc, Text.trimStart_append_of_forall hrest, ht.trimStart_eq]

/-- A word is taken off a text only if it is the first one. -/
theorem eq_of_afterWord? {word first rest : List Char} (hword : IsWord word) (hfirst : IsWord first)
    (ht : ∀ c ∈ t.head?, Text.isBlank c = true) (h : afterWord? word (first ++ t) = some rest) :
    word = first := by
  have hword : ∀ c ∈ word, (!Text.isBlank c) = true := fun c hc => by rw [hword.blank c hc]; rfl
  have hfirst : ∀ c ∈ first, (!Text.isBlank c) = true := fun c hc => by rw [hfirst.blank c hc]; rfl
  rw [afterWord?] at h
  split at h
  next c behind hstrip =>
    obtain ⟨hc, -⟩ := Option.ite_none_right_eq_some.mp h
    refine (Text.append_inj_of_forall hword hfirst ?_ ?_ (Text.strip?_eq_some_iff.mp hstrip).symm).1
    · simp [hc]
    · simpa using ht
  next => cases h

/-- A word is not taken off a text that begins with another one. -/
theorem afterWord?_of_ne {word first : List Char} (hword : IsWord word) (hfirst : IsWord first)
    (hne : word ≠ first) (hgap : IsSpace gap) (t : List Char) :
    afterWord? word (first ++ gap ++ t) = none := by
  refine Option.eq_none_iff_forall_ne_some.mpr fun rest hrest => hne ?_
  rw [List.append_assoc] at hrest
  refine eq_of_afterWord? hword hfirst ?_ hrest
  obtain ⟨c, blanks, rfl⟩ := List.exists_cons_of_ne_nil hgap.2
  rintro d ⟨⟩
  exact hgap.1.blank c List.mem_cons_self

/-- What stands behind the first word of a command. -/
theorem IsCommand.exists_eq (h : IsCommand command) :
    ∃ first t, textOf command = first ++ t ∧ IsWord first ∧ IsTool first ∧
      (t = [] ∨ ∃ rest, t = ' ' :: rest) := by
  obtain ⟨first, others, rfl⟩ := List.exists_cons_of_ne_nil h.nonempty
  obtain ⟨hfirst, -⟩ := List.forall_mem_cons.mp h.word
  cases others with
  | nil => exact ⟨first, [], (List.append_nil first).symm, hfirst, h.tool first rfl, .inl rfl⟩
  | cons next others =>
    exact ⟨first, ' ' :: textOf (next :: others), List.append_assoc .., hfirst, h.tool first rfl,
      .inr ⟨_, rfl⟩⟩

variable {front : List Char} {launch : List (List Char)}

theorem IsCommand.isFlush (h : IsCommand command) : IsFlush (textOf command) := by
  obtain ⟨first, t, heq, hfirst, -⟩ := h.exists_eq
  exact heq ▸ hfirst.isFlush.append t

/-- No word is taken off a command, unless it is a tool. -/
theorem IsCommand.afterWord?_eq_none {word : List Char} (h : IsCommand command)
    (hword : IsWord word) (htool : ¬IsTool word) :
    afterWord? word (textOf command) = none := by
  obtain ⟨first, t, heq, hfirst, hfirstTool, ht⟩ := h.exists_eq
  refine Option.eq_none_iff_forall_ne_some.mpr fun rest hrest => htool ?_
  have ht : ∀ c ∈ t.head?, Text.isBlank c = true := by
    rcases ht with rfl | ⟨rest, rfl⟩
    · nofun
    · rintro c ⟨⟩
      decide
  rwa [eq_of_afterWord? hword hfirst ht (heq ▸ hrest)]

/-- The launcher in front of a text is the one that is found. -/
theorem findSome?_launchers {word : List Char} (hword : word ∈ launchers) (hgap : IsSpace gap)
    (ht : IsFlush t) : launchers.findSome? (afterWord? · (word ++ gap ++ t)) = some t := by
  have hafter : afterWord? word (word ++ gap ++ t) = some t := afterWord?_append hgap ht word
  cases hfound : launchers.findSome? (afterWord? · (word ++ gap ++ t)) with
  | none =>
    have hnone := List.findSome?_eq_none_iff.mp hfound word hword
    rw [hafter] at hnone
    cases hnone
  | some rest =>
    obtain ⟨launcher, hmem, hlauncher⟩ := List.exists_of_findSome?_eq_some hfound
    obtain rfl : launcher = word := by
      by_contra hother
      rw [afterWord?_of_ne (isWord_launcher hmem) (isWord_launcher hword) hother hgap] at hlauncher
      cases hlauncher
    exact hlauncher.symm.trans hafter

/-- All launchers are taken off a command. -/
theorem dropLaunchers_append (hcommand : IsCommand command) (h : Spread IsSpace launch front)
    (hlaunch : ∀ word ∈ launch, word ∈ launchers) {steps : Nat} (hsteps : launch.length ≤ steps) :
    dropLaunchers steps (front ++ textOf command) = textOf command := by
  -- One step takes off one launcher, and the tool behind the last one ends the steps.
  induction h generalizing steps with
  | nil =>
    cases steps with
    | zero => rfl
    | succ steps =>
      have hnone : launchers.findSome? (afterWord? · (textOf command)) = none :=
        List.findSome?_eq_none_iff.mpr fun word hword =>
          hcommand.afterWord?_eq_none (isWord_launcher hword) fun htool => htool.launcher hword
      rw [List.nil_append, dropLaunchers, hnone]
  | @cons word gap front words hgap hfront ih =>
    obtain ⟨hword, hwords⟩ := List.forall_mem_cons.mp hlaunch
    obtain ⟨steps, rfl⟩ : ∃ n, steps = n + 1 :=
      Nat.exists_eq_succ_of_ne_zero (Nat.ne_zero_of_lt (Nat.lt_of_succ_le hsteps))
    have hflush : IsFlush (front ++ textOf command) :=
      hfront.isFlush (IsLaunch.launchers hwords).isWord hcommand.isFlush
    rw [List.append_assoc, dropLaunchers, findSome?_launchers hword hgap hflush]
    exact ih hwords (Nat.le_of_succ_le_succ hsteps)

/-- The announcement of a mode is taken off the text behind it. -/
theorem dropLibtool_append {mode gap' : List Char}
    (hmode : mode = "compile:".toList ∨ mode = "link:".toList) (hgap : IsSpace gap)
    (hgap' : IsSpace gap') (ht : IsFlush t) :
    dropLibtool ("libtool:".toList ++ gap ++ (mode ++ gap' ++ t)) = t := by
  have hword : IsWord mode := isWord_announcement (.inr hmode)
  have hflush : IsFlush (mode ++ gap' ++ t) := by
    rw [List.append_assoc]
    exact hword.isFlush.append _
  have hafter : (afterWord? "compile:".toList (mode ++ gap' ++ t)).or
      (afterWord? "link:".toList (mode ++ gap' ++ t)) = some t := by
    rcases hmode with rfl | rfl
    · rw [afterWord?_append hgap' ht, Option.some_or]
    · rw [afterWord?_of_ne (isWord_announcement (.inr (.inl rfl))) hword (by decide) hgap',
        afterWord?_append hgap' ht, Option.none_or]
  rw [dropLibtool, afterWord?_append hgap hflush]
  dsimp only
  rw [hafter, Option.getD_some]

/-- At most launchers are left in front of a command without the announcement. -/
theorem exists_dropLibtool_eq (hcommand : IsCommand command) (hlaunch : IsLaunch launch)
    (h : Spread IsSpace launch front) :
    ∃ words rest, Spread IsSpace words rest ∧ (∀ word ∈ words, word ∈ launchers) ∧
      dropLibtool (front ++ textOf command) = rest ++ textOf command := by
  cases hlaunch with
  | launchers hwords =>
    have hlibtool : IsWord "libtool:".toList := isWord_announcement (.inl rfl)
    have hnone : afterWord? "libtool:".toList (front ++ textOf command) = none := by
      cases h with
      | nil => exact hcommand.afterWord?_eq_none hlibtool fun htool => htool.libtool rfl
      | @cons word gap rest words hgap =>
        have hword : word ∈ launchers := hwords word List.mem_cons_self
        have hother : ∀ word ∈ launchers, "libtool:".toList ≠ word := by decide
        rw [List.append_assoc]
        exact afterWord?_of_ne hlibtool (isWord_launcher hword) (hother word hword) hgap _
    exact ⟨_, _, h, hwords, by rw [dropLibtool, hnone]⟩
  | @libtool mode words hmode hwords =>
    -- The first two words are the announcement.
    obtain _ | ⟨hgap, h⟩ := h
    obtain _ | ⟨hgap', h⟩ := h
    have hflush := h.isFlush (IsLaunch.launchers hwords).isWord hcommand.isFlush
    refine ⟨words, _, h, hwords, ?_⟩
    rw [List.append_assoc, List.append_assoc _ _ (textOf command)]
    exact dropLibtool_append hmode hgap hgap' hflush

/-- The command itself is left of a command behind its launchers. -/
theorem bare_append (hcommand : IsCommand command) (hlaunch : IsLaunch launch)
    (h : Spread IsSpace launch front) :
    bare (front ++ textOf command) = Text.trim (textOf command) := by
  have hflush := h.isFlush hlaunch.isWord hcommand.isFlush
  obtain ⟨words, rest, hrest, hwords, hdrop⟩ := exists_dropLibtool_eq hcommand hlaunch h
  have hlength : words.length ≤ (rest ++ textOf command).length := by
    rw [List.length_append]
    exact (hrest.length_le (IsLaunch.launchers hwords).isWord).trans (Nat.le_add_right ..)
  rw [bare, hflush.trimStart_eq, hdrop]
  exact congrArg Text.trim (dropLaunchers_append hcommand hrest hwords hlength)

/-! ## Commands on one line -/

/-- The command stands on one line, behind its launchers. -/
inductive OneLine (command : List (List Char)) : List Char → Prop where
  /-- There are single spaces between the words of the command. -/
  | mk {launch : List (List Char)} {front : List Char} : IsLaunch launch →
      Spread IsSpace launch front → OneLine command (front ++ textOf command)

/-- A command is its last word behind the others. -/
theorem IsCommand.exists_spread (h : IsCommand command) :
    ∃ words last body, command = words ++ [last] ∧ Spread (· = [' ']) words body := by
  obtain ⟨words, last, rfl⟩ := (List.eq_nil_or_concat command).resolve_left h.nonempty
  have hbody : ∀ words : List (List Char),
      Spread (· = [' ']) words (words.flatMap (· ++ [' '])) := by
    intro words
    induction words with
    | nil => exact .nil
    | cons word words ih => exact .cons rfl ih
  exact ⟨words, last, _, List.concat_eq_append, hbody words⟩

theorem isSpacing_of_eq (h : gap = [' ']) : IsSpacing gap := by
  subst h
  decide

/-- Nothing in a command on one line ends the command or the line. -/
theorem OneLine.isPlain (h : OneLine command text) (hcommand : IsCommand command) :
    ∀ c ∈ text, IsPlain c := by
  obtain ⟨hlaunch, hfront⟩ := h
  obtain ⟨words, last, body, rfl, hbody⟩ := hcommand.exists_spread
  obtain ⟨hwords, hlast⟩ := List.forall_mem_append.mp hcommand.word
  rw [← hbody.append_eq]
  refine List.forall_mem_append.mpr ⟨?_, List.forall_mem_append.mpr ⟨?_, ?_⟩⟩
  · exact hfront.isPlain hlaunch.isWord fun _ hgap => hgap.1.isPlain
  · exact hbody.isPlain hwords fun _ hgap => (isSpacing_of_eq hgap).isPlain
  · exact (hlast last (List.mem_singleton_self last)).isPlain

/-- It ends with a word. -/
theorem OneLine.exists_eq (h : OneLine command text) (hcommand : IsCommand command) :
    ∃ before last, text = before ++ last ∧ IsWord last := by
  obtain @⟨-, front, -, -⟩ := h
  obtain ⟨words, last, body, rfl, hbody⟩ := hcommand.exists_spread
  refine ⟨front ++ body, last, ?_, hcommand.word last (by simp)⟩
  rw [← hbody.append_eq, List.append_assoc]

/-- It is trimmed already. -/
theorem OneLine.trim_eq (h : OneLine command text) (hcommand : IsCommand command) :
    Text.trim text = text := by
  obtain ⟨before, last, heq, hlast⟩ := h.exists_eq hcommand
  have hflush : IsFlush text := by
    obtain ⟨hlaunch, hfront⟩ := h
    exact hfront.isFlush hlaunch.isWord hcommand.isFlush
  rw [Text.trim, hflush.trimStart_eq, heq, hlast.trimEnd_append]

/-- A command stays as it is: it does not link what it has compiled. -/
theorem IsCommand.splitLinkMode?_eq_none (h : IsCommand command) :
    splitLinkMode? (textOf command) = none := by
  obtain ⟨first, t, heq, hfirst, htool, ht⟩ := h.exists_eq
  have hbare : Switch.Unbroken first :=
    Switch.IsBare.unbroken fun c hc => ⟨hfirst.blank c hc, htool.quote c hc⟩
  obtain ⟨others, htokens⟩ : ∃ others, Switch.tokens (textOf command) = first :: others := by
    have hsingle := Switch.tokens_of_unbroken hbare hfirst.nonempty
    rcases ht with rfl | ⟨rest, rfl⟩
    · exact ⟨[], by rw [heq, List.append_nil, hsingle]⟩
    · exact ⟨_, by rw [heq, Switch.tokens_append_blank hbare.closesQuotes_eq, hsingle]; rfl⟩
  have hunquote : Path.unquote first = first := by
    refine List.filter_eq_self.mpr fun c hc => ?_
    have hquote := htool.quote c hc
    simp only [Switch.isQuote, Bool.or_eq_false_iff, decide_eq_false_iff_not] at hquote
    simp [hquote.1, hquote.2]
  rw [splitLinkMode?, htokens]
  dsimp only
  rw [hunquote, if_neg htool.style]

/-- The command itself is what is read. -/
theorem OneLine.ofPiece_eq (h : OneLine command text) (hcommand : IsCommand command) :
    ofPiece text = [textOf command] := by
  have hself : OneLine command (textOf command) :=
    .mk (.launchers (List.forall_mem_nil _)) .nil
  obtain ⟨c, hc, -⟩ := hcommand.isFlush
  have hne : (textOf command).isEmpty = false := by
    cases htext : textOf command with
    | nil => rw [htext] at hc; cases hc
    | cons => rfl
  obtain ⟨hlaunch, hfront⟩ := h
  rw [ofPiece, bare_append hcommand hlaunch hfront, hself.trim_eq hcommand, hne,
    if_neg Bool.false_ne_true, hcommand.splitLinkMode?_eq_none]

/-! ## Marks -/

/-- A text without marks belongs to the first piece of what follows it. -/
theorem splitCompound_append (h : ∀ c ∈ piece, IsPlain c) (s : List Char) :
    splitCompound (piece ++ s) = (splitCompound s).modifyHead (piece ++ ·) := by
  obtain ⟨next, pieces, hpieces⟩ := List.exists_cons_of_ne_nil (splitCompound_ne_nil s)
  induction piece with
  | nil => rw [List.nil_append, hpieces]; rfl
  | cons c piece ih =>
    obtain ⟨hc, hpiece⟩ := List.forall_mem_cons.mp h
    rw [List.cons_append, splitCompound_cons (fun hand => hc ?_) (fun hsequence => hc ?_),
      ih hpiece, hpieces]
    · rfl
    · rw [← (List.cons_prefix_cons.mp hand).1]
      decide
    · rw [hsequence]
      decide

theorem ofLine_of_isPlain (h : ∀ c ∈ piece, IsPlain c) :
    ofLine piece = ofPiece (Text.trim piece) := by
  have hpieces := splitCompound_append h []
  rw [List.append_nil] at hpieces
  rw [ofLine, hpieces]
  simp [splitCompound]

/-- What stands in front of a mark is read first. -/
theorem ofLine_append_mark {mark : List Char} (h : ∀ c ∈ piece, IsPlain c) (hmark : Mark mark)
    (s : List Char) : ofLine (piece ++ (mark ++ s)) = ofPiece (Text.trim piece) ++ ofLine s := by
  have hcut : splitCompound (mark ++ s) = [] :: splitCompound s := by
    cases hmark <;> rfl
  rw [ofLine, splitCompound_append h, hcut, List.modifyHead_cons, List.append_nil,
    List.flatMap_cons, ofLine]

/-- White space at the beginning of a line does not matter. -/
theorem ofLine_append_of_isSpacing (h : IsSpacing s) (t : List Char) :
    ofLine (s ++ t) = ofLine t := by
  obtain ⟨first, pieces, hpieces⟩ := List.exists_cons_of_ne_nil (splitCompound_ne_nil t)
  rw [ofLine, splitCompound_append h.isPlain, ofLine, hpieces, List.modifyHead_cons,
    List.flatMap_cons, List.flatMap_cons, Text.trim_append_of_forall h.blank]

theorem OneLine.ofLine_eq (h : OneLine command text) (hcommand : IsCommand command) :
    ofLine text = [textOf command] := by
  rw [ofLine_of_isPlain (h.isPlain hcommand), h.trim_eq hcommand, h.ofPiece_eq hcommand]

/-! ## Lines -/

/-- The text is the beginning of a line, up to a mark, and the commands are those in it. -/
structure Begins (commands : List (List Char)) (s : List Char) : Prop where
  /-- There is no line feed in it. -/
  line : '\n' ∉ s
  /-- Its commands are read first. -/
  read : ∀ t, ofLine (s ++ t) = commands ++ ofLine t

theorem begins_nil : Begins [] [] := ⟨List.not_mem_nil, fun _ => rfl⟩

variable {found : List (List Char)}

/-- The beginning of a line goes on up to the mark behind the next command. -/
theorem Begins.mark {before mark behind : List Char} (hu : Begins found u)
    (h : OneLine command text) (hcommand : IsCommand command) (hbefore : IsSpacing before)
    (hmark : Mark mark) (hbehind : IsSpacing behind) :
    Begins (found ++ [textOf command]) (u ++ (text ++ (before ++ mark ++ behind))) := by
  have hplain : ∀ c ∈ text ++ before, IsPlain c :=
    List.forall_mem_append.mpr ⟨h.isPlain hcommand, hbefore.isPlain⟩
  have htrim : Text.trim (text ++ before) = text := by
    rw [Text.trim_append_eq_of_forall hbefore.blank, h.trim_eq hcommand]
  have hline : '\n' ∉ mark := by cases hmark <;> decide
  constructor
  · have hplain := not_mem_of_isPlain hplain
    rw [List.mem_append, not_or] at hplain
    simp [hu.line, hplain, hline, not_mem_of_isPlain hbehind.isPlain]
  · intro t
    calc ofLine (u ++ (text ++ (before ++ mark ++ behind)) ++ t)
        = ofLine (u ++ (text ++ before ++ (mark ++ (behind ++ t)))) := by
          simp only [List.append_assoc]
      _ = found ++ (ofPiece text ++ ofLine (behind ++ t)) := by
          rw [hu.read, ofLine_append_mark hplain hmark, htrim]
      _ = found ++ [textOf command] ++ ofLine t := by
          rw [h.ofPiece_eq hcommand, ofLine_append_of_isSpacing hbehind, List.append_assoc]

/-- A line with a command at its end is not continued. -/
theorem OneLine.read_eq (h : OneLine command text) (hcommand : IsCommand command)
    (u : List Char) : read none (u ++ text) = (ofLine (u ++ text), none) := by
  obtain ⟨before, last, rfl, hlast⟩ := h.exists_eq hcommand
  have hbackslash : Text.stripEnd? ['\\'] (u ++ (before ++ last)) = none := by
    refine Option.eq_none_iff_forall_ne_some.mpr fun rest hrest => ?_
    have hend := congrArg List.getLast? (Text.stripEnd?_eq_some_iff.mp hrest)
    rw [← List.append_assoc, List.getLast?_append_of_ne_nil _ hlast.nonempty,
      List.getLast?_concat] at hend
    exact hlast.mark _ (List.mem_of_getLast? hend) (by decide)
  rw [Command.read_eq, joined, ← List.append_assoc, hlast.trimEnd_append, List.append_assoc,
    hbackslash]

/-- A line is read up to its end. -/
theorem OneLine.ofText_append {feed : List Char} (h : OneLine command text)
    (hcommand : IsCommand command) (hu : '\n' ∉ u) (hfeed : LineEnd feed) (rest : List Char) :
    ofText (u ++ text ++ (feed ++ rest)) = ofLine (u ++ text) ++ ofText rest := by
  obtain ⟨returns, rfl, hreturns⟩ := hfeed.exists_eq
  have hcut : u ++ text ++ (returns ++ ['\n'] ++ rest)
      = u ++ text ++ returns ++ '\n' :: rest := by
    simp
  have hline : '\n' ∉ u ++ text ++ returns := by
    simp [hu, not_mem_of_isPlain (h.isPlain hcommand), not_mem_of_isPlain hreturns.isPlain]
  rw [ofText, hcut, readAll_lines_append hline, read_append hreturns.blank, h.read_eq hcommand,
    ofText]

/-- The last line is read up to the end of the text. -/
theorem OneLine.ofText_eq (h : OneLine command text) (hcommand : IsCommand command)
    (hu : '\n' ∉ u) : ofText (u ++ text) = ofLine (u ++ text) := by
  have hline : '\n' ∉ u ++ text := by
    simp [hu, not_mem_of_isPlain (h.isPlain hcommand)]
  have hne : u ++ text ≠ [] := by
    obtain ⟨before, last, rfl, hlast⟩ := h.exists_eq hcommand
    simp [hlast.nonempty]
  rw [ofText, Text.lines_of_not_mem hline hne, readAll, h.read_eq hcommand, readAll]
  exact List.append_nil _

/-- A command is read as if it stood on one line. -/
theorem Presented.exists_oneLine (h : Presented command text) (hcommand : IsCommand command) :
    ∃ flat, OneLine command flat ∧
      ∀ u t, '\n' ∉ u → ofText (u ++ text ++ t) = ofText (u ++ flat ++ t) := by
  have hspace : IsSpace [' '] := ⟨isSpacing_of_eq rfl, List.cons_ne_nil _ _⟩
  obtain @⟨launch, words, last, front, body, hlaunch, hfront, hbody⟩ := h
  obtain ⟨hwords, hlast⟩ := List.forall_mem_append.mp hcommand.word
  have hlast : IsWord last := hlast last (List.mem_singleton_self last)
  obtain ⟨flatFront, hflatFront, hreadFront⟩ :=
    hfront.exists_flat hspace (fun _ hgap => hgap.1) hlaunch.isWord
  obtain ⟨flatBody, hflatBody, hreadBody⟩ :=
    hbody.exists_flat rfl (fun _ => isSpacing_of_eq) hwords
  refine ⟨_, .mk hlaunch hflatFront, fun u t hu => ?_⟩
  have hflush : IsFlush (last ++ t) := hlast.isFlush.append t
  have hline : '\n' ∉ u ++ flatFront := by
    rw [List.mem_append, not_or]
    exact ⟨hu, not_mem_of_isPlain (hflatFront.isPlain hlaunch.isWord fun _ hgap => hgap.1.isPlain)⟩
  calc ofText (u ++ (front ++ (body ++ last)) ++ t)
      = ofText (u ++ front ++ (body ++ (last ++ t))) := by simp only [List.append_assoc]
    _ = ofText (u ++ flatFront ++ (body ++ (last ++ t))) :=
        hreadFront _ _ hu (hbody.isFlush hwords hflush)
    _ = ofText (u ++ flatFront ++ body ++ (last ++ t)) := by simp only [List.append_assoc]
    _ = ofText (u ++ flatFront ++ flatBody ++ (last ++ t)) := hreadBody _ _ hline hflush
    _ = ofText (u ++ (flatFront ++ textOf (words ++ [last])) ++ t) := by
        rw [← hflatBody.append_eq]
        simp only [List.append_assoc]

/-- What is written is read. -/
theorem Written.ofText_append {commands : List (List (List Char))} (h : Written commands text)
    (hcommands : ∀ command ∈ commands, IsCommand command) (hu : Begins found u)
    (hstart : commands = [] → found = [] ∧ u = []) :
    ofText (u ++ text) = found ++ commands.map textOf := by
  -- A line ends the beginning of a line, and a mark carries it on.
  induction h generalizing found u with
  | nil =>
    obtain ⟨rfl, rfl⟩ := hstart rfl
    rfl
  | @last command text htext =>
    have hcommand : IsCommand command := hcommands command (List.mem_singleton_self command)
    obtain ⟨flat, hflat, hread⟩ := htext.exists_oneLine hcommand
    have hread := hread u [] hu.line
    rw [List.append_nil, List.append_nil] at hread
    rw [hread, hflat.ofText_eq hcommand hu.line, hu.read, hflat.ofLine_eq hcommand]
    rfl
  | @line command commands text feed rest htext hfeed _ ih =>
    obtain ⟨hcommand, hcommands⟩ := List.forall_mem_cons.mp hcommands
    obtain ⟨flat, hflat, hread⟩ := htext.exists_oneLine hcommand
    have hrest : ofText rest = commands.map textOf :=
      ih hcommands begins_nil fun _ => ⟨rfl, rfl⟩
    rw [← List.append_assoc, hread _ _ hu.line, hflat.ofText_append hcommand hu.line hfeed,
      hu.read, hflat.ofLine_eq hcommand, hrest, List.append_assoc]
    rfl
  | @mark command next commands text before mark behind rest htext hbefore hmark hbehind _ ih =>
    obtain ⟨hcommand, hcommands⟩ := List.forall_mem_cons.mp hcommands
    obtain ⟨flat, hflat, hread⟩ := htext.exists_oneLine hcommand
    have hnext := hu.mark hflat hcommand hbefore hmark hbehind
    rw [← List.append_assoc, hread _ _ hu.line, List.append_assoc, ← List.append_assoc flat,
      ← List.append_assoc u, ih hcommands hnext nofun, List.append_assoc]
    rfl

/-- The commands come out of the trace in which they are written, one on each line, however it is
written and read. -/
theorem normalize?_written {commands : List (List (List Char))} {raw : String}
    (hcommands : ∀ command ∈ commands, IsCommand command) (h : Written commands raw.toList)
    {ω : Type} (isCancelled : ω → Bool) (chunkSize : Nat) (w : ω) :
    normalize? isCancelled chunkSize raw w
      = (if isCancelled w then none
          else some (String.ofList (commands.flatMap fun command => textOf command ++ ['\n'])),
        w) := by
  have hread := h.ofText_append hcommands begins_nil fun _ => ⟨rfl, rfl⟩
  rw [List.nil_append, List.nil_append] at hread
  rw [normalize?_eq, hread, List.flatMap_map]

/-- An announcement, a launcher, line breaks, a mark and carriage returns. -/
theorem normalize?_written_libtool :
    let raw := "libtool: compile:  ccache \\\r\n gcc -c \\\n a.c && ar r a.o\r\nld a.o"
    let commands := [["gcc".toList, "-c".toList, "a.c".toList],
      ["ar".toList, "r".toList, "a.o".toList], ["ld".toList, "a.o".toList]]
    (∀ command ∈ commands, IsCommand command) ∧ Written commands raw.toList ∧
      normalize? (fun _ => false) 1 raw () = (some "gcc -c a.c\nar r a.o\nld a.o\n", ()) := by
  intro raw commands
  have hcommands : ∀ command ∈ commands, IsCommand command := by decide
  have hsingle : ∀ s : List Char, s = [' '] → s = [' '] ∨ Break s := fun _ => .inl
  -- The three commands as they are presented, each with the marks around it.
  have hgcc : Presented ["gcc".toList, "-c".toList, "a.c".toList]
      "libtool: compile:  ccache \\\r\n gcc -c \\\n a.c".toList := by
    refine .mk (.libtool (.inl rfl) (by decide : ∀ word ∈ ["ccache".toList], word ∈ launchers))
      (.cons (.inl ⟨(by decide : IsSpacing [' ']), by decide⟩)
        (.cons (.inl ⟨(by decide : IsSpacing [' ', ' ']), by decide⟩)
          (.cons (.inr (.mk (by decide : IsSpacing [' ']) (by decide : IsSpacing []) .returned
            (by decide : IsSpacing [' ']))) .nil)))
      (.cons (hsingle _ rfl)
        (.cons (.inr (.mk (by decide : IsSpacing [' ']) (by decide : IsSpacing []) .feed
            (by decide : IsSpacing [' ']))) .nil))
  have har : Presented ["ar".toList, "r".toList, "a.o".toList] "ar r a.o".toList :=
    .mk (.launchers (List.forall_mem_nil _)) .nil
      (.cons (hsingle _ rfl) (.cons (hsingle _ rfl) .nil))
  have hld : Presented ["ld".toList, "a.o".toList] "ld a.o".toList :=
    .mk (.launchers (List.forall_mem_nil _)) .nil (.cons (hsingle _ rfl) .nil)
  have hraw : raw.toList = "libtool: compile:  ccache \\\r\n gcc -c \\\n a.c".toList ++
      ([' '] ++ "&&".toList ++ [' '] ++
        ("ar r a.o".toList ++ ("\r\n".toList ++ "ld a.o".toList))) := by
    decide +kernel
  have hwritten : Written commands raw.toList := hraw ▸
    .mark hgcc (by decide : IsSpacing [' ']) .conjunction (by decide : IsSpacing [' '])
      (.line har .returned (.last hld))
  exact ⟨hcommands, hwritten, normalize?_written hcommands hwritten (fun _ => false) 1 ()⟩

end BuildTrace.Command
