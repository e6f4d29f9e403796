import BuildTrace.Command.Line
import BuildTrace.Proofs.Scan.Chunk
import BuildTrace.Proofs.Text.Split
import BuildTrace.Proofs.Text.Trim
import BuildTrace.Proofs.Text.Occurrence

/-!
# Commands in normal form

Whatever a raw trace looks like, the passes behind the first one get one command on each line:
trimmed, not empty, and without a separator in it. This module follows a piece of a line through all
that is done to it, and then the lines through the reader that joins them.

## Main definitions

* `Command.IsNormal`: the commands in normal form;
* `Command.readAll`: the commands of lines that are read one after the other;
* `Command.ofText`: the commands of a text.

## Main results

* `Command.isNormal_of_mem_ofLine`: what one line gives;
* `Command.isNormal_of_mem_readAll`: what all lines give;
* `Command.normalize?_normal`: what comes out of a raw trace.
-/

namespace BuildTrace

namespace Command

variable {s line piece command : List Char}

/-- A command in normal form: one trimmed command on one line. -/
structure IsNormal (command : List Char) : Prop where
  /-- There is something in it. -/
  nonempty : command ≠ []
  /-- There is no white space in front of it. -/
  head : ∀ c ∈ command.head?, Text.isBlank c = false
  /-- There is no white space behind it. -/
  last : ∀ c ∈ command.getLast?, Text.isBlank c = false
  /-- There is no `&&` in it. -/
  conjunction : ¬['&', '&'] <:+: command
  /-- There is no `;` in it. -/
  sequence : ';' ∉ command
  /-- There is no line feed in it. -/
  line : '\n' ∉ command

/-! ## Pieces -/

theorem splitCompound_ne_nil (s : List Char) : splitCompound s ≠ [] := by
  fun_cases splitCompound s <;> exact List.cons_ne_nil _ _

/-- A character that begins no separator belongs to the first piece. -/
theorem splitCompound_cons {c : Char} (hand : ¬['&', '&'] <+: c :: s) (hsemicolon : c ≠ ';') :
    splitCompound (c :: s) = (splitCompound s).modifyHead (c :: ·) := by
  obtain ⟨piece, pieces, hpieces⟩ := List.exists_cons_of_ne_nil (splitCompound_ne_nil s)
  rw [splitCompound.eq_def]
  split
  next heq => cases heq
  next heq =>
    obtain ⟨rfl, rfl⟩ := List.cons.inj heq
    exact absurd ⟨_, rfl⟩ hand
  next heq => exact absurd (List.cons.inj heq).1 hsemicolon
  next heq =>
    obtain ⟨rfl, rfl⟩ := List.cons.inj heq
    simp [hpieces]

/-- The first piece is the beginning of the text. -/
theorem prefix_of_splitCompound {pieces : List (List Char)}
    (h : splitCompound s = piece :: pieces) : piece <+: s := by
  fun_induction splitCompound s generalizing piece pieces with
  | case1 => exact (List.cons.inj h).1 ▸ List.prefix_rfl
  | case2 => exact (List.cons.inj h).1 ▸ List.nil_prefix
  | case3 => exact (List.cons.inj h).1 ▸ List.nil_prefix
  | case4 c s _ _ hnil => exact absurd hnil (splitCompound_ne_nil s)
  | case5 c s _ _ first others hpieces ih =>
    obtain ⟨rfl, -⟩ := List.cons.inj h
    exact List.cons_prefix_cons.mpr ⟨rfl, ih hpieces⟩

/-- A piece is a part of the text without a separator. -/
theorem of_mem_splitCompound (h : piece ∈ splitCompound s) :
    piece <:+: s ∧ ¬['&', '&'] <:+: piece ∧ ';' ∉ piece := by
  -- By the recursion that cuts the text: what is new is the first piece, to which a character is
  -- added.
  fun_induction splitCompound s generalizing piece with
  | case1 =>
    obtain rfl := List.mem_singleton.mp h
    exact ⟨List.infix_rfl, by decide, List.not_mem_nil⟩
  | case2 s ih =>
    rcases List.mem_cons.mp h with rfl | h
    · exact ⟨List.nil_infix, by decide, List.not_mem_nil⟩
    · obtain ⟨hpart, hsimple⟩ := ih h
      exact ⟨(hpart.trans (List.suffix_cons ..).isInfix).trans (List.suffix_cons ..).isInfix,
        hsimple⟩
  | case3 s ih =>
    rcases List.mem_cons.mp h with rfl | h
    · exact ⟨List.nil_infix, by decide, List.not_mem_nil⟩
    · obtain ⟨hpart, hsimple⟩ := ih h
      exact ⟨hpart.trans (List.suffix_cons ..).isInfix, hsimple⟩
  | case4 c s _ _ hnil => exact absurd hnil (splitCompound_ne_nil s)
  | case5 c s hand hsemicolon first pieces hpieces ih =>
    rw [hpieces] at ih
    rcases List.mem_cons.mp h with heq | h
    · obtain ⟨-, hconjunction, hsequence⟩ := ih List.mem_cons_self
      have hfirst : first <+: s := prefix_of_splitCompound hpieces
      subst heq
      refine ⟨(List.cons_prefix_cons.mpr ⟨rfl, hfirst⟩).isInfix, ?_, ?_⟩
      · -- The two characters of a separator would stand at the beginning of the text.
        rw [List.infix_cons_iff, not_or]
        refine ⟨fun hbegins => ?_, hconjunction⟩
        obtain ⟨hc, hsecond⟩ := List.cons_prefix_cons.mp hbegins
        obtain ⟨rest, hrest⟩ := hsecond.trans hfirst
        exact hand rest hc.symm hrest.symm
      · rw [List.mem_cons, not_or]
        exact ⟨fun heq => hsemicolon heq.symm, hsequence⟩
    · obtain ⟨hpart, hsimple⟩ := ih (List.mem_cons_of_mem _ h)
      exact ⟨hpart.trans (List.suffix_cons ..).isInfix, hsimple⟩

/-! ## Launchers -/

theorem afterWord?_suffix {word rest : List Char} (h : afterWord? word s = some rest) :
    rest <:+ s := by
  rw [afterWord?] at h
  split at h
  next c behind hstrip =>
    obtain rfl := Text.strip?_eq_some_iff.mp hstrip
    obtain ⟨-, rfl⟩ := Option.ite_none_right_eq_some.mp h |>.imp_right Option.some.inj
    exact ((List.dropWhile_suffix _).trans (List.suffix_cons ..)).trans (List.suffix_append ..)
  next => cases h

theorem dropLaunchers_suffix (steps : Nat) (s : List Char) : dropLaunchers steps s <:+ s := by
  induction steps generalizing s with
  | zero => exact List.suffix_rfl
  | succ steps ih =>
    rw [dropLaunchers]
    split
    next rest hrest =>
      obtain ⟨launcher, -, hlauncher⟩ := List.exists_of_findSome?_eq_some hrest
      exact (ih rest).trans (afterWord?_suffix hlauncher)
    next => exact List.suffix_rfl

theorem dropLibtool_suffix (s : List Char) : dropLibtool s <:+ s := by
  rw [dropLibtool]
  split
  next => exact List.suffix_rfl
  next rest hrest =>
    cases hmode : (afterWord? "compile:".toList rest).or (afterWord? "link:".toList rest) with
    | none => exact List.suffix_rfl
    | some command =>
      have hcommand : command <:+ rest := by
        rcases Option.or_eq_some_iff.mp hmode with h | ⟨-, h⟩ <;> exact afterWord?_suffix h
      exact hcommand.trans (afterWord?_suffix hrest)

/-- A bare command is the end of a text, trimmed. -/
theorem exists_bare_eq (s : List Char) : ∃ rest, rest <:+ s ∧ bare s = Text.trim rest :=
  ⟨_, (dropLaunchers_suffix ..).trans ((dropLibtool_suffix _).trans (List.dropWhile_suffix _)), rfl⟩

/-! ## Link switches -/

theorem linkSwitch?_suffix {rest : List Char} (h : linkSwitch? s = some rest) : rest <:+ s := by
  rw [linkSwitch?.eq_def] at h
  split at h
  next c behind =>
    obtain ⟨-, h⟩ := Option.ite_none_right_eq_some.mp h
    refine List.IsSuffix.trans ?_ (List.suffix_cons c behind)
    split at h
    next => exact Option.some.inj h ▸ List.nil_suffix
    next d more hstrip =>
      obtain ⟨-, h⟩ := Option.ite_none_right_eq_some.mp h
      rw [Text.strip?_eq_some_iff.mp hstrip, ← Option.some.inj h]
      exact (List.suffix_cons ..).trans (List.suffix_append ..)
    next => cases h
  next => cases h

/-- The first link switch counts. -/
theorem splitLinkSwitch?_cons (c : Char) (s : List Char) :
    splitLinkSwitch? (c :: s) =
      match if Text.isBlank c then linkSwitch? (Text.trimStart s) else none with
      | some rest => some ([], rest)
      | none => (splitLinkSwitch? s).map fun (before, rest) => (c :: before, rest) := by
  rfl

/-- What stands before and behind the link switch: the text before it begins with the command unless
that begins with white space. -/
theorem of_splitLinkSwitch? {before rest : List Char}
    (h : splitLinkSwitch? s = some (before, rest)) :
    before <+: s ∧ rest <:+ s ∧
      ∀ c ∈ s.head?, Text.isBlank c = false → before.head? = some c := by
  induction s generalizing before with
  | nil => cases h
  | cons c s ih =>
    rw [splitLinkSwitch?_cons] at h
    split at h
    next behind hswitch =>
      obtain ⟨rfl, rfl⟩ := Prod.mk.inj (Option.some.inj h)
      obtain ⟨hblank, hswitch⟩ := Option.ite_none_right_eq_some.mp hswitch
      refine ⟨List.nil_prefix, ?_, fun d hd hd' => ?_⟩
      · exact ((linkSwitch?_suffix hswitch).trans (List.dropWhile_suffix _)).trans
          (List.suffix_cons ..)
      · obtain rfl : c = d := Option.some.inj hd
        exact absurd (hblank.symm.trans hd') nofun
    next =>
      obtain ⟨⟨front, behind⟩, hrest, heq⟩ := Option.map_eq_some_iff.mp h
      obtain ⟨rfl, rfl⟩ := Prod.mk.inj heq
      obtain ⟨hfront, hsuffix, -⟩ := ih hrest
      exact ⟨List.cons_prefix_cons.mpr ⟨rfl, hfront⟩, hsuffix.trans (List.suffix_cons ..),
        fun _ hd _ => hd⟩

/-! ## Lines -/

/-- What is left of a part of a line when it is trimmed is in normal form, unless nothing is. -/
theorem isNormal_trim (hand : ¬['&', '&'] <:+: s) (hsemicolon : ';' ∉ s) (hline : '\n' ∉ s)
    (hne : Text.trim s ≠ []) : IsNormal (Text.trim s) where
  nonempty := hne
  head _ := Text.isBlank_of_mem_head?_trim
  last _ := Text.isBlank_of_mem_getLast?_trimEnd
  conjunction h := hand (h.trans (Text.infix_trim s))
  sequence h := hsemicolon ((Text.infix_trim s).subset h)
  line h := hline ((Text.infix_trim s).subset h)

/-- The command that links what was compiled is in normal form, whatever its arguments are. -/
theorem isNormal_link {arguments : List Char} (hand : ¬['&', '&'] <:+: arguments)
    (hsemicolon : ';' ∉ arguments) (hline : '\n' ∉ arguments) :
    IsNormal (if (Text.trim arguments).isEmpty then "link".toList
      else "link ".toList ++ Text.trim arguments) := by
  split
  · refine ⟨by decide, ?_, ?_, by decide, by decide, by decide⟩ <;> rintro c ⟨⟩ <;> decide
  next hne =>
    have hne : Text.trim arguments ≠ [] := by simpa using hne
    obtain ⟨-, -, hlast, hand, hsemicolon, hline⟩ := isNormal_trim hand hsemicolon hline hne
    refine ⟨by simp, ?_, ?_, ?_, ?_, ?_⟩
    · rintro c ⟨⟩
      decide
    · rwa [List.getLast?_append_of_ne_nil _ hne]
    · rwa [← Text.occurs_iff, Text.occurs_append_of_not_mem (by decide), Text.occurs_iff]
    · rw [List.mem_append, not_or]
      exact ⟨by decide, hsemicolon⟩
    · rw [List.mem_append, not_or]
      exact ⟨by decide, hline⟩

/-- Both halves of a command in normal form are in normal form. -/
theorem IsNormal.splitLinkMode? {compile link : List Char} (h : IsNormal command)
    (hsplit : splitLinkMode? command = some (compile, link)) :
    IsNormal compile ∧ IsNormal link := by
  rw [Command.splitLinkMode?] at hsplit
  split at hsplit
  · cases hsplit
  obtain ⟨-, hsplit⟩ := Option.ite_none_right_eq_some.mp hsplit
  obtain ⟨⟨before, rest⟩, hswitch, heq⟩ := Option.map_eq_some_iff.mp hsplit
  obtain ⟨rfl, rfl⟩ := Prod.mk.inj heq
  obtain ⟨hfront, hsuffix, hhead⟩ := of_splitLinkSwitch? hswitch
  constructor
  · refine isNormal_trim ?_ ?_ ?_ ?_
    · exact fun hand => h.conjunction (hand.trans hfront.isInfix)
    · exact fun hmem => h.sequence (hfront.subset hmem)
    · exact fun hmem => h.line (hfront.subset hmem)
    · -- The first character of the command is left.
      obtain ⟨c, behind, rfl⟩ := List.exists_cons_of_ne_nil h.nonempty
      have hc : Text.isBlank c = false := h.head c rfl
      obtain ⟨more, hmore⟩ := List.head?_eq_some_iff.mp (hhead c rfl hc)
      have htrim := Text.trim_append_cons (s := []) (List.forall_mem_nil _) hc more
      rw [List.nil_append] at htrim
      rw [hmore, htrim]
      exact List.cons_ne_nil _ _
  · refine isNormal_link ?_ ?_ ?_
    · exact fun hand => h.conjunction (hand.trans hsuffix.isInfix)
    · exact fun hmem => h.sequence (hsuffix.subset hmem)
    · exact fun hmem => h.line (hsuffix.subset hmem)

/-- What a line gives is in normal form. -/
theorem isNormal_of_mem_ofLine (hline : '\n' ∉ line) (h : command ∈ ofLine line) :
    IsNormal command := by
  obtain ⟨piece, hpiece, h⟩ := List.mem_flatMap.mp h
  obtain ⟨hpart, hand, hsemicolon⟩ := of_mem_splitCompound hpiece
  obtain ⟨rest, hsuffix, hbare⟩ := exists_bare_eq (Text.trim piece)
  have hrest : rest <:+: piece := hsuffix.isInfix.trans (Text.infix_trim piece)
  rw [ofPiece, hbare] at h
  split at h
  · cases h
  next hne =>
    have hnormal : IsNormal (Text.trim rest) := by
      refine isNormal_trim ?_ ?_ ?_ (by simpa using hne)
      · exact fun hmem => hand (hmem.trans hrest)
      · exact fun hmem => hsemicolon (hrest.subset hmem)
      · exact fun hmem => hline (hpart.subset (hrest.subset hmem))
    split at h
    next compile link hsplit =>
      obtain ⟨hcompile, hlink⟩ := hnormal.splitLinkMode? hsplit
      simp only [List.mem_cons, List.not_mem_nil, or_false] at h
      rcases h with rfl | rfl
      · exact hcompile
      · exact hlink
    next => exact List.mem_singleton.mp h ▸ hnormal

/-! ## All lines -/

/-- The line that is read together with the one that waits for it. -/
def joined (pending : Option (List Char)) (line : List Char) : List Char :=
  match pending with
  | some before => before ++ ' ' :: Text.trimStart line
  | none => line

/-- White space at the end of a line does not matter. -/
theorem trimEnd_joined_append {blanks : List Char} (h : ∀ c ∈ blanks, Text.isBlank c = true)
    (pending : Option (List Char)) (line : List Char) :
    Text.trimEnd (joined pending (line ++ blanks)) = Text.trimEnd (joined pending line) := by
  cases pending with
  | none => exact Text.trimEnd_append_of_forall h line
  | some before =>
    obtain ⟨rest, hstart, hrest⟩ := Text.exists_trimStart_append h line
    rw [joined, joined, hstart, ← List.cons_append, ← List.append_assoc,
      Text.trimEnd_append_of_forall hrest]

/-- What is done to a line, apart from the carriage returns at its end. -/
theorem read_eq (pending : Option (List Char)) (line : List Char) :
    read pending line =
      match Text.stripEnd? ['\\'] (Text.trimEnd (joined pending line)) with
      | some before => ([], some (Text.trimEnd before))
      | none => (ofLine (Text.trimEnd (joined pending line)), none) := by
  obtain ⟨returns, hline, hreturns⟩ : ∃ returns,
      line = Text.dropEndWhile (· == '\r') line ++ returns ∧
        ∀ c ∈ returns, Text.isBlank c = true := by
    rw [Text.dropEndWhile_eq_rdropWhile]
    refine ⟨line.rtakeWhile (· == '\r'), (List.rdropWhile_append_rtakeWhile ..).symm, ?_⟩
    intro c hc
    obtain rfl : c = '\r' := by simpa using List.mem_rtakeWhile_imp hc
    decide
  conv_rhs => rw [hline, trimEnd_joined_append hreturns]
  rfl

/-- The commands of the lines, read one after the other. -/
def readAll (pending : Option (List Char)) : List (List Char) → List (List Char)
  | [] => pending.elim [] ofLine
  | line :: lines => (read pending line).1 ++ readAll (read pending line).2 lines

/-- The recognizer of commands reads lines so. -/
theorem recognize_scanner {ω : Type} (lines : List (List Char)) (pending : Option (List Char))
    (w : ω) :
    scanner.recognize (lines.map String.ofList) pending w
      = (readAll pending lines).map String.ofList := by
  induction lines generalizing pending with
  | nil => rfl
  | cons line lines ih =>
    have hline := ih (read pending line).2
    simp only [LineScanner.recognize, List.map_cons, LineScanner.scanLines, scanner,
      LineScanner.ofPure, String.toList_ofList, readAll, List.map_append,
      List.append_assoc] at hline ⊢
    rw [hline]

/-- What all lines give is in normal form, if the line that waits for the next one has no line feed
in it, either. -/
theorem isNormal_of_mem_readAll {lines : List (List Char)} {pending : Option (List Char)}
    (hpending : ∀ before ∈ pending, '\n' ∉ before) (hlines : ∀ line ∈ lines, '\n' ∉ line)
    (h : command ∈ readAll pending lines) : IsNormal command := by
  -- The induction is on the lines, and the one that waits is any text without a line feed.
  induction lines generalizing pending with
  | nil =>
    cases pending with
    | none => cases h
    | some before => exact isNormal_of_mem_ofLine (hpending before rfl) h
  | cons line lines ih =>
    obtain ⟨hline, hlines⟩ := List.forall_mem_cons.mp hlines
    -- A line feed in the joined line would come from one of the two.
    have hjoined : '\n' ∉ Text.trimEnd (joined pending line) := by
      refine fun hmem => absurd ((Text.prefix_trimEnd _).subset hmem) ?_
      cases pending with
      | none => exact hline
      | some before =>
        rw [joined, List.mem_append, List.mem_cons, not_or, not_or]
        exact ⟨hpending before rfl, by decide,
          fun hstart => hline ((List.dropWhile_suffix _).subset hstart)⟩
    rw [readAll, read_eq] at h
    cases hstrip : Text.stripEnd? ['\\'] (Text.trimEnd (joined pending line)) with
    | some before =>
      rw [hstrip] at h
      refine ih (fun waiting hwaiting hmem => hjoined ?_) hlines h
      obtain rfl : Text.trimEnd before = waiting := Option.some.inj hwaiting
      rw [Text.stripEnd?_eq_some_iff.mp hstrip]
      exact List.mem_append_left _ ((Text.prefix_trimEnd before).subset hmem)
    | none =>
      rw [hstrip] at h
      rcases List.mem_append.mp h with h | h
      · exact isNormal_of_mem_ofLine hjoined h
      · exact ih (by simp) hlines h

/-- The commands of a text. -/
def ofText (s : List Char) : List (List Char) := readAll none (Text.lines s)

/-- They are in normal form. -/
theorem isNormal_of_mem_ofText (h : command ∈ ofText s) : IsNormal command :=
  isNormal_of_mem_readAll (by simp) (fun _ => Text.not_mem_of_mem_lines) h

/-- Each command has a line of its own in the text. -/
theorem text_eq {commands : List (List Char)} (h : [] ∉ commands) :
    text (commands.map String.ofList) = String.ofList (commands.flatMap (· ++ ['\n'])) := by
  have hjoined : "\n".intercalate (commands.map String.ofList)
      = String.ofList (['\n'].intercalate commands) := by
    refine String.toList_inj.mp ?_
    rw [String.toList_intercalate, List.map_map, String.toList_ofList]
    simp [Function.comp_def]
  have hended : ∀ command commands, ['\n'].intercalate (command :: commands) ++ ['\n']
      = (command :: commands).flatMap (· ++ ['\n']) := by
    intro command commands
    induction commands generalizing command with
    | nil => simp
    | cons next commands ih =>
      rw [List.intercalate_cons_cons, List.append_assoc, ih]
      rfl
  rw [text, hjoined]
  cases commands with
  | nil => rfl
  | cons command commands =>
    -- There is something to end: the first command is not empty.
    have hne : (String.ofList (['\n'].intercalate (command :: commands))).isEmpty = false := by
      have hcommand : command ≠ [] := fun heq => h (heq ▸ List.mem_cons_self)
      rw [Bool.eq_false_iff, ne_eq, String.isEmpty_iff, String.ofList_eq_empty_iff]
      cases commands with
      | nil => simpa using hcommand
      | cons next commands => simp [List.intercalate_cons_cons, hcommand]
    rw [← hended, String.ofList_append, if_neg (by simp [hne])]

/-- Unless the scan is cancelled, its items are the commands. -/
theorem complete?_scanner {ω : Type} (isCancelled : ω → Bool) (chunkSize : Nat) (raw : String)
    (w : ω) :
    Scan.complete? scanner isCancelled chunkSize raw none w
      = (if isCancelled w then none else some ((ofText raw.toList).map String.ofList), w) := by
  have hlines := recognize_scanner (Text.lines raw.toList) none w
  rw [scanner, LineScanner.recognize_ofPure] at hlines
  rw [scanner, Scan.complete?_ofPure_eq, LineScanner.recognize_ofPure, Scan.linesOf, hlines, ofText]

/-- Unless the scan is cancelled, the text has each command on a line of its own. -/
theorem normalize?_eq {ω : Type} (isCancelled : ω → Bool) (chunkSize : Nat) (raw : String)
    (w : ω) :
    normalize? isCancelled chunkSize raw w
      = (if isCancelled w then none
          else some (String.ofList ((ofText raw.toList).flatMap (· ++ ['\n']))), w) := by
  have hne : [] ∉ ofText raw.toList := fun h => (isNormal_of_mem_ofText h).nonempty rfl
  simp only [normalize?, complete?_scanner, ← text_eq hne]
  cases isCancelled w <;> rfl

/-- Whatever a raw trace looks like, what comes out of it is its commands, one on each line: all of
them are in normal form, and the lines of the text are the commands again. If a command is split
into its two halves, both are in normal form, too. -/
theorem normalize?_normal (raw : String) :
    ∃ commands : List (List Char),
      (∀ command ∈ commands, IsNormal command) ∧
      (∀ command compile link, IsNormal command → splitLinkMode? command = some (compile, link) →
        IsNormal compile ∧ IsNormal link) ∧
      ∃ trace : String, trace.toList = commands.flatMap (· ++ ['\n']) ∧
        Text.lines trace.toList = commands ∧
        ∀ {ω : Type} (isCancelled : ω → Bool) (chunkSize : Nat) (w : ω),
          isCancelled w = false →
          Scan.complete? scanner isCancelled chunkSize raw none w
            = (some (commands.map String.ofList), w) ∧
          normalize? isCancelled chunkSize raw w = (some trace, w) := by
  have hnormal : ∀ command ∈ ofText raw.toList, IsNormal command := fun _ => isNormal_of_mem_ofText
  refine ⟨ofText raw.toList, hnormal, fun _ _ _ h => h.splitLinkMode?, _, String.toList_ofList, ?_,
    fun isCancelled chunkSize w hw => ⟨?_, ?_⟩⟩
  · rw [String.toList_ofList]
    refine Text.lines_flatMap fun command hcommand => ⟨(hnormal command hcommand).line, ?_⟩
    intro hreturn
    exact absurd ((hnormal command hcommand).last '\r' hreturn) (by decide)
  · rw [complete?_scanner, hw]
    rfl
  · rw [normalize?_eq, hw]
    rfl

/-- A launcher, a command that also links, an empty piece, and a continuation that nothing
follows. -/
theorem normalize?_normal_linking :
    let raw := " ; ccache cl.exe /nologo\\\r\n a.c /link /out:a.exe &&; gcc -c b.c \\"
    let commands := ["cl.exe /nologo a.c".toList, "link /out:a.exe".toList, "gcc -c b.c".toList]
    (∀ command ∈ commands, IsNormal command) ∧
      normalize? (fun _ => false) 1 raw ()
        = (some "cl.exe /nologo a.c\nlink /out:a.exe\ngcc -c b.c\n", ()) := by
  intro raw commands
  have hrun : normalize? (fun _ => false) 1 raw ()
      = (some "cl.exe /nologo a.c\nlink /out:a.exe\ngcc -c b.c\n", ()) := by decide +kernel
  obtain ⟨found, hnormal, -, trace, -, hlines, hruns⟩ := normalize?_normal raw
  have htrace := (hruns (fun _ => false) 1 () rfl).2.symm.trans hrun
  obtain rfl : trace = _ := Option.some.inj (congrArg Prod.fst htrace)
  have hfound : found = commands := hlines.symm.trans (by decide +kernel)
  exact ⟨hfound ▸ hnormal, hrun⟩

end Command

end BuildTrace
