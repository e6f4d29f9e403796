import BuildTrace.Proofs.Switch.Mention
import BuildTrace.Proofs.Switch.Quotation

/-!
# Written switches

Whatever is written on a command line as a switch with a value is read back, in whichever of its six
forms and among whatever else: a value that is not bare stands in double quotes, and the quotes keep
it in one token.

## Main definitions

* `Switch.Written`: the texts that are written for a switch with its value, or for anything else.

## Main results

* `Switch.Written.mentions`: what is written mentions the switch as often as it has a value;
* `Switch.repeatable_written`: the values are read back.
-/

namespace BuildTrace.Switch

/-- No character of the value is a quote. -/
def IsUnquoted (value : List Char) : Prop := ∀ c ∈ value, isQuote c = false

instance (value : List Char) : Decidable (IsUnquoted value) :=
  List.decidableBAll (fun c => isQuote c = false) value

/-- The value as it is written: in double quotes if it is empty or has white space in it. -/
def writtenValue (value : List Char) : List Char :=
  if value.isEmpty || value.any Text.isBlank then '"' :: (value ++ ['"']) else value

/-- One item of a command line, and the value that it gives the switch, if it is one. -/
inductive Written (name : List Char) : List Char → Option (List Char) → Prop where
  /-- Anything that is no switch. -/
  | plain {token : List Char} : token ≠ [] → IsBare token → token.head? ≠ some '-' →
      Written name token none
  /-- As in `-Iinc`. -/
  | glued {value : List Char} : IsUnquoted value → value ≠ [] → value.head? ≠ some ':' →
      value.head? ≠ some '=' → Written name ('-' :: (name ++ writtenValue value)) (some value)
  /-- As in `-I=inc`. -/
  | equals {value : List Char} : IsUnquoted value →
      Written name ('-' :: (name ++ '=' :: writtenValue value)) (some value)
  /-- As in `-I:inc`. -/
  | colon {value : List Char} : IsUnquoted value →
      Written name ('-' :: (name ++ ':' :: writtenValue value)) (some value)
  /-- As in `-I inc`. -/
  | separate {value : List Char} : IsUnquoted value → value ≠ [] →
      Written name ('-' :: (name ++ ' ' :: writtenValue value)) (some value)
  /-- As in `--I=inc`. -/
  | longEquals {value : List Char} : IsUnquoted value →
      Written name ('-' :: '-' :: (name ++ '=' :: writtenValue value)) (some value)
  /-- As in `--I inc`. -/
  | longSeparate {value : List Char} : IsUnquoted value → value ≠ [] →
      Written name ('-' :: '-' :: (name ++ ' ' :: writtenValue value)) (some value)

variable {name text value : List Char}

/-! ## Values -/

theorem writtenValue_ne_nil (value : List Char) : writtenValue value ≠ [] := by
  rw [writtenValue]
  split
  · exact List.cons_ne_nil _ _
  next h =>
    rintro rfl
    exact h rfl

/-- A written value is not cut. -/
theorem unbroken_writtenValue (h : IsUnquoted value) : Unbroken (writtenValue value) := by
  rw [writtenValue]
  split
  · exact .quoted (by decide) (fun hmem => Bool.false_ne_true ((h _ hmem).symm.trans (by decide)))
      .nil
  next hbare =>
    simp only [Bool.or_eq_true, not_or, List.any_eq_true, not_exists, not_and,
      Bool.not_eq_true] at hbare
    exact IsBare.unbroken fun c hc => ⟨hbare.2 c hc, h c hc⟩

/-- The quotes of a written value are no part of it. -/
theorem unquote_writtenValue (h : IsUnquoted value) :
    Path.unquote (writtenValue value) = value := by
  have hvalue : Path.unquote value = value := by
    rw [Path.unquote, List.filter_eq_self]
    intro c hc
    simpa [isQuote] using h c hc
  rw [writtenValue]
  split
  · rw [← List.singleton_append, Path.unquote, List.filter_append, List.filter_append]
    exact (List.append_nil _).trans hvalue
  · exact hvalue

/-- A value does not begin with a separator only because it is written. -/
theorem head_writtenValue (hne : value ≠ []) (hcolon : value.head? ≠ some ':')
    (hequals : value.head? ≠ some '=') :
    ∃ c rest, writtenValue value = c :: rest ∧ c ≠ ':' ∧ c ≠ '=' := by
  rw [writtenValue]
  split
  · exact ⟨'"', _, rfl, by decide, by decide⟩
  · obtain ⟨c, rest, rfl⟩ := List.exists_cons_of_ne_nil hne
    exact ⟨c, rest, rfl, by simpa using hcolon, by simpa using hequals⟩

/-! ## Tokens -/

/-- Nothing is unwrapped from a token that begins with a dash. -/
theorem unwrapQuotes_dash (s : List Char) : unwrapQuotes ('-' :: s) = '-' :: s := by
  simp [unwrapQuotes, isQuote]

theorem unwrapQuotes_of_isBare (h : IsBare text) : unwrapQuotes text = text := by
  cases text with
  | nil => rfl
  | cons c s => simp [unwrapQuotes, (h c List.mem_cons_self).2]

/-- Only what begins with a dash spells a switch. -/
theorem Spells.head?_eq {mention? : Option Mention} (h : Spells .gnu name text mention?) :
    text.head? = some '-' := by
  have hlead : ∀ lead ∈ Style.leads .gnu, ∀ s : List Char, (lead ++ s).head? = some '-' := by
    intro lead hmem s
    simp only [Style.leads, List.mem_cons, List.not_mem_nil, or_false] at hmem
    rcases hmem with rfl | rfl <;> rfl
  cases h with
  | bare hmem => exact hlead _ hmem _
  | equals hmem => exact hlead _ hmem _
  | colon hmem => exact hlead _ hmem _
  | longer hmem => exact hlead _ hmem _

/-! ## Items -/

section Tokens

variable {others : List (List Char)} {later : List Mention}

/-- One token that spells the switch with its value. -/
theorem mentions_glued {s : List Char} {mention : Mention} (hunbroken : Unbroken ('-' :: s))
    (hspells : Spells .gnu name ('-' :: s) (some mention)) (h : Mentions .gnu name others later) :
    Mentions .gnu name (tokens ('-' :: s) ++ others) (mention :: later) := by
  rw [tokens_of_unbroken hunbroken (List.cons_ne_nil _ _)]
  exact .glued (by rwa [unwrapQuotes_dash]) h

/-- A token that spells the switch, and its value behind it. -/
theorem mentions_separate {s : List Char} (hunbroken : Unbroken ('-' :: s))
    (hspells : Spells .gnu name ('-' :: s) none) (hvalue : IsUnquoted value)
    (h : Mentions .gnu name others later) :
    Mentions .gnu name (tokens ('-' :: (s ++ ' ' :: writtenValue value)) ++ others)
      (.own (writtenValue value) :: later) := by
  have htokens := tokens_append_blank hunbroken.closesQuotes_eq (writtenValue value)
  rw [tokens_of_unbroken hunbroken (List.cons_ne_nil _ _),
    tokens_of_unbroken (unbroken_writtenValue hvalue) (writtenValue_ne_nil value)] at htokens
  rw [← List.cons_append, htokens]
  exact .separate (by rwa [unwrapQuotes_dash]) h

/-- The value of a mention is the one that was written. -/
theorem value_own_writtenValue (h : IsUnquoted value) :
    (Mention.own (writtenValue value)).value = String.ofList value := by
  rw [Mention.value, Mention.text, unquote_writtenValue h]

section Name

variable (hbare : IsBare name)

include hbare

theorem unbroken_front (lead : List Char) (hlead : IsBare lead) : Unbroken (lead ++ name) :=
  (hlead.append hbare).unbroken

theorem unbroken_glued (lead behind : List Char) (hlead : IsBare lead) (hbehind : IsBare behind)
    (hvalue : IsUnquoted value) : Unbroken (lead ++ (name ++ (behind ++ writtenValue value))) :=
  hlead.unbroken.append
    (hbare.unbroken.append (hbehind.unbroken.append (unbroken_writtenValue hvalue)))

/-- The quotes of an item are closed. -/
theorem Written.closesQuotes_eq {value? : Option (List Char)} (h : Written name text value?) :
    closesQuotes none text = true := by
  have hseparate : ∀ (front : List Char) {value : List Char}, Unbroken front → IsUnquoted value →
      closesQuotes none (front ++ ' ' :: writtenValue value) = true := by
    intro front value hfront hvalue
    rw [hfront.closesQuotes_append]
    exact (unbroken_writtenValue hvalue).closesQuotes_eq
  cases h with
  | plain _ hplain => exact hplain.unbroken.closesQuotes_eq
  | glued hvalue =>
    exact (unbroken_glued hbare ['-'] [] (by decide) (by decide) hvalue).closesQuotes_eq
  | equals hvalue =>
    exact (unbroken_glued hbare ['-'] ['='] (by decide) (by decide) hvalue).closesQuotes_eq
  | colon hvalue =>
    exact (unbroken_glued hbare ['-'] [':'] (by decide) (by decide) hvalue).closesQuotes_eq
  | separate hvalue => exact hseparate ('-' :: name) (unbroken_front hbare ['-'] (by decide)) hvalue
  | longEquals hvalue =>
    exact (unbroken_glued hbare ['-', '-'] ['='] (by decide) (by decide) hvalue).closesQuotes_eq
  | longSeparate hvalue =>
    exact hseparate ('-' :: '-' :: name) (unbroken_front hbare ['-', '-'] (by decide)) hvalue

/-- An item gives the switch the value that it was written for. The items behind it are read as if
it was not there. -/
theorem Written.mentions {value? : Option (List Char)} (hitem : Written name text value?)
    (h : Mentions .gnu name others later) :
    ∃ more, Mentions .gnu name (tokens text ++ others) (more ++ later) ∧
      more.map Mention.value = value?.toList.map String.ofList := by
  cases hitem with
  | plain hne hplain hdash =>
    refine ⟨[], ?_, rfl⟩
    rw [tokens_of_unbroken hplain.unbroken hne]
    refine .other (fun mention? hspells => hdash ?_) h
    rw [unwrapQuotes_of_isBare hplain] at hspells
    exact hspells.head?_eq
  | @glued value hvalue hne hcolon hequals =>
    obtain ⟨c, rest, hwritten, hc, hc'⟩ := head_writtenValue hne hcolon hequals
    -- What is glued to the name makes it a longer one, and the value is what is left of that.
    have hspells : Spells .gnu name ('-' :: (name ++ writtenValue value))
        (some (.longer (writtenValue value))) := by
      rw [hwritten]
      exact @Spells.longer .gnu name ['-'] rest c (by decide) (by decide) hc' hc
    have hunbroken := unbroken_glued hbare ['-'] [] (by decide) (by decide) hvalue
    refine ⟨[_], mentions_glued hunbroken hspells h, ?_⟩
    rw [List.map_singleton, Mention.value, Mention.text, unquote_writtenValue hvalue]
    rfl
  | @equals value hvalue =>
    have hspells : Spells .gnu name ('-' :: (name ++ '=' :: writtenValue value)) _ :=
      @Spells.equals .gnu name ['-'] _ (by decide)
    have hunbroken := unbroken_glued hbare ['-'] ['='] (by decide) (by decide) hvalue
    exact ⟨[_], mentions_glued hunbroken hspells h, by simp [value_own_writtenValue hvalue]⟩
  | @colon value hvalue =>
    have hspells : Spells .gnu name ('-' :: (name ++ ':' :: writtenValue value)) _ :=
      @Spells.colon .gnu name ['-'] _ (by decide) (by decide)
    have hunbroken := unbroken_glued hbare ['-'] [':'] (by decide) (by decide) hvalue
    exact ⟨[_], mentions_glued hunbroken hspells h, by simp [value_own_writtenValue hvalue]⟩
  | separate hvalue =>
    have hspells : Spells .gnu name ('-' :: name) none := @Spells.bare .gnu name ['-'] (by decide)
    have hunbroken := unbroken_front hbare ['-'] (by decide)
    exact ⟨[_], mentions_separate hunbroken hspells hvalue h,
      by simp [value_own_writtenValue hvalue]⟩
  | @longEquals value hvalue =>
    have hspells : Spells .gnu name ('-' :: '-' :: (name ++ '=' :: writtenValue value)) _ :=
      @Spells.equals .gnu name ['-', '-'] _ (by decide)
    have hunbroken := unbroken_glued hbare ['-', '-'] ['='] (by decide) (by decide) hvalue
    exact ⟨[_], mentions_glued hunbroken hspells h, by simp [value_own_writtenValue hvalue]⟩
  | longSeparate hvalue =>
    have hspells : Spells .gnu name ('-' :: '-' :: name) none :=
      @Spells.bare .gnu name ['-', '-'] (by decide)
    have hunbroken := unbroken_front hbare ['-', '-'] (by decide)
    exact ⟨[_], mentions_separate hunbroken hspells hvalue h,
      by simp [value_own_writtenValue hvalue]⟩

/-- The mentions among items have the values that were written. -/
theorem mentions_of_written {items : List (List Char × Option (List Char))}
    (h : ∀ item ∈ items, Written name item.1 item.2) :
    ∃ mentions, Mentions .gnu name (items.flatMap fun item => tokens item.1) mentions ∧
      mentions.map Mention.value = (items.filterMap Prod.snd).map String.ofList := by
  induction items with
  | nil => exact ⟨[], .nil, rfl⟩
  | cons item items ih =>
    obtain ⟨hitem, hitems⟩ := List.forall_mem_cons.mp h
    obtain ⟨later, hlater, hvalues⟩ := ih hitems
    obtain ⟨more, hmore, hvalue⟩ := hitem.mentions hbare hlater
    refine ⟨more ++ later, by rwa [List.flatMap_cons], ?_⟩
    rw [List.map_append, hvalue, hvalues, ← List.map_append]
    cases hitem : item.2 <;> simp [hitem]

end Name

end Tokens

/-- Every written form of a switch is read back: among items with blanks between them, the values of
the switch are those it was written with, in order, and its single value is the last of them. -/
theorem repeatable_written (hne : name ≠ []) (hbare : IsBare name) (hdash : name.head? ≠ some '-')
    (items : List (List Char × Option (List Char)))
    (hitems : ∀ item ∈ items, Written name item.1 item.2) :
    let arguments := String.ofList (Text.joinWith [' '] (items.map Prod.fst))
    let values := (items.filterMap Prod.snd).map String.ofList
    repeatable .gnu arguments (String.ofList name) = values ∧
      single? .gnu arguments [String.ofList name] = values.getLast? := by
  intro arguments values
  obtain ⟨mentions, hmentions, hvalues⟩ := mentions_of_written hbare hitems
  have htokens : tokens arguments.toList = items.flatMap fun item => tokens item.1 := by
    rw [String.toList_ofList, tokens_joinWith, List.flatMap_map]
    intro s hs
    obtain ⟨item, hitem, rfl⟩ := List.mem_map.mp hs
    exact (hitems item hitem).closesQuotes_eq hbare
  rw [← htokens] at hmentions
  constructor
  · rw [hmentions.repeatable_eq hne hdash, hvalues]
  · rw [hmentions.single?_eq hne hdash, hvalues]

/-- Values that look like switches, that begin with a separator or that are empty are read back. -/
theorem repeatable_written_forms :
    let name := "I".toList
    let items : List (List Char × Option (List Char)) :=
      [("-Iinc".toList, some "inc".toList), ("main.c".toList, none),
        ("-I -Iother".toList, some "-Iother".toList), ("-I=".toList ++ "\"\"".toList, some []),
        ("--I=:x".toList, some ":x".toList), ("I".toList, none),
        ("--I \"-I my inc\"".toList, some "-I my inc".toList)]
    (name ≠ [] ∧ IsBare name ∧ name.head? ≠ some '-' ∧
      ∀ item ∈ items, Written name item.1 item.2) ∧
    let arguments := "-Iinc main.c -I -Iother -I=\"\" --I=:x I --I \"-I my inc\""
    repeatable .gnu arguments "I" = ["inc", "-Iother", "", ":x", "-I my inc"] ∧
      single? .gnu arguments ["I"] = some "-I my inc" := by
  intro name items
  have hbare : IsBare name := by decide
  have hitems : ∀ item ∈ items, Written name item.1 item.2 := by
    simp only [items, List.forall_mem_cons]
    -- One way of writing for each item.
    refine ⟨?_, ?_, ?_, ?_, ?_, ?_, ?_, nofun⟩
    · exact @Written.glued name "inc".toList (by decide) (by decide) (by decide) (by decide)
    · exact .plain (by decide) (by decide) (by decide)
    · exact @Written.separate name "-Iother".toList (by decide) (by decide)
    · exact @Written.equals name [] (by decide)
    · exact @Written.longEquals name ":x".toList (by decide)
    · exact .plain (by decide) (by decide) (by decide)
    · exact @Written.longSeparate name "-I my inc".toList (by decide) (by decide)
  refine ⟨⟨by decide, hbare, by decide, hitems⟩, ?_⟩
  exact repeatable_written (by decide) hbare (by decide) items hitems

end BuildTrace.Switch
