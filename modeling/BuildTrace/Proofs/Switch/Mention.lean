import BuildTrace.Proofs.Sort
import BuildTrace.Switch.Basic
import Mathlib.Data.List.Induction

/-!
# Mentions of a switch

A value may be glued to the name of its switch, so a token that spells a longer name behind a short
lead is taken for the switch, too: what is left of the longer name is the value then. This module
tells the two apart. It lists the mentions of one switch among tokens, those of the switch itself
and those that are longer, and says that the values that are read are those of all mentions.

## Main definitions

* `Switch.Spells`: the forms in which a token spells a switch;
* `Switch.Mentions`: the mentions of a switch among tokens;
* `Switch.Present`: a switch without a value is there.

## Main results

* `Switch.exists_mentions`: all tokens have mentions;
* `Switch.Mentions.single?_eq`: the value of a switch is that of its last mention;
* `Switch.isPresent_iff`: a switch without a value is a whole token.
-/

namespace BuildTrace.Switch

/-- The lead of a long option. -/
def longLead : List Char := ['-', '-']

/-- A mention of a switch that takes a value. -/
inductive Mention where
  /-- The switch itself, with its value. -/
  | own (value : List Char)
  /-- A longer name, of which `rest` is left behind the name of the switch. -/
  | longer (rest : List Char)

namespace Mention

/-- What is taken for the value. -/
def text : Mention → List Char
  | own value => value
  | longer rest => rest

/-- What is taken for the value, without quotes. -/
def value (mention : Mention) : String := String.ofList (Path.unquote mention.text)

end Mention

/-- The text of a token spells the switch, and it mentions the switch unless the value is missing:
`-std`, `-std=c11`, `/std:c11` or, behind a short lead only, `-stdlib`. -/
inductive Spells (style : Style) (name : List Char) : List Char → Option Mention → Prop where
  /-- The name stands alone. -/
  | bare {lead : List Char} : lead ∈ style.leads → Spells style name (lead ++ name) none
  /-- The value stands behind an equals sign. -/
  | equals {lead value : List Char} : lead ∈ style.leads →
      Spells style name (lead ++ (name ++ '=' :: value)) (some (.own value))
  /-- The value stands behind a colon. -/
  | colon {lead value : List Char} : lead ∈ style.leads → lead ≠ longLead →
      Spells style name (lead ++ (name ++ ':' :: value)) (some (.own value))
  /-- The name is the beginning of a longer one. -/
  | longer {lead rest : List Char} {c : Char} : lead ∈ style.leads → lead ≠ longLead →
      c ≠ '=' → c ≠ ':' →
      Spells style name (lead ++ (name ++ c :: rest)) (some (.longer (c :: rest)))

/-- The mentions of the switch among the tokens. The value of a switch that stands alone is the next
token, whatever that is; at the end there is none. -/
inductive Mentions (style : Style) (name : List Char) : List (List Char) → List Mention → Prop where
  /-- No token, no mention. -/
  | nil : Mentions style name [] []
  /-- The token has nothing to do with the switch. -/
  | other {token : List Char} {tokens : List (List Char)} {mentions : List Mention} :
      (∀ mention?, ¬Spells style name (unwrapQuotes token) mention?) →
      Mentions style name tokens mentions → Mentions style name (token :: tokens) mentions
  /-- The token mentions the switch. -/
  | glued {token : List Char} {mention : Mention} {tokens : List (List Char)}
      {mentions : List Mention} : Spells style name (unwrapQuotes token) (some mention) →
      Mentions style name tokens mentions →
      Mentions style name (token :: tokens) (mention :: mentions)
  /-- The token is the switch, and the next one is its value. -/
  | separate {token value : List Char} {tokens : List (List Char)} {mentions : List Mention} :
      Spells style name (unwrapQuotes token) none → Mentions style name tokens mentions →
      Mentions style name (token :: value :: tokens) (.own value :: mentions)
  /-- The last token is the switch without a value. -/
  | dangling {token : List Char} :
      Spells style name (unwrapQuotes token) none → Mentions style name [token] []

variable {style : Style} {name text token : List Char} {mention? : Option Mention}

/-! ## Tokens -/

/-- A lead is told from what is behind it, if that does not begin with a dash. -/
theorem spelled?_append {lead : List Char} (hlead : lead ∈ style.leads) (hne : text ≠ [])
    (hdash : text.head? ≠ some '-') :
    style.spelled? (lead ++ text) = some (text, lead == longLead) := by
  obtain ⟨c, text, rfl⟩ := List.exists_cons_of_ne_nil hne
  have hc : '-' ≠ c := fun h => hdash (by rw [List.head?_cons, h])
  cases style <;> simp only [Style.leads, List.mem_cons, List.not_mem_nil, or_false] at hlead
  · rcases hlead with rfl | rfl <;> simp [Style.spelled?, Style.leads, Text.strip?, hc, longLead]
  · rcases hlead with rfl | rfl | rfl <;>
      simp [Style.spelled?, Style.leads, Text.strip?, hc, longLead]

/-- What is spelled stands behind a lead. -/
theorem of_spelled? {long : Bool} (h : style.spelled? token = some (text, long)) :
    ∃ lead ∈ style.leads, token = lead ++ text ∧ long = (lead == longLead) := by
  rw [Style.spelled?] at h
  split at h
  · cases h
  · obtain ⟨lead, hlead, hfound⟩ := List.exists_of_findSome?_eq_some h
    obtain ⟨rest, hstrip, heq⟩ := Option.map_eq_some_iff.mp hfound
    obtain ⟨rfl, rfl⟩ := Prod.mk.inj heq
    exact ⟨lead, hlead, Text.strip?_eq_some_iff.mp hstrip, rfl⟩

/-- How a mention is read. -/
def spellingOf : Option Mention → Spelling
  | none => .separate
  | some mention => .glued mention.text

/-- What is behind the name decides how it is spelled. -/
theorem spelling?_append (name suffix : List Char) (long : Bool) :
    Name.spelling? ⟨name, true⟩ (name ++ suffix) long =
      match suffix with
      | [] => some .separate
      | c :: rest =>
        if long && c != '=' then none
        else if c = ':' || c = '=' then some (.glued rest)
        else some (.glued (c :: rest)) := by
  rw [Name.spelling?, if_pos rfl, Text.strip?_eq_some_iff.mpr rfl]
  cases suffix <;> rfl

/-- A token that does not spell the switch is not recognized. -/
theorem recognize?_of_not_spells
    (h : ∀ mention?, ¬Spells style name (unwrapQuotes token) mention?) :
    recognize? style [⟨name, true⟩] token = none := by
  rw [recognize?]
  generalize unwrapQuotes token = text at h
  -- Whatever the name leaves of the token would spell the switch in one way or another.
  cases hspelled : style.spelled? text with
  | none => rfl
  | some spelled =>
    obtain ⟨spelled, long⟩ := spelled
    obtain ⟨lead, hlead, rfl, rfl⟩ := of_spelled? hspelled
    cases hstrip : Text.strip? name spelled with
    | none => simp [Name.spelling?, hstrip]
    | some suffix =>
      obtain rfl := Text.strip?_eq_some_iff.mp hstrip
      cases suffix with
      | nil => exact absurd (.bare hlead) (List.append_nil name ▸ h none)
      | cons c rest =>
        by_cases heq : c = '='
        · subst heq
          exact absurd (.equals hlead) (h _)
        by_cases hlong : lead = longLead
        · simp [spelling?_append, heq, hlong]
        by_cases hcolon : c = ':'
        · subst hcolon
          exact absurd (.colon hlead hlong) (h _)
        · exact absurd (.longer hlead hlong heq hcolon) (h _)

/-! ## Lists of tokens -/

/-- All tokens have mentions. -/
theorem exists_mentions (style : Style) (name : List Char) (tokens : List (List Char)) :
    ∃ mentions, Mentions style name tokens mentions := by
  have hspelled : ∀ token, (∀ mention?, ¬Spells style name (unwrapQuotes token) mention?) ∨
      ∃ mention?, Spells style name (unwrapQuotes token) mention? :=
    fun _ => (em _).symm.imp_left not_exists.mp
  -- A switch that stands alone takes the next token with it.
  induction tokens using List.twoStepInduction with
  | nil => exact ⟨[], .nil⟩
  | singleton token =>
    rcases hspelled token with hnone | ⟨_ | mention, h⟩
    · exact ⟨[], .other hnone .nil⟩
    · exact ⟨[], .dangling h⟩
    · exact ⟨[mention], .glued h .nil⟩
  | cons_cons token value tokens ihrest ih =>
    obtain ⟨mentions, hmentions⟩ := ih value
    rcases hspelled token with hnone | ⟨_ | mention, h⟩
    · exact ⟨mentions, .other hnone hmentions⟩
    · obtain ⟨mentions, hmentions⟩ := ihrest
      exact ⟨_, .separate h hmentions⟩
    · exact ⟨_, .glued h hmentions⟩

section Name

variable (hne : name ≠ []) (hdash : name.head? ≠ some '-')

include hne hdash

/-- A token that spells the switch is recognized. -/
theorem recognize?_of_spells (h : Spells style name (unwrapQuotes token) mention?) :
    recognize? style [⟨name, true⟩] token = some (⟨name, true⟩, spellingOf mention?) := by
  have hspelled : ∀ lead suffix, lead ∈ style.leads →
      style.spelled? (lead ++ (name ++ suffix)) = some (name ++ suffix, lead == longLead) := by
    intro lead suffix hlead
    refine spelled?_append hlead (by simp [hne]) ?_
    rwa [List.head?_append, Option.or_of_isSome (by simp [hne])]
  rw [recognize?]
  generalize unwrapQuotes token = text at h
  cases h with
  | @bare lead hlead =>
    have hspelled := hspelled lead [] hlead
    have hspelling := spelling?_append name [] (lead == longLead)
    rw [List.append_nil] at hspelled hspelling
    simp [hspelled, hspelling, spellingOf]
  | equals hlead => simp [hspelled _ _ hlead, spelling?_append, spellingOf, Mention.text]
  | colon hlead hshort =>
    simp [hspelled _ _ hlead, spelling?_append, spellingOf, Mention.text, hshort]
  | longer hlead hshort heq hcolon =>
    simp [hspelled _ _ hlead, spelling?_append, spellingOf, Mention.text, hshort, heq, hcolon]

/-- The tokens that are not recognized are those that do not spell the switch. -/
theorem recognize?_eq_none_iff : recognize? style [⟨name, true⟩] token = none ↔
    ∀ mention?, ¬Spells style name (unwrapQuotes token) mention? := by
  refine ⟨fun hnone mention? h => ?_, recognize?_of_not_spells⟩
  rw [recognize?_of_spells hne hdash h] at hnone
  cases hnone

/-- The values that are read are those of the mentions. -/
theorem Mentions.values_eq {tokens : List (List Char)} {mentions : List Mention}
    (h : Mentions style name tokens mentions) :
    (ofTokens style [⟨name, true⟩] tokens).filterMap Switch.value = mentions.map Mention.value := by
  induction h with
  | nil => rfl
  | other hspells _ ih => rw [ofTokens, recognize?_of_not_spells hspells, ih]
  | glued hspells _ ih =>
    rw [ofTokens, recognize?_of_spells hne hdash hspells]
    simp [spellingOf, ofValue, Mention.value, ih]
  | separate hspells _ ih =>
    rw [ofTokens, recognize?_of_spells hne hdash hspells]
    simp [spellingOf, ofValue, Mention.value, Mention.text, ih]
  | dangling hspells =>
    rw [ofTokens, recognize?_of_spells hne hdash hspells]
    rfl

/-- The values of a switch are those of its mentions. -/
theorem Mentions.repeatable_eq {arguments : String} {mentions : List Mention}
    (h : Mentions style name (tokens arguments.toList) mentions) :
    repeatable style arguments (String.ofList name) = mentions.map Mention.value := by
  have hnames : names [] [String.ofList name] = [⟨name, true⟩] := by
    simp [names, sortBy, insertBy, hne]
  rw [repeatable, ordered, hnames, h.values_eq hne hdash]

/-- The value of a switch is that of its last mention. -/
theorem Mentions.single?_eq {arguments : String} {mentions : List Mention}
    (h : Mentions style name (tokens arguments.toList) mentions) :
    single? style arguments [String.ofList name] = (mentions.map Mention.value).getLast? :=
  congrArg List.getLast? (h.repeatable_eq hne hdash)

end Name

/-! ## Switches without a value -/

/-- One of the tokens is the switch, behind one of the leads and perhaps in quotes. -/
def Present (style : Style) (arguments name : String) : Prop :=
  ∃ token ∈ tokens arguments.toList, ∃ lead ∈ style.leads, unwrapQuotes token = lead ++ name.toList

instance (style : Style) (arguments name : String) : Decidable (Present style arguments name) :=
  inferInstanceAs (Decidable (∃ token ∈ tokens arguments.toList, ∃ lead ∈ style.leads,
    unwrapQuotes token = lead ++ name.toList))

/-- A name that can stand behind a lead. -/
def IsBehindLead (name : List Char) : Prop := name ≠ [] ∧ name.head? ≠ some '-'

instance (name : List Char) : Decidable (IsBehindLead name) :=
  inferInstanceAs (Decidable (_ ∧ _))

/-- A switch without a value is spelled by its name. -/
theorem spelling?_simple {name : Name} (h : name.valued = false) (spelled : List Char)
    (long : Bool) :
    name.spelling? spelled long = if spelled = name.text then some .plain else none := by
  rw [Name.spelling?, h, if_neg Bool.false_ne_true]

section Simple

variable {queried : List Name} (hsimple : ∀ name ∈ queried, name.valued = false)

include hsimple

/-- A token that is recognized spells a name only. -/
theorem plain_of_recognize? {name : Name} {spelling : Spelling}
    (h : recognize? style queried token = some (name, spelling)) : spelling = .plain := by
  rw [recognize?] at h
  split at h
  · cases h
  · obtain ⟨other, hother, hfound⟩ := List.exists_of_findSome?_eq_some h
    rw [spelling?_simple (hsimple other hother)] at hfound
    split at hfound <;> cases hfound
    rfl

/-- The tokens that are not recognized are those that are none of the switches. -/
theorem recognize?_simple_eq_none_iff (hnames : ∀ name ∈ queried, IsBehindLead name.text)
    (token : List Char) :
    recognize? style queried token = none ↔
      ∀ lead ∈ style.leads, ∀ name ∈ queried, unwrapQuotes token ≠ lead ++ name.text := by
  rw [recognize?]
  generalize unwrapQuotes token = text
  constructor
  · rintro hnone lead hlead name hname rfl
    obtain ⟨hne, hdash⟩ := hnames name hname
    rw [spelled?_append hlead hne hdash] at hnone
    have hself := List.findSome?_eq_none_iff.mp hnone name hname
    rw [spelling?_simple (hsimple name hname), if_pos rfl] at hself
    cases hself
  · intro h
    cases hspelled : style.spelled? text with
    | none => rfl
    | some spelled =>
      obtain ⟨lead, hlead, htext, -⟩ := of_spelled? hspelled
      refine List.findSome?_eq_none_iff.mpr fun name hname => ?_
      rw [spelling?_simple (hsimple name hname), if_neg fun heq => h lead hlead name hname ?_]
      · rfl
      · rw [htext, heq]

/-- There are no switches if no token is one. -/
theorem ofTokens_simple_eq_nil_iff (hnames : ∀ name ∈ queried, IsBehindLead name.text)
    (tokens : List (List Char)) :
    ofTokens style queried tokens = [] ↔ ∀ token ∈ tokens, ∀ lead ∈ style.leads,
      ∀ name ∈ queried, unwrapQuotes token ≠ lead ++ name.text := by
  induction tokens with
  | nil => simp [ofTokens]
  | cons token tokens ih =>
    rw [ofTokens.eq_def, List.forall_mem_cons, ← ih,
      ← recognize?_simple_eq_none_iff hsimple hnames]
    dsimp only
    cases hfound : recognize? style queried token with
    | none => exact (and_iff_right rfl).symm
    | some found =>
      obtain ⟨name, spelling⟩ := found
      obtain rfl := plain_of_recognize? hsimple hfound
      exact iff_of_false (List.cons_ne_nil _ _) nofun

end Simple

/-- One of the names is a whole switch if one of the switches is there. -/
theorem isPresent_iff {arguments : String} {simple : List String}
    (h : ∀ name ∈ simple, IsBehindLead name.toList) :
    isPresent style arguments simple = true ↔ ∃ name ∈ simple, Present style arguments name := by
  -- The names are sorted before they are looked for, which does not change what is in the list.
  have hmem : ∀ name, name ∈ names simple [] ↔ ∃ text ∈ simple, name = ⟨text.toList, false⟩ := by
    intro name
    simp only [names, mem_sortBy, List.map_nil, List.append_nil, List.mem_filter, List.mem_map]
    constructor
    · rintro ⟨⟨text, htext, rfl⟩, -⟩
      exact ⟨text, htext, rfl⟩
    · rintro ⟨text, htext, rfl⟩
      exact ⟨⟨text, htext, rfl⟩, by simpa using (h text htext).1⟩
  have hsimple : ∀ name ∈ names simple [], name.valued = false := by
    intro name hname
    obtain ⟨text, -, rfl⟩ := (hmem name).mp hname
    rfl
  have hnames : ∀ name ∈ names simple [], IsBehindLead name.text := by
    intro name hname
    obtain ⟨text, htext, rfl⟩ := (hmem name).mp hname
    exact h text htext
  rw [← not_iff_not, isPresent, ordered, Bool.not_eq_true, Bool.not_eq_false', List.isEmpty_iff,
    ofTokens_simple_eq_nil_iff hsimple hnames]
  constructor
  · rintro hnone ⟨name, hname, token, htoken, lead, hlead, heq⟩
    exact hnone token htoken lead hlead _ ((hmem _).mpr ⟨name, hname, rfl⟩) heq
  · intro hnone token htoken lead hlead name hname heq
    obtain ⟨text, htext, rfl⟩ := (hmem name).mp hname
    exact hnone ⟨text, htext, token, htoken, lead, hlead, heq⟩

end BuildTrace.Switch
