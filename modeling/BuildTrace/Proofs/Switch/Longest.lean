import BuildTrace.Proofs.Switch.Mention
import BuildTrace.Proofs.Text.Occurrence

/-!
# The longest name of a switch

Several of the names that are asked for may be spelled by one token: `-stdlib` begins with `std`,
too. The longest one counts, in whatever order the names are given. Since the value of a switch may
be the next token, the choice at one token decides where the next one is looked at. This module
says what is read from tokens without an order of the names, and that this is what is read.

## Main definitions

* `Switch.IsQueried`: the names that are asked for;
* `Switch.Name.SpelledBy`: the forms in which a token spells a name;
* `Switch.Chosen`: the longest of the names that a token spells;
* `Switch.Reads`: the switches read from tokens, each by the longest name.

## Main results

* `Switch.recognize?_eq_some_iff`: the name that is recognized is the longest one;
* `Switch.reads_iff`: what is read is determined;
* `Switch.ordered_longest`: the order of the names makes no difference.
-/

namespace BuildTrace.Switch

/-- The name is asked for. The empty name is not looked for. -/
def IsQueried (simple valued : List String) (name : Name) : Prop :=
  name.text ≠ [] ∧ String.ofList name.text ∈ if name.valued then valued else simple

/-- The token spells the name. A switch without a value is all that stands behind the lead. One with
a value stands alone, in front of an equals sign or, unless the lead is that of a long option, in
front of anything else; a colon does not belong to the value, either. -/
inductive Name.SpelledBy (style : Style) (token : List Char) : Name → Spelling → Prop where
  /-- The name of a switch without a value. -/
  | plain {name : List Char} {long : Bool} : style.spelled? token = some (name, long) →
      SpelledBy style token ⟨name, false⟩ .plain
  /-- The name of a switch whose value is the next token. -/
  | separate {name : List Char} {long : Bool} : style.spelled? token = some (name, long) →
      SpelledBy style token ⟨name, true⟩ .separate
  /-- The value stands behind an equals sign. -/
  | equals {name value : List Char} {long : Bool} :
      style.spelled? token = some (name ++ '=' :: value, long) →
      SpelledBy style token ⟨name, true⟩ (.glued value)
  /-- The value stands behind a colon. -/
  | colon {name value : List Char} : style.spelled? token = some (name ++ ':' :: value, false) →
      SpelledBy style token ⟨name, true⟩ (.glued value)
  /-- The value stands right behind the name. -/
  | joined {name value : List Char} {c : Char} : c ≠ '=' → c ≠ ':' →
      style.spelled? token = some (name ++ c :: value, false) →
      SpelledBy style token ⟨name, true⟩ (.glued (c :: value))

/-- Of the names that are asked for and spelled by the token, this one is the longest. Where a
switch is asked for both with and without a value, and stands alone, it is the one without. -/
structure Chosen (style : Style) (queried : Name → Prop) (token : List Char) (name : Name)
    (spelling : Spelling) : Prop where
  /-- The name is asked for. -/
  asked : queried name
  /-- The token spells it. -/
  spelled : name.SpelledBy style token spelling
  /-- No other name that is asked for and spelled is longer. -/
  longest : ∀ other otherSpelling, queried other → other.SpelledBy style token otherSpelling →
    other.text.length ≤ name.text.length
  /-- No value is taken from the next token if the switch may go without. -/
  alone : spelling = .separate → ¬queried ⟨name.text, false⟩

/-- The switches are read from the tokens, each by the longest of the names that its token spells.
A switch whose value is missing is none. -/
inductive Reads (style : Style) (queried : Name → Prop) :
    List (List Char) → List Switch → Prop where
  /-- No token, no switch. -/
  | nil : Reads style queried [] []
  /-- The token spells none of the names. -/
  | other {token : List Char} {tokens : List (List Char)} {switches : List Switch} :
      (∀ name spelling, queried name → ¬name.SpelledBy style (unwrapQuotes token) spelling) →
      Reads style queried tokens switches → Reads style queried (token :: tokens) switches
  /-- The token is a switch without a value. -/
  | plain {token : List Char} {name : Name} {tokens : List (List Char)} {switches : List Switch} :
      Chosen style queried (unwrapQuotes token) name .plain →
      Reads style queried tokens switches →
      Reads style queried (token :: tokens) (⟨String.ofList name.text, none⟩ :: switches)
  /-- The token is a switch with its value. -/
  | glued {token value : List Char} {name : Name} {tokens : List (List Char)}
      {switches : List Switch} : Chosen style queried (unwrapQuotes token) name (.glued value) →
      Reads style queried tokens switches →
      Reads style queried (token :: tokens) (ofValue name value :: switches)
  /-- The token is a switch, and the next one is its value. -/
  | separate {token value : List Char} {name : Name} {tokens : List (List Char)}
      {switches : List Switch} : Chosen style queried (unwrapQuotes token) name .separate →
      Reads style queried tokens switches →
      Reads style queried (token :: value :: tokens) (ofValue name value :: switches)
  /-- The last token is a switch that lacks its value. -/
  | dangling {token : List Char} {name : Name} :
      Chosen style queried (unwrapQuotes token) name .separate → Reads style queried [token] []

variable {style : Style} {token text : List Char} {name other : Name}
  {spelling otherSpelling : Spelling} {simple valued : List String}

/-! ## One token -/

/-- What a token spells is read behind its lead. -/
theorem Name.SpelledBy.spelling?_eq {long : Bool} (hform : name.SpelledBy style token spelling)
    (h : style.spelled? token = some (text, long)) : name.spelling? text long = some spelling := by
  have hspelled : ∀ {text' : List Char} {long' : Bool}, style.spelled? token = some (text', long') →
      text = text' ∧ long = long' := fun h' => Prod.mk.inj (Option.some.inj (h.symm.trans h'))
  cases hform with
  | plain h' =>
    obtain ⟨rfl, -⟩ := hspelled h'
    rw [spelling?_simple rfl, if_pos rfl]
  | separate h' =>
    obtain ⟨rfl, -⟩ := hspelled h'
    simpa using spelling?_append text [] long
  | equals h' =>
    obtain ⟨rfl, -⟩ := hspelled h'
    simp [spelling?_append]
  | colon h' =>
    obtain ⟨rfl, rfl⟩ := hspelled h'
    simp [spelling?_append]
  | joined heq hcolon h' =>
    obtain ⟨rfl, rfl⟩ := hspelled h'
    simp [spelling?_append, heq, hcolon]

/-- What is read behind the lead of a token is spelled by it. -/
theorem spelledBy_of_spelling? {long : Bool} (h : style.spelled? token = some (text, long))
    (hread : name.spelling? text long = some spelling) : name.SpelledBy style token spelling := by
  obtain ⟨name, takesValue⟩ := name
  cases takesValue with
  | false =>
    rw [spelling?_simple rfl] at hread
    split at hread
    next heq =>
      cases hread
      exact .plain (heq ▸ h)
    next => cases hread
  | true =>
    cases hstrip : Text.strip? name text with
    | none => simp [Name.spelling?, hstrip] at hread
    | some suffix =>
      obtain rfl := Text.strip?_eq_some_iff.mp hstrip
      rw [spelling?_append] at hread
      cases suffix with
      | nil =>
        cases hread
        exact .separate (List.append_nil name ▸ h)
      | cons c rest =>
        -- Behind the lead of a long option there is only the equals sign.
        by_cases heq : c = '='
        · subst heq
          obtain rfl : Spelling.glued rest = spelling := by simpa using hread
          exact .equals h
        obtain rfl : long = false := by
          by_contra hlong
          simp [heq, hlong] at hread
        by_cases hcolon : c = ':'
        · subst hcolon
          obtain rfl : Spelling.glued rest = spelling := by simpa using hread
          exact .colon h
        · obtain rfl : Spelling.glued (c :: rest) = spelling := by
            simpa [heq, hcolon] using hread
          exact .joined heq hcolon h

/-- What a token spells is what is read behind its lead. -/
theorem spelledBy_iff {long : Bool} (h : style.spelled? token = some (text, long)) :
    name.SpelledBy style token spelling ↔ name.spelling? text long = some spelling :=
  ⟨fun hform => hform.spelling?_eq h, spelledBy_of_spelling? h⟩

/-- A name that is spelled begins the text behind the lead. -/
theorem Name.SpelledBy.exists_spelled? (h : name.SpelledBy style token spelling) :
    ∃ text long, style.spelled? token = some (text, long) ∧ name.text <+: text := by
  cases h with
  | plain h => exact ⟨_, _, h, List.prefix_rfl⟩
  | separate h => exact ⟨_, _, h, List.prefix_rfl⟩
  | equals h => exact ⟨_, _, h, List.prefix_append _ _⟩
  | colon h => exact ⟨_, _, h, List.prefix_append _ _⟩
  | joined _ _ h => exact ⟨_, _, h, List.prefix_append _ _⟩

/-- Of two names that a token spells, one is the beginning of the other. -/
theorem Name.SpelledBy.prefix_or_prefix (h : name.SpelledBy style token spelling)
    (h' : other.SpelledBy style token otherSpelling) :
    name.text <+: other.text ∨ other.text <+: name.text := by
  obtain ⟨text, long, hspelled, hbegins⟩ := h.exists_spelled?
  obtain ⟨text', long', hspelled', hbegins'⟩ := h'.exists_spelled?
  obtain ⟨rfl, -⟩ := Prod.mk.inj (Option.some.inj (hspelled.symm.trans hspelled'))
  exact List.prefix_or_prefix_of_prefix hbegins hbegins'

/-- A name is spelled in one way. -/
theorem Name.SpelledBy.unique (h : name.SpelledBy style token spelling)
    (h' : name.SpelledBy style token otherSpelling) : spelling = otherSpelling := by
  obtain ⟨text, long, hspelled, -⟩ := h.exists_spelled?
  exact Option.some.inj
    (((spelledBy_iff hspelled).mp h).symm.trans ((spelledBy_iff hspelled).mp h'))

/-- A switch that is spelled as one without a value stands alone. -/
theorem Name.SpelledBy.separate_of_simple {name : List Char}
    (h : Name.SpelledBy style token ⟨name, false⟩ spelling)
    (h' : Name.SpelledBy style token ⟨name, true⟩ otherSpelling) : otherSpelling = .separate := by
  cases h with
  | plain h => exact h'.unique (.separate h)

variable {queried : Name → Prop}

/-- The choice is determined. -/
theorem Chosen.unique (h : Chosen style queried token name spelling)
    (h' : Chosen style queried token other otherSpelling) :
    name = other ∧ spelling = otherSpelling := by
  have htext : name.text = other.text := by
    have hle := h'.longest _ _ h.asked h.spelled
    have hge := h.longest _ _ h'.asked h'.spelled
    rcases h.spelled.prefix_or_prefix h'.spelled with hbegins | hbegins
    · exact hbegins.eq_of_length_le hge
    · exact (hbegins.eq_of_length_le hle).symm
  obtain ⟨text, takesValue⟩ := name
  obtain ⟨text', takesValue'⟩ := other
  obtain rfl : text = text' := htext
  -- With and without a value, the switch stands alone, and then it is the one without.
  obtain rfl : takesValue = takesValue' := by
    cases takesValue <;> cases takesValue' <;> try rfl
    · exact absurd h.asked (h'.alone (h.spelled.separate_of_simple h'.spelled))
    · exact absurd h'.asked (h.alone (h'.spelled.separate_of_simple h.spelled))
  exact ⟨rfl, h.spelled.unique h'.spelled⟩

/-! ## The order of the names -/

/-- The names that are looked for are those that are asked for. -/
theorem mem_names_iff : name ∈ names simple valued ↔ IsQueried simple valued name := by
  have htexts : ∀ {given : List String} {text : List Char},
      (∃ s ∈ given, s.toList = text) ↔ String.ofList text ∈ given := by
    intro given text
    constructor
    · rintro ⟨s, hs, rfl⟩
      rwa [String.ofList_toList]
    · exact fun h => ⟨_, h, String.toList_ofList⟩
  obtain ⟨text, takesValue⟩ := name
  cases takesValue <;> simp [names, IsQueried, htexts, and_comm]

/-- They are looked for in the order of their sizes, and of equal ones those without a value go
first. -/
theorem pairwise_names (simple valued : List String) : (names simple valued).Pairwise fun a b =>
    Text.byteLength b.text ≤ Text.byteLength a.text ∧
      (Text.byteLength a.text ≤ Text.byteLength b.text → b.valued = false → a.valued = false) := by
  have hkinds : (simple.map (Name.mk ·.toList false) ++ valued.map (Name.mk ·.toList true)).Pairwise
      fun a b => b.valued = false → a.valued = false := by
    refine List.pairwise_append.mpr ⟨?_, ?_, ?_⟩
    · exact List.pairwise_map.mpr (List.pairwise_of_forall fun _ _ _ => rfl)
    · exact List.pairwise_map.mpr (List.pairwise_of_forall fun _ _ => nofun)
    · intro a ha b _ _
      obtain ⟨_, -, rfl⟩ := List.mem_map.mp ha
      rfl
  have htotal : ∀ a b : Name, decide (Text.byteLength b.text ≤ Text.byteLength a.text) = true ∨
      decide (Text.byteLength a.text ≤ Text.byteLength b.text) = true := by
    simpa using fun a b : Name => Nat.le_total (Text.byteLength b.text) (Text.byteLength a.text)
  have htrans : ∀ a b c : Name, decide (Text.byteLength b.text ≤ Text.byteLength a.text) = true →
      decide (Text.byteLength c.text ≤ Text.byteLength b.text) = true →
      decide (Text.byteLength c.text ≤ Text.byteLength a.text) = true := by
    simpa using fun a b c : Name => fun hab hbc => Nat.le_trans hbc hab
  simpa [names] using pairwise_sortBy_stable htotal htrans (hkinds.filter (!·.text.isEmpty))

/-- A token that spells one of the names is recognized. -/
theorem isSome_recognize? (hasked : IsQueried simple valued name)
    (h : name.SpelledBy style (unwrapQuotes token) spelling) :
    (recognize? style (names simple valued) token).isSome = true := by
  obtain ⟨text, long, hspelled, -⟩ := h.exists_spelled?
  simp only [recognize?, hspelled, List.findSome?_isSome_iff]
  exact ⟨name, mem_names_iff.mpr hasked, by rw [(spelledBy_iff hspelled).mp h]; rfl⟩

/-- The name that is recognized goes before all others that the token spells, so it is the longest
one. -/
theorem chosen_of_recognize?
    (h : recognize? style (names simple valued) token = some (name, spelling)) :
    Chosen style (IsQueried simple valued) (unwrapQuotes token) name spelling := by
  rw [recognize?] at h
  split at h
  · cases h
  next text long hspelled =>
  obtain ⟨first, hfirst, hfound, hothers⟩ :=
    exists_first_of_findSome? (pairwise_names simple valued) h
  obtain ⟨_, hspelling, heq⟩ := Option.map_eq_some_iff.mp hfound
  obtain ⟨rfl, rfl⟩ := Prod.mk.inj heq
  have hform := (spelledBy_iff hspelled).mpr hspelling
  have hbehind : ∀ {other otherSpelling}, IsQueried simple valued other →
      other.SpelledBy style (unwrapQuotes token) otherSpelling → other = first ∨
        Text.byteLength other.text ≤ Text.byteLength first.text ∧
          (Text.byteLength first.text ≤ Text.byteLength other.text →
            other.valued = false → first.valued = false) := by
    intro other otherSpelling hasked hother
    refine hothers other (mem_names_iff.mpr hasked) ?_
    rw [(spelledBy_iff hspelled).mp hother]
    rfl
  refine ⟨mem_names_iff.mp hfirst, hform, fun other otherSpelling hasked hother => ?_, ?_⟩
  · rcases hbehind hasked hother with rfl | ⟨hbytes, -⟩
    · exact Nat.le_refl _
    -- Both begin the same text, so the one with more bytes has more characters.
    · rcases hother.prefix_or_prefix hform with hbegins | hbegins
      · exact hbegins.length_le
      · rw [Text.eq_of_prefix_of_byteLength_le hbegins hbytes]
  · rintro rfl hasked
    cases hform with
    | separate hwhole =>
      rcases hbehind hasked (.plain hwhole) with heq | ⟨-, hfirst⟩
      · cases heq
      · cases hfirst (Nat.le_refl _) rfl

/-- The name that is recognized is the longest one. -/
theorem recognize?_eq_some_iff :
    recognize? style (names simple valued) token = some (name, spelling) ↔
      Chosen style (IsQueried simple valued) (unwrapQuotes token) name spelling := by
  refine ⟨chosen_of_recognize?, fun h => ?_⟩
  obtain ⟨⟨other, otherSpelling⟩, hfound⟩ :=
    Option.isSome_iff_exists.mp (isSome_recognize? h.asked h.spelled)
  obtain ⟨rfl, rfl⟩ := h.unique (chosen_of_recognize? hfound)
  exact hfound

theorem recognize?_eq_none_iff_not_spelled : recognize? style (names simple valued) token = none ↔
    ∀ name spelling, IsQueried simple valued name →
      ¬name.SpelledBy style (unwrapQuotes token) spelling := by
  constructor
  · intro hnone name spelling hasked h
    have hsome := isSome_recognize? hasked h
    rw [hnone] at hsome
    cases hsome
  · intro h
    rw [Option.eq_none_iff_forall_ne_some]
    rintro ⟨name, spelling⟩ hfound
    have hchosen := chosen_of_recognize? hfound
    exact h name spelling hchosen.asked hchosen.spelled

/-! ## Lists of tokens -/

/-- The switches of the tokens are read from them. -/
theorem reads_ofTokens (style : Style) (simple valued : List String) (tokens : List (List Char)) :
    Reads style (IsQueried simple valued) tokens
      (ofTokens style (names simple valued) tokens) := by
  fun_induction ofTokens style (names simple valued) tokens with
  | case1 => exact .nil
  | case2 token rest hnone ih => exact .other (recognize?_eq_none_iff_not_spelled.mp hnone) ih
  | case3 token rest name hfound ih => exact .plain (chosen_of_recognize? hfound) ih
  | case4 token rest name value hfound ih => exact .glued (chosen_of_recognize? hfound) ih
  | case5 token name hfound => exact .dangling (chosen_of_recognize? hfound)
  | case6 token name hfound value rest ih => exact .separate (chosen_of_recognize? hfound) ih

/-- What is read from tokens is determined. -/
theorem reads_iff {tokens : List (List Char)} {switches : List Switch} :
    Reads style (IsQueried simple valued) tokens switches ↔
      switches = ofTokens style (names simple valued) tokens := by
  constructor
  · intro h
    -- What is chosen at each token is what is recognized there.
    induction h with
    | nil => rfl
    | other hnone _ ih => rw [ofTokens, recognize?_eq_none_iff_not_spelled.mpr hnone, ih]
    | plain hchosen _ ih => rw [ofTokens, recognize?_eq_some_iff.mpr hchosen, ih]
    | glued hchosen _ ih => rw [ofTokens, recognize?_eq_some_iff.mpr hchosen, ih]
    | separate hchosen _ ih => rw [ofTokens, recognize?_eq_some_iff.mpr hchosen, ih]
    | dangling hchosen => rw [ofTokens, recognize?_eq_some_iff.mpr hchosen]
  · rintro rfl
    exact reads_ofTokens style simple valued tokens

/-- The names that are asked for are the same in any order, and however often they are given. -/
theorem isQueried_congr {simple' valued' : List String}
    (hsimple : ∀ name, name ∈ simple' ↔ name ∈ simple)
    (hvalued : ∀ name, name ∈ valued' ↔ name ∈ valued) :
    IsQueried simple' valued' = IsQueried simple valued := by
  funext name
  simp only [IsQueried]
  split <;> simp only [hsimple, hvalued]

/-- So are the switches that are found. -/
theorem ordered_congr {simple' valued' : List String}
    (hsimple : ∀ name, name ∈ simple' ↔ name ∈ simple)
    (hvalued : ∀ name, name ∈ valued' ↔ name ∈ valued) (style : Style) (arguments : String) :
    ordered style arguments simple' valued' = ordered style arguments simple valued := by
  have hreads := reads_ofTokens style simple' valued' (tokens arguments.toList)
  rw [isQueried_congr hsimple hvalued] at hreads
  exact reads_iff.mp hreads

/-- Whatever the order of the names, and however often they are given, the same switches are found:
those that are read from the tokens by the longest of the names that each token spells. So the
value of a switch does not depend on the order of its spellings, either. -/
theorem ordered_longest {simple simple' valued valued' : List String}
    (hsimple : ∀ name, name ∈ simple' ↔ name ∈ simple)
    (hvalued : ∀ name, name ∈ valued' ↔ name ∈ valued) (style : Style) (arguments : String) :
    ordered style arguments simple' valued' = ordered style arguments simple valued ∧
      (∀ switches, Reads style (IsQueried simple valued) (tokens arguments.toList) switches ↔
        switches = ordered style arguments simple valued) ∧
      single? style arguments valued' = single? style arguments valued := by
  refine ⟨ordered_congr hsimple hvalued style arguments, fun switches => reads_iff, ?_⟩
  have hnone : ∀ name : String, name ∈ [] ↔ name ∈ [] := fun _ => Iff.rfl
  rw [single?, single?, ordered_congr hnone hvalued]

/-- The longer spelling is found, whether it is asked for first or last. -/
theorem ordered_longest_spelling :
    (∀ name : String, name ∈ ["c", "c"] ↔ name ∈ ["c"]) ∧
      (∀ name : String, name ∈ ["out", "o", "out"] ↔ name ∈ ["o", "out"]) ∧
      ordered .msvc "/out:app.exe /c -o a.obj" ["c", "c"] ["out", "o", "out"]
        = [⟨"out", some "app.exe"⟩, ⟨"c", none⟩, ⟨"o", some "a.obj"⟩] := by
  have hsimple : ∀ name : String, name ∈ ["c", "c"] ↔ name ∈ ["c"] := by simp
  have hvalued : ∀ name : String, name ∈ ["out", "o", "out"] ↔ name ∈ ["o", "out"] := by
    simp [or_comm]
  refine ⟨hsimple, hvalued, ?_⟩
  rw [(ordered_longest hsimple hvalued .msvc "/out:app.exe /c -o a.obj").1]
  decide

end BuildTrace.Switch
