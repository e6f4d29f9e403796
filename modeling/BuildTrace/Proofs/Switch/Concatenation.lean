import BuildTrace.Switch.Basic
import BuildTrace.Proofs.Sort
import BuildTrace.Proofs.Switch.Quotation

/-!
# Switches of two texts

The switches of a text are those of its parts, where the text is cut at a blank that stands in no
quotes. There is one thing that reaches over the cut: a switch that still lacks its value takes it
from the second part. Files are no switches, so nothing reaches over the cut for them.

## Main definitions

* `Switch.pending?`: the switch that lacks its value at the end of some tokens.

## Main results

* `Switch.ofTokens_append`: the switches among two lists of tokens;
* `Switch.ordered_append_blank`: the switches and the files of two texts.
-/

namespace BuildTrace.Switch

/-! ## Tokens -/

/-- The name of the switch among the tokens that lacks its value at the end of them. -/
def pending? (style : Style) (queried : List Name) : List (List Char) → Option Name
  | [] => none
  | token :: rest =>
    match recognize? style queried token with
    | some (name, .separate) =>
      match rest with
      | [] => some name
      | _ :: rest => pending? style queried rest
    | _ => pending? style queried rest

variable {style : Style} {queried : List Name}

/-- The switches among the tokens that come behind others. If the others left a switch pending, the
first token is its value. -/
def ofTokensBehind (style : Style) (queried : List Name) :
    Option Name → List (List Char) → List Switch
  | none, tokens => ofTokens style queried tokens
  | some _, [] => []
  | some name, value :: tokens => ofValue name value :: ofTokens style queried tokens

/-- The switches among two lists of tokens are those among the first one, and those behind it. -/
theorem ofTokens_append (tokens others : List (List Char)) :
    ofTokens style queried (tokens ++ others) =
      ofTokens style queried tokens ++
        ofTokensBehind style queried (pending? style queried tokens) others := by
  fun_induction ofTokens style queried tokens with
  | case1 => rfl
  | case2 token rest hfound ih => simp [ofTokens, pending?, hfound, ih]
  | case3 token rest name hfound ih => simp [ofTokens, pending?, hfound, ih]
  | case4 token rest name value hfound ih => simp [ofTokens, pending?, hfound, ih]
  -- The switch is the last token of the first list, and its value is in the second one.
  | case5 token name hfound => cases others <;> simp [ofTokens, pending?, hfound, ofTokensBehind]
  | case6 token name hfound value rest ih => simp [ofTokens, pending?, hfound, ih]

/-- Only a switch that takes a value waits for one. -/
theorem valued_of_recognize? {token : List Char} {name : Name}
    (h : recognize? style queried token = some (name, .separate)) :
    name ∈ queried ∧ name.valued = true := by
  rw [recognize?] at h
  split at h
  · cases h
  next spelled long _ =>
    obtain ⟨found, hmem, hfound⟩ := List.exists_of_findSome?_eq_some h
    obtain ⟨spelling, hspelling, heq⟩ := Option.map_eq_some_iff.mp hfound
    obtain ⟨rfl, rfl⟩ := Prod.mk.inj heq
    refine ⟨hmem, ?_⟩
    rw [Name.spelling?] at hspelling
    split at hspelling
    next hvalued => exact hvalued
    next => split at hspelling <;> cases hspelling

/-- If none of the switches takes a value, none is pending. -/
theorem pending?_of_forall (h : ∀ name ∈ queried, name.valued = false)
    (tokens : List (List Char)) : pending? style queried tokens = none := by
  fun_induction pending? style queried tokens with
  | case1 => rfl
  | case2 token name hfound =>
    obtain ⟨hmem, hvalued⟩ := valued_of_recognize? hfound
    exact absurd hvalued (by simp [h name hmem])
  | case3 token name hfound value rest ih => exact ih
  | case4 token rest hother ih => exact ih

theorem pending?_names_simple (simple : List String) (tokens : List (List Char)) :
    pending? style (names simple []) tokens = none := by
  refine pending?_of_forall (fun name hname => ?_) tokens
  simp only [names, mem_sortBy, List.map_nil, List.append_nil, List.mem_filter,
    List.mem_map] at hname
  obtain ⟨⟨text, -, rfl⟩, -⟩ := hname
  rfl

/-! ## Texts -/

theorem tokens_toList_append {a : String} (h : closesQuotes none a.toList = true) (b : String) :
    tokens (a ++ " " ++ b).toList = tokens a.toList ++ tokens b.toList := by
  rw [← tokens_append_blank h]
  simp

/-- What is extracted from two texts with a blank between them is what is extracted from each of
them, provided that the quotes of the first one are closed. Of the values of a switch, those of the
second text win. Where switches take values, the first text must not leave one pending. -/
theorem ordered_append_blank (style : Style) {a : String} (h : closesQuotes none a.toList = true)
    (b : String) :
    (∀ simple valued, pending? style (names simple valued) (tokens a.toList) = none →
      ordered style (a ++ " " ++ b) simple valued
        = ordered style a simple valued ++ ordered style b simple valued) ∧
    (∀ name, pending? style (names [] [name]) (tokens a.toList) = none →
      repeatable style (a ++ " " ++ b) name = repeatable style a name ++ repeatable style b name) ∧
    (∀ spellings, isPresent style (a ++ " " ++ b) spellings
      = (isPresent style a spellings || isPresent style b spellings)) ∧
    (∀ spellings, pending? style (names [] spellings) (tokens a.toList) = none →
      single? style (a ++ " " ++ b) spellings
        = (single? style b spellings).or (single? style a spellings)) ∧
    ∀ extensions, files style (a ++ " " ++ b) extensions
      = files style a extensions ++ files style b extensions := by
  have hordered : ∀ simple valued, pending? style (names simple valued) (tokens a.toList) = none →
      ordered style (a ++ " " ++ b) simple valued
        = ordered style a simple valued ++ ordered style b simple valued := by
    intro simple valued hpending
    rw [ordered, tokens_toList_append h, ofTokens_append, hpending]
    rfl
  refine ⟨hordered, ?_, ?_, ?_, ?_⟩
  · intro name hpending
    rw [repeatable, hordered _ _ hpending, List.filterMap_append]
    rfl
  · intro spellings
    simp only [isPresent, hordered _ _ (pending?_names_simple spellings _)]
    cases ordered style a spellings [] <;> rfl
  · intro spellings hpending
    rw [single?, hordered _ _ hpending, List.filterMap_append, List.getLast?_append]
    rfl
  · intro extensions
    simp only [files, tokens_toList_append h, List.map_append, List.filter_append]

/-- Quotes that stay open in the second text reach no further back than to it. -/
theorem ordered_append_blank_openBehind :
    let a := "-o 'my app' -D \"A B\" \"x -DNO\".c"
    let b := "-DC -I \"inc b.c"
    (closesQuotes none a.toList = true ∧
      pending? .gnu (names [] ["D"]) (tokens a.toList) = none) ∧
    repeatable .gnu (a ++ " " ++ b) "D" = ["A B", "C"] ∧
    single? .gnu (a ++ " " ++ b) ["D"] = some "C" ∧
    files .gnu (a ++ " " ++ b) ["c"] = ["x -DNO.c", "b.c"] := by
  intro a b
  have hclosed : closesQuotes none a.toList = true := by decide +kernel
  have hpending : pending? .gnu (names [] ["D"]) (tokens a.toList) = none :=
    Option.isNone_iff_eq_none.mp (by decide +kernel)
  obtain ⟨-, hrepeatable, -, hsingle, hfiles⟩ := ordered_append_blank .gnu hclosed b
  refine ⟨⟨hclosed, hpending⟩, ?_, ?_, ?_⟩
  · rw [hrepeatable "D" hpending]
    decide +kernel
  · rw [hsingle ["D"] hpending]
    decide +kernel
  · rw [hfiles ["c"]]
    decide +kernel

end BuildTrace.Switch
