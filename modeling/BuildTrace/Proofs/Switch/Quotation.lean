import BuildTrace.Switch.Token
import Mathlib.Tactic.ByContra

/-!
# Quoted parts of argument texts

Whether white space cuts a text depends on the quotes in front of it. Behind a text in which every
quote that opens also closes, a blank ends the last token whatever comes then. A text of bare
characters and quoted parts is not cut at all.

## Main definitions

* `Switch.closesQuotes`: the texts in which every quote that opens also closes;
* `Switch.Unbroken`: the texts that are not cut.

## Main results

* `Switch.tokens_append_blank` and `Switch.tokens_joinWith`: the tokens of texts with blanks between
  them;
* `Switch.tokens_of_unbroken`: a text that is not cut is one token.
-/

namespace BuildTrace.Switch

/-! ## Texts with closed quotes -/

/-- Every quote that opens in the text also closes, read from left to right; `inside` is the quote
that is open in front of the text. -/
def closesQuotes (inside : Option Char) : List Char → Bool
  | [] => inside.isNone
  | c :: s =>
    match inside with
    | some quote => closesQuotes (if c = quote then none else inside) s
    | none => closesQuotes (if isQuote c then some c else none) s

variable {s : List Char}

/-- A quote that is open in front of such a text is closed in it. -/
theorem mem_of_closesQuotes {quote : Char} (h : closesQuotes (some quote) s = true) :
    quote ∈ s := by
  induction s with
  | nil => cases h
  | cons c s ih =>
    simp only [closesQuotes] at h
    split at h
    next hc => exact hc ▸ List.mem_cons_self
    next => exact List.mem_cons_of_mem c (ih h)

/-- No quote is white space. -/
theorem isQuote_eq_false_of_isBlank {c : Char} (h : Text.isBlank c = true) : isQuote c = false := by
  by_contra hquote
  simp only [isQuote, Bool.not_eq_false, Bool.or_eq_true, decide_eq_true_eq] at hquote
  rcases hquote with rfl | rfl <;> exact absurd h (by decide)

theorem isBlank_eq_false_of_isQuote {c : Char} (h : isQuote c = true) : Text.isBlank c = false := by
  by_contra hblank
  exact Bool.false_ne_true
    ((isQuote_eq_false_of_isBlank (Bool.not_eq_false _ ▸ hblank)).symm.trans h)

theorem flushToken_append (token : List Char) (tokens others : List (List Char)) :
    flushToken token (tokens ++ others) = flushToken token tokens ++ others := by
  rw [flushToken, flushToken]
  split
  · rfl
  · rw [List.cons_append]

/-- Behind a text in which the quotes are closed, white space ends the last token. -/
theorem tokensFrom_append_blank {blank : Char} (hblank : Text.isBlank blank = true)
    {inside : Option Char} (h : closesQuotes inside s = true) (token t : List Char) :
    tokensFrom inside token (s ++ blank :: t) = tokensFrom inside token s ++ tokens t := by
  induction s generalizing inside token with
  | nil =>
    obtain rfl : inside = none := Option.isNone_iff_eq_none.mp h
    simp only [List.nil_append, tokensFrom, if_pos hblank]
    exact flushToken_append token [] (tokens t)
  | cons c s ih =>
    rw [List.cons_append]
    cases inside with
    | some quote =>
      simp only [closesQuotes, tokensFrom] at h ⊢
      exact ih h _
    | none =>
      simp only [closesQuotes, tokensFrom] at h ⊢
      by_cases hc : Text.isBlank c = true
      · rw [isQuote_eq_false_of_isBlank hc, if_neg Bool.false_ne_true] at h
        rw [if_pos hc, if_pos hc, ih h, flushToken_append]
      rw [if_neg hc, if_neg hc]
      by_cases hquote : isQuote c = true
      -- The quote is closed in front of the cut, so it opens with or without what is behind.
      · rw [if_pos hquote] at h ⊢
        have hmem : s.contains c = true := List.contains_iff_mem.mpr (mem_of_closesQuotes h)
        have hmem' : (s ++ blank :: t).contains c = true :=
          List.contains_iff_mem.mpr (List.mem_append_left _ (mem_of_closesQuotes h))
        rw [if_pos hquote, if_pos hmem, if_pos hmem']
        exact ih h _
      · rw [if_neg hquote] at h ⊢
        rw [if_neg hquote]
        exact ih h _

/-- The tokens of two texts with a blank between them are those of the first one, in which the
quotes are closed, and those of the second one, whatever that is. -/
theorem tokens_append_blank (h : closesQuotes none s = true) (t : List Char) :
    tokens (s ++ ' ' :: t) = tokens s ++ tokens t :=
  tokensFrom_append_blank (by decide) h [] t

/-- The tokens of several such texts with blanks between them. -/
theorem tokens_joinWith {texts : List (List Char)} (h : ∀ s ∈ texts, closesQuotes none s = true) :
    tokens (Text.joinWith [' '] texts) = texts.flatMap tokens := by
  induction texts with
  | nil => rfl
  | cons s texts ih =>
    obtain ⟨hs, htexts⟩ := List.forall_mem_cons.mp h
    cases texts with
    | nil => simp [Text.joinWith]
    | cons t texts =>
      have hjoined : Text.joinWith [' '] (s :: t :: texts)
          = s ++ ' ' :: Text.joinWith [' '] (t :: texts) := by
        simp [Text.joinWith]
      rw [hjoined, tokens_append_blank hs, ih htexts]
      exact List.flatMap_cons.symm

/-! ## Texts that are not cut -/

/-- A text of bare characters and quoted parts. -/
inductive Unbroken : List Char → Prop where
  /-- Nothing is not cut. -/
  | nil : Unbroken []
  /-- A character that is neither white space nor a quote. -/
  | bare {c : Char} {s : List Char} : Text.isBlank c = false → isQuote c = false → Unbroken s →
      Unbroken (c :: s)
  /-- Anything between two equal quotes. -/
  | quoted {quote : Char} {inner s : List Char} : isQuote quote = true → quote ∉ inner →
      Unbroken s → Unbroken (quote :: (inner ++ quote :: s))

/-- The characters of the text are neither white space nor quotes. -/
def IsBare (s : List Char) : Prop := ∀ c ∈ s, Text.isBlank c = false ∧ isQuote c = false

instance (s : List Char) : Decidable (IsBare s) :=
  List.decidableBAll (fun c => Text.isBlank c = false ∧ isQuote c = false) s

theorem IsBare.append {t : List Char} (hs : IsBare s) (ht : IsBare t) : IsBare (s ++ t) :=
  List.forall_mem_append.mpr ⟨hs, ht⟩

theorem IsBare.unbroken (h : IsBare s) : Unbroken s := by
  induction s with
  | nil => exact .nil
  | cons c s ih =>
    obtain ⟨⟨hblank, hquote⟩, hs⟩ := List.forall_mem_cons.mp h
    exact .bare hblank hquote (ih hs)

theorem Unbroken.append {t : List Char} (hs : Unbroken s) (ht : Unbroken t) :
    Unbroken (s ++ t) := by
  induction hs with
  | nil => exact ht
  | bare hblank hquote _ ih => exact .bare hblank hquote ih
  | @quoted quote inner s hquote hinner _ ih =>
    rw [List.cons_append, List.append_assoc, List.cons_append]
    exact .quoted hquote hinner ih

/-- A quoted part is read up to the quote that closes it. -/
theorem tokensFrom_quoted {quote : Char} {inner : List Char} (h : quote ∉ inner)
    (token t : List Char) :
    tokensFrom (some quote) token (inner ++ quote :: t)
      = tokensFrom none (quote :: (inner.reverse ++ token)) t := by
  induction inner generalizing token with
  | nil => simp [tokensFrom]
  | cons c inner ih =>
    obtain ⟨hc, hinner⟩ := List.ne_and_not_mem_of_not_mem_cons h
    simp only [List.cons_append, tokensFrom, if_neg hc.symm]
    rw [ih hinner, List.reverse_cons, List.append_assoc, List.singleton_append]

/-- All of the text goes to the token that was begun. -/
theorem Unbroken.tokensFrom_append (h : Unbroken s) (token t : List Char) :
    tokensFrom none token (s ++ t) = tokensFrom none (s.reverse ++ token) t := by
  induction h generalizing token with
  | nil => rfl
  | bare hblank hquote _ ih => simp [tokensFrom, hblank, hquote, ih]
  | @quoted quote inner s hquote hinner _ ih =>
    have hblank : Text.isBlank quote = false := isBlank_eq_false_of_isQuote hquote
    have hmem : (inner ++ quote :: (s ++ t)).contains quote = true := by simp
    simp only [List.cons_append, List.append_assoc, tokensFrom, hblank, hquote, hmem, if_true,
      Bool.false_eq_true, if_false]
    rw [tokensFrom_quoted hinner, ih]
    simp

/-- A text that is not cut is one token. -/
theorem tokens_of_unbroken (h : Unbroken s) (hne : s ≠ []) : tokens s = [s] := by
  have hread := h.tokensFrom_append [] []
  rw [List.append_nil, List.append_nil] at hread
  rw [tokens, hread, tokensFrom, flushToken, if_neg (by simpa using hne), List.reverse_reverse]

theorem closesQuotes_quoted {quote : Char} {inner : List Char} (h : quote ∉ inner)
    (t : List Char) :
    closesQuotes (some quote) (inner ++ quote :: t) = closesQuotes none t := by
  induction inner with
  | nil => simp [closesQuotes]
  | cons c inner ih =>
    obtain ⟨hc, hinner⟩ := List.ne_and_not_mem_of_not_mem_cons h
    simp only [List.cons_append, closesQuotes, if_neg hc.symm]
    exact ih hinner

/-- Its quotes are closed. -/
theorem Unbroken.closesQuotes_append (h : Unbroken s) (t : List Char) :
    closesQuotes none (s ++ t) = closesQuotes none t := by
  induction h with
  | nil => rfl
  | bare _ hquote _ ih => simp [closesQuotes, hquote, ih]
  | quoted hquote hinner _ ih =>
    simp only [List.cons_append, List.append_assoc, closesQuotes, hquote, if_true]
    rw [closesQuotes_quoted hinner, ih]

theorem Unbroken.closesQuotes_eq (h : Unbroken s) : closesQuotes none s = true := by
  rw [← List.append_nil s, h.closesQuotes_append]
  rfl

end BuildTrace.Switch
