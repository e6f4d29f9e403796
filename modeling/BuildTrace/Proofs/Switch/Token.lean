import BuildTrace.Switch.Token
import BuildTrace.Proofs.Switch.Quotation
import BuildTrace.Proofs.Text.Split
import BuildTrace.Proofs.Text.Trim

/-!
# Tokens

White space at the ends of an argument text makes no difference to its tokens: no quote is open
there, since a quote begins a token only if it is closed behind it.

A text is cut into pieces that are not cut themselves. Between them there is nothing but white space
and quotes that are never closed. So the tokens do not depend on what was around them: they are the
tokens of any text in which they stand with blanks between them.

## Main definitions

* `Switch.IsSkipped`: the characters that are in no token;
* `Switch.Cut`: a text and the pieces it is cut into;
* `Switch.Quoted`: a place in a text that lies between two quotes.

## Main results

* `Switch.tokensFrom_append_of_forall`: white space behind the text ends the last token;
* `Switch.tokens_trim`: the tokens of a trimmed text are those of the text;
* `Switch.tokens_eq_iff`: the tokens are the pieces the text is cut into;
* `Switch.Unbroken.quoted_of_isBlank`: white space lies between quotes in a text that is not cut;
* `Switch.tokenize_laws`: the tokens of a text, and of what they are joined to.
-/

namespace BuildTrace.Switch

/-! ## White space at the ends -/

variable {blanks s : List Char}

/-- White space in front of the text begins no token. -/
theorem tokens_append_of_forall (h : ∀ c ∈ blanks, Text.isBlank c = true) :
    tokens (blanks ++ s) = tokens s := by
  induction blanks with
  | nil => rfl
  | cons c blanks ih =>
    obtain ⟨hc, hblanks⟩ := List.forall_mem_cons.mp h
    rw [List.cons_append, tokens, tokensFrom, if_pos hc]
    exact ih hblanks

/-- Nothing but the token that was begun comes out of white space. -/
theorem tokensFrom_of_forall (token : List Char) (h : ∀ c ∈ blanks, Text.isBlank c = true) :
    tokensFrom none token blanks = flushToken token [] := by
  cases blanks with
  | nil => rfl
  | cons c blanks =>
    obtain ⟨hc, hblanks⟩ := List.forall_mem_cons.mp h
    have hrest := tokens_append_of_forall (s := []) hblanks
    rw [List.append_nil] at hrest
    simp only [tokensFrom, if_pos hc]
    exact congrArg _ hrest

/-- White space behind the text ends the last token and begins none. -/
theorem tokensFrom_append_of_forall (h : ∀ c ∈ blanks, Text.isBlank c = true)
    {inside : Option Char} (token : List Char) (hinside : ∀ quote ∈ inside, quote ∈ s) :
    tokensFrom inside token (s ++ blanks) = tokensFrom inside token s := by
  -- A quote that is open is closed in what is left of the text, so none is open at its end.
  induction s generalizing inside token with
  | nil =>
    cases inside with
    | none => exact tokensFrom_of_forall token h
    | some quote => exact absurd (hinside quote rfl) List.not_mem_nil
  | cons c s ih =>
    rw [List.cons_append]
    cases inside with
    | some quote =>
      simp only [tokensFrom]
      refine ih _ fun q hq => ?_
      split at hq
      · cases hq
      next hc =>
        obtain rfl : quote = q := Option.some.inj hq
        exact (List.mem_cons.mp (hinside quote rfl)).resolve_left (Ne.symm hc)
    | none =>
      by_cases hblank : Text.isBlank c = true
      · simp only [tokensFrom, if_pos hblank]
        rw [ih [] (by simp)]
      by_cases hquote : isQuote c = true
      · have hclosed : (s ++ blanks).contains c = s.contains c := by
          have hnot : c ∉ blanks := fun hc => hblank (h c hc)
          simp [hnot]
        simp only [tokensFrom, if_neg hblank, if_pos hquote, hclosed]
        split
        next hmem =>
          refine ih _ fun q hq => ?_
          obtain rfl : c = q := Option.some.inj hq
          exact List.contains_iff_mem.mp hmem
        next => rw [ih [] (by simp)]
      · simp only [tokensFrom, if_neg hblank, if_neg hquote]
        exact ih _ (by simp)

/-- The tokens of a trimmed text are those of the text. -/
theorem tokens_trim (s : List Char) : tokens (Text.trim s) = tokens s := by
  obtain ⟨blanks, hend, hblanks⟩ := Text.exists_trimEnd_append (Text.trimStart s)
  have hstart : s.takeWhile Text.isBlank ++ Text.trimStart s = s := List.takeWhile_append_dropWhile
  calc tokens (Text.trim s)
      = tokens (Text.trim s ++ blanks) := (tokensFrom_append_of_forall hblanks [] (by simp)).symm
    _ = tokens (Text.trimStart s) := by rw [Text.trim, ← hend]
    _ = tokens (s.takeWhile Text.isBlank ++ Text.trimStart s) :=
      (tokens_append_of_forall fun c hc => List.mem_takeWhile_imp hc).symm
    _ = tokens s := by rw [hstart]

/-! ## Cutting -/

/-- The character is in no token: it is white space, or a quote that is not closed in the rest of
the text. -/
def IsSkipped (c : Char) (rest : List Char) : Prop :=
  Text.isBlank c = true ∨ isQuote c = true ∧ c ∉ rest

/-- A piece ends in front of the text: there is nothing more, or a character that is skipped. -/
def EndsPiece (s : List Char) : Prop := ∀ c rest, s = c :: rest → IsSkipped c rest

/-- The text is cut into the pieces, in order. -/
inductive Cut : List Char → List (List Char) → Prop where
  /-- There is nothing left. -/
  | nil : Cut [] []
  /-- A character is skipped. -/
  | skip {c : Char} {s : List Char} {pieces : List (List Char)} :
      IsSkipped c s → Cut s pieces → Cut (c :: s) pieces
  /-- A piece goes as far as it can. -/
  | piece {piece s : List Char} {pieces : List (List Char)} :
      piece ≠ [] → Unbroken piece → EndsPiece s → Cut s pieces → Cut (piece ++ s) (piece :: pieces)

variable {piece : List Char} {pieces : List (List Char)}

theorem IsSkipped.endsPiece {c : Char} (h : IsSkipped c s) : EndsPiece (c :: s) := by
  rintro _ _ ⟨⟩
  exact h

/-- A token that was begun ends in front of what is skipped. -/
theorem tokensFrom_cons_of_isSkipped {c : Char} (h : IsSkipped c s) (token : List Char) :
    tokensFrom none token (c :: s) = flushToken token (tokens s) := by
  rcases h with hblank | ⟨hquote, hopen⟩
  · simp only [tokensFrom, if_pos hblank, tokens]
  · have hblank : Text.isBlank c = false := isBlank_eq_false_of_isQuote hquote
    have hcontains : s.contains c = false := by simpa [List.contains_eq_mem] using hopen
    simp only [tokensFrom, hblank, hquote, hcontains, if_true, Bool.false_eq_true, if_false, tokens]

theorem tokens_cons_of_isSkipped {c : Char} (h : IsSkipped c s) : tokens (c :: s) = tokens s :=
  tokensFrom_cons_of_isSkipped h []

/-- A piece at the beginning is the first token. -/
theorem tokens_piece_append (hpiece : Unbroken piece) (hends : EndsPiece s) :
    tokens (piece ++ s) = if piece = [] then tokens s else piece :: tokens s := by
  have hflush : tokens (piece ++ s) = flushToken piece.reverse (tokens s) := by
    rw [tokens, hpiece.tokensFrom_append, List.append_nil]
    cases s with
    | nil => rfl
    | cons c s =>
      have hskipped : IsSkipped c s := hends c s rfl
      rw [tokensFrom_cons_of_isSkipped hskipped, tokens_cons_of_isSkipped hskipped]
  rw [hflush, flushToken, List.reverse_reverse]
  simp only [List.isEmpty_reverse, List.isEmpty_iff]

/-- The pieces a text is cut into are its tokens. -/
theorem Cut.tokens_eq (h : Cut s pieces) : tokens s = pieces := by
  induction h with
  | nil => rfl
  | skip hskipped _ ih => rw [tokens_cons_of_isSkipped hskipped, ih]
  | piece hne hunbroken hends _ ih => rw [tokens_piece_append hunbroken hends, if_neg hne, ih]

/-- A text begins with a piece that goes as far as it can. -/
theorem exists_piece_append (s : List Char) :
    ∃ piece rest, s = piece ++ rest ∧ Unbroken piece ∧ EndsPiece rest := by
  match s with
  | [] => exact ⟨[], [], rfl, .nil, nofun⟩
  | c :: s =>
    by_cases hskipped : IsSkipped c s
    · exact ⟨[], c :: s, rfl, .nil, hskipped.endsPiece⟩
    obtain ⟨hblank, hclosed⟩ := not_or.mp hskipped
    by_cases hquote : isQuote c = true
    -- What is behind the quote that closes goes on with the piece.
    · have hmem : c ∈ s := by_contra fun hopen => hclosed ⟨hquote, hopen⟩
      obtain ⟨inner, behind, rfl, hinner⟩ := List.eq_append_cons_of_mem hmem
      obtain ⟨piece, rest, rfl, hpiece, hends⟩ := exists_piece_append behind
      exact ⟨c :: (inner ++ c :: piece), rest, by simp, .quoted hquote hinner hpiece, hends⟩
    · obtain ⟨piece, rest, rfl, hpiece, hends⟩ := exists_piece_append s
      exact ⟨c :: piece, rest, rfl,
        .bare (Bool.eq_false_iff.mpr hblank) (Bool.eq_false_iff.mpr hquote) hpiece, hends⟩
termination_by s.length

/-- A text is cut into its tokens. -/
theorem cut_tokens (s : List Char) : Cut s (tokens s) := by
  obtain ⟨piece, rest, hs, hpiece, hends⟩ := exists_piece_append s
  have hrest : Cut rest (tokens rest) := by
    match rest, hs, hends with
    | [], _, _ => exact .nil
    | c :: rest, hs, hends =>
      have hskipped : IsSkipped c rest := hends c rest rfl
      have hlength : rest.length < s.length := by
        rw [hs, List.length_append, List.length_cons]
        omega
      rw [tokens_cons_of_isSkipped hskipped]
      exact .skip hskipped (cut_tokens rest)
  rw [hs, tokens_piece_append hpiece hends]
  split
  next hempty =>
    rw [hempty]
    exact hrest
  next hne => exact .piece hne hpiece hends hrest
termination_by s.length

/-- The tokens are the pieces that the text is cut into, and there is no other way to cut it. -/
theorem tokens_eq_iff : tokens s = pieces ↔ Cut s pieces :=
  ⟨fun h => h ▸ cut_tokens s, Cut.tokens_eq⟩

/-- A quote that is not closed ends a token, where others go on. -/
example : tokens "-D\"A 'B\"c x\"y 'z".toList
    = ["-D\"A 'B\"c".toList, ['x'], ['y'], ['z']] := by decide +kernel

theorem Cut.of_mem (h : Cut s pieces) (hmem : piece ∈ pieces) : piece ≠ [] ∧ Unbroken piece := by
  induction h with
  | nil => cases hmem
  | skip _ _ ih => exact ih hmem
  | piece hne hunbroken _ _ ih =>
    rcases List.mem_cons.mp hmem with rfl | hmem
    · exact ⟨hne, hunbroken⟩
    · exact ih hmem

/-! ## Quoted places -/

/-- The place between the two texts lies between two equal quotes, the one that closes being the
next one like the one that opens. Whatever is outside of them is not cut. -/
def Quoted (before after : List Char) : Prop :=
  ∃ quote outer inner inner' outer', isQuote quote = true ∧
    (Unbroken outer ∧ before = outer ++ quote :: inner ∧ quote ∉ inner) ∧
    Unbroken outer' ∧ after = inner' ++ quote :: outer' ∧ quote ∉ inner'

theorem Quoted.append {before after : List Char} (h : Quoted before after) {front : List Char}
    (hfront : Unbroken front) : Quoted (front ++ before) after := by
  obtain ⟨quote, outer, inner, inner', outer', hquote, ⟨houter, rfl, hinner⟩, hafter⟩ := h
  exact ⟨quote, front ++ outer, inner, inner', outer', hquote,
    ⟨hfront.append houter, (List.append_assoc ..).symm, hinner⟩, hafter⟩

/-- White space lies between quotes in a text that is not cut. -/
theorem Unbroken.quoted_of_isBlank (h : Unbroken s) {before after : List Char} {blank : Char}
    (hblank : Text.isBlank blank = true) (hs : s = before ++ blank :: after) :
    Quoted before after := by
  induction h generalizing before after with
  | nil => cases before <;> cases hs
  | @bare c s hc hquote hunbroken ih =>
    cases before with
    | nil =>
      obtain ⟨rfl, -⟩ := List.cons.inj hs
      exact absurd hblank (by simp [hc])
    | cons d before =>
      obtain ⟨rfl, htail⟩ := List.cons.inj hs
      exact (ih htail).append (.bare hc hquote .nil)
  | @quoted quote inner s hquote hinner hunbroken ih =>
    have hne : blank ≠ quote := by
      rintro rfl
      exact absurd hblank (by simp [isBlank_eq_false_of_isQuote hquote])
    cases before with
    | nil => exact absurd (List.cons.inj hs).1.symm hne
    | cons d before =>
      obtain ⟨rfl, htail⟩ := List.cons.inj hs
      -- The white space is behind the quote that closes, or in front of it.
      rcases List.append_eq_append_iff.mp htail with ⟨middle, rfl, hbehind⟩ | ⟨middle, rfl, hbehind⟩
      · cases middle with
        | nil => exact absurd (List.cons.inj hbehind).1.symm hne
        | cons e middle =>
          obtain ⟨rfl, hrest⟩ := List.cons.inj hbehind
          have hpart : Unbroken (quote :: (inner ++ [quote])) := .quoted hquote hinner .nil
          simpa using (ih hrest).append hpart
      · cases middle with
        | nil => exact absurd (List.cons.inj hbehind).1 hne
        | cons e middle =>
          obtain ⟨rfl, rfl⟩ := List.cons.inj hbehind
          obtain ⟨hbefore, hafter⟩ := not_or.mp fun hmem => hinner (List.mem_append.mpr hmem)
          exact ⟨quote, [], before, middle, s, hquote, ⟨.nil, rfl, hbefore⟩, hunbroken, rfl,
            fun hmem => hafter (List.mem_cons_of_mem _ hmem)⟩

/-! ## Joined tokens -/

/-- Tokens with blanks between them have the same tokens. -/
theorem tokens_joinWith_tokens (s : List Char) :
    tokens (Text.joinWith [' '] (tokens s)) = tokens s := by
  have hpieces : ∀ token ∈ tokens s, token ≠ [] ∧ Unbroken token := fun token htoken =>
    (cut_tokens s).of_mem htoken
  rw [tokens_joinWith fun token htoken => (hpieces token htoken).2.closesQuotes_eq]
  calc (tokens s).flatMap tokens
      = (tokens s).flatMap fun token => [token] := List.flatMap_congr fun token htoken =>
        tokens_of_unbroken (hpieces token htoken).2 (hpieces token htoken).1
    _ = tokens s := List.flatMap_singleton' _

theorem tokenize_intercalate (arguments : String) :
    tokenize (" ".intercalate (tokenize arguments)) = tokenize arguments := by
  have hchars : (" ".intercalate (tokenize arguments)).toList
      = Text.joinWith [' '] (tokens arguments.toList) := by
    rw [String.toList_intercalate, Text.joinWith_eq_intercalate, tokenize, List.map_map]
    simp [Function.comp_def]
  rw [tokenize, hchars, tokens_joinWith_tokens, tokenize]

/-- The tokens of a text are those of what they are joined to. None of them is empty, and white
space in them lies between quotes. The text is cut into them, in order, and all that is not in them
is white space or a quote that is not closed behind it; there is no other way to cut it. -/
theorem tokenize_laws (arguments : String) :
    tokenize (" ".intercalate (tokenize arguments)) = tokenize arguments ∧
      (∀ token ∈ tokenize arguments, token ≠ "" ∧
        ∀ before blank after, token.toList = before ++ blank :: after →
          Text.isBlank blank = true → Quoted before after) ∧
      Cut arguments.toList ((tokenize arguments).map String.toList) ∧
      ∀ pieces, Cut arguments.toList pieces → (tokenize arguments).map String.toList = pieces := by
  have hlists : (tokenize arguments).map String.toList = tokens arguments.toList := by
    rw [tokenize, List.map_map]
    simp [Function.comp_def]
  rw [hlists]
  have hcut : Cut arguments.toList (tokens arguments.toList) := tokens_eq_iff.mp rfl
  refine ⟨tokenize_intercalate arguments, fun token htoken => ?_, hcut, fun pieces h =>
    tokens_eq_iff.mpr h⟩
  have hmem : token.toList ∈ tokens arguments.toList := hlists ▸ List.mem_map_of_mem htoken
  obtain ⟨hne, hunbroken⟩ := hcut.of_mem hmem
  refine ⟨fun hempty => hne (hempty ▸ rfl), fun before blank after htext hblank => ?_⟩
  exact hunbroken.quoted_of_isBlank hblank htext

end BuildTrace.Switch
