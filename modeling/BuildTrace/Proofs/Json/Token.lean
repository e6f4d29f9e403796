import BuildTrace.Json.Basic
import BuildTrace.Json.Parser

/-!
# The tokens of a written document

A document that was written is cut into the tokens of its value again. White space is passed over,
and every character of a text is read as the character it was written for.

## Main definitions

* `Json.Plain`: values without numbers and without texts that cannot be written;
* `Json.tokens`: the tokens of a value;
* `Json.Cuts` and `Json.Lexes`: a text that is cut into the given tokens, whatever stands around it
  or if no word goes on behind it.

## Main results

* `Json.cuts_literal`: a string literal is read as the text it was written for;
* `Json.tokens?_pretty`: a written document is cut into the tokens of its value.
-/

namespace BuildTrace.Json

/-! ## Plain values -/

mutual

/-- The value has no numbers, and every text in it can be written. -/
def Plain : Json → Prop
  | null | bool _ | text _ => True
  | number _ | garbled => False
  | array items => PlainItems items
  | object members => PlainMembers members

/-- All items are plain. -/
def PlainItems : List Json → Prop
  | [] => True
  | item :: items => Plain item ∧ PlainItems items

/-- The values of all members are plain. -/
def PlainMembers : List (String × Json) → Prop
  | [] => True
  | ⟨_, value⟩ :: members => Plain value ∧ PlainMembers members

end

theorem plainItems_iff {items : List Json} : PlainItems items ↔ ∀ item ∈ items, item.Plain := by
  induction items with
  | nil => simp [PlainItems]
  | cons item items ih => simp [PlainItems, ih]

theorem plainMembers_iff {members : List (String × Json)} :
    PlainMembers members ↔ ∀ member ∈ members, member.2.Plain := by
  induction members with
  | nil => simp [PlainMembers]
  | cons member members ih => simp [PlainMembers, ih]

mutual

/-- The tokens of a value. -/
def tokens : Json → List Token
  | array [] => [.openArray, .closeArray]
  | array (item :: items) => .openArray :: tokens item ++ itemTokens items ++ [.closeArray]
  | object [] => [.openObject, .closeObject]
  | object (⟨key, value⟩ :: members) =>
    .openObject :: .scalar (text key) :: .colon :: tokens value ++ memberTokens members ++
      [.closeObject]
  | value => [.scalar value]

/-- The tokens of the items behind the first one. -/
def itemTokens : List Json → List Token
  | [] => []
  | item :: items => .comma :: tokens item ++ itemTokens items

/-- The tokens of the members behind the first one. -/
def memberTokens : List (String × Json) → List Token
  | [] => []
  | ⟨key, value⟩ :: members =>
    .comma :: .scalar (text key) :: .colon :: tokens value ++ memberTokens members

end

/-! ## Texts and their tokens -/

/-- No word goes on in what follows: it is empty, or begins with a character of no word. -/
def Stops : List (Option Char) → Prop
  | [] => True
  | some c :: _ => isWordChar c = false
  | none :: _ => False

/-- The text is cut into the tokens, whatever stands around it. -/
def Cuts (s : List Char) (produced : List Token) : Prop :=
  ∀ tokens rest, Lexing.readAll .between tokens (s.map some ++ rest)
    = Lexing.readAll .between (produced.reverse ++ tokens) rest

/-- The text is cut into the tokens if what follows stops words. -/
def Lexes (s : List Char) (produced : List Token) : Prop :=
  ∀ tokens rest, Stops rest →
    Lexing.readAll .between tokens (s.map some ++ rest)
      = Lexing.readAll .between (produced.reverse ++ tokens) rest

variable {s t : List Char} {produced others : List Token} {c : Char}

theorem readAll_cons {state next : Lexing} {tokens after : List Token} (rest : List (Option Char))
    (h : state.read tokens c = some (next, after)) :
    Lexing.readAll state tokens (some c :: rest) = Lexing.readAll next after rest := by
  rw [Lexing.readAll.eq_def]
  simp only [h]

theorem Cuts.lexes (h : Cuts s produced) : Lexes s produced := fun tokens rest _ => h tokens rest

theorem Cuts.append (hs : Cuts s produced) (ht : Cuts t others) :
    Cuts (s ++ t) (produced ++ others) := by
  intro tokens rest
  rw [List.map_append, List.append_assoc, hs, ht, List.reverse_append, List.append_assoc]

theorem Cuts.append_lexes (hs : Cuts s produced) (ht : Lexes t others) :
    Lexes (s ++ t) (produced ++ others) := by
  intro tokens rest hrest
  rw [List.map_append, List.append_assoc, hs, ht _ _ hrest, List.reverse_append,
    List.append_assoc]

/-- Two texts one after the other have their tokens one after the other, if the second one stops
the words of the first one. -/
theorem Lexes.append (hs : Lexes s produced) (ht : Lexes t others)
    (hstops : ∀ rest, Stops rest → Stops (t.map some ++ rest)) :
    Lexes (s ++ t) (produced ++ others) := by
  intro tokens rest hrest
  rw [List.map_append, List.append_assoc, hs _ _ (hstops rest hrest), ht _ _ hrest,
    List.reverse_append, List.append_assoc]

/-- A bracket or a mark is a token. -/
theorem cuts_mark {token : Token} (hspace : isSpace c = false) (hquote : c ≠ '"')
    (hword : isWordChar c = false) (hmark : mark? c = some token) : Cuts [c] [token] := by
  intro tokens rest
  refine readAll_cons rest ?_
  simp [Lexing.read, Lexing.begin, hspace, hquote, hword, hmark]

/-- White space has no tokens. -/
theorem cuts_space (hs : ∀ c ∈ s, isSpace c = true) : Cuts s [] := by
  intro tokens rest
  induction s with
  | nil => rfl
  | cons c s ih =>
    have hread : Lexing.between.read tokens c = some (.between, tokens) := by
      simp [Lexing.read, Lexing.begin, hs c List.mem_cons_self]
    rw [List.map_cons, List.cons_append, readAll_cons _ hread]
    exact ih fun c hc => hs c (List.mem_cons_of_mem _ hc)

theorem cuts_newline (level : Nat) : Cuts (newline level) [] := by
  refine cuts_space fun c hc => ?_
  rcases List.mem_cons.mp hc with rfl | hc
  · rfl
  · rw [List.eq_of_mem_replicate hc]
    rfl

/-! ## Words -/

theorem readAll_word (hs : ∀ c ∈ s, isWordChar c = true) (chars : List Char)
    (tokens : List Token) (rest : List (Option Char)) :
    Lexing.readAll (.word chars) tokens (s.map some ++ rest)
      = Lexing.readAll (.word (s.reverse ++ chars)) tokens rest := by
  induction s generalizing chars with
  | nil => rfl
  | cons c s ih =>
    have hread : (Lexing.word chars).read tokens c = some (.word (c :: chars), tokens) := by
      simp [Lexing.read, hs c List.mem_cons_self]
    rw [List.map_cons, List.cons_append, readAll_cons _ hread,
      ih fun c hc => hs c (List.mem_cons_of_mem _ hc)]
    simp

/-- The end of a word is seen by what follows. -/
theorem readAll_word_end {chars : List Char} {value : Json}
    (hvalue : wordValue? chars.reverse = some value) (tokens : List Token)
    {rest : List (Option Char)} (hrest : Stops rest) :
    Lexing.readAll (.word chars) tokens rest
      = Lexing.readAll .between (.scalar value :: tokens) rest := by
  match rest with
  | [] => simp [Lexing.readAll, hvalue]
  | some c :: rest =>
    -- The character ends the word and is read as if nothing stood before it.
    have hstop : isWordChar c = false := hrest
    have hread : (Lexing.word chars).read tokens c
        = Lexing.between.read (.scalar value :: tokens) c := by
      simp [Lexing.read, hstop, hvalue]
    rw [Lexing.readAll.eq_def, Lexing.readAll.eq_def]
    simp only [hread]
  | none :: rest => exact hrest.elim

/-- A word is a scalar. -/
theorem lexes_word {value : Json} (hspace : isSpace c = false) (hquote : c ≠ '"')
    (hall : (c :: s).all isWordChar = true) (hvalue : wordValue? (c :: s) = some value) :
    Lexes (c :: s) [.scalar value] := by
  intro tokens rest hrest
  have hword : ∀ d ∈ c :: s, isWordChar d = true := List.all_eq_true.mp hall
  have hbegin : Lexing.between.read tokens c = some (.word [c], tokens) := by
    simp [Lexing.read, Lexing.begin, hspace, hquote, hword c List.mem_cons_self]
  rw [List.map_cons, List.cons_append, readAll_cons _ hbegin,
    readAll_word fun d hd => hword d (List.mem_cons_of_mem _ hd)]
  refine readAll_word_end ?_ tokens hrest
  simpa using hvalue

/-! ## String literals -/

theorem hexValue?_hexDigit (n : Nat) : hexValue? (hexDigit n) = some (n % 16) := by
  have hdigit : ∀ d : Fin 16, hexValue? (Nat.digitChar d) = some d.val := by decide
  exact hdigit ⟨n % 16, Nat.mod_lt n (by decide)⟩

/-- A control character is read from the number it was written as. -/
theorem readAll_unit {part : StringPart} (hc : c.toNat < 0x20) (tokens : List Token)
    (rest : List (Option Char)) :
    Lexing.readAll (.string part) tokens
        (['\\', 'u', '0', '0', hexDigit (c.toNat / 16), hexDigit c.toNat].map some ++ rest)
      = Lexing.readAll (.string (part.push c)) tokens rest := by
  -- The two digits behind the zeros make up the number of the character.
  have hhigh : c.toNat / 16 % 16 = c.toNat / 16 := by omega
  have hunit : c.toNat / 16 * 16 + c.toNat % 16 = c.toNat := by omega
  have hpush : part.pushUnit c.toNat = part.push c := by
    rw [StringPart.pushUnit, if_neg (by omega), if_neg (by omega), Char.ofNat_toNat]
  have hbackslash : (Lexing.string part).read tokens '\\' = some (.escape part, tokens) := rfl
  have hescape : (Lexing.escape part).read tokens 'u' = some (.unit part 4 0, tokens) := rfl
  have hfirst : (Lexing.unit part 4 0).read tokens '0' = some (.unit part 3 0, tokens) := rfl
  have hsecond : (Lexing.unit part 3 0).read tokens '0' = some (.unit part 2 0, tokens) := rfl
  have hthird : (Lexing.unit part 2 0).read tokens (hexDigit (c.toNat / 16))
      = some (.unit part 1 (c.toNat / 16), tokens) := by
    simp [Lexing.read, hexValue?_hexDigit, hhigh]
  have hfourth : (Lexing.unit part 1 (c.toNat / 16)).read tokens (hexDigit c.toNat)
      = some (.string (part.push c), tokens) := by
    simp [Lexing.read, hexValue?_hexDigit, hunit, hpush]
  simp only [List.map_cons, List.map_nil, List.cons_append, List.nil_append]
  rw [readAll_cons _ hbackslash, readAll_cons _ hescape, readAll_cons _ hfirst,
    readAll_cons _ hsecond, readAll_cons _ hthird, readAll_cons _ hfourth]

/-- An escape of one letter is read as the character it stands for. -/
theorem readAll_letter {part : StringPart} {letter : Char} (hletter : escaped? letter = some c)
    (hne : letter ≠ 'u') (tokens : List Token) (rest : List (Option Char)) :
    Lexing.readAll (.string part) tokens (['\\', letter].map some ++ rest)
      = Lexing.readAll (.string (part.push c)) tokens rest := by
  have hbackslash : (Lexing.string part).read tokens '\\' = some (.escape part, tokens) := rfl
  have hescape : (Lexing.escape part).read tokens letter
      = some (.string (part.push c), tokens) := by
    simp [Lexing.read, hletter, hne]
  simp only [List.map_cons, List.map_nil, List.cons_append, List.nil_append]
  rw [readAll_cons _ hbackslash, readAll_cons _ hescape]

/-- A character of a text is read as itself. -/
theorem readAll_escapeChar (part : StringPart) (c : Char) (tokens : List Token)
    (rest : List (Option Char)) :
    Lexing.readAll (.string part) tokens ((escapeChar c).map some ++ rest)
      = Lexing.readAll (.string (part.push c)) tokens rest := by
  by_cases hquoted : c = '"' ∨ c = '\\'
  · rw [escapeChar, if_pos hquoted]
    rcases hquoted with rfl | rfl
    · exact readAll_letter rfl (by decide) tokens rest
    · exact readAll_letter rfl (by decide) tokens rest
  -- The letters for back space, form feed, line feed, carriage return and tab come first.
  rw [escapeChar, if_neg hquoted]
  split
  next h => exact h ▸ readAll_letter rfl (by decide) tokens rest
  split
  next h => exact h ▸ readAll_letter rfl (by decide) tokens rest
  split
  next h => exact h ▸ readAll_letter rfl (by decide) tokens rest
  split
  next h => exact h ▸ readAll_letter rfl (by decide) tokens rest
  split
  next h => exact h ▸ readAll_letter rfl (by decide) tokens rest
  split
  next hcontrol => exact readAll_unit hcontrol tokens rest
  next hcontrol =>
    rw [not_or] at hquoted
    have hread : (Lexing.string part).read tokens c = some (.string (part.push c), tokens) := by
      simp [Lexing.read, hquoted, hcontrol]
    exact readAll_cons rest hread

/-- The part of a literal that has been read holds the text so far. -/
def partOf (s : List Char) : StringPart := { chars := s.reverse }

theorem readAll_escaped (done s : List Char) (tokens : List Token) (rest : List (Option Char)) :
    Lexing.readAll (.string (partOf done)) tokens ((s.flatMap escapeChar).map some ++ rest)
      = Lexing.readAll (.string (partOf (done ++ s))) tokens rest := by
  induction s generalizing done with
  | nil => simp
  | cons c s ih =>
    have hpush : (partOf done).push c = partOf (done ++ [c]) := by
      simp [partOf, StringPart.push]
    rw [List.flatMap_cons, List.map_append, List.append_assoc, readAll_escapeChar, hpush, ih,
      List.append_assoc, List.singleton_append]

/-- A string literal is read as the text it was written for. -/
theorem cuts_literal (s : String) : Cuts (literal s) [.scalar (text s)] := by
  intro tokens rest
  -- The quotes around the characters begin and end the literal.
  have hopen : Lexing.between.read tokens '"' = some (.string (partOf []), tokens) := rfl
  have hvalue : (partOf s.toList).value = text s := by
    simp [partOf, StringPart.value]
  have hclose : (Lexing.string (partOf s.toList)).read tokens '"'
      = some (.between, .scalar (text s) :: tokens) := by
    rw [← hvalue]
    rfl
  rw [literal, List.cons_append, List.map_cons, List.cons_append, readAll_cons _ hopen,
    List.map_append, List.append_assoc, readAll_escaped, List.nil_append]
  exact readAll_cons rest hclose

/-! ## Values -/

/-- A mark in front of a line feed is a token. -/
theorem cuts_mark_newline {token : Token} (h : Cuts [c] [token]) (level : Nat) :
    Cuts (c :: newline level) [token] :=
  h.append (cuts_newline level)

theorem cuts_openArray : Cuts ['['] [.openArray] := cuts_mark rfl (by decide) rfl rfl

theorem cuts_closeArray : Cuts [']'] [.closeArray] := cuts_mark rfl (by decide) rfl rfl

theorem cuts_openObject : Cuts ['\x7b'] [.openObject] := cuts_mark rfl (by decide) rfl rfl

theorem cuts_closeObject : Cuts ['\x7d'] [.closeObject] := cuts_mark rfl (by decide) rfl rfl

theorem cuts_comma : Cuts [','] [.comma] := cuts_mark rfl (by decide) rfl rfl

/-- A key is a scalar with a colon behind it. -/
theorem cuts_key (key : String) :
    Cuts (literal key ++ [':', ' ']) [.scalar (text key), .colon] := by
  have hcolon : Cuts [':'] [.colon] := cuts_mark rfl (by decide) rfl rfl
  have hspace : Cuts [' '] [] := cuts_space (by simp [isSpace])
  exact (cuts_literal key).append (hcolon.append hspace)

/-- The end of a list or an object, on a line of its own. -/
theorem lexes_end {token : Token} (h : Cuts [c] [token]) (hs : Lexes s produced) (level : Nat) :
    Lexes (s ++ newline level ++ [c]) (produced ++ [token]) := by
  have hend : Cuts (newline level ++ [c]) [token] := (cuts_newline level).append h
  rw [List.append_assoc]
  exact hs.append hend.lexes fun _ _ => rfl

theorem stops_renderItems (level : Nat) (items : List Json) (rest : List (Option Char))
    (hrest : Stops rest) : Stops ((renderItems level items).map some ++ rest) := by
  cases items with
  | nil => simpa [renderItems] using hrest
  | cons item items => simp [renderItems, Stops, isWordChar]

theorem stops_renderMembers (level : Nat) (members : List (String × Json))
    (rest : List (Option Char)) (hrest : Stops rest) :
    Stops ((renderMembers level members).map some ++ rest) := by
  cases members with
  | nil => simpa [renderMembers] using hrest
  | cons member members => simp [renderMembers, Stops, isWordChar]

mutual

/-- A written value is cut into its tokens. -/
theorem lexes_render (level : Nat) : (value : Json) → value.Plain →
    Lexes (render level value) (tokens value)
  | null, _ => lexes_word rfl (by decide) (by decide) rfl
  | bool true, _ => lexes_word rfl (by decide) (by decide) rfl
  | bool false, _ => lexes_word rfl (by decide) (by decide) rfl
  | text s, _ => (cuts_literal s).lexes
  | array [], _ => (cuts_openArray.append cuts_closeArray).lexes
  | array (item :: items), ⟨hitem, hitems⟩ => by
    have hopen := cuts_mark_newline cuts_openArray (level + 1)
    have hfirst := hopen.append_lexes (lexes_render (level + 1) item hitem)
    have hall := hfirst.append (lexes_renderItems (level + 1) items hitems)
      (stops_renderItems (level + 1) items)
    exact lexes_end cuts_closeArray hall level
  | object [], _ => (cuts_openObject.append cuts_closeObject).lexes
  | object (⟨key, value⟩ :: members), ⟨hvalue, hmembers⟩ => by
    have hopen := (cuts_mark_newline cuts_openObject (level + 1)).append (cuts_key key)
    have hfirst := hopen.append_lexes (lexes_render (level + 1) value hvalue)
    have hall := hfirst.append (lexes_renderMembers (level + 1) members hmembers)
      (stops_renderMembers (level + 1) members)
    have hend := lexes_end cuts_closeObject hall level
    rw [render, List.append_assoc _ (literal key)]
    exact hend

theorem lexes_renderItems (level : Nat) : (items : List Json) → PlainItems items →
    Lexes (renderItems level items) (itemTokens items)
  | [], _ => fun _ _ _ => rfl
  | item :: items, ⟨hitem, hitems⟩ => by
    have hfirst := (cuts_mark_newline cuts_comma level).append_lexes (lexes_render level item hitem)
    exact hfirst.append (lexes_renderItems level items hitems) (stops_renderItems level items)

theorem lexes_renderMembers (level : Nat) : (members : List (String × Json)) →
    PlainMembers members → Lexes (renderMembers level members) (memberTokens members)
  | [], _ => fun _ _ _ => rfl
  | ⟨key, value⟩ :: members, ⟨hvalue, hmembers⟩ => by
    have hkey := (cuts_mark_newline cuts_comma level).append (cuts_key key)
    have hfirst := hkey.append_lexes (lexes_render level value hvalue)
    have hall := hfirst.append (lexes_renderMembers level members hmembers)
      (stops_renderMembers level members)
    rw [renderMembers, List.append_assoc _ (literal key)]
    exact hall

end

/-- A written document is cut into the tokens of its value. -/
theorem tokens?_pretty {value : Json} (h : value.Plain) :
    tokens? (value.pretty.toList.map some) = some value.tokens := by
  have hlexes := lexes_render 0 value h [] [] trivial
  rw [List.append_nil, List.append_nil] at hlexes
  rw [pretty, String.toList_ofList, tokens?, hlexes, Lexing.readAll, List.reverse_reverse]

end BuildTrace.Json
