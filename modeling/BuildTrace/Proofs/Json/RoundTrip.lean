import BuildTrace.Proofs.Json.Token

/-!
# Documents that are written and read

A document that was written for a plain value is read as that value.

## Main results

* `Json.readAll_tokens`: the tokens of a value are read as the value;
* `Json.parse?_pretty`: a document is read as the value it was written for.
-/

namespace BuildTrace.Json

/-- A value may come next. -/
def Expect.Ready (expect : Expect) : Prop := expect = .value ∨ expect = .firstItem

mutual

/-- The tokens of a value are read as the value, wherever one may come. -/
theorem readAll_tokens {expect : Expect} (hready : expect.Ready) (stack : List Frame)
    (rest : List Token) : (value : Json) → value.Plain →
      Reading.readAll ⟨expect, stack⟩ (tokens value ++ rest)
        = Reading.readAll (Reading.put value stack) rest
  | null, _ => by rcases hready with rfl | rfl <;> rfl
  | bool _, _ => by rcases hready with rfl | rfl <;> rfl
  | text _, _ => by rcases hready with rfl | rfl <;> rfl
  | array [], _ => by rcases hready with rfl | rfl <;> rfl
  | object [], _ => by rcases hready with rfl | rfl <;> rfl
  | array (item :: items), ⟨hitem, hitems⟩ => by
    -- The bracket opens a frame for the items, of which the first one is read at once.
    have hopen : Reading.readAll ⟨expect, stack⟩ (tokens (array (item :: items)) ++ rest)
        = Reading.readAll ⟨.firstItem, .items [] :: stack⟩
            (tokens item ++ (itemTokens items ++ .closeArray :: rest)) := by
      rw [tokens]
      simp only [List.append_assoc, List.cons_append, List.nil_append]
      rcases hready with rfl | rfl <;> rfl
    rw [hopen, readAll_tokens (.inr rfl) _ _ item hitem]
    exact readAll_itemTokens [item] stack rest items hitems
  | object (⟨key, value⟩ :: members), ⟨hvalue, hmembers⟩ => by
    -- The bracket opens a frame for the members, and the first key waits for its value.
    have hopen : Reading.readAll ⟨expect, stack⟩
          (tokens (object (⟨key, value⟩ :: members)) ++ rest)
        = Reading.readAll ⟨.value, .members (some []) (some key) :: stack⟩
            (tokens value ++ (memberTokens members ++ .closeObject :: rest)) := by
      rw [tokens]
      simp only [List.append_assoc, List.cons_append, List.nil_append]
      rcases hready with rfl | rfl <;> rfl
    rw [hopen, readAll_tokens (.inl rfl) _ _ value hvalue]
    exact readAll_memberTokens [(key, value)] (some key) stack rest members hmembers

theorem readAll_itemTokens (done : List Json) (stack : List Frame) (rest : List Token) :
    (items : List Json) → PlainItems items →
      Reading.readAll ⟨.more, .items done :: stack⟩ (itemTokens items ++ .closeArray :: rest)
        = Reading.readAll (Reading.put (.array (done.reverse ++ items)) stack) rest
  | [], _ => by
    rw [itemTokens, List.nil_append, List.append_nil]
    rfl
  | item :: items, ⟨hitem, hitems⟩ => by
    -- Behind a comma the next item is read, and the others with it done.
    have hcomma : Reading.readAll ⟨.more, .items done :: stack⟩
          (itemTokens (item :: items) ++ .closeArray :: rest)
        = Reading.readAll ⟨.value, .items done :: stack⟩
            (tokens item ++ (itemTokens items ++ .closeArray :: rest)) := by
      rw [itemTokens]
      simp only [List.append_assoc, List.cons_append]
      rfl
    rw [hcomma, readAll_tokens (.inl rfl) _ _ item hitem]
    have hitems := readAll_itemTokens (item :: done) stack rest items hitems
    rw [List.reverse_cons, List.append_assoc, List.singleton_append] at hitems
    exact hitems

theorem readAll_memberTokens (done : List (String × Json)) (key : Option String)
    (stack : List Frame) (rest : List Token) :
    (members : List (String × Json)) → PlainMembers members →
      Reading.readAll ⟨.more, .members (some done) key :: stack⟩
          (memberTokens members ++ .closeObject :: rest)
        = Reading.readAll (Reading.put (.object (done.reverse ++ members)) stack) rest
  | [], _ => by
    rw [memberTokens, List.nil_append, List.append_nil]
    rfl
  | ⟨next, value⟩ :: members, ⟨hvalue, hmembers⟩ => by
    -- Behind a comma the next member is read, and the others with it done.
    have hcomma : Reading.readAll ⟨.more, .members (some done) key :: stack⟩
          (memberTokens (⟨next, value⟩ :: members) ++ .closeObject :: rest)
        = Reading.readAll ⟨.value, .members (some done) (some next) :: stack⟩
            (tokens value ++ (memberTokens members ++ .closeObject :: rest)) := by
      rw [memberTokens]
      simp only [List.append_assoc, List.cons_append]
      rfl
    rw [hcomma, readAll_tokens (.inl rfl) _ _ value hvalue]
    have hmembers :=
      readAll_memberTokens ((next, value) :: done) (some next) stack rest members hmembers
    rw [List.reverse_cons, List.append_assoc, List.singleton_append] at hmembers
    exact hmembers

end

/-- A document is read as the plain value it was written for. -/
theorem parse?_pretty {value : Json} (h : value.Plain) : parse? value.pretty = some value := by
  have hread := readAll_tokens (.inl rfl) [] [] value h
  rw [List.append_nil] at hread
  rw [parse?, ofChars?, tokens?_pretty h, Option.bind_some, hread]
  rfl

end BuildTrace.Json
