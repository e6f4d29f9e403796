/-!
# Sorting

Lists are sorted by putting one element after the other in its place. Elements that go before each
other stay in the order they were in.
-/

namespace BuildTrace

variable {α : Type}

/-- Put an element in front of the first one it goes before. -/
def insertBy (goesBefore : α → α → Bool) (a : α) : List α → List α
  | [] => [a]
  | b :: rest => if goesBefore a b then a :: b :: rest else b :: insertBy goesBefore a rest

/-- The elements in order. -/
def sortBy (goesBefore : α → α → Bool) (list : List α) : List α :=
  list.foldr (insertBy goesBefore) []

end BuildTrace
