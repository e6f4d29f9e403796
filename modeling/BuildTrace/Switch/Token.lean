import BuildTrace.Text.Basic

/-!
# Tokens of an argument text

The arguments of a command are cut into tokens at white space. What stands between two equal
quotes belongs to one token, white space included. A quote that is never closed is no part of any
token and ends the one before it.
-/

namespace BuildTrace.Switch

/-- A single or a double quote. -/
def isQuote (c : Char) : Bool := c = '"' || c = '\''

/-- The token read so far, last character first, if there is one, before the others. -/
def flushToken (token : List Char) (others : List (List Char)) : List (List Char) :=
  if token.isEmpty then others else token.reverse :: others

/-- The tokens of the text behind a token that was begun; `inside` is the quote that is open. -/
def tokensFrom (inside : Option Char) (token : List Char) : List Char → List (List Char)
  | [] => flushToken token []
  | c :: s =>
    match inside with
    | some quote => tokensFrom (if c = quote then none else inside) (c :: token) s
    | none =>
      if Text.isBlank c then flushToken token (tokensFrom none [] s)
      else if isQuote c then
        if s.contains c then tokensFrom (some c) (c :: token) s
        else flushToken token (tokensFrom none [] s)
      else tokensFrom none (c :: token) s

/-- The tokens of the text, in order, quotes included. -/
def tokens (s : List Char) : List (List Char) := tokensFrom none [] s

/-- The tokens of the text, in order, quotes included. -/
def tokenize (arguments : String) : List String := (tokens arguments.toList).map String.ofList

/-- The token without the pair of equal quotes around it. -/
def unwrapQuotes (token : List Char) : List Char :=
  match token with
  | first :: rest =>
    if isQuote first && rest.getLast? == some first then rest.dropLast else token
  | [] => []

end BuildTrace.Switch
