import BuildTrace.Regex.Parser

/-!
# Scripts for editing

A script for editing is a list of commands that are run for every line of a text. Each of them may
be run for some of the lines only.
-/

namespace BuildTrace.Editing

/-- A regular expression in a script. -/
structure Expression where
  /-- The expression; the one used last if there is none. -/
  regex : Option Regex
  /-- Letters are taken in any case. -/
  ignoresCase : Bool := false
  /-- The ends of lines inside the text are ends for the expression. -/
  hasLines : Bool := false
  deriving Inhabited

/-- A choice of lines. -/
inductive Address where
  /-- The line with a number. -/
  | line (number : Nat)
  /-- Every line from one on whose number leaves the same rest. -/
  | every (first step : Nat)
  /-- The last line. -/
  | last
  /-- The lines in which an expression is found. -/
  | found (expression : Expression)
  /-- A number of lines behind the first one. -/
  | further (count : Nat)
  /-- The lines up to one with a number that can be divided. -/
  | upTo (divisor : Nat)

/-- The lines for which a command is run. -/
structure Selector where
  /-- The first line. -/
  first : Option Address := none
  /-- The last line. -/
  second : Option Address := none
  /-- All other lines are meant. -/
  isInverted : Bool := false

/-- A part of what is put in the place of a text. -/
inductive Part where
  /-- A text. -/
  | text (s : List Char)
  /-- The text with a number; the whole for zero. -/
  | group (number : Nat)
  /-- From here on letters are written in another case. -/
  | casing (letter : Char)

/-- A text to be put in the place of others. -/
structure Substitution where
  /-- What is looked for. -/
  expression : Expression
  /-- What is put in its place. -/
  parts : List Part
  /-- It is put in the place of all texts that are found. -/
  isGlobal : Bool := false
  /-- The number of the first text in whose place it is put. -/
  number : Nat := 1
  /-- The line is printed if something has been found. -/
  prints : Bool := false
  /-- The line is written to this file if something has been found. -/
  file : Option String := none

/-- What a command does. -/
inductive Action where
  /-- The commands up to one with a number are run for some lines only. -/
  | block (stop : Nat)
  /-- Nothing. -/
  | nothing
  /-- Print a text at the end of the turn. -/
  | append (text : List Char)
  /-- Print a text. -/
  | insert (text : List Char)
  /-- Print a text in the place of lines. -/
  | change (text : List Char)
  /-- Go on elsewhere, or at the end. -/
  | branch (label : String)
  /-- Go on elsewhere if something has been put in the place of something. -/
  | branchIf (label : String)
  /-- Go on elsewhere unless something has been put in the place of something. -/
  | branchUnless (label : String)
  /-- Forget the line. -/
  | delete
  /-- Forget the first line of the text. -/
  | deleteFirst
  /-- Print the text. -/
  | print
  /-- Print the first line of the text. -/
  | printFirst
  /-- Print the number of the line. -/
  | printNumber
  /-- Print the name of the input. -/
  | printName
  /-- Print the text with escapes for what cannot be seen. -/
  | printPlain (width : Option Nat)
  /-- Go on with the next line. -/
  | next
  /-- Add the next line to the text. -/
  | addNext
  /-- Keep the text. -/
  | keep
  /-- Add the text to what is kept. -/
  | addKept
  /-- Take what is kept. -/
  | take
  /-- Add what is kept to the text. -/
  | addTaken
  /-- Exchange the text and what is kept. -/
  | exchange
  /-- End, with a status, and maybe without printing the text. -/
  | quit (status : Nat) (prints : Bool)
  /-- Print a file at the end of the turn. -/
  | readFile (name : String)
  /-- Print a line of a file at the end of the turn. -/
  | readLine (name : String)
  /-- Write the text to a file. -/
  | writeFile (name : String)
  /-- Write the first line of the text to a file. -/
  | writeFirst (name : String)
  /-- Put a text in the place of others. -/
  | substitute (s : Substitution)
  /-- Put characters in the place of others. -/
  | translate (pairs : List (Char × Char))
  /-- Forget the text. -/
  | empty

/-- A command. -/
structure Command where
  /-- The lines for which it is run. -/
  selector : Selector
  /-- What it does. -/
  action : Action

/-- A script for editing. -/
structure Script where
  /-- The commands. -/
  commands : List Command := []
  /-- The numbers of the commands that have a label. -/
  labels : List (String × Nat) := []
  /-- Lines are printed only if a command does it. -/
  isSilent : Bool := false

end BuildTrace.Editing
