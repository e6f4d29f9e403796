import BuildTrace.Utility.Basic
import BuildTrace.Utility.Quote

/-!
# Options of programs

An option is a letter behind a dash or a word behind two of them. Letters may stand together, words
may be cut short, and options may stand behind operands.
-/

namespace BuildTrace.Utility

open Shell

/-- Whether an option takes a value. -/
inductive Takes where
  /-- It takes none. -/
  | nothing
  /-- It takes one. -/
  | value
  /-- It takes one that is joined to it, or none. -/
  | optional
  deriving DecidableEq

/-- An option. -/
structure OptionForm where
  /-- Its letter. -/
  letter : Option Char
  /-- Its word. -/
  word : String
  /-- Whether it takes a value. -/
  takes : Takes := .nothing

/-- The options of a program. -/
structure OptionForms where
  /-- The options. -/
  forms : List OptionForm
  /-- The exit status for a mistake. -/
  status : Nat := 1
  /-- What is said about the arguments of the program when there is a mistake. -/
  usage : Option String := none
  /-- What is behind an operand is no option. -/
  stopsEarly : Bool := false
  /-- A number behind a dash is the value of this option. -/
  numbers : Option Char := none

/-- The options and the operands that a program is given. -/
structure Given where
  /-- The options, by their letter or their word, with their values. -/
  options : List (String × Option String) := []
  /-- The operands. -/
  operands : List String := []

namespace Given

/-- The option is given. -/
def has (g : Given) (key : String) : Bool := g.options.any (·.1 == key)

/-- One of the options is given. -/
def hasAny (g : Given) (keys : List String) : Bool := g.options.any fun o => keys.contains o.1

/-- The last value of an option. -/
def value? (g : Given) (key : String) : Option String :=
  (g.options.filter (·.1 == key)).getLast?.bind (·.2)

/-- All values of an option. -/
def values (g : Given) (key : String) : List String :=
  (g.options.filter (·.1 == key)).filterMap (·.2)

/-- The last one of some options that is given. -/
def last? (g : Given) (keys : List String) : Option String :=
  ((g.options.filter fun o => keys.contains o.1).getLast?).map (·.1)

/-- With an option. -/
def add (g : Given) (key : String) (value : Option String := none) : Given :=
  { g with options := g.options ++ [(key, value)] }

end Given

namespace OptionForm

/-- The letter of an option, or else its word. -/
def key (f : OptionForm) : String := (f.letter.map Char.toString).getD f.word

end OptionForm

/-- The options of letters, of which those in front of a colon take a value. -/
def formsOf : List Char → List OptionForm
  | [] => []
  | c :: ':' :: rest => ⟨some c, "", .value⟩ :: formsOf rest
  | c :: rest => ⟨some c, "", .nothing⟩ :: formsOf rest

namespace OptionForms

/-- The forms with letters and words: those of words are added to the letters, and words without a
letter stand for themselves. -/
def make (letters : String) (words : List (String × String × Takes)) (status : Nat := 1) :
    OptionForms :=
  let lettered := formsOf letters.toList
  let worded := words.map fun (word, key, takes) =>
    (⟨if key.length = 1 then key.toList.head? else none, word, takes⟩ : OptionForm)
  { forms := lettered ++ worded, status }

/-- The form with a letter. -/
def ofLetter? (o : OptionForms) (c : Char) : Option OptionForm :=
  o.forms.find? fun f => f.letter == some c && f.word.isEmpty

/-- The words that begin with a text. -/
def beginning (o : OptionForms) (text : String) : List OptionForm :=
  let worded := o.forms.filter fun f => !f.word.isEmpty
  match worded.filter (·.word == text) with
  | [] => worded.filter fun f => f.word.startsWith text
  | exact => exact.take 1

/-- End a program that is not called as it should be. -/
def refuse {α : Type} (o : OptionForms) (name message : String) : Shell α :=
  misuse name (o.usage.elim message fun usage => message ++ "\n" ++ usage) o.status

/-- Read options and operands. -/
def read (o : OptionForms) (name : String) : Nat → List String → Given → Shell Given
  | 0, _, g => return g
  | fuel + 1, arguments, g => do
    match arguments with
    | [] => return g
    | a :: rest =>
      if a = "--" then return { g with operands := g.operands ++ rest }
      else
        match a.toList with
        | '-' :: '-' :: text =>
          let word := text.takeWhile (· != '=')
          let value := (text.drop word.length).drop 1
          let hasValue := word.length < text.length
          match o.beginning (String.ofList word) with
          | [] => o.refuse name ("unrecognized option '--" ++ String.ofList word ++ "'")
          | [form] =>
            let shown := "option '--" ++ form.word ++ "'"
            match form.takes with
            | .nothing =>
              if hasValue then o.refuse name (shown ++ " doesn't allow an argument")
              else o.read name fuel rest (g.add form.key)
            | .optional =>
              let value := if hasValue then some (String.ofList value) else none
              o.read name fuel rest (g.add form.key value)
            | .value =>
              if hasValue then o.read name fuel rest (g.add form.key (some (String.ofList value)))
              else
                match rest with
                | [] => o.refuse name (shown ++ " requires an argument")
                | value :: rest => o.read name fuel rest (g.add form.key (some value))
          | forms =>
            if (forms.map OptionForm.key).eraseDups.length = 1 then
              o.read name fuel rest (g.add ((forms.map OptionForm.key).headD ""))
            else
              let shown := " ".intercalate (forms.map fun f => "'--" ++ f.word ++ "'")
              o.refuse name
                ("option '--" ++ String.ofList word ++ "' is ambiguous; possibilities: " ++ shown)
        | '-' :: c :: letters =>
          match if c.isDigit then o.numbers else none with
          | some key =>
            let digits := (c :: letters).takeWhile Char.isDigit
            let left := (c :: letters).drop digits.length
            let g := g.add key.toString (some (String.ofList digits))
            if left.isEmpty then o.read name fuel rest g
            else o.read name fuel (String.ofList ('-' :: left) :: rest) g
          | none =>
            match o.ofLetter? c with
            | none => o.refuse name ("invalid option -- '" ++ c.toString ++ "'")
            | some form =>
              match form.takes with
              | .nothing =>
                let g := g.add c.toString
                if letters.isEmpty then o.read name fuel rest g
                else o.read name fuel (String.ofList ('-' :: letters) :: rest) g
              | .optional =>
                let value := if letters.isEmpty then none else some (String.ofList letters)
                o.read name fuel rest (g.add c.toString value)
              | .value =>
                if !letters.isEmpty then
                  o.read name fuel rest (g.add c.toString (some (String.ofList letters)))
                else
                  match rest with
                  | [] => o.refuse name ("option requires an argument -- '" ++ c.toString ++ "'")
                  | value :: rest => o.read name fuel rest (g.add c.toString (some value))
        | _ =>
          if o.stopsEarly then return { g with operands := g.operands ++ arguments }
          else o.read name fuel rest { g with operands := g.operands ++ [a] }

/-- The options and the operands among the arguments of a program. -/
def given (o : OptionForms) (name : String) (arguments : List String) : Shell Given :=
  o.read name (Text.stepsThrough arguments) arguments {}

/-- The program with these options that does what is given. -/
def program (o : OptionForms) (action : String → Given → Shell Nat) : Utility :=
  fun _ name arguments => do action name (← o.given name arguments)

end OptionForms

end BuildTrace.Utility
