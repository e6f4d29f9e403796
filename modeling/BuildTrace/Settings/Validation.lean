import BuildTrace.Settings.Basic
import BuildTrace.Text.Blank

/-!
# Validation of settings

Settings may be written well and still make no sense: a name may be blank or given twice, a number
that must be positive may be zero. Each group of settings is looked at on its own, and what is wrong
with it becomes one error. The errors of the groups are collected in the same way, and what is
several errors in one of them is several errors for all settings.
-/

namespace BuildTrace.Settings

/-- Something that is wrong with a setting. -/
inductive Problem where
  /-- A text is empty or blank. -/
  | emptyText (field : String)
  /-- A number is zero. -/
  | notPositive (field : String)
  /-- A name was given before; `index` tells which one repeats it. -/
  | duplicate (field : String) (index : Nat)
  deriving DecidableEq, Repr

/-- Why settings are refused. -/
inductive ValidationError where
  /-- For one problem. -/
  | single (problem : Problem)
  /-- For several reasons. -/
  | multiple (errors : List ValidationError)
  deriving Repr

namespace Problem

/-- The message to the user about a single problem. -/
def message : Problem → String
  | emptyText field => "Empty string value for field '" ++ field ++ "'"
  | notPositive field => "Value of '" ++ field ++ "' must be positive"
  | duplicate field index => "Duplicate " ++ field ++ " entry at: " ++ toString index

/-- A name between double quotes. -/
def quoted (s : String) : String := String.ofList (Text.quoted s.toList)

/-- The problem as an item of a list of problems. -/
def item : Problem → String
  | emptyText field => "EmptyString \x7b field: " ++ quoted field ++ " \x7d"
  | notPositive field => "NotPositive \x7b field: " ++ quoted field ++ " \x7d"
  | duplicate field index =>
    "DuplicateEntry \x7b field: " ++ quoted field ++ ", idx: " ++ toString index ++ " \x7d"

end Problem

namespace ValidationError

mutual

/-- The error as an item of a list of errors. -/
def item : ValidationError → String
  | single problem => problem.item
  | multiple errors => "Multiple \x7b errors: [" ++ ", ".intercalate (items errors) ++ "] \x7d"

/-- The items of a list of errors. -/
def items : List ValidationError → List String
  | [] => []
  | error :: errors => error.item :: items errors

end

/-- The message to the user. -/
def message : ValidationError → String
  | single problem => problem.message
  | multiple errors => "Multiple validation errors: [" ++ ", ".intercalate (items errors) ++ "]"

end ValidationError

/-- The text is empty or has only white space. -/
def isBlank (s : String) : Bool := Text.isBlankText s.toList

/-- The errors that were found so far, in order. -/
structure Collector where
  /-- The errors. -/
  errors : List ValidationError := []

namespace Collector

/-- One more error. -/
def add (c : Collector) (error : ValidationError) : Collector := ⟨c.errors ++ [error]⟩

/-- One more problem, if there is one. -/
def addIf (c : Collector) (condition : Bool) (problem : Problem) : Collector :=
  if condition then c.add (.single problem) else c

/-- What came out of validating a part of the settings; several errors stay several. -/
def addResult (c : Collector) : Except ValidationError Unit → Collector
  | .ok () => c
  | .error (.multiple errors) => ⟨c.errors ++ errors⟩
  | .error error => c.add error

/-- Look at the names of a list from `index` on, `seen` being those before them that are not
blank. -/
def checkNamesFrom (field : String) (index : Nat) (seen : List String) (c : Collector) :
    List String → Collector
  | [] => c
  | name :: rest =>
    -- A blank name is not remembered, so it is not reported as a repetition, too.
    if isBlank name then
      let problem := Problem.emptyText (field ++ "[" ++ toString index ++ "]")
      checkNamesFrom field (index + 1) seen (c.add (.single problem)) rest
    else if seen.contains name then
      checkNamesFrom field (index + 1) seen (c.add (.single (.duplicate field index))) rest
    else checkNamesFrom field (index + 1) (name :: seen) c rest

/-- Look at the names of a list: none may be blank, or repeat one in front of it. -/
def checkNames (c : Collector) (field : String) (names : List String) : Collector :=
  checkNamesFrom field 0 [] c names

/-- The outcome: a single error is given as it is. -/
def finish (c : Collector) : Except ValidationError Unit :=
  match c.errors with
  | [] => .ok ()
  | [error] => .error error
  | errors => .error (.multiple errors)

end Collector

/-- Accept the settings for make, or say what is wrong with them. -/
def Make.validate (s : Make) : Except ValidationError Unit :=
  let c : Collector := {}
  let c := c.addIf s.program.text.isEmpty (.emptyText "make.program")
  let c := c.addIf (isBlank s.forceRebuildSwitch) (.emptyText "make.force_rebuild_switch")
  let c := c.checkNames "make.dry_run_switches" s.dryRunSwitches
  let c := c.checkNames "make.database_switches" s.databaseSwitches
  c.finish

/-- Accept the settings for the trace, or say what is wrong with them. -/
def Trace.validate (s : Trace) : Except ValidationError Unit :=
  let c : Collector := {}
  let c := c.addIf (s.chunkSize == 0) (.notPositive "trace.chunk_size")
  let c := c.addIf (s.stallTimeout == 0) (.notPositive "trace.stall_timeout")
  c.finish

/-- Accept the names of the tools, or say what is wrong with them. -/
def Toolchain.validate (s : Toolchain) : Except ValidationError Unit :=
  let c : Collector := {}
  let c := c.checkNames "toolchain.compilers" s.compilers
  let c := c.checkNames "toolchain.linkers" s.linkers
  let c := c.checkNames "toolchain.exclude" s.exclude
  c.finish

/-- Accept the settings, or say what is wrong with them. -/
def validate (s : Settings) : Except ValidationError Unit :=
  let c : Collector := {}
  let c := c.addResult s.make.validate
  let c := c.addResult s.trace.validate
  let c := c.addResult s.toolchain.validate
  c.finish

end BuildTrace.Settings
