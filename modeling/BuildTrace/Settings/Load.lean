import BuildTrace.Environment.Basic
import BuildTrace.FileTree
import BuildTrace.Settings.Document
import BuildTrace.Settings.Validation
import BuildTrace.Yaml.Parser

/-!
# Loading the settings

The settings come from the file the user names, or else from the file of a fixed name in the
directory the program was started in. If there is no such file, everything has its default.
-/

namespace BuildTrace.Settings

/-- Why no settings could be loaded. -/
inductive LoadError where
  /-- The file cannot be read as a text. -/
  | access (file : Path)
  /-- The text is not a document with settings. -/
  | parse (file : Path)
  /-- The settings make no sense. -/
  | validation (file : Path) (error : ValidationError)
  deriving Repr

/-- The message to the user about settings that make no sense. -/
def LoadError.validationMessage (file : Path) (error : ValidationError) : String :=
  "Configuration validation failed in '" ++ file.text ++ "': " ++ error.message

/-- The name of the file that is looked for. -/
def fileName : String := "mktrace.yml"

/-- The settings in a YAML text. -/
def parse? (text : String) : Option Settings :=
  (Yaml.parse? text.toList).bind (ofDocument? Yaml.format)

/-- The settings in the file. -/
def ofFile (tree : FileTree) (file : Path) : Except LoadError Settings :=
  match tree.readText? file with
  | none => .error (.access file)
  | some text =>
    match parse? text with
    | none => .error (.parse file)
    | some settings =>
      match settings.validate with
      | .error error => .error (.validation file error)
      | .ok () => .ok settings

/-- The settings for a program started in the environment. -/
def load (tree : FileTree) (environment : Environment) (file : Option Path) :
    Except LoadError Settings :=
  match file with
  -- A file that the user names has to be there.
  | some file => ofFile tree file
  | none =>
    let file := environment.directory.join ⟨fileName⟩
    if tree.contains file then ofFile tree file else .ok {}

end BuildTrace.Settings
