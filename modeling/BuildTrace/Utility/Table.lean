import BuildTrace.Utility.Calculation
import BuildTrace.Utility.Dump
import BuildTrace.Utility.Edit
import BuildTrace.Utility.Field
import BuildTrace.Utility.Find
import BuildTrace.Utility.Grep
import BuildTrace.Utility.Lines
import BuildTrace.Utility.Listing
import BuildTrace.Utility.Move
import BuildTrace.Utility.Name
import BuildTrace.Utility.Number
import BuildTrace.Utility.Process
import BuildTrace.Utility.Sort
import BuildTrace.Utility.Translate
import BuildTrace.Utility.Word

/-!
# The programs that are always there
-/

namespace BuildTrace.Utility

/-- A program that does nothing but end. -/
def ends (status : Nat) : Utility := fun _ _ _ => return status

/-- The programs with their names. -/
def all : List (String × Utility) :=
  [("[", bracket), ("arch", fixedLine "x86_64"), ("base64", base64), ("basename", basename),
    ("cat", cat), ("chmod", chmod), ("cmp", cmp), ("comm", comm), ("cp", cp), ("cut", cut),
    ("dirname", dirname), ("echo", echo), ("egrep", searching "E"), ("env", env),
    ("expand", expand), ("expr", expr), ("false", ends 1), ("fgrep", searching "F"),
    ("find", findEntries), ("fold", fold), ("grep", searching "G"), ("head", head), ("id", id),
    ("ls", ls), ("mkdir", mkdir), ("mktemp", mktemp), ("mv", mv), ("nice", nice), ("nl", nl),
    ("nohup", nohup), ("od", od), ("paste", paste), ("printenv", printenv), ("printf", printf),
    ("pwd", pwd), ("readlink", readlink), ("realpath", realpath), ("rev", rev), ("rm", rm),
    ("rmdir", rmdir), ("sed", sed), ("seq", seq),
    ("setsid", runPlain "cfw" [] 1 "no command specified"), ("sleep", sleep), ("sort", sort),
    ("stdbuf", runPlain "e:i:o:" [] 125 "missing operand"), ("sync", ends 0), ("tac", tac),
    ("tail", tail), ("tee", tee), ("test", test), ("timeout", timeout), ("touch", touch),
    ("tr", tr), ("true", ends 0), ("tty", fixedLine "not a tty" 1 2), ("uname", uname),
    ("uniq", uniq), ("wc", wc), ("which", which), ("whoami", fixedLine "root"), ("xargs", xargs),
    ("yes", yes)]

end BuildTrace.Utility
