/-!
# Guards

Only one operation may run the build tool at a time. Whoever begins an operation while another
one is running is refused at once.
-/

namespace BuildTrace

/-- An operation that runs the build tool. -/
inductive Operation where
  /-- Finding out how the workspace is built. -/
  | configure
  /-- Building. -/
  | build
  /-- Preparing the workspace. -/
  | preConfigure
  deriving DecidableEq, Repr

namespace Operation

/-- The name of the operation. -/
def name : Operation → String
  | configure => "configure"
  | build => "build"
  | preConfigure => "pre-configure"

/-- The operation with the name. -/
def ofName? (name : String) : Option Operation :=
  [configure, build, preConfigure].find? (·.name == name)

end Operation

/-- The operation that is running, if any. -/
structure Guards where
  /-- The operation that is running. -/
  running : Option Operation := none
  deriving DecidableEq, Repr

namespace Guards

/-- The guards once the operation has begun, unless one is running. -/
def begin? (g : Guards) (operation : Operation) : Option Guards :=
  match g.running with
  | none => some ⟨some operation⟩
  | some _ => none

/-- The guards once the running operation has ended. -/
def release (_ : Guards) : Guards := {}

/-- The operation is running. -/
def isRunning (g : Guards) (operation : Operation) : Bool := g.running == some operation

end Guards

/-- Guards together with all who asked for one: for each request its operation while the guard is
held, and nothing once it was refused or released. -/
structure GuardDesk where
  /-- The guards. -/
  guards : Guards := {}
  /-- What the requests hold, by the order of the requests. -/
  slots : List (Option Operation) := []
  deriving DecidableEq

namespace GuardDesk

/-- Ask for a guard of the operation: whether it was granted. -/
def begin (d : GuardDesk) (operation : Operation) : Bool × GuardDesk :=
  match d.guards.begin? operation with
  | some guards => (true, { guards, slots := d.slots ++ [some operation] })
  | none => (false, { d with slots := d.slots ++ [none] })

/-- Give up what a request holds: whether it held a guard. -/
def drop (d : GuardDesk) (slot : Nat) : Bool × GuardDesk :=
  match d.slots[slot]? with
  | some (some _) => (true, { guards := d.guards.release, slots := d.slots.set slot none })
  | _ => (false, d)

end GuardDesk

end BuildTrace
