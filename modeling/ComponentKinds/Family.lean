import ComponentKinds.Builtin
import ComponentKinds.Registrar
import ComponentKinds.Registry.Create

/-!
# Families

A family has at most one registry for all its life. It is built once, by the built-in
registrar of the family and those that are supplied at start-up, and only read afterwards;
every read before that is an error.
-/

namespace ComponentKinds

/-- A family of kinds. -/
structure Family where
  /-- What the kinds are kinds of. -/
  name : String
  /-- The registrar that runs before the supplied ones. -/
  builtIn : Registrar
  /-- The registry, once it is installed. -/
  installed : Option Registry := none

namespace Family

/-- Build the registry and install it. -/
def start (f : Family) (registrars : List Registrar) : StartReport × Family :=
  let (report, installed) := Registrar.startFamily f.name f.builtIn registrars f.installed
  (report, { f with installed })

/-- Whether the registry is installed. -/
def isInitialized (f : Family) : Bool := f.installed.isSome

/-- The installed registry. -/
def get (f : Family) : Except Error Registry :=
  match f.installed with
  | some r => .ok r
  | none => .error (.notInitialized f.name)

/-- Create a component of a kind of the installed registry. -/
def create (f : Family) (kind : String) (config : Config) : Except Error Component := do
  (← f.get).create kind config

/-- The kinds of the installed registry. -/
def kinds (f : Family) : Except Error (List String) := do
  return (← f.get).kinds

/-- The attributes of a kind of the installed registry with the keys of their types. -/
def options (f : Family) (kind : String) : Except Error (List (String × String)) := do
  (← f.get).options kind

/-- The text of a family: its name and whether its registry is installed. -/
def text (f : Family) : String :=
  "Family \x7b name: " ++ Text.quote f.name ++ ", initialized: " ++ toString f.isInitialized ++
    " \x7d"

/-- The family of executors, before it is started. -/
def executors : Family := ⟨"executor", .ofBlocks Builtin.executors, none⟩

/-- The family of runtimes, before it is started. -/
def runtimes : Family := ⟨"runtime", .ofBlocks Builtin.runtimes, none⟩

end Family

end ComponentKinds
