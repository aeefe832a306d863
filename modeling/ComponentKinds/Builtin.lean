import ComponentKinds.Registry.Basic

/-!
# Built-in kinds

The kinds that the families of executors and of runtimes start with.
-/

namespace ComponentKinds.Builtin

/-- The kinds of executors: one that interprets a graph, one that is compiled ahead of time. -/
def executors : List Block := [
  { kind := "graph", attributes := [.withDefault "link-params" .bool false] },
  { kind := "aot"
    attributes := [
      .withDefault "link-params" .bool false,
      { name := "unpacked-api", kind := .bool },
      { name := "interface-api", kind := .string },
      { name := "workspace-byte-alignment", kind := .int },
      { name := "constant-byte-alignment", kind := .int }] }]

/-- The kinds of runtimes: one in C and one in C++. -/
def runtimes : List Block := [
  { kind := "crt", attributes := [{ name := "system-lib", kind := .bool }] },
  { kind := "cpp", attributes := [{ name := "system-lib", kind := .bool }] }]

end ComponentKinds.Builtin
