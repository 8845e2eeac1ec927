import CallPaths.Graph.Basic

/-!
# Entry points

The methods that calls start from: the nodes that nobody calls, and the nodes whose method name is
one of a list of names such as `main`.
-/

namespace CallPaths

/-- Why a method is an entry point. -/
inductive EntryKind where
  /-- Nobody calls it. -/
  | graphRoot
  /-- Its name is an entry name. -/
  | namedEntry
deriving DecidableEq, Repr, Inhabited

/-- A method that calls start from. -/
structure EntryPoint where
  signature : Signature
  kind : EntryKind
  /-- The reason in words. -/
  reasoning : String
deriving DecidableEq, Repr, Inhabited

namespace CallGraph

/-- The names of entry points unless others are configured. -/
def defaultEntryNames : List String := ["main"]

/-- The entry point at a node, if it is one; a node that nobody calls counts as a root, whatever its
name. -/
def entryPoint? (g : CallGraph) (names : List String) (m : Signature) : Option EntryPoint :=
  if g.inDegree m = 0 then
    some ⟨m, .graphRoot, s!"No callers; calls {g.outDegree m} methods"⟩
  else if names.contains m.method then
    some ⟨m, .namedEntry, s!"Method name '{m.method}' marks an entry point"⟩
  else none

/-- All entry points in increasing order of their signatures. -/
def entryPoints (g : CallGraph) (names : List String) : List EntryPoint :=
  g.nodes.filterMap (g.entryPoint? names)

end CallGraph

end CallPaths
