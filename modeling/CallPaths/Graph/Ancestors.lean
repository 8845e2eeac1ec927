import CallPaths.Graph.Basic

/-!
# Ancestors

The methods from which a method can be reached by one or more calls.  They are found by a loop over
a list of methods whose callers are still to be looked at.
-/

namespace CallPaths

/-- The state of a search for ancestors. -/
structure AncestorSearch where
  /-- The methods whose callers are still to be looked at, the next one first. -/
  pending : List Signature
  found : SortedSet Signature := ∅

namespace AncestorSearch

/-- The search before its first round. -/
def start (target : Signature) : AncestorSearch :=
  { pending := [target] }

/-- Adds a caller.  Only if it is new, its own callers are still to be looked at. -/
def add (s : AncestorSearch) (caller : Signature) : AncestorSearch :=
  if s.found.contains caller then s
  else { pending := caller :: s.pending, found := s.found.insert caller }

/-- A round of the search, which there is if a method is pending. -/
def round? (g : CallGraph) (s : AncestorSearch) : Option AncestorSearch :=
  match s.pending with
  | [] => none
  | m :: rest => some ((g.callers m).toList.foldl add { s with pending := rest })

/-- The search after some rounds, or after its last round if there are not so many. -/
def after (g : CallGraph) : Nat → AncestorSearch → AncestorSearch
  | 0, s => s
  | rounds + 1, s =>
    match s.round? g with
    | none => s
    | some s => after g rounds s

end AncestorSearch

/-- The methods with a path of one or more calls to the target.  Each round takes a method from the
list, and no node gets there twice beside the target, so there is never another round. -/
def CallGraph.ancestors (g : CallGraph) (target : Signature) : SortedSet Signature :=
  (AncestorSearch.after g (g.nodes.length + 1) (.start target)).found

end CallPaths
