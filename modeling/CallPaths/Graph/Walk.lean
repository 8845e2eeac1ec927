import CallPaths.Graph.Basic

/-!
# Walks with a visit budget

What the walks over a call graph share: a budget of node visits, and the rule that says which
neighbours of a node may be entered.  A node is paid for when it is entered, together with all its
fresh siblings; a walk whose budget does not cover them ends there.
-/

namespace CallPaths

/-- A count of node visits against a limit. -/
structure Budget where
  /-- The largest allowed number of visits, if there is one. -/
  limit : Option Nat
  /-- The number of visits so far. -/
  used : Nat := 0
  /-- Whether a visit was refused. -/
  exhausted : Bool := false
deriving DecidableEq, Repr, Inhabited

/-- Pays for `n` visits; if they go beyond the limit, the budget is used up to the limit and counts
as exhausted. -/
def Budget.spend (b : Budget) (n : Nat) : Budget :=
  match b.limit with
  | none => { b with used := b.used + n }
  | some limit =>
    if limit < b.used + n then { b with used := limit, exhausted := true }
    else { b with used := b.used + n }

/-- The state that a walk carries from node to node. -/
structure Walk where
  budget : Budget
  /-- The entered nodes; kept only where visits count for the whole walk. -/
  seen : SortedSet Signature := ∅

namespace Walk

/-- Whether a node may not be entered from the end of a path. -/
def isBlocked (w : Walk) (scope : CycleScope) (path : List Signature) (m : Signature) : Bool :=
  match scope with
  | .pathLocal => path.contains m
  | .global => w.seen.contains m

/-- The neighbours that may be entered from the end of a path. -/
def fresh (w : Walk) (scope : CycleScope) (path : List Signature)
    (neighbours : SortedSet Signature) : List Signature :=
  neighbours.toList.filter fun m => !w.isBlocked scope path m

/-- Enters nodes: pays for them and, where visits count for the whole walk, marks them. -/
def enter (w : Walk) (scope : CycleScope) (next : List Signature) : Walk where
  budget := w.budget.spend next.length
  seen :=
    match scope with
    | .pathLocal => w.seen
    | .global => next.foldl (fun s m => s.insert m) w.seen

end Walk

end CallPaths
