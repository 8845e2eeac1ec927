import CallPaths.Graph.Walk

/-!
# Caller chains

A caller chain leads from a target back through callers, each method once, until no further caller
may be entered.  Chains are listed depth first in the order of signatures.
-/

namespace CallPaths

/-- The caller chains of a target. -/
structure ChainSet where
  /-- The chains, each from the target to its furthest caller. -/
  chains : List (List Signature) := []
  /-- Whether the visit limit cut the enumeration short. -/
  truncated : Bool := false
  /-- The number of visited nodes. -/
  visits : Nat := 0
deriving DecidableEq, Repr, Inhabited

/-- The state of a chain enumeration. -/
structure ChainWalk extends Walk where
  /-- The finished chains, the latest one first. -/
  finished : List (List Signature) := []

namespace CallGraph

/-- Enumerates the chains that go on from a path, whose furthest caller comes first.  The first
argument bounds the number of further methods; a path never repeats a method, so the number of nodes
is enough. -/
def chainsFrom (g : CallGraph) (scope : CycleScope) :
    Nat → List Signature → ChainWalk → ChainWalk
  | 0, _, w => w
  | _, [], w => w
  | depth + 1, m :: path, w =>
    if w.budget.exhausted then w
    else
      let next := w.fresh scope (m :: path) (g.callers m)
      if next.isEmpty then { w with finished := (m :: path).reverse :: w.finished }
      else
        let entered := w.enter scope next
        if entered.budget.exhausted then { w with toWalk := entered }
        else
          next.foldl (fun w caller => chainsFrom g scope depth (caller :: m :: path) w)
            { w with toWalk := entered }

/-- All caller chains of a target; none for a method that is no node. -/
def callerChains (g : CallGraph) (policy : Policy) (target : Signature) : ChainSet :=
  if g.contains target then
    let start : Walk :=
      { budget := Budget.spend { limit := policy.visitLimit } 1
        seen := (∅ : SortedSet Signature).insert target }
    let w := g.chainsFrom policy.cycleScope g.nodes.length [target] { toWalk := start }
    { chains := w.finished.reverse
      truncated := w.budget.exhausted
      visits := w.budget.used }
  else {}

end CallGraph

end CallPaths
