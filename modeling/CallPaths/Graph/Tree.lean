import CallPaths.Graph.EntryPoints
import CallPaths.Graph.Walk

/-!
# Trees of calls from entry points to a target

A tree of calls grows from an entry point forward through callees; branches that do not lead to the
target are pruned, and the target is always a leaf.  If no entry point leads to the target, the
first node that does takes their place.
-/

namespace CallPaths

/-- A tree of calls; the root over several entry points has no signature. -/
inductive CallTree where
  | node (method : Option Signature) (children : List CallTree)
deriving Repr, Inhabited

namespace CallTree

/-- The method at the root. -/
def method : CallTree → Option Signature
  | node m _ => m

/-- The subtrees below the root. -/
def children : CallTree → List CallTree
  | node _ cs => cs

mutual

/-- The methods of the nodes in pre-order. -/
def preorder : CallTree → List Signature
  | node m cs => m.toList ++ preorderAll cs

/-- The methods of the nodes of several trees in pre-order. -/
def preorderAll : List CallTree → List Signature
  | [] => []
  | t :: ts => preorder t ++ preorderAll ts

end

mutual

/-- The number of nodes. -/
def size : CallTree → Nat
  | node _ cs => 1 + sizeAll cs

/-- The number of nodes of several trees. -/
def sizeAll : List CallTree → Nat
  | [] => 0
  | t :: ts => size t + sizeAll ts

end

@[simp] theorem sizeAll_append (ts us : List CallTree) :
    sizeAll (ts ++ us) = sizeAll ts + sizeAll us := by
  induction ts with
  | nil => simp [sizeAll]
  | cons t ts ih => simp only [List.cons_append, sizeAll, ih]; omega

/-- Collects the methods of pending trees that were not seen before.  Trees may be deep, so the
trees below a node are put on a stack and not gone into by recursion. -/
def collect (seen : SortedSet Signature) (ordered : Array Signature) :
    List CallTree → Array Signature
  | [] => ordered
  | node none cs :: rest => collect seen ordered (cs ++ rest)
  | node (some m) cs :: rest =>
    if seen.contains m then collect seen ordered (cs ++ rest)
    else collect (seen.insert m) (ordered.push m) (cs ++ rest)
termination_by pending => sizeAll pending
decreasing_by all_goals simp [sizeAll, size]

/-- The methods in pre-order, each at its first occurrence only. -/
def signatures (t : CallTree) : List Signature :=
  (collect ∅ #[] [t]).toList

end CallTree

/-- The tree of calls from the entry points to a target. -/
structure EntryTree where
  root : CallTree := .node none []
  /-- The entry points that lead to the target. -/
  entryPoints : List Signature := []
  /-- Whether a node that is no entry point had to take their place. -/
  usedFallback : Bool := false
  /-- Whether the visit limit cut the search short. -/
  truncated : Bool := false
  /-- The number of visited nodes. -/
  visits : Nat := 0
deriving Repr, Inhabited

namespace CallGraph

/-- Grows the pruned tree at the end of a path, whose latest method comes first.  The first argument
bounds the number of further methods; a path never repeats a method, so the number of nodes is
enough. -/
def growFrom (g : CallGraph) (scope : CycleScope) (target : Signature) :
    Nat → List Signature → Walk → Option CallTree × Walk
  | 0, _, w => (none, w)
  | _, [], w => (none, w)
  | depth + 1, m :: path, w =>
    if w.budget.exhausted then (none, w)
    else if m = target then (some (.node (some m) []), w)
    else
      let next := w.fresh scope (m :: path) (g.callees m)
      let entered := w.enter scope next
      if entered.budget.exhausted then (none, entered)
      else
        let (children, w') := next.foldl
          (fun acc callee =>
            let (t, w') := growFrom g scope target depth (callee :: m :: path) acc.2
            (acc.1 ++ t.toList, w'))
          ([], entered)
        (if children.isEmpty then none else some (.node (some m) children), w')

/-- Grows the pruned tree of one entry point. -/
def grow (g : CallGraph) (scope : CycleScope) (target entry : Signature) (b : Budget) :
    Option CallTree × Budget :=
  let b := b.spend 1
  if b.exhausted then (none, b)
  else
    let (t, w) := g.growFrom scope target g.nodes.length [entry]
      { budget := b, seen := (∅ : SortedSet Signature).insert entry }
    (t, w.budget)

/-- Grows the trees of several entry points and keeps those that lead to the target. -/
def growAll (g : CallGraph) (scope : CycleScope) (target : Signature) :
    List Signature → Budget → List (Signature × CallTree) × Budget
  | [], b => ([], b)
  | m :: ms, b =>
    let (t, b) := g.grow scope target m b
    let kept := t.toList.map fun t => (m, t)
    if b.exhausted then (kept, b)
    else
      let (rest, b) := growAll g scope target ms b
      (kept ++ rest, b)

/-- The tree of the first node that leads to the target. -/
def growFirst (g : CallGraph) (scope : CycleScope) (target : Signature) :
    List Signature → Budget → List (Signature × CallTree) × Budget
  | [], b => ([], b)
  | m :: ms, b =>
    match g.grow scope target m b with
    | (some t, b) => ([(m, t)], b)
    | (none, b) => if b.exhausted then ([], b) else growFirst g scope target ms b

/-- A single tree stands for itself, any other number of trees gets a common root. -/
def joinTrees : List CallTree → CallTree
  | [t] => t
  | ts => .node none ts

/-- The tree of calls from the entry points to a target; the empty tree for a method that is no
node. -/
def entryTree (g : CallGraph) (names : List String) (policy : Policy) (target : Signature) :
    EntryTree :=
  if g.contains target then
    let scope := policy.cycleScope
    let entries := (g.entryPoints names).map (·.signature)
    let (kept, b) := g.growAll scope target entries { limit := policy.visitLimit }
    if kept.isEmpty && !b.exhausted then
      let (first, b) := g.growFirst scope target g.nodes b
      { root := joinTrees (first.map (·.2))
        entryPoints := first.map (·.1)
        usedFallback := !first.isEmpty
        truncated := b.exhausted
        visits := b.used }
    else
      { root := joinTrees (kept.map (·.2))
        entryPoints := kept.map (·.1)
        usedFallback := false
        truncated := b.exhausted
        visits := b.used }
  else {}

end CallGraph

end CallPaths
