import CallPaths.Graph.Implementations
import CallPaths.Policy

/-!
# Call graphs

A call graph has method signatures as nodes and an edge from each caller to each callee.  Both
directions are kept, since walks go either way.  `CallGraph.build` makes the graph of a list of
resolved calls, where a call of an interface method also reaches implementations of it.
-/

namespace CallPaths

/-- A call of one method by another. -/
structure Edge where
  caller : Signature
  callee : Signature
deriving DecidableEq, Repr, Inhabited

namespace Edge

/-- Comparison of the callers, then of the callees. -/
def comparison : Edge → Edge → Ordering :=
  compareLex (compareOn caller) (compareOn callee)

instance : Ord Edge := ⟨comparison⟩

instance : Std.TransOrd Edge :=
  inferInstanceAs (Std.TransCmp (compareLex (compareOn caller) (compareOn callee)))

instance : Std.LawfulEqOrd Edge where
  eq_of_compare {a b} h := by
    obtain ⟨r, e⟩ := a
    obtain ⟨r', e'⟩ := b
    replace h : comparison ⟨r, e⟩ ⟨r', e'⟩ = .eq := h
    simp only [comparison, compareLex, compareOn, Ordering.then_eq_eq] at h
    have e₁ := Std.LawfulEqOrd.eq_of_compare h.1
    have e₂ := Std.LawfulEqOrd.eq_of_compare h.2
    subst e₁ e₂
    rfl

/-- Whether both ends lie inside a scope. -/
def inScope (scope : Scope) (e : Edge) : Bool :=
  scope.contains e.caller && scope.contains e.callee

end Edge

/-- Figures on how a graph was built. -/
structure GraphStats where
  /-- The number of nodes. -/
  totalMethods : Nat := 0
  /-- The number of distinct calls inside the scope. -/
  directEdges : Nat := 0
  /-- The number of further edges to implementations. -/
  fanOutEdges : Nat := 0
  /-- The number of calls with an end outside the scope. -/
  droppedEdges : Nat := 0
  /-- The number of nodes without callers. -/
  roots : Nat := 0
  maxInDegree : Nat := 0
  maxOutDegree : Nat := 0
deriving DecidableEq, Repr, Inhabited

/-- A call graph with both directions of its edges. -/
structure CallGraph where
  /-- The callees of each node. -/
  forward : SortedMap Signature (SortedSet Signature) := ∅
  /-- The callers of each node. -/
  reverse : SortedMap Signature (SortedSet Signature) := ∅
  /-- The figures of the build; later edges do not change them. -/
  stats : GraphStats := {}

namespace CallGraph

instance : EmptyCollection CallGraph := ⟨⟨∅, ∅, default⟩⟩

instance : Inhabited CallGraph := ⟨∅⟩

/-- The callees of a method; none for a method that is no node. -/
def callees (g : CallGraph) (m : Signature) : SortedSet Signature :=
  (g.forward.get? m).getD ∅

/-- The callers of a method; none for a method that is no node. -/
def callers (g : CallGraph) (m : Signature) : SortedSet Signature :=
  (g.reverse.get? m).getD ∅

/-- Whether a method is a node. -/
def contains (g : CallGraph) (m : Signature) : Bool :=
  g.forward.contains m

/-- The nodes in increasing order. -/
def nodes (g : CallGraph) : List Signature :=
  g.forward.keyList

/-- The number of callers. -/
def inDegree (g : CallGraph) (m : Signature) : Nat :=
  (g.callers m).size

/-- The number of callees. -/
def outDegree (g : CallGraph) (m : Signature) : Nat :=
  (g.callees m).size

/-- The nodes without callers, in increasing order. -/
def roots (g : CallGraph) : List Signature :=
  g.reverse.keyList.filter fun m => g.inDegree m = 0

/-- The number of edges. -/
def edgeCount (g : CallGraph) : Nat :=
  (g.forward.values.map SortedSet.size).foldl (· + ·) 0

/-- Whether there is an edge. -/
def hasEdge (g : CallGraph) (e : Edge) : Bool :=
  (g.callees e.caller).contains e.callee

/-- Adds a method to a map as a key, with an empty set if it is new. -/
def addKey (m : SortedMap Signature (SortedSet Signature)) (k : Signature) :
    SortedMap Signature (SortedSet Signature) :=
  m.insertIfNew k ∅

/-- Adds an edge and its ends. -/
def insertEdge (g : CallGraph) (e : Edge) : CallGraph :=
  { g with
    forward := (addKey g.forward e.callee).addTo e.caller e.callee
    reverse := (addKey g.reverse e.caller).addTo e.callee e.caller }

/-- Adds an edge and its ends, and says whether the edge is new. -/
def addEdge (g : CallGraph) (e : Edge) : Bool × CallGraph :=
  (!g.hasEdge e, g.insertEdge e)

/-- The implementations that a call of an interface method is expanded onto. -/
def selected (implementations : Implementations) (fanOut : FanOut) (m : Signature) :
    List Signature :=
  match fanOut with
  | .all => ((implementations.implementationsOf? m).getD ∅).toList
  | .firstOnly => (implementations.firstImplementation? m).toList

/-- The edges that a call adds: from the caller and from the callee to each selected
implementation of the callee. -/
def fanOutEdges (implementations : Implementations) (fanOut : FanOut) (e : Edge) : List Edge :=
  (selected implementations fanOut e.callee).flatMap fun m => [⟨e.caller, m⟩, ⟨e.callee, m⟩]

/-- The largest number of a list, zero for the empty list. -/
def maximum (l : List Nat) : Nat :=
  l.foldl max 0

/-- The graph of a list of calls.  Calls with an end outside the scope are dropped, and calls of
interface methods are expanded after all direct edges are in place. -/
def build (edges : List Edge) (implementations : Implementations) (scope : Scope)
    (fanOut : FanOut) : CallGraph :=
  let direct := SortedSet.ofList (edges.filter (·.inScope scope))
  let base : CallGraph := direct.toList.foldl insertEdge ∅
  let full := (direct.toList.flatMap (fanOutEdges implementations fanOut)).foldl insertEdge base
  { full with
    stats :=
      { totalMethods := full.nodes.length
        directEdges := base.edgeCount
        fanOutEdges := full.edgeCount - base.edgeCount
        droppedEdges := (edges.filter fun e => !e.inScope scope).length
        roots := full.roots.length
        maxInDegree := maximum (full.reverse.values.map SortedSet.size)
        maxOutDegree := maximum (full.forward.values.map SortedSet.size) } }

end CallGraph

end CallPaths
