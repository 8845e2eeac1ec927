import CallPaths.Proofs.BuiltGraphs
import CallPaths.Proofs.EdgeCounts
import Mathlib.Data.Set.Card

/-!
# The figures of a build

A build takes its figures at different moments: dropped calls while it reads the list, direct edges
after the first pass, everything else from the finished graph.  Each figure is nevertheless the size
of a set that can be told without the build.  Direct edges are the distinct calls inside the scope,
and edges to implementations are those of the finished graph that are no such calls, so an edge that
is both counts once, as a direct one.

## Key results

- `CallGraph.edgeCount_eq_ncard`: the edge count of a graph is the size of its set of edges
- `CallGraph.isMaximum_maximum`: the largest number of a list
- `CallGraph.build_figures_exact`: what the figures of a build count, and what does not change them
-/

namespace CallPaths

/-- A list without repetition has as many elements as there are members of it. -/
theorem ncard_mem_of_nodup {α : Type u} [DecidableEq α] {l : List α} (h : l.Nodup) :
    {a | a ∈ l}.ncard = l.length := by
  rw [← List.coe_toFinset, Set.ncard_coe_finset, List.toFinset_card_of_nodup h]

namespace CallGraph

variable {g : CallGraph}

/-- The edges of a graph. -/
def edgeSet (g : CallGraph) : Set Edge :=
  {e | e.callee ∈ g.callees e.caller}

/-! ### Edges -/

/-- The edges of a graph as a list. -/
private theorem edgeSet_eq (g : CallGraph) :
    g.edgeSet = {e | e ∈ g.forward.pairs.map fun p => (⟨p.1, p.2⟩ : Edge)} := by
  ext e
  simp only [edgeSet, Set.mem_ofPred_eq, List.mem_map, Prod.exists]
  constructor
  · intro he
    exact ⟨e.caller, e.callee, mem_pairs_forward.2 he, rfl⟩
  · rintro ⟨a, b, hpair, rfl⟩
    exact mem_pairs_forward.1 hpair

private theorem finite_edgeSet (g : CallGraph) : g.edgeSet.Finite := by
  rw [edgeSet_eq]
  exact List.finite_toSet _

/-- The edge count of a graph is the size of its set of edges. -/
theorem edgeCount_eq_ncard (g : CallGraph) : g.edgeCount = g.edgeSet.ncard := by
  have hinj : Function.Injective fun p : Signature × Signature => (⟨p.1, p.2⟩ : Edge) := by
    rintro ⟨a, b⟩ ⟨a', b'⟩ heq
    cases heq
    rfl
  have hnodup := (SortedMap.nodup_pairs g.forward).map hinj
  rw [edgeSet_eq, ncard_mem_of_nodup hnodup, List.length_map, edgeCount_eq]

/-! ### Nodes and roots -/

private theorem nodup_nodes (g : CallGraph) : g.nodes.Nodup :=
  SortedSet.nodup_of_pairwise (SortedMap.pairwise_keyList _)

/-- There are as many listed nodes as nodes. -/
private theorem length_nodes (g : CallGraph) : g.nodes.length = {m | g.contains m}.ncard := by
  have hset : {m | g.contains m} = {m | m ∈ g.nodes} := Set.ext fun _ => mem_nodes.symm
  rw [hset, ncard_mem_of_nodup g.nodup_nodes]

/-- There are as many listed roots as nodes without callers. -/
private theorem Mirrored.length_roots (hg : g.Mirrored) :
    g.roots.length = {m | g.contains m ∧ ∀ a, a ∉ g.callers m}.ncard := by
  have hdegree : ∀ m, g.inDegree m = 0 ↔ ∀ a, a ∉ g.callers m := by
    intro m
    rw [inDegree, SortedSet.size, List.length_eq_zero_iff, List.eq_nil_iff_forall_not_mem]
    rfl
  have hroots : g.roots = g.nodes.filter fun m => g.inDegree m = 0 := by
    rw [roots, hg.keyList_reverse]
  have hset : {m | g.contains m ∧ ∀ a, a ∉ g.callers m} = {m | m ∈ g.roots} := by
    ext m
    simp only [Set.mem_ofPred_eq, hroots, List.mem_filter, mem_nodes, decide_eq_true_iff, hdegree]
  rw [hset, ncard_mem_of_nodup]
  rw [hroots]
  exact g.nodup_nodes.filter _

/-! ### Largest degrees -/

/-- A number is the largest of the values of a function on a list, and zero if the list is empty. -/
def IsMaximum {α : Type u} (f : α → Nat) (l : List α) (n : Nat) : Prop :=
  (∀ a ∈ l, f a ≤ n) ∧ (l = [] → n = 0) ∧ (l ≠ [] → ∃ a ∈ l, f a = n)

/-- The largest number of a list is what its name says. -/
theorem isMaximum_maximum {α : Type u} (f : α → Nat) (l : List α) :
    IsMaximum f l (maximum (l.map f)) := by
  have hmax : maximum (l.map f) = (l.map f).max?.getD 0 := by
    rw [maximum, List.foldl_max, Nat.zero_max]
  rw [hmax]
  refine ⟨fun a ha => ?_, fun hnil => ?_, fun hne => ?_⟩
  · exact List.le_max?_getD_of_mem (List.mem_map_of_mem ha)
  · rw [hnil]
    rfl
  · cases hmaximum : (l.map f).max? with
    | none => simp [hne] at hmaximum
    | some n =>
      obtain ⟨a, ha, hfa⟩ := List.mem_map.1 (List.max?_mem hmaximum)
      exact ⟨a, ha, hfa⟩

/-! ### Figures -/

/-- The figures of a graph count what they are named for, where the graph is made of a list of calls
inside a scope. -/
structure Counts (edges : List Edge) (scope : Scope) (g : CallGraph) : Prop where
  /-- Direct edges are the distinct calls inside the scope. -/
  direct : g.stats.directEdges = {e | IsDirect edges scope e}.ncard
  /-- Edges to implementations are all others. -/
  fanOut : g.stats.fanOutEdges = (g.edgeSet \ {e | IsDirect edges scope e}).ncard
  /-- Every edge is one or the other. -/
  all : g.stats.directEdges + g.stats.fanOutEdges = g.edgeCount
  /-- Dropped calls are counted as often as they are listed. -/
  dropped : g.stats.droppedEdges =
    edges.countP fun e => !scope.contains e.caller || !scope.contains e.callee
  methods : g.stats.totalMethods = {m | g.contains m}.ncard
  /-- Roots are the nodes without callers. -/
  roots : g.stats.roots = {m | g.contains m ∧ ∀ a, a ∉ g.callers m}.ncard
  inDegree : IsMaximum g.inDegree g.nodes g.stats.maxInDegree
  outDegree : IsMaximum g.outDegree g.nodes g.stats.maxOutDegree

section Build

variable {edges : List Edge} {r : Implementations} {scope : Scope} {fanOut : FanOut}

/-- The graph after the first pass of a build. -/
private def directGraph (edges : List Edge) (scope : Scope) : CallGraph :=
  (SortedSet.ofList (edges.filter (·.inScope scope))).toList.foldl insertEdge ∅

/-- After the first pass the edges are the calls inside the scope. -/
private theorem edgeSet_directGraph :
    (directGraph edges scope).edgeSet = {e | IsDirect edges scope e} := by
  ext ⟨a, b⟩
  show b ∈ (directGraph edges scope).callees a ↔ IsDirect edges scope ⟨a, b⟩
  rw [directGraph, mem_callees_foldl_insertEdge, ← SortedSet.mem_def, SortedSet.mem_ofList,
    List.mem_filter, isDirect_iff]
  exact or_iff_right (SortedSet.not_mem_empty b)

/-- The second pass does not take edges away. -/
private theorem direct_subset_edgeSet (edges : List Edge) (r : Implementations) (scope : Scope)
    (fanOut : FanOut) :
    {e | IsDirect edges scope e} ⊆ (build edges r scope fanOut).edgeSet := by
  rintro ⟨a, b⟩ hdirect
  obtain ⟨he, hin⟩ := isDirect_iff.1 hdirect
  exact mem_callees_build.2 ⟨⟨a, b⟩, he, hin, .inl rfl⟩

/-- The figures of a build in terms of the graphs after the first pass and at the end. -/
private theorem stats_build (edges : List Edge) (r : Implementations) (scope : Scope)
    (fanOut : FanOut) :
    let g := build edges r scope fanOut
    g.stats =
      { totalMethods := g.nodes.length
        directEdges := (directGraph edges scope).edgeCount
        fanOutEdges := g.edgeCount - (directGraph edges scope).edgeCount
        droppedEdges := (edges.filter fun e => !e.inScope scope).length
        roots := g.roots.length
        maxInDegree := maximum (g.nodes.map g.inDegree)
        maxOutDegree := maximum (g.nodes.map g.outDegree) } := by
  intro g
  rw [map_outDegree_nodes, (mirrored_build edges r scope fanOut).map_inDegree_nodes]
  rfl

/-- The figures of a build count what they are named for. -/
private theorem counts_build (edges : List Edge) (r : Implementations) (scope : Scope)
    (fanOut : FanOut) : Counts edges scope (build edges r scope fanOut) := by
  have hsubset := direct_subset_edgeSet edges r scope fanOut
  have hfinite := finite_edgeSet (build edges r scope fanOut)
  have hdirect : (directGraph edges scope).edgeCount = {e | IsDirect edges scope e}.ncard := by
    rw [edgeCount_eq_ncard, edgeSet_directGraph]
  -- the second pass only adds, so the number that is subtracted is not the larger one
  have hle : (directGraph edges scope).edgeCount ≤ (build edges r scope fanOut).edgeCount := by
    rw [hdirect, edgeCount_eq_ncard]
    exact Set.ncard_le_ncard hsubset hfinite
  constructor
  case direct => rw [stats_build, hdirect]
  case fanOut =>
    rw [stats_build, Set.ncard_sdiff hsubset (hfinite.subset hsubset), hdirect,
      edgeCount_eq_ncard]
  case all =>
    rw [stats_build]
    show (directGraph edges scope).edgeCount + (_ - (directGraph edges scope).edgeCount) = _
    omega
  case dropped =>
    rw [stats_build, List.countP_eq_length_filter]
    simp only [Edge.inScope, Bool.not_and]
  case methods => rw [stats_build, length_nodes]
  case roots => rw [stats_build, (mirrored_build edges r scope fanOut).length_roots]
  case inDegree =>
    rw [stats_build]
    exact isMaximum_maximum _ _
  case outDegree =>
    rw [stats_build]
    exact isMaximum_maximum _ _

/-- A call inside the scope that is listed once more, at any place, changes nothing. -/
private theorem build_repeat {before after : List Edge} {e : Edge}
    (h : IsDirect (before ++ after) scope e) :
    build (before ++ e :: after) r scope fanOut = build (before ++ after) r scope fanOut := by
  obtain ⟨he, hin⟩ := isDirect_iff.1 h
  refine build_congr (fun e' _ => ?_) ?_ r fanOut
  · rw [List.mem_append, List.mem_cons, List.mem_append]
    constructor
    · rintro (h | rfl | h)
      · exact .inl h
      · exact List.mem_append.1 he
      · exact .inr h
    · rintro (h | h)
      · exact .inl h
      · exact .inr (.inr h)
  · simp [hin]

end Build

/-- The figures of a build count what they are named for, whatever the calls, the implementations,
the scope and the policy are.  Neither the order of the calls nor a further copy of a call inside
the scope changes the graph or a figure. -/
theorem build_figures_exact (edges : List Edge) (r : Implementations) (scope : Scope)
    (fanOut : FanOut) :
    let g := build edges r scope fanOut
    Counts edges scope g ∧
      (∀ edges', edges.Perm edges' → build edges' r scope fanOut = g) ∧
      ∀ before after e, edges = before ++ after → IsDirect edges scope e →
        build (before ++ e :: after) r scope fanOut = g := by
  intro g
  refine ⟨counts_build edges r scope fanOut, fun edges' h => (build_perm h r scope fanOut).symm, ?_⟩
  rintro before after e rfl hdirect
  exact build_repeat hdirect

end CallGraph

end CallPaths
