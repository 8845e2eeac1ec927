import CallPaths.Proofs.Adjacency
import Mathlib.Algebra.GroupWithZero.Nat
import Mathlib.Data.List.Nodup
import Mathlib.Data.Prod.Basic

/-!
# Counting edges

A call graph counts its edges by the sizes of its sets of callees.  The pairs of a key and a member
of its set are listed once each (`SortedMap.nodup_pairs`), and since the two maps of a graph are
mirrored, the pairs of one map are those of the other one turned around.  So out-degrees, in-degrees
and edges have the same number, and an added edge counts exactly if it is new.

The graphs that a program can come to are the `Constructed` ones: the empty graph and built graphs,
with any edges added later.

## Key results

- `CallGraph.sum_outDegree`, `CallGraph.Mirrored.sum_inDegree`: degrees and edges
- `CallGraph.edgeCount_insertEdge`: when an added edge counts
- `CallGraph.constructed_consistent`: what holds of all graphs that a program can come to
-/

namespace CallPaths

namespace SortedMap

/-- The pairs of a key and a member of its set. -/
def pairs (m : SortedMap Signature (SortedSet Signature)) : List (Signature × Signature) :=
  m.entries.flatMap fun e => e.2.toList.map fun a => (e.1, a)

variable {m : SortedMap Signature (SortedSet Signature)}

/-- The second parts of the pairs of a key are the members of its set. -/
private theorem mem_pairs {k a : Signature} : (k, a) ∈ m.pairs ↔ a ∈ (m.get? k).getD ∅ := by
  simp only [pairs, List.mem_flatMap, List.mem_map, Prod.mk.injEq]
  constructor
  · rintro ⟨⟨k', s⟩, hentry, a', ha', rfl, rfl⟩
    rw [get?_eq_some_iff.2 hentry]
    exact ha'
  · intro ha
    cases hget : m.get? k with
    | none =>
      rw [hget] at ha
      exact absurd ha (SortedSet.not_mem_empty a)
    | some s =>
      rw [hget] at ha
      exact ⟨(k, s), get?_eq_some_iff.1 hget, a, ha, rfl, rfl⟩

/-- No pair is listed twice. -/
theorem nodup_pairs (m : SortedMap Signature (SortedSet Signature)) : m.pairs.Nodup := by
  refine List.nodup_flatMap.2 ⟨fun e _ => ?_, ?_⟩
  · exact (SortedSet.nodup_of_pairwise e.2.sorted).map fun _ _ heq => (Prod.mk.inj heq).2
  · -- pairs of different entries have different keys
    refine m.sorted.imp fun {e e'} hbefore p hp hp' => ?_
    obtain ⟨a, -, rfl⟩ := List.mem_map.1 hp
    obtain ⟨a', -, heq⟩ := List.mem_map.1 hp'
    rw [(Prod.mk.inj heq).1] at hbefore
    exact Before.irrefl e.1 hbefore

/-- There are as many pairs as members in all sets together. -/
private theorem length_pairs (m : SortedMap Signature (SortedSet Signature)) :
    m.pairs.length = (m.values.map SortedSet.size).sum := by
  simp only [pairs, values, List.length_flatMap, List.length_map, List.map_map]
  rfl

/-- The sizes of the sets of all keys are those of all values. -/
private theorem map_size_keyList (m : SortedMap Signature (SortedSet Signature)) :
    m.keyList.map (fun k => ((m.get? k).getD ∅).size) = m.values.map SortedSet.size := by
  simp only [keyList, values, List.map_map]
  refine List.map_congr_left fun e he => ?_
  simp only [Function.comp_apply]
  rw [get?_eq_some_iff.2 he, Option.getD_some]

end SortedMap

namespace CallGraph

variable {g : CallGraph}

/-- There are as many edges as pairs of a caller and a callee. -/
theorem edgeCount_eq (g : CallGraph) : g.edgeCount = g.forward.pairs.length := by
  rw [edgeCount, SortedMap.length_pairs, List.sum_eq_foldl]

/-- The pairs of the map of callees are the edges. -/
theorem mem_pairs_forward {a b : Signature} : (a, b) ∈ g.forward.pairs ↔ b ∈ g.callees a :=
  SortedMap.mem_pairs

/-- The pairs of the map of callers are the edges turned around. -/
private theorem mem_pairs_reverse {a b : Signature} : (b, a) ∈ g.reverse.pairs ↔ a ∈ g.callers b :=
  SortedMap.mem_pairs

/-- Whether there is an edge, in terms of callees. -/
private theorem hasEdge_iff {e : Edge} : g.hasEdge e = true ↔ e.callee ∈ g.callees e.caller :=
  SortedSet.contains_iff

/-- The out-degrees of all nodes are the sizes of the sets of callees. -/
theorem map_outDegree_nodes (g : CallGraph) :
    g.nodes.map g.outDegree = g.forward.values.map SortedSet.size :=
  SortedMap.map_size_keyList g.forward

/-- The out-degrees of all nodes add up to the number of edges. -/
theorem sum_outDegree (g : CallGraph) : (g.nodes.map g.outDegree).sum = g.edgeCount := by
  rw [map_outDegree_nodes, edgeCount_eq, SortedMap.length_pairs]

namespace Mirrored

/-- Both maps list the same keys. -/
theorem keyList_reverse (hg : g.Mirrored) : g.reverse.keyList = g.nodes := by
  refine SortedSet.eq_of_pairwise (SortedMap.pairwise_keyList _) (SortedMap.pairwise_keyList _) ?_
  intro m
  rw [SortedMap.mem_keyList, hg.contains_reverse]
  exact mem_nodes.symm

/-- The pairs of the two maps are the same, turned around. -/
private theorem perm_pairs (hg : g.Mirrored) :
    (g.reverse.pairs.map Prod.swap).Perm g.forward.pairs := by
  have hnodup : (g.reverse.pairs.map Prod.swap).Nodup :=
    (SortedMap.nodup_pairs g.reverse).map Prod.swap_injective
  refine (List.perm_ext_iff_of_nodup hnodup (SortedMap.nodup_pairs g.forward)).2 ?_
  rintro ⟨a, b⟩
  rw [mem_pairs_forward, ← hg.mem_callers, ← mem_pairs_reverse, List.mem_map]
  constructor
  · rintro ⟨⟨b', a'⟩, hpair, heq⟩
    cases heq
    exact hpair
  · exact fun hpair => ⟨(b, a), hpair, rfl⟩

/-- The in-degrees of all nodes are the sizes of the sets of callers. -/
theorem map_inDegree_nodes (hg : g.Mirrored) :
    g.nodes.map g.inDegree = g.reverse.values.map SortedSet.size := by
  rw [← hg.keyList_reverse]
  exact SortedMap.map_size_keyList g.reverse

/-- The in-degrees of all nodes add up to the number of edges. -/
theorem sum_inDegree (hg : g.Mirrored) : (g.nodes.map g.inDegree).sum = g.edgeCount := by
  rw [hg.map_inDegree_nodes, edgeCount_eq, ← SortedMap.length_pairs, ← hg.perm_pairs.length_eq,
    List.length_map]

end Mirrored

/-- An added edge counts exactly if it is new. -/
theorem edgeCount_insertEdge (g : CallGraph) (e : Edge) :
    (g.insertEdge e).edgeCount = g.edgeCount + if g.hasEdge e then 0 else 1 := by
  rw [edgeCount_eq, edgeCount_eq]
  have hnodup := SortedMap.nodup_pairs (g.insertEdge e).forward
  by_cases h : g.hasEdge e = true
  · -- the edge is there already, so the pairs stay the same
    rw [if_pos h, Nat.add_zero]
    refine ((List.perm_ext_iff_of_nodup hnodup (SortedMap.nodup_pairs _)).2 ?_).length_eq
    rintro ⟨a, b⟩
    rw [mem_pairs_forward, mem_pairs_forward, mem_callees_insertEdge]
    refine or_iff_right_of_imp ?_
    rintro ⟨rfl, rfl⟩
    exact hasEdge_iff.1 h
  · -- the edge is new, so there is one pair more
    have hnew : (e.caller, e.callee) ∉ g.forward.pairs := by
      rwa [mem_pairs_forward, ← hasEdge_iff]
    rw [if_neg h, ← List.length_cons]
    refine ((List.perm_ext_iff_of_nodup hnodup
      (List.nodup_cons.2 ⟨hnew, SortedMap.nodup_pairs _⟩)).2 ?_).length_eq
    rintro ⟨a, b⟩
    rw [mem_pairs_forward, mem_callees_insertEdge, List.mem_cons, mem_pairs_forward,
      Prod.mk.injEq]

/-! ### Constructed graphs -/

/-- The graphs that a program can come to: the empty graph and built graphs, with edges added one
after another. -/
inductive Constructed : CallGraph → Prop
  | empty : Constructed ∅
  | build (edges : List Edge) (implementations : Implementations) (scope : Scope)
      (fanOut : FanOut) : Constructed (build edges implementations scope fanOut)
  | addEdge {g : CallGraph} (constructed : Constructed g) (e : Edge) :
      Constructed (g.addEdge e).2

/-- The maps of a constructed graph are mirrored. -/
private theorem Constructed.mirrored (h : g.Constructed) : g.Mirrored := by
  induction h with
  | empty => exact mirrored_empty
  | build edges implementations scope fanOut =>
    exact mirrored_build edges implementations scope fanOut
  | addEdge _ e ih => exact ih.insertEdge e

/-- The two maps of a graph agree, and degrees count its edges. -/
structure Consistent (g : CallGraph) : Prop where
  /-- Both maps have the same keys. -/
  same_keys : g.forward.keyList = g.reverse.keyList
  /-- Every member of a set is a key. -/
  mem_keys : ∀ k s, g.forward.get? k = some s ∨ g.reverse.get? k = some s →
    ∀ a ∈ s, a ∈ g.forward.keyList
  /-- One relation is the converse of the other. -/
  converse : ∀ a b, b ∈ g.callees a ↔ a ∈ g.callers b
  out_degrees : (g.nodes.map g.outDegree).sum = g.edgeCount
  in_degrees : (g.nodes.map g.inDegree).sum = g.edgeCount

/-- The result of adding an edge to a graph: both relations have its own pair and what they had
before, and the edge is reported as new, and counted, exactly if it was absent. -/
structure AddsPair (g : CallGraph) (e : Edge) (result : Bool × CallGraph) : Prop where
  callees : ∀ a b, b ∈ result.2.callees a ↔ (a = e.caller ∧ b = e.callee) ∨ b ∈ g.callees a
  callers : ∀ a b, a ∈ result.2.callers b ↔ (a = e.caller ∧ b = e.callee) ∨ a ∈ g.callers b
  reported : result.1 = true ↔ e.callee ∉ g.callees e.caller
  counted : result.2.edgeCount = g.edgeCount + if result.1 then 1 else 0

/-- Mirrored maps agree in all that degrees and counts show. -/
private theorem Mirrored.consistent (hg : g.Mirrored) : g.Consistent where
  same_keys := hg.keyList_reverse.symm
  mem_keys k s hs a ha := by
    rcases hs with hs | hs
    · exact hg.mem_nodes_of_mem_callees (a := k) (by rwa [callees, hs])
    · exact hg.mem_nodes_of_mem_callers (b := k) (by rwa [callers, hs])
  converse a b := (hg.mem_callers a b).symm
  out_degrees := sum_outDegree g
  in_degrees := hg.sum_inDegree

/-- Adding an edge adds its own pair. -/
private theorem addsPair_addEdge (g : CallGraph) (e : Edge) : g.AddsPair e (g.addEdge e) where
  callees _ _ := mem_callees_insertEdge
  callers _ _ := mem_callers_insertEdge
  reported := by rw [← hasEdge_iff, addEdge, Bool.not_eq_true', Bool.not_eq_true]
  counted := by
    rw [addEdge, edgeCount_insertEdge]
    cases g.hasEdge e <;> rfl

/-- Every graph that a program can come to is consistent, and an edge that is added to it adds
exactly its own pair. -/
theorem constructed_consistent (g : CallGraph) (h : g.Constructed) :
    g.Consistent ∧ ∀ e, g.AddsPair e (g.addEdge e) :=
  ⟨h.mirrored.consistent, addsPair_addEdge g⟩

/-- A call of an interface method that is expanded onto its implementation, and then a method that
calls itself: added a first time it is new, and a second time it is not. -/
theorem constructed_consistent_self_call :
    let sig := fun owner name => (⟨"p", owner, name, []⟩ : Signature)
    let call : Edge := ⟨sig "App" "main", sig "Api" "run"⟩
    let loop : Edge := ⟨sig "Impl" "run", sig "Impl" "run"⟩
    let relation := (∅ : Implementations).insert (sig "Api" "run") (sig "Impl" "run")
    let built := build [call, call] relation ⟨"p"⟩ .all
    let g := (built.addEdge loop).2
    (g.Constructed ∧ built.edgeCount = 3 ∧ g.edgeCount = 4 ∧ (built.addEdge loop).1 = true ∧
        (g.addEdge loop).1 = false) ∧
      g.Consistent ∧ ∀ e, g.AddsPair e (g.addEdge e) := by
  intro sig call loop relation built g
  have hg : g.Constructed := (Constructed.build _ _ _ _).addEdge loop
  exact ⟨⟨hg, by decide +zetaReduce⟩, constructed_consistent g hg⟩

end CallGraph

end CallPaths
