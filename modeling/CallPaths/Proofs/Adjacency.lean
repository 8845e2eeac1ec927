import CallPaths.Graph.Basic
import CallPaths.Proofs.Sorted

/-!
# The two directions of a call graph

A call graph keeps callees and callers apart.  `Mirrored` says that both maps tell the same story:
they have the same keys, every neighbour is a key, and one map is the converse of the other.  Adding
an edge keeps this, so it holds of every graph that is made edge by edge and of every built one.

## Key results

- `CallGraph.mirrored_ofCalls`, `CallGraph.mirrored_build`: the maps of a graph are mirrored
- `CallGraph.contains_foldl_insertEdge`: the nodes are the ends of the added edges
-/

namespace CallPaths

namespace CallGraph

/-- The graph that a sequence of added edges gives. -/
def ofCalls (calls : List Edge) : CallGraph :=
  calls.foldl (fun g e => (g.addEdge e).2) ∅

/-- The two maps of a graph are the two directions of one relation on the same nodes. -/
structure Mirrored (g : CallGraph) : Prop where
  /-- Both maps have the same keys. -/
  contains_reverse : ∀ m, g.reverse.contains m ↔ g.contains m
  /-- The callers are those who call. -/
  mem_callers : ∀ a b, a ∈ g.callers b ↔ b ∈ g.callees a
  /-- A method that is called is a node. -/
  contains_callee : ∀ a b, b ∈ g.callees a → g.contains b

/-! ### Adding an edge -/

/-- The lookups after a member is added to the set at a key. -/
private theorem getD_addTo_addKey (m : SortedMap Signature (SortedSet Signature))
    (k k' a x : Signature) : (((addKey m k').addTo k a).get? x).getD ∅ =
      if x = k then ((m.get? x).getD ∅).insert a else (m.get? x).getD ∅ := by
  unfold SortedMap.addTo addKey
  rw [SortedMap.get?_alter, SortedMap.get?_insertIfNew, SortedMap.get?_insertIfNew]
  by_cases h : x = k
  · subst h
    by_cases h' : x = k'
    · simp [h']
    · simp [h']
  · rw [if_neg h, if_neg h]
    by_cases h' : x = k'
    · simp [h']
    · simp [h']

/-- The keys after a member is added to the set at a key. -/
private theorem contains_addTo_addKey (m : SortedMap Signature (SortedSet Signature))
    (k k' a x : Signature) :
    ((addKey m k').addTo k a).contains x ↔ x = k ∨ x = k' ∨ m.contains x := by
  rw [SortedMap.addTo, addKey, SortedMap.insertIfNew, SortedMap.contains_alter,
    SortedMap.contains_alter]

/-- An added edge gives its caller one more callee. -/
theorem mem_callees_insertEdge {g : CallGraph} {e : Edge} {a b : Signature} :
    b ∈ (g.insertEdge e).callees a ↔ (a = e.caller ∧ b = e.callee) ∨ b ∈ g.callees a := by
  simp only [callees, insertEdge, getD_addTo_addKey]
  by_cases h : a = e.caller
  · simp [h]
  · simp [h]

/-- An added edge gives its callee one more caller. -/
theorem mem_callers_insertEdge {g : CallGraph} {e : Edge} {a b : Signature} :
    a ∈ (g.insertEdge e).callers b ↔ (a = e.caller ∧ b = e.callee) ∨ a ∈ g.callers b := by
  simp only [callers, insertEdge, getD_addTo_addKey]
  by_cases h : b = e.callee
  · simp [h]
  · simp [h]

/-- An added edge makes its ends nodes. -/
private theorem contains_insertEdge {g : CallGraph} {e : Edge} {m : Signature} :
    (g.insertEdge e).contains m ↔ m = e.caller ∨ m = e.callee ∨ g.contains m :=
  contains_addTo_addKey ..

/-- An added edge makes its ends keys of the callers too. -/
private theorem contains_reverse_insertEdge {g : CallGraph} {e : Edge} {m : Signature} :
    (g.insertEdge e).reverse.contains m ↔ m = e.callee ∨ m = e.caller ∨ g.reverse.contains m :=
  contains_addTo_addKey ..

/-! ### Mirrored graphs -/

/-- A method that calls is a node. -/
theorem contains_of_mem_callees {g : CallGraph} {a b : Signature} (h : b ∈ g.callees a) :
    g.contains a := by
  unfold callees at h
  unfold contains SortedMap.contains
  cases hget : g.forward.get? a with
  | none => simp [hget] at h
  | some s => rfl

/-- The listed nodes are those that the graph contains. -/
theorem mem_nodes {g : CallGraph} {m : Signature} : m ∈ g.nodes ↔ g.contains m :=
  SortedMap.mem_keyList

namespace Mirrored

variable {g : CallGraph}

/-- The callers of a method are nodes. -/
theorem mem_nodes_of_mem_callers (h : g.Mirrored) {a b : Signature} (hab : a ∈ g.callers b) :
    a ∈ g.nodes :=
  mem_nodes.2 (contains_of_mem_callees ((h.mem_callers a b).1 hab))

/-- The callees of a method are nodes. -/
theorem mem_nodes_of_mem_callees (h : g.Mirrored) {a b : Signature} (hab : b ∈ g.callees a) :
    b ∈ g.nodes :=
  mem_nodes.2 (h.contains_callee a b hab)

/-- Adding an edge keeps the two maps mirrored. -/
theorem insertEdge (h : g.Mirrored) (e : Edge) : (g.insertEdge e).Mirrored where
  contains_reverse m := by
    rw [contains_reverse_insertEdge, contains_insertEdge, h.contains_reverse]
    constructor
    · rintro (hm | hm | hm) <;> simp [hm]
    · rintro (hm | hm | hm) <;> simp [hm]
  mem_callers a b := by
    rw [mem_callers_insertEdge, mem_callees_insertEdge, h.mem_callers]
  contains_callee a b hb := by
    rw [contains_insertEdge]
    rcases mem_callees_insertEdge.1 hb with ⟨-, hb⟩ | hb
    · exact .inr (.inl hb)
    · exact .inr (.inr (h.contains_callee a b hb))

/-- Adding edges one after another keeps the two maps mirrored. -/
private theorem foldl_insertEdge (h : g.Mirrored) (edges : List Edge) :
    (edges.foldl CallGraph.insertEdge g).Mirrored := by
  induction edges generalizing g with
  | nil => exact h
  | cons e edges ih => exact ih (h.insertEdge e)

end Mirrored

/-- The maps of the empty graph are mirrored. -/
theorem mirrored_empty : (∅ : CallGraph).Mirrored where
  contains_reverse _ := Iff.rfl
  mem_callers a b :=
    iff_of_false (SortedSet.not_mem_empty a) (SortedSet.not_mem_empty b)
  contains_callee _ b hb := absurd hb (SortedSet.not_mem_empty b)

/-- The maps of a graph made edge by edge are mirrored. -/
theorem mirrored_ofCalls (calls : List Edge) : (ofCalls calls).Mirrored :=
  mirrored_empty.foldl_insertEdge calls

/-- The maps of a built graph are mirrored. -/
theorem mirrored_build (edges : List Edge) (implementations : Implementations) (scope : Scope)
    (fanOut : FanOut) : (build edges implementations scope fanOut).Mirrored := by
  -- the figures of a build do not enter the statement, so only the two folds matter
  have h := (mirrored_empty.foldl_insertEdge
    (SortedSet.ofList (edges.filter (·.inScope scope))).toList).foldl_insertEdge
      ((SortedSet.ofList (edges.filter (·.inScope scope))).toList.flatMap
        (fanOutEdges implementations fanOut))
  exact ⟨h.contains_reverse, h.mem_callers, h.contains_callee⟩

/-- The nodes after adding edges are the old ones and the ends of these edges. -/
theorem contains_foldl_insertEdge {g : CallGraph} {edges : List Edge} {m : Signature} :
    (edges.foldl insertEdge g).contains m ↔
      g.contains m ∨ ∃ e ∈ edges, m = e.caller ∨ m = e.callee := by
  induction edges generalizing g with
  | nil => simp
  | cons e edges ih =>
    rw [List.foldl_cons, ih, contains_insertEdge]
    constructor
    · rintro ((h | h | h) | ⟨e', he', h⟩)
      · exact .inr ⟨e, by simp, .inl h⟩
      · exact .inr ⟨e, by simp, .inr h⟩
      · exact .inl h
      · exact .inr ⟨e', by simp [he'], h⟩
    · rintro (h | ⟨e', he', h⟩)
      · exact .inl (.inr (.inr h))
      · rcases List.mem_cons.1 he' with rfl | he'
        · exact .inl (h.elim .inl fun h => .inr (.inl h))
        · exact .inr ⟨e', he', h⟩

end CallGraph

end CallPaths
