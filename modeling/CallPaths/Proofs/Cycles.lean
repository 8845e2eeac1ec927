import CallPaths.Proofs.EntryPaths

/-!
# Walks and cycles

A method is an ancestor of another one if calls lead from it there, over any methods and as often as
one likes.  Nothing is asked of the target but its callers, so a target that is no node has no
ancestors, and a target is its own ancestor exactly if it lies on a cycle.  Cycles do not keep the
loop that finds ancestors from ending.

## Key results

- `CallGraph.exists_isWalk_iff`: walks and the closure of calls
- `CallGraph.exists_isCycle_iff`: the methods on cycles
- `CallGraph.ancestors_exact`: the ancestors of a method in every graph made edge by edge
-/

namespace CallPaths

namespace CallGraph

open Relation

variable {g : CallGraph} {target : Signature}

/-- A list of methods leads from one method to another by one or more calls; methods may be
repeated. -/
structure IsWalk (g : CallGraph) (a b : Signature) (p : List Signature) : Prop where
  calls : p.IsChain g.Calls
  starts : p.head? = some a
  ends : p.getLast? = some b
  called : 2 ≤ p.length

/-- A list of different methods, each of which calls the next one, and the last of which calls the
first one. -/
structure IsCycle (g : CallGraph) (p : List Signature) : Prop extends g.IsCallPath p where
  closes : ∃ a b, p.head? = some a ∧ p.getLast? = some b ∧ g.Calls b a

/-- Walks lead from a method to those that it reaches by one or more calls. -/
theorem exists_isWalk_iff {a b : Signature} :
    (∃ p, g.IsWalk a b p) ↔ TransGen g.Calls a b := by
  constructor
  · rintro ⟨p, hp⟩
    obtain ⟨q, rfl⟩ := List.head?_eq_some_iff.1 hp.starts
    cases q with
    | nil =>
      have hlen := hp.called
      simp at hlen
    | cons c q =>
      obtain ⟨hac, hcalls⟩ := List.isChain_cons_cons.1 hp.calls
      have hends := hp.ends
      rw [List.getLast?_cons_cons] at hends
      exact TransGen.head' hac (reflTransGen_of_isChain hcalls rfl hends)
  · intro h
    obtain ⟨c, hac, hcb⟩ := TransGen.head'_iff.1 h
    obtain ⟨p, hp, hstarts, hends⟩ := exists_isCallPath_iff.2 hcb
    obtain ⟨q, rfl⟩ := List.head?_eq_some_iff.1 hstarts
    refine ⟨a :: c :: q, List.isChain_cons_cons.2 ⟨hac, hp.calls⟩, rfl, ?_, by simp⟩
    rw [List.getLast?_cons_cons, hends]

/-- The methods on cycles are those that reach themselves by one or more calls. -/
theorem exists_isCycle_iff {a : Signature} :
    (∃ p, g.IsCycle p ∧ a ∈ p) ↔ TransGen g.Calls a a := by
  constructor
  · rintro ⟨p, hp, ha⟩
    obtain ⟨first, last, hfirst, hlast, hcall⟩ := hp.closes
    obtain ⟨before, after, rfl⟩ := List.append_of_mem ha
    -- from the method to the end of the list, then back to its start and on to the method
    have hend : ReflTransGen g.Calls a last := by
      refine reflTransGen_of_isChain hp.calls.right_of_append rfl ?_
      rwa [List.getLast?_append_of_ne_nil _ (List.cons_ne_nil a after)] at hlast
    have hstart : ReflTransGen g.Calls first a := by
      have hcalls : (before ++ [a]).IsChain g.Calls := by
        have hcalls := hp.calls
        rw [List.append_cons] at hcalls
        exact hcalls.left_of_append
      refine reflTransGen_of_isChain hcalls ?_ List.getLast?_concat
      cases before with
      | nil => exact hfirst
      | cons b before => exact hfirst
    exact (TransGen.tail' hend hcall).trans_left hstart
  · intro h
    obtain ⟨b, hab, hba⟩ := TransGen.tail'_iff.1 h
    obtain ⟨p, hp, hstarts, hends⟩ := exists_isCallPath_iff.2 hab
    exact ⟨p, ⟨hp, a, b, hstarts, hends, hba⟩, List.mem_of_head? hstarts⟩

/-- In every graph made edge by edge, the ancestors of a method are the methods with a walk to it.
The method is one of them exactly if it lies on a cycle, and it has none if it is no node.  The loop
that finds them ends by itself: no method is pending after more rounds than there are nodes, and
these methods were found. -/
theorem ancestors_exact (calls : List Edge) (target : Signature) :
    let g := ofCalls calls
    (∀ a, a ∈ g.ancestors target ↔ ∃ p, g.IsWalk a target p) ∧
      (target ∈ g.ancestors target ↔ ∃ p, g.IsCycle p ∧ target ∈ p) ∧
      (g.contains target = false → g.ancestors target = ∅) ∧
      ∀ rounds, g.nodes.length < rounds →
        let last := AncestorSearch.after g rounds (.start target)
        last.pending = [] ∧ last.found = g.ancestors target := by
  intro g
  have hg : g.Mirrored := mirrored_ofCalls calls
  refine ⟨fun a => ?_, ?_, fun htarget => ?_, fun rounds hrounds => ?_⟩
  · rw [hg.mem_ancestors_iff, exists_isWalk_iff]
  · rw [hg.mem_ancestors_iff, exists_isCycle_iff]
  · refine SortedSet.ext_mem fun a => iff_of_false (fun ha => ?_) (SortedSet.not_mem_empty a)
    -- the last call of a walk makes its callee a node
    obtain ⟨b, -, hb⟩ := TransGen.tail'_iff.1 (hg.mem_ancestors_iff.1 ha)
    have hnode := hg.contains_callee b target hb
    rw [htarget] at hnode
    cases hnode
  · obtain ⟨hover, hfound⟩ := hg.after_start target hrounds
    exact ⟨hover, SortedSet.ext_mem fun a => (hfound a).trans hg.mem_ancestors_iff.symm⟩

end CallGraph

end CallPaths
