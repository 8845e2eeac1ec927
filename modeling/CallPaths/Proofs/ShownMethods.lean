import CallPaths.Proofs.EntryTrees

/-!
# Queries stay inside the graph

Every method that a walk over a mirrored graph comes to is a node: those on chains and those of
entry trees, also where a visit limit cuts the query short.

## Key results

- `Exploration.forall_mem_tree`: what each step passes on holds of all entered nodes
- `Exploration.of_mem_branches_tree`: the steps along a branch
- `CallGraph.Mirrored.mem_nodes_of_mem_chains`, `CallGraph.Mirrored.mem_nodes_of_mem_entryTree`: the
  two queries
-/

namespace CallPaths

namespace Exploration

variable {x : Exploration} {nodes : List Signature}

/-- Fresh neighbours are neighbours. -/
private theorem mem_next_of_mem_fresh {seen : SortedSet Signature} {m c : Signature}
    {path : List Signature} (h : c ∈ x.fresh seen m path) : c ∈ x.next m :=
  (List.mem_filter.1 h).1

/-- Each gathered tree comes from one of the methods. -/
private theorem exists_of_mem_gather
    {f : Signature → SortedSet Signature → CallTree × SortedSet Signature}
    {cs : List Signature} {seen : SortedSet Signature} {t : CallTree}
    (h : t ∈ (gather f cs seen).1) : ∃ c ∈ cs, ∃ seen', t = (f c seen').1 := by
  induction cs generalizing seen with
  | nil => cases h
  | cons c cs ih =>
    rw [gather] at h
    rcases List.mem_cons.1 h with rfl | h
    · exact ⟨c, by simp, seen, rfl⟩
    · obtain ⟨c', hc', heq⟩ := ih h
      exact ⟨c', by simp [hc'], heq⟩

/-- What holds of the start of a walk and is passed on by each step holds of all nodes that the walk
enters. -/
theorem forall_mem_tree {P : Signature → Prop} (hstep : ∀ a, P a → ∀ b ∈ x.next a, P b)
    {depth : Nat} {m : Signature} {path : List Signature} {seen : SortedSet Signature} (hm : P m)
    {a : Signature} (ha : a ∈ (x.tree depth (m :: path) seen).1.preorder) : P a := by
  induction depth generalizing m path seen with
  | zero => simp [tree, CallTree.preorder, CallTree.preorderAll] at ha
  | succ depth ih =>
    cases hhalt : x.halts m with
    | true =>
      rw [tree_halts hhalt] at ha
      obtain rfl : a = m := by simpa [CallTree.preorder, CallTree.preorderAll] using ha
      exact hm
    | false =>
      rw [tree_goes hhalt, CallTree.preorder, CallTree.preorderAll_eq_flatMap,
        Option.toList_some, List.singleton_append, List.mem_cons] at ha
      rcases ha with rfl | ha
      · exact hm
      · obtain ⟨t, ht, ha⟩ := List.mem_flatMap.1 ha
        obtain ⟨c, hc, seen', rfl⟩ := exists_of_mem_gather ht
        exact ih (hstep m hm c (mem_next_of_mem_fresh hc)) ha

/-- A walk that starts at a node enters nodes only. -/
private theorem mem_nodes_of_mem_tree (hnext : ∀ a, ∀ b ∈ x.next a, b ∈ nodes) {depth : Nat}
    {m : Signature} {path : List Signature} {seen : SortedSet Signature} (hm : m ∈ nodes)
    {a : Signature} (ha : a ∈ (x.tree depth (m :: path) seen).1.preorder) : a ∈ nodes :=
  forall_mem_tree (fun a _ b hb => hnext a b hb) hm ha

/-- Wherever a method counts as visited, a branch starts where the walk does, goes from neighbour to
neighbour, and halts nowhere before its end. -/
theorem of_mem_branches_tree {depth : Nat} {m : Signature} {path p : List Signature}
    {seen : SortedSet Signature} (h : p ∈ (x.tree depth (m :: path) seen).1.branches) :
    p.head? = some m ∧ p.IsChain (fun a b => b ∈ x.next a) ∧
      ∀ a ∈ p.dropLast, x.halts a = false := by
  induction depth generalizing m path p seen with
  | zero => simp [tree] at h
  | succ depth ih =>
    cases hm : x.halts m with
    | true =>
      rw [tree_halts hm] at h
      obtain rfl : p = [m] := by simpa using h
      exact ⟨rfl, .singleton m, by simp⟩
    | false =>
      rw [tree_goes hm] at h
      by_cases hnil : x.fresh seen m path = []
      · rw [hnil] at h
        obtain rfl : p = [m] := by simpa [gather] using h
        exact ⟨rfl, .singleton m, by simp⟩
      · rw [CallTree.branches_inner (gather_ne_nil _ hnil _), List.mem_map] at h
        obtain ⟨q, hq, rfl⟩ := h
        obtain ⟨t, ht, hq⟩ := List.mem_flatMap.1 hq
        obtain ⟨c, hc, seen', rfl⟩ := exists_of_mem_gather ht
        obtain ⟨hhead, hchain, hgo⟩ := ih hq
        obtain ⟨q, rfl⟩ := List.head?_eq_some_iff.1 hhead
        refine ⟨rfl, List.isChain_cons_cons.2 ⟨mem_next_of_mem_fresh hc, hchain⟩, ?_⟩
        intro a ha
        rw [Option.toList_some, List.singleton_append,
          List.dropLast_cons_of_ne_nil (List.cons_ne_nil c q)] at ha
        rcases List.mem_cons.1 ha with rfl | ha
        · exact hm
        · exact hgo a ha

end Exploration

namespace CallGraph

open CallTree

/-- The methods of joined trees are those of the trees. -/
private theorem preorder_joinTrees (ts : List CallTree) :
    (joinTrees ts).preorder = ts.flatMap preorder := by
  have hroot : ∀ ts, (node none ts).preorder = ts.flatMap preorder := preorderAll_eq_flatMap
  match ts with
  | [] => exact hroot []
  | [t] => simp [joinTrees]
  | t :: t' :: ts => exact hroot _

variable {g : CallGraph} {target : Signature}

namespace Mirrored

/-- The methods on chains are nodes. -/
theorem mem_nodes_of_mem_chains (hg : g.Mirrored) {policy : Policy} {chain : List Signature}
    (h : chain ∈ (g.callerChains policy target).chains) {a : Signature} (ha : a ∈ chain) :
    a ∈ g.nodes := by
  cases hnode : g.contains target with
  | false =>
    rw [callerChains_of_not_contains hnode] at h
    cases h
  | true =>
    rw [callerChains_eq hnode] at h
    have hbranch : chain ∈ (g.chainTree policy.cycleScope target).branches := by
      have hlisted := branchesWithinAll_prefix_branchesAll
        [g.chainTree policy.cycleScope target]
        ((Budget.withinLimit_initial policy.visitLimit).spend 1)
      simp only [branchesWithinAll, branchesAll, List.append_nil] at hlisted
      exact hlisted.subset h
    exact Exploration.mem_nodes_of_mem_tree (fun _ _ hab => hg.mem_nodes_of_mem_callers hab)
      (mem_nodes.2 hnode) (mem_preorder_of_mem_branches hbranch ha)

/-- The methods of an entry tree are nodes. -/
theorem mem_nodes_of_mem_entryTree (hg : g.Mirrored) {names : List String} {policy : Policy}
    {a : Signature} (ha : a ∈ (g.entryTree names policy target).root.preorder) : a ∈ g.nodes := by
  cases hnode : g.contains target with
  | false =>
    rw [entryTree_of_not_contains hnode] at ha
    cases ha
  | true =>
    have hsearch := g.searched_search policy.cycleScope target (g.entries names)
      (Budget.withinLimit_initial policy.visitLimit) rfl
    rw [entryTree_eq hnode] at ha
    simp only [preorder_joinTrees, List.flatMap_map] at ha
    obtain ⟨f, hf, ha⟩ := List.mem_flatMap.1 ha
    -- the method is on a branch of what was found, and this is one of a forward walk
    obtain ⟨p, hp, hap⟩ := (hsearch.named f hf).exists_branch ha
    obtain ⟨m, hm, hbranch, -⟩ := exists_forwardTree_of_mem_found
      (hsearch.branches.subset (List.mem_flatMap.2 ⟨f, hf, hp⟩))
    exact Exploration.mem_nodes_of_mem_tree (fun _ _ hab => hg.mem_nodes_of_mem_callees hab) hm
      (mem_preorder_of_mem_branches hbranch hap)

end Mirrored

end CallGraph

end CallPaths
