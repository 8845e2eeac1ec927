import CallPaths.Proofs.ChainMethods
import Mathlib.Data.List.Nodup

/-!
# Walks that enter each method once

Where a method counts as visited in the whole walk, no method is entered twice.  A walk marks all
fresh neighbours of a node before it goes on from the first of them, so a method belongs to the
first path that comes next to it, and not to the path that would come to it first.  Whichever path
that is, the marks of a walk are exactly the methods of its tree and what was marked before
(`Exploration.Marks`), and the methods of the tree are all different.

In a tree with different methods a method fixes the way from the root to it.  So the branches of
such a tree agree up to every method that they share, and no two of them end alike.

## Key results

- `CallTree.Named.eq_of_mem_branches`: branches agree up to a common method
- `Exploration.marks_tree`: a walk marks the methods that it enters, each of them once
- `CallGraph.callerChains_spanning_tree`: the chains of a walk that enters each method once
-/

namespace CallPaths

/-! ### Trees with different methods -/

namespace CallTree

/-- The methods on a branch are methods of the tree, in the same order. -/
theorem sublist_preorder_of_mem_branches {t : CallTree} {p : List Signature}
    (h : p ∈ t.branches) : p.Sublist t.preorder := by
  induction t generalizing p with
  | node m cs ih =>
    rw [preorder, preorderAll_eq_flatMap]
    by_cases hcs : cs = []
    · subst hcs
      rw [branches_leaf, List.mem_map] at h
      obtain ⟨a, ha, rfl⟩ := h
      have hroot : [a].Sublist m.toList := List.singleton_sublist.2 ha
      exact hroot.trans (List.sublist_append_left _ _)
    · rw [branches_inner hcs, List.mem_map] at h
      obtain ⟨q, hq, rfl⟩ := h
      obtain ⟨t, ht, hq⟩ := List.mem_flatMap.1 hq
      have hchild : t.preorder.Sublist (cs.flatMap preorder) := by
        rw [List.flatMap_def]
        exact List.sublist_flatten_of_mem (List.mem_map_of_mem ht)
      exact ((ih t ht hq).trans hchild).append_left m.toList

/-- There is one method for each node of a named tree. -/
private theorem Named.length_preorder {t : CallTree} (h : t.Named) :
    t.preorder.length = 1 + t.descendants := by
  induction h with
  | node m cs hcs ih =>
    rw [preorder, preorderAll_eq_flatMap, List.length_append, length_flatMap_nodes ih, descendants]
    rfl

/-- A method of several trees with different methods belongs to one of them only. -/
private theorem eq_of_mem_preorder {ts : List CallTree} (h : (ts.flatMap preorder).Nodup)
    {t t' : CallTree}
    (ht : t ∈ ts) (ht' : t' ∈ ts) {a : Signature} (ha : a ∈ t.preorder) (ha' : a ∈ t'.preorder) :
    t = t' := by
  induction ts with
  | nil => cases ht
  | cons s ts ih =>
    rw [List.flatMap_cons, List.nodup_append] at h
    obtain ⟨-, hrest, hdisjoint⟩ := h
    have hapart : ∀ u ∈ ts, a ∈ s.preorder → a ∉ u.preorder := fun u hu has hau =>
      hdisjoint a has a (List.mem_flatMap.2 ⟨u, hu, hau⟩) rfl
    rcases List.mem_cons.1 ht with rfl | hts
    · rcases List.mem_cons.1 ht' with rfl | hts'
      · rfl
      · exact absurd ha' (hapart t' hts' ha)
    · rcases List.mem_cons.1 ht' with rfl | hts'
      · exact absurd ha (hapart t hts ha')
      · exact ih hrest hts hts'

namespace Named

/-- The branches of a tree with different methods agree up to a common method. -/
theorem eq_of_mem_branches {t : CallTree} (h : t.Named) (hnodup : t.preorder.Nodup)
    {a : Signature} {p₁ p₂ q₁ q₂ : List Signature} (hp : p₁ ++ a :: p₂ ∈ t.branches)
    (hq : q₁ ++ a :: q₂ ∈ t.branches) : p₁ = q₁ := by
  induction h generalizing p₁ q₁ with
  | node m cs hcs ih =>
    rw [preorder, Option.toList_some, List.singleton_append, preorderAll_eq_flatMap,
      List.nodup_cons] at hnodup
    obtain ⟨hroot, hbelow⟩ := hnodup
    by_cases hnil : cs = []
    · -- there is one branch, and it has one method
      subst hnil
      have hsingle : ∀ r₁ r₂, r₁ ++ a :: r₂ ∈ (CallTree.node (some m) []).branches → r₁ = [] := by
        intro r₁ r₂ hr
        rw [branches_leaf, Option.toList_some, List.map_singleton, List.mem_singleton] at hr
        cases r₁ with
        | nil => rfl
        | cons b r₁ => simp at hr
      rw [hsingle p₁ p₂ hp, hsingle q₁ q₂ hq]
    · -- a branch starts with the root, and then it is a branch of a child
      have hinner : ∀ r₁ r₂, r₁ ++ a :: r₂ ∈ (CallTree.node (some m) cs).branches →
          (r₁ = [] ∧ a = m) ∨
            ∃ r, r₁ = m :: r ∧ ∃ t ∈ cs, r ++ a :: r₂ ∈ t.branches ∧ a ∈ t.preorder := by
        intro r₁ r₂ hr
        rw [branches_inner hnil, Option.toList_some, List.mem_map] at hr
        obtain ⟨q, hq, heq⟩ := hr
        obtain ⟨t, ht, hqt⟩ := List.mem_flatMap.1 hq
        cases r₁ with
        | nil => exact .inl ⟨rfl, (List.cons.inj heq).1.symm⟩
        | cons b r =>
          obtain ⟨rfl, rfl⟩ := List.cons.inj heq
          exact .inr ⟨r, rfl, t, ht, hqt, mem_preorder_of_mem_branches hqt (by simp)⟩
      have hnot : ∀ t ∈ cs, m ∉ t.preorder := fun t ht hm =>
        hroot (List.mem_flatMap.2 ⟨t, ht, hm⟩)
      rcases hinner p₁ p₂ hp with ⟨rfl, ham⟩ | ⟨p, rfl, t, ht, hpt, hat⟩
      · rcases hinner q₁ q₂ hq with ⟨rfl, -⟩ | ⟨q, rfl, t', ht', -, hat'⟩
        · rfl
        · exact absurd (ham ▸ hat') (hnot t' ht')
      · rcases hinner q₁ q₂ hq with ⟨rfl, ham⟩ | ⟨q, rfl, t', ht', hqt', hat'⟩
        · exact absurd (ham ▸ hat) (hnot t ht)
        · -- both go on in the child that has the common method
          obtain rfl := eq_of_mem_preorder hbelow ht ht' hat hat'
          have hchild : t.preorder.Nodup := (List.nodup_flatMap.1 hbelow).1 t ht
          rw [ih t ht hchild hpt hqt']

/-- Branches of a tree with different methods that end alike are the same. -/
theorem eq_of_getLast?_eq {t : CallTree} (h : t.Named) (hnodup : t.preorder.Nodup)
    {p q : List Signature} (hp : p ∈ t.branches) (hq : q ∈ t.branches)
    (heq : p.getLast? = q.getLast?) : p = q := by
  obtain ⟨a, ha⟩ : ∃ a, p.getLast? = some a :=
    ⟨_, List.getLast?_eq_some_getLast (ne_nil_of_mem_branches hp)⟩
  obtain ⟨p₁, rfl⟩ := List.getLast?_eq_some_iff.1 ha
  obtain ⟨q₁, rfl⟩ := List.getLast?_eq_some_iff.1 (heq.symm.trans ha)
  rw [h.eq_of_mem_branches hnodup hp hq]

end Named

/-- The methods below the roots of several trees. -/
def belowAll (ts : List CallTree) : List Signature :=
  ts.flatMap fun t => preorderAll t.children

/-- The methods of several trees are those at their roots and those below. -/
private theorem preorderAll_perm (ts : List CallTree) :
    (preorderAll ts).Perm (ts.filterMap method ++ belowAll ts) := by
  induction ts with
  | nil => exact .refl _
  | cons t ts ih =>
    have hroot : (t :: ts).filterMap method = t.method.toList ++ ts.filterMap method := by
      cases hm : t.method with
      | none => rw [List.filterMap_cons_none hm, Option.toList_none, List.nil_append]
      | some m => rw [List.filterMap_cons_some hm, Option.toList_some, List.singleton_append]
    have hfirst : t.preorder = t.method.toList ++ preorderAll t.children := by
      cases t with
      | node m cs => rfl
    calc preorderAll (t :: ts)
        = t.method.toList ++ (preorderAll t.children ++ preorderAll ts) := by
          rw [preorderAll, hfirst, List.append_assoc]
      _ |>.Perm (t.method.toList ++
            (preorderAll t.children ++ (ts.filterMap method ++ belowAll ts))) :=
          (ih.append_left _).append_left _
      _ |>.Perm (t.method.toList ++
            (ts.filterMap method ++ (preorderAll t.children ++ belowAll ts))) :=
          List.Perm.append_left _ (by
            rw [← List.append_assoc, ← List.append_assoc]
            exact List.perm_append_comm.append_right _)
      _ = (t :: ts).filterMap method ++ belowAll (t :: ts) := by
          rw [hroot, belowAll, belowAll, List.flatMap_cons, List.append_assoc]

end CallTree

/-! ### Marks -/

namespace Exploration

open CallTree

variable {x : Exploration} {nodes : List Signature}

/-- A walk has marked some methods in addition: they are different, and none of them was marked
before. -/
structure Marks (seen : SortedSet Signature) (ms : List Signature) (seen' : SortedSet Signature) :
    Prop where
  nodup : ms.Nodup
  unmarked : ∀ a ∈ ms, a ∉ seen
  marked : ∀ a, a ∈ seen' ↔ a ∈ seen ∨ a ∈ ms

namespace Marks

variable {seen seen' seen'' : SortedSet Signature} {ms ms' : List Signature}

theorem nil (seen : SortedSet Signature) : Marks seen [] seen where
  nodup := .nil
  unmarked := by simp
  marked := by simp

theorem append (h : Marks seen ms seen') (h' : Marks seen' ms' seen'') :
    Marks seen (ms ++ ms') seen'' where
  nodup := by
    refine List.nodup_append.2 ⟨h.nodup, h'.nodup, fun a ha b hb hab => ?_⟩
    -- what the second part marks was not marked by the first one
    exact h'.unmarked b hb ((h.marked b).2 (.inr (hab ▸ ha)))
  unmarked a ha hseen := by
    rcases List.mem_append.1 ha with ha | ha
    · exact h.unmarked a ha hseen
    · exact h'.unmarked a ha ((h.marked a).2 (.inl hseen))
  marked a := by rw [h'.marked, h.marked, List.mem_append, or_assoc]

private theorem perm (h : Marks seen ms seen') (hperm : ms'.Perm ms) : Marks seen ms' seen' where
  nodup := hperm.nodup_iff.2 h.nodup
  unmarked a ha := h.unmarked a (hperm.mem_iff.1 ha)
  marked a := by rw [h.marked, hperm.mem_iff]

/-- Entering the fresh neighbours of a node marks them. -/
theorem enter (hx : x.scope = .global) (seen : SortedSet Signature) (m : Signature)
    (path : List Signature) :
    Marks seen (x.fresh seen m path) (x.enter seen (x.fresh seen m path)) where
  nodup := SortedSet.nodup_of_pairwise (pairwise_fresh seen m path)
  unmarked _ ha := ((mem_fresh_global hx).1 ha).2
  marked a := by rw [mem_enter_global hx, or_comm]

end Marks

/-- Explorations one after another mark the methods below their starts, if each of them does. -/
private theorem marks_gather {f : Signature → SortedSet Signature → CallTree × SortedSet Signature}
    (hf : ∀ c seen, ∀ a ∈ seen, a ∈ (f c seen).2) (cs : List Signature)
    (seen : SortedSet Signature)
    (h : ∀ c ∈ cs, ∀ seen', (∀ a ∈ seen, a ∈ seen') →
      Marks seen' (preorderAll (f c seen').1.children) (f c seen').2) :
    Marks seen (belowAll (gather f cs seen).1) (gather f cs seen).2 := by
  induction cs generalizing seen with
  | nil => exact .nil seen
  | cons c cs ih =>
    have hfirst := h c (by simp) seen fun _ ha => ha
    have hrest := ih (f c seen).2 fun c' hc' seen' hseen' =>
      h c' (by simp [hc']) seen' fun a ha => hseen' a (hf c seen a ha)
    exact hfirst.append hrest

/-- With room for all steps, a walk that enters each method once marks the methods below the root of
its tree. -/
theorem marks_tree (hx : x.scope = .global) (hnext : ∀ a, ∀ b ∈ x.next a, b ∈ nodes) {depth : Nat}
    {m : Signature} {path : List Signature} {seen : SortedSet Signature}
    (h : Room x nodes depth (m :: path) seen) :
    Marks seen (preorderAll (x.tree depth (m :: path) seen).1.children)
      (x.tree depth (m :: path) seen).2 := by
  induction depth generalizing m path seen with
  | zero => exact absurd h.depth_pos (Nat.lt_irrefl 0)
  | succ depth ih =>
    cases hm : x.halts m with
    | true =>
      rw [tree_halts hm]
      exact .nil seen
    | false =>
      have hmono : ∀ c seen, ∀ a ∈ seen, a ∈ (x.tree depth (c :: m :: path) seen).2 :=
        fun c _ _ ha => mem_tree_of_mem depth (c :: m :: path) ha
      have hroom : ∀ c ∈ x.fresh seen m path, ∀ seen',
          (∀ a ∈ x.enter seen (x.fresh seen m path), a ∈ seen') →
            Room x nodes depth (c :: m :: path) seen' :=
        fun c hc seen' hseen' => h.step hnext hc hseen'
      obtain ⟨-, hroots⟩ := ordered_gather hmono (x.fresh seen m path) _
        fun c hc seen' hseen' => ordered_tree hnext (hroom c hc seen' hseen')
      have hbelow := marks_gather hmono (x.fresh seen m path) _
        fun c hc seen' hseen' => ih (hroom c hc seen' hseen')
      rw [tree_goes hm]
      -- the neighbours are marked first, then what lies below them
      refine ((Marks.enter hx seen m path).append hbelow).perm ?_
      have hperm := preorderAll_perm (gather (fun c => x.tree depth (c :: m :: path))
        (x.fresh seen m path) (x.enter seen (x.fresh seen m path))).1
      rwa [hroots] at hperm

/-- Where a walk starts at a marked method, the methods of its tree are all different. -/
theorem nodup_preorder_tree (hx : x.scope = .global) (hnext : ∀ a, ∀ b ∈ x.next a, b ∈ nodes)
    {depth : Nat} {m : Signature} {path : List Signature} {seen : SortedSet Signature}
    (h : Room x nodes depth (m :: path) seen) :
    (x.tree depth (m :: path) seen).1.preorder.Nodup := by
  have hmarks := marks_tree hx hnext h
  obtain ⟨-, hroot⟩ := ordered_tree hnext h
  have hm : m ∈ seen := h.marked hx m (by simp)
  generalize (x.tree depth (m :: path) seen).1 = t at hmarks hroot ⊢
  cases t with
  | node m' cs =>
    obtain rfl : m' = some m := hroot
    rw [preorder, Option.toList_some, List.singleton_append, List.nodup_cons]
    exact ⟨fun hmem => hmarks.unmarked m hmem hm, hmarks.nodup⟩

end Exploration

/-! ### Caller chains -/

namespace CallGraph

open CallTree

/-- A tree with the target at its root that has the target and each of its ancestors at exactly one
node. -/
structure IsSpanningTree (g : CallGraph) (target : Signature) (t : CallTree) : Prop where
  starts : t.method = some target
  named : t.Named
  nodup : t.preorder.Nodup
  spans : ∀ a, a ∈ t.preorder ↔ a = target ∨ a ∈ g.ancestors target

namespace Mirrored

variable {g : CallGraph} {target : Signature}

/-- The tree of a backward walk that enters each method once spans the target and its ancestors. -/
private theorem isSpanningTree_chainTree (hg : g.Mirrored) (h : g.contains target) :
    g.IsSpanningTree target (g.chainTree .global target) := by
  have hnext : ∀ b, ∀ c ∈ (g.backwards .global).next b, c ∈ g.nodes :=
    fun _ _ hc => hg.mem_nodes_of_mem_callers hc
  have hroom := Exploration.Room.single (x := g.backwards .global) (mem_nodes.2 h)
  refine ⟨(Exploration.ordered_tree hnext hroom).2, (hg.ordered_chainTree .global h).named,
    Exploration.nodup_preorder_tree rfl hnext hroom, fun a => ?_⟩
  rw [hg.mem_preorder_chainTree_iff .global h, hg.eq_or_mem_ancestors_iff]

end Mirrored

/-- A spanning tree has as many nodes as there are methods to span. -/
private theorem IsSpanningTree.length_preorder {g : CallGraph} {target : Signature} {t : CallTree}
    (h : g.IsSpanningTree target t) :
    t.preorder.length = ((g.ancestors target).insert target).size := by
  have hset : ((g.ancestors target).insert target).toList.Nodup :=
    SortedSet.nodup_of_pairwise (SortedSet.sorted _)
  refine ((List.perm_ext_iff_of_nodup h.nodup hset).2 fun a => ?_).length_eq
  rw [h.spans, ← SortedSet.mem_def, SortedSet.mem_insert]

/-- Without a visit limit and where a method counts as visited in the whole walk, the chains of a
node are the branches of one tree that spans the node and its ancestors.  Each chain starts at the
node, goes from callee to caller and repeats no method.  Two chains with a method in common agree up
to it, no chain is listed twice, and no two end at the same method.  There are as many visits as
methods to span. -/
theorem callerChains_spanning_tree (calls : List Edge) (policy : Policy) (target : Signature)
    (hscope : policy.cycleScope = .global) (hlimit : policy.maxVisits = 0)
    (hnode : (ofCalls calls).contains target = true) :
    let g := ofCalls calls
    let run := g.callerChains policy target
    (∃ t, g.IsSpanningTree target t ∧ run.chains = t.branches) ∧
      (∀ p ∈ run.chains,
        p.head? = some target ∧ p.IsChain (fun a b => b ∈ g.callers a) ∧ p.Nodup) ∧
      (∀ a p₁ p₂ q₁ q₂, p₁ ++ a :: p₂ ∈ run.chains → q₁ ++ a :: q₂ ∈ run.chains → p₁ = q₁) ∧
      run.chains.Nodup ∧ (run.chains.map List.getLast?).Nodup ∧
      run.visits = ((g.ancestors target).insert target).size := by
  intro g run
  have hg : g.Mirrored := mirrored_ofCalls calls
  have hrun : run = _ := callerChains_of_unlimited hnode hlimit
  rw [hscope] at hrun
  have htree := hg.isSpanningTree_chainTree hnode
  have hdistinct := (hg.ordered_chainTree .global hnode).nodup_branches
  rw [hrun]
  refine ⟨⟨_, htree, rfl⟩, fun p hp => ?_, fun a p₁ p₂ q₁ q₂ hp hq => ?_, hdistinct, ?_, ?_⟩
  · obtain ⟨hhead, hchain, -⟩ := Exploration.of_mem_branches_tree hp
    exact ⟨hhead, hchain, htree.nodup.sublist (sublist_preorder_of_mem_branches hp)⟩
  · exact htree.named.eq_of_mem_branches htree.nodup hp hq
  · exact List.Nodup.map_on (fun p hp q hq => htree.named.eq_of_getLast?_eq htree.nodup hp hq)
      hdistinct
  · rw [chainEffort, ← htree.named.length_preorder, htree.length_preorder]

/-- The method `d` calls `a`, `b` and `c`.  It is marked together with `c` as a caller of `a`, so
the chain over `c` ends before it, although that chain is followed first. -/
theorem callerChains_spanning_tree_diamond :
    let sig := fun name => (⟨"p", "T", name, []⟩ : Signature)
    let calls : List Edge := [⟨sig "a", sig "t"⟩, ⟨sig "b", sig "t"⟩, ⟨sig "c", sig "a"⟩,
      ⟨sig "d", sig "a"⟩, ⟨sig "d", sig "b"⟩, ⟨sig "d", sig "c"⟩, ⟨sig "t", sig "d"⟩]
    let policy : Policy := { cycleScope := .global, maxVisits := 0 }
    let g := ofCalls calls
    let run := g.callerChains policy (sig "t")
    (policy.cycleScope = .global ∧ policy.maxVisits = 0 ∧ g.contains (sig "t") = true ∧
        run.chains = [[sig "t", sig "a", sig "c"], [sig "t", sig "a", sig "d"],
          [sig "t", sig "b"]]) ∧
      (∃ t, g.IsSpanningTree (sig "t") t ∧ run.chains = t.branches) ∧
      (∀ p ∈ run.chains,
        p.head? = some (sig "t") ∧ p.IsChain (fun a b => b ∈ g.callers a) ∧ p.Nodup) ∧
      (∀ a p₁ p₂ q₁ q₂, p₁ ++ a :: p₂ ∈ run.chains → q₁ ++ a :: q₂ ∈ run.chains → p₁ = q₁) ∧
      run.chains.Nodup ∧ (run.chains.map List.getLast?).Nodup ∧
      run.visits = ((g.ancestors (sig "t")).insert (sig "t")).size :=
  ⟨by decide, callerChains_spanning_tree _ _ _ rfl rfl (by decide)⟩

end CallGraph

end CallPaths
