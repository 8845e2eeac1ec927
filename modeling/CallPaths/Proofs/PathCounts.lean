import CallPaths.Proofs.BuildFigures
import CallPaths.Proofs.EntryPaths
import CallPaths.Proofs.PendingPaths
import Mathlib.Algebra.GroupWithZero.Nat

/-!
# The number of visits where only the path counts

A walk that forgets what it entered on other paths enters a method once for every path on which it
comes there.  So the nodes of the tree of such a walk are in one-to-one correspondence with the
paths without repetition from its start (`Exploration.mem_paths_tree`), and the number of visits is
the number of these paths.  Both the walk that lists chains and the search for entry points are
counted like this, and the loops that make them are over after as many rounds.

## Key results

- `CallTree.length_paths`, `CallTree.Ordered.nodup_paths`: one path for each node
- `Exploration.mem_paths_tree`: the paths to the nodes of a tree
- `CallGraph.Tried.found_effort_eq`: a search and its visits, method by method
- `CallGraph.visits_exact`: what loops without a visit limit end with, and when
-/

namespace CallPaths

namespace CallTree

mutual

/-- The methods from the root to each node, in preorder. -/
def paths : CallTree → List (List Signature)
  | node m cs => m.toList :: (pathsAll cs).map (m.toList ++ ·)

/-- The methods from the roots of several trees to each of their nodes. -/
def pathsAll : List CallTree → List (List Signature)
  | [] => []
  | t :: ts => paths t ++ pathsAll ts

end

/-- The paths of several trees, one tree after another. -/
private theorem pathsAll_eq_flatMap (ts : List CallTree) : pathsAll ts = ts.flatMap paths := by
  induction ts with
  | nil => rfl
  | cons t ts ih => rw [pathsAll, ih, List.flatMap_cons]

/-- There is one path for each node. -/
theorem length_paths (t : CallTree) : t.paths.length = 1 + t.descendants := by
  induction t with
  | node m cs ih =>
    rw [paths, pathsAll_eq_flatMap, List.length_cons, List.length_map, length_flatMap_nodes ih,
      descendants, Nat.add_comm]

namespace Ordered

/-- The paths of an ordered tree start with the method at its root. -/
private theorem head_of_mem_paths {t : CallTree} (h : t.Ordered) {p : List Signature}
    (hp : p ∈ t.paths) : p.head? = t.method := by
  cases h with
  | node m cs _ _ =>
    rw [paths, List.mem_cons, List.mem_map] at hp
    rcases hp with rfl | ⟨q, -, rfl⟩ <;> rfl

/-- The paths of an ordered tree are listed in increasing lexicographic order. -/
private theorem pairwise_lex_paths {t : CallTree} (h : t.Ordered) :
    t.paths.Pairwise (List.Lex Before) := by
  induction h with
  | node m cs hinc hord ih =>
    rw [paths, pathsAll_eq_flatMap, List.pairwise_cons]
    constructor
    · -- every other path goes on where the path to the root ends
      intro p hp
      obtain ⟨q, hq, rfl⟩ := List.mem_map.1 hp
      obtain ⟨t, ht, hq⟩ := List.mem_flatMap.1 hq
      obtain ⟨c, hc⟩ := (hord t ht).exists_method
      obtain ⟨q, rfl⟩ := List.head?_eq_some_iff.1 (((hord t ht).head_of_mem_paths hq).trans hc)
      exact .cons .nil
    · exact List.Pairwise.map _ (fun p q hpq => .cons hpq)
        (pairwise_lex_flatMap hord (fun t ht p hp => (hord t ht).head_of_mem_paths hp) hinc ih)

/-- No path of an ordered tree is listed twice. -/
theorem nodup_paths {t : CallTree} (h : t.Ordered) : t.paths.Nodup :=
  nodup_of_pairwise_lex h.pairwise_lex_paths

/-- There are as many paths as nodes. -/
private theorem ncard_paths {t : CallTree} (h : t.Ordered) :
    {p | p ∈ t.paths}.ncard = 1 + t.descendants := by
  rw [ncard_mem_of_nodup h.nodup_paths, length_paths]

end Ordered

end CallTree

namespace Exploration

open CallTree

variable {x : Exploration} {nodes : List Signature}

/-- Where only the path counts, the nodes of the tree of an exploration are the ends of the paths
without repetition from its start. -/
theorem mem_paths_tree (hx : x.scope = .pathLocal) (hnext : ∀ a, ∀ b ∈ x.next a, b ∈ nodes)
    {depth : Nat} {m : Signature} {path p : List Signature} {seen : SortedSet Signature}
    (h : Room x nodes depth (m :: path) seen) :
    p ∈ (x.tree depth (m :: path) seen).1.paths ↔ p.head? = some m ∧ x.IsPath path p := by
  induction depth generalizing m path p with
  | zero => exact absurd h.depth_pos (Nat.lt_irrefl 0)
  | succ depth ih =>
    have hmpath : m ∉ path := (List.nodup_cons.1 h.nodup).1
    cases hm : x.halts m with
    | true =>
      -- the walk halts here, and so does every path
      rw [tree_halts hm, paths, pathsAll, List.map_nil, List.mem_singleton]
      constructor
      · rintro rfl
        exact ⟨rfl, isPath_singleton hmpath⟩
      · rintro ⟨hhead, hp⟩
        obtain ⟨q, rfl⟩ := List.head?_eq_some_iff.1 hhead
        cases q with
        | nil => rfl
        | cons c q =>
          have hgoes := ((isPath_cons_cons hmpath).1 hp).1
          simp [hm] at hgoes
    | false =>
      rw [tree_goes hm, enter_pathLocal hx, gather_pathLocal hx, paths, pathsAll_eq_flatMap,
        List.mem_cons, List.mem_map]
      have hstep : ∀ c ∈ x.fresh seen m path, ∀ q,
          q ∈ (x.tree depth (c :: m :: path) seen).1.paths ↔
            q.head? = some c ∧ x.IsPath (m :: path) q := fun c hc q =>
        ih (h.step hnext hc fun a ha => by rwa [enter_pathLocal hx] at ha)
      -- a path ends here or goes on through a fresh neighbour
      constructor
      · rintro (rfl | ⟨q, hq, rfl⟩)
        · exact ⟨rfl, isPath_singleton hmpath⟩
        · obtain ⟨t, ht, hq⟩ := List.mem_flatMap.1 hq
          obtain ⟨c, hc, rfl⟩ := List.mem_map.1 ht
          obtain ⟨hhead, hpath⟩ := (hstep c hc q).1 hq
          obtain ⟨q, rfl⟩ := List.head?_eq_some_iff.1 hhead
          obtain ⟨hcn, hcm⟩ := (mem_fresh_pathLocal hx).1 hc
          exact ⟨rfl, (isPath_cons_cons hmpath).2 ⟨hm, hcn, hcm, hpath⟩⟩
      · rintro ⟨hhead, hp⟩
        obtain ⟨q, rfl⟩ := List.head?_eq_some_iff.1 hhead
        cases q with
        | nil => exact .inl rfl
        | cons c q =>
          obtain ⟨-, hcn, hcm, hpath⟩ := (isPath_cons_cons hmpath).1 hp
          have hc : c ∈ x.fresh seen m path := (mem_fresh_pathLocal hx).2 ⟨hcn, hcm⟩
          refine .inr ⟨c :: q, ?_, rfl⟩
          exact List.mem_flatMap.2 ⟨_, List.mem_map_of_mem hc, (hstep c hc _).2 ⟨rfl, hpath⟩⟩

end Exploration

namespace CallGraph

open CallTree Relation

variable {g : CallGraph} {target : Signature}

/-! ### Paths from a method -/

/-- The paths without repetition from a method back along calls; the method alone is one of them. -/
def callerPaths (g : CallGraph) (target : Signature) : Set (List Signature) :=
  {p | p.head? = some target ∧ p.IsChain (fun a b => b ∈ g.callers a) ∧ p.Nodup}

/-- The call paths without repetition from a method on which the target comes, if at all, in the
last place. -/
def calleePaths (g : CallGraph) (target entry : Signature) : Set (List Signature) :=
  {p | p.head? = some entry ∧ g.IsCallPath p ∧ target ∉ p.dropLast}

namespace Mirrored

/-- The paths back from a node are those to the nodes of its tree of callers. -/
private theorem callerPaths_eq (hg : g.Mirrored) (h : g.contains target) :
    g.callerPaths target = {p | p ∈ (g.chainTree .pathLocal target).paths} := by
  ext p
  have hmem := Exploration.mem_paths_tree (x := g.backwards .pathLocal) (p := p) rfl
    (fun _ _ hab => hg.mem_nodes_of_mem_callers hab) (Exploration.Room.single (mem_nodes.2 h))
  rw [Set.mem_ofPred_eq, chainTree, hmem]
  refine and_congr_right fun _ => ?_
  constructor
  · rintro ⟨hchain, hnodup⟩
    exact ⟨hchain, hnodup, by simp, fun _ _ => rfl⟩
  · intro hp
    exact ⟨hp.steps, hp.nodup⟩

/-- The call paths from a node are those to the nodes of the tree of its forward walk. -/
private theorem calleePaths_eq (hg : g.Mirrored) {m : Signature} (hm : m ∈ g.nodes) :
    g.calleePaths target m = {p | p ∈ (g.forwardTree .pathLocal target m).paths} := by
  ext p
  have hmem := Exploration.mem_paths_tree (x := g.forwards .pathLocal target) (p := p) rfl
    (fun _ _ hab => hg.mem_nodes_of_mem_callees hab) (Exploration.Room.single hm)
  -- the walk halts at the target and nowhere else
  have hgoes : target ∉ p.dropLast ↔
      ∀ a ∈ p.dropLast, (g.forwards .pathLocal target).halts a = false := by
    simp only [forwards, decide_eq_false_iff_not]
    exact ⟨fun h a ha heq => h (heq ▸ ha), fun h hmem => h target hmem rfl⟩
  rw [Set.mem_ofPred_eq, forwardTree, hmem]
  refine and_congr_right fun _ => ?_
  constructor
  · rintro ⟨hpath, hlast⟩
    exact ⟨hpath.calls, hpath.nodup, by simp, hgoes.1 hlast⟩
  · intro hp
    exact ⟨⟨hp.steps, hp.nodup⟩, hgoes.2 hp.goes⟩

/-- The walk that lists chains makes a visit for each path back. -/
private theorem chainEffort_eq_ncard (hg : g.Mirrored) (h : g.contains target) :
    g.chainEffort .pathLocal target = (g.callerPaths target).ncard := by
  rw [hg.callerPaths_eq h, (hg.ordered_chainTree .pathLocal h).ncard_paths, chainEffort]

/-- A forward walk makes a visit for each call path. -/
private theorem leadEffort_eq_ncard (hg : g.Mirrored) {m : Signature} (hm : m ∈ g.nodes) :
    g.leadEffort .pathLocal target m = (g.calleePaths target m).ncard := by
  rw [hg.calleePaths_eq hm, (hg.ordered_forwardTree .pathLocal hm).1.ncard_paths, leadEffort]

end Mirrored

/-! ### The methods that a search tries -/

/-- The methods from where a search goes forward, in order: the given entry points and, if none of
them reaches the target, the nodes up to the first one that does. -/
inductive Tried (g : CallGraph) (entries : List Signature) (target : Signature) :
    List Signature → Prop
  | entries (reached : ∃ e ∈ entries, ReflTransGen g.Calls e target) :
      Tried g entries target entries
  | nodes {before after : List Signature} {e : Signature}
      (missed : ¬ ∃ e ∈ entries, ReflTransGen g.Calls e target)
      (split : g.nodes = before ++ e :: after) (reaches : ReflTransGen g.Calls e target)
      (first : ∀ b ∈ before, ¬ ReflTransGen g.Calls b target) :
      Tried g entries target (entries ++ (before ++ [e]))

section Searches

variable (scope : CycleScope)

/-- The visits of several forward walks add up. -/
private theorem leadsEffort_eq_sum (ms : List Signature) :
    g.leadsEffort scope target ms = (ms.map (g.leadEffort scope target)).sum := by
  induction ms with
  | nil => rfl
  | cons m ms ih => rw [leadsEffort, ih, List.map_cons, List.sum_cons]

/-- A search among some methods goes up to the first one that leads to the target. -/
private theorem firstLead_append {before : List Signature} {e : Signature}
    (hbefore : ∀ b ∈ before, g.lead scope target b = []) (he : g.lead scope target e ≠ [])
    (after : List Signature) :
    g.firstLead scope target (before ++ e :: after) = g.lead scope target e ∧
      g.firstLeadEffort scope target (before ++ e :: after) =
        ((before ++ [e]).map (g.leadEffort scope target)).sum := by
  induction before with
  | nil => simp [firstLead, firstLeadEffort, he]
  | cons b before ih =>
    obtain ⟨hb, hbefore⟩ := List.forall_mem_cons.1 hbefore
    obtain ⟨hlead, heffort⟩ := ih hbefore
    constructor
    · rw [List.cons_append, firstLead, hb, List.isEmpty_nil, if_pos rfl, hlead]
    · rw [List.cons_append, firstLeadEffort, hb, List.isEmpty_nil, if_pos rfl, heffort,
        List.cons_append, List.map_cons, List.sum_cons]

end Searches

namespace Tried

variable {entries tried : List Signature}

/-- A search for a node tries some methods. -/
private theorem exists_of_contains (hnode : g.contains target) (entries : List Signature) :
    ∃ tried, g.Tried entries target tried := by
  classical
  by_cases hreached : ∃ e ∈ entries, ReflTransGen g.Calls e target
  · exact ⟨entries, .entries hreached⟩
  · -- the target reaches itself, so the search among the nodes ends there at the latest
    cases hfind : g.nodes.find? fun m => decide (ReflTransGen g.Calls m target) with
    | none =>
      have hnone := List.find?_eq_none.1 hfind target (mem_nodes.2 hnode)
      exact absurd (decide_eq_true ReflTransGen.refl) hnone
    | some e =>
      obtain ⟨he, before, after, hsplit, hfirst⟩ := List.find?_eq_some_iff_append.1 hfind
      refine ⟨_, .nodes hreached hsplit (of_decide_eq_true he) fun b hb => ?_⟩
      simpa using hfirst b hb

/-- Only nodes are tried if the entry points are nodes. -/
private theorem subset_nodes (h : g.Tried entries target tried) (hentries : entries ⊆ g.nodes) :
    tried ⊆ g.nodes := by
  cases h with
  | entries _ => exact hentries
  | @nodes before after e _ split _ _ =>
    refine List.append_subset.2 ⟨hentries, ?_⟩
    rw [split, List.append_cons before e after]
    exact List.subset_append_left _ _

/-- What is found is what the methods lead to that are tried, and the visits of the search are those
of their forward walks. -/
theorem found_effort_eq (hg : g.Mirrored) (h : g.Tried entries target tried)
    (hentries : entries ⊆ g.nodes) :
    g.found .pathLocal target entries = tried.flatMap (g.lead .pathLocal target) ∧
      g.effort .pathLocal target entries = (tried.map (g.leadEffort .pathLocal target)).sum := by
  cases h with
  | entries reached =>
    -- something is found among the entry points, so the search ends with them
    have hne : entries.flatMap (g.lead .pathLocal target) ≠ [] := fun hnil =>
      (hg.flatMap_lead_eq_nil_iff .pathLocal hentries).1 hnil reached
    simp [found, effort, hne, leadsEffort_eq_sum]
  | @nodes before after e missed split reaches first =>
    obtain ⟨hbeforeNodes, heNodes⟩ : before ⊆ g.nodes ∧ e ∈ g.nodes := by
      rw [split]
      exact ⟨List.subset_append_left _ _, by simp⟩
    -- nothing is found among the entry points, nor among the nodes before the first that reaches
    -- the target
    have hnil := (hg.flatMap_lead_eq_nil_iff .pathLocal hentries).2 missed
    have hbefore : before.flatMap (g.lead .pathLocal target) = [] := by
      rw [hg.flatMap_lead_eq_nil_iff .pathLocal hbeforeNodes]
      rintro ⟨b, hb, hreach⟩
      exact first b hb hreach
    have he := (hg.lead_ne_nil_iff .pathLocal heNodes).2 reaches
    obtain ⟨hfirst, heffort⟩ :=
      firstLead_append .pathLocal (List.flatMap_eq_nil_iff.1 hbefore) he after
    rw [← split] at hfirst heffort
    constructor
    · rw [List.flatMap_append, List.flatMap_append, hnil, hbefore]
      simp [found, hnil, hfirst]
    · rw [List.map_append, List.sum_append, ← heffort, ← leadsEffort_eq_sum, effort, hnil,
        List.isEmpty_nil, if_pos rfl]

end Tried

/-- Without a visit limit and where only the path counts, the loops are over after finitely many
rounds in every graph made edge by edge, and there are as many visits as rounds.  Listing chains
makes one for each path without repetition back from the target.  The search for entry points tries
the entry points and, if none of them reaches the target, the nodes in increasing order up to the
first one that does; from each of them it makes one for each call path without repetition that goes
at most up to the target.  What the loops have collected in the end are the chains and the branches
of the tree. -/
theorem visits_exact (calls : List Edge) (names : List String) (policy : Policy)
    (target : Signature) (hscope : policy.cycleScope = .pathLocal) (hlimit : policy.maxVisits = 0)
    (hnode : (ofCalls calls).contains target = true) :
    let g := ofCalls calls
    let list := g.callerChains policy target
    let tree := g.entryTree names policy target
    ((g.callerPaths target).Finite ∧ list.visits = (g.callerPaths target).ncard ∧
        ∀ rounds paths, (g.backwards .pathLocal).Ends target rounds paths ↔
          rounds = list.visits ∧ paths = list.chains) ∧
      g.nodes.Pairwise Before ∧ ∃ tried, g.Tried (g.entries names) target tried ∧
        (∀ e ∈ tried, (g.calleePaths target e).Finite) ∧
        tree.visits = (tried.map fun e => (g.calleePaths target e).ncard).sum ∧
        ∃ walked : Signature → List (List Signature),
          (∀ e ∈ tried, ∀ rounds paths, (g.forwards .pathLocal target).Ends e rounds paths ↔
            rounds = (g.calleePaths target e).ncard ∧ paths = walked e) ∧
          tree.root.branches = (tried.flatMap walked).filter (endsAt target) := by
  intro g list tree
  have hg : g.Mirrored := mirrored_ofCalls calls
  have hlist : list = _ := callerChains_of_unlimited hnode hlimit
  have htree : tree = _ := entryTree_of_unlimited hnode names hlimit
  rw [hlist, htree, hscope]
  refine ⟨⟨?_, hg.chainEffort_eq_ncard hnode, fun rounds paths => ?_⟩,
    SortedMap.pairwise_keyList _, ?_⟩
  · rw [hg.callerPaths_eq hnode]
    exact List.finite_toSet _
  · exact Exploration.ends_iff (fun _ _ hab => hg.mem_nodes_of_mem_callers hab)
      (mem_nodes.2 hnode)
  · obtain ⟨tried, htried⟩ := Tried.exists_of_contains hnode (g.entries names)
    have hentries : g.entries names ⊆ g.nodes := fun m hm => mem_nodes_of_mem_entries hm
    have hnodes : ∀ e ∈ tried, e ∈ g.nodes := fun e he => htried.subset_nodes hentries he
    obtain ⟨hfound, heffort⟩ := htried.found_effort_eq hg hentries
    refine ⟨tried, htried, fun e he => ?_, ?_,
      fun e => (g.forwardTree .pathLocal target e).branches, fun e he rounds paths => ?_, ?_⟩
    · rw [hg.calleePaths_eq (hnodes e he)]
      exact List.finite_toSet _
    · rw [heffort]
      exact congrArg List.sum (List.map_congr_left fun e he =>
        hg.leadEffort_eq_ncard (hnodes e he))
    · rw [← hg.leadEffort_eq_ncard (hnodes e he)]
      exact Exploration.ends_iff (fun _ _ hab => hg.mem_nodes_of_mem_callees hab) (hnodes e he)
    · rw [branches_joinTrees, List.flatMap_map, hfound, List.flatMap_assoc, List.filter_flatMap]
      simp only [branches_lead]

/-- A cycle before the target, and an entry point that does not reach it: the target has three paths
back, and the search tries the entry point and one more method with five call paths in all. -/
theorem visits_exact_cycle :
    let sig := fun name => (⟨"p", "T", name, []⟩ : Signature)
    let calls : List Edge := [⟨sig "a", sig "b"⟩, ⟨sig "b", sig "a"⟩, ⟨sig "b", sig "t"⟩,
      ⟨sig "r", sig "s"⟩]
    let policy : Policy := { maxVisits := 0 }
    let g := ofCalls calls
    (policy.cycleScope = .pathLocal ∧ policy.maxVisits = 0 ∧ g.contains (sig "t") = true) ∧
      (g.callerPaths (sig "t")).ncard = 3 ∧
      ∃ tried, g.Tried (g.entries []) (sig "t") tried ∧
        (tried.map fun e => (g.calleePaths (sig "t") e).ncard).sum = 5 := by
  intro sig calls policy g
  obtain ⟨⟨-, hlist, -⟩, -, tried, htried, -, htree, -⟩ :=
    visits_exact calls [] policy (sig "t") rfl rfl (by decide)
  have hthree : (g.callerChains policy (sig "t")).visits = 3 := by decide
  have hfive : (g.entryTree [] policy (sig "t")).visits = 5 := by decide
  exact ⟨by decide, hlist.symm.trans hthree, tried, htried, htree.symm.trans hfive⟩

end CallGraph

end CallPaths
