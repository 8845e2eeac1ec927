import CallPaths.Proofs.ChainMethods
import CallPaths.Proofs.RootPaths
import Mathlib.Data.List.Forall2

/-!
# Entry trees as call paths

Where only the path counts for cycles and there is no visit limit, the tree of a method has exactly
the call paths from the method to the target as its branches.  A forward walk comes to the target
whenever there is a way, wherever a method counts as visited, so the methods with a tree are those
that can reach the target.  An entry tree joins the trees of the entry points among them; if there
are none, the least node that reaches the target takes their place, and the target itself is always
one of these.

## Key results

- `CallGraph.exists_isCallPath_iff`: reachable methods have call paths without repetition
- `CallGraph.Mirrored.lead_ne_nil_iff`: the methods that lead to a target
- `CallGraph.Mirrored.isPathTree_of_mem_lead`: the tree of such a method
- `CallGraph.entryTree_exact`: the entry points, the trees and the root of an entry tree
-/

namespace CallPaths

namespace CallGraph

open CallTree Relation

variable {g : CallGraph} {target : Signature}

/-! ### Reachable methods -/

/-- A call path with a method in front of it that calls its first method, shortened to a path from
the method if that is on the path already. -/
private theorem IsCallPath.exists_cons {a b : Signature} {p : List Signature} (hp : g.IsCallPath p)
    (hhead : p.head? = some b) (hab : g.Calls a b) :
    ∃ q, g.IsCallPath q ∧ q.head? = some a ∧ q.getLast? = p.getLast? := by
  by_cases ha : a ∈ p
  · obtain ⟨before, after, rfl⟩ := List.append_of_mem ha
    refine ⟨a :: after, ⟨?_, ?_⟩, rfl, ?_⟩
    · exact hp.calls.right_of_append
    · exact (List.nodup_append.1 hp.nodup).2.1
    · rw [List.getLast?_append_of_ne_nil _ (List.cons_ne_nil a after)]
  · obtain ⟨q, rfl⟩ := List.head?_eq_some_iff.1 hhead
    refine ⟨a :: b :: q, ⟨?_, ?_⟩, rfl, List.getLast?_cons_cons⟩
    · exact List.isChain_cons_cons.2 ⟨hab, hp.calls⟩
    · exact List.nodup_cons.2 ⟨ha, hp.nodup⟩

/-- The first method of a path along calls reaches the last one. -/
theorem reflTransGen_of_isChain {a b : Signature} {p : List Signature} (hp : p.IsChain g.Calls)
    (hhead : p.head? = some a) (hlast : p.getLast? = some b) : ReflTransGen g.Calls a b := by
  induction p generalizing a with
  | nil => cases hhead
  | cons c p ih =>
    obtain rfl : c = a := by simpa using hhead
    cases p with
    | nil =>
      obtain rfl : c = b := by simpa using hlast
      exact .refl
    | cons d p =>
      obtain ⟨hcd, hp⟩ := List.isChain_cons_cons.1 hp
      exact (ih hp rfl (by rwa [List.getLast?_cons_cons] at hlast)).head hcd

/-- One method reaches another exactly if there is a call path without repetition between them. -/
theorem exists_isCallPath_iff {a b : Signature} :
    (∃ p, g.IsCallPath p ∧ p.head? = some a ∧ p.getLast? = some b) ↔ ReflTransGen g.Calls a b := by
  constructor
  · rintro ⟨p, hp, hhead, hlast⟩
    exact reflTransGen_of_isChain hp.calls hhead hlast
  · intro h
    induction h using ReflTransGen.head_induction_on with
    | refl => exact ⟨[b], ⟨by simp, by simp⟩, rfl, rfl⟩
    | head hab _ ih =>
      obtain ⟨p, hp, hhead, hlast⟩ := ih
      obtain ⟨q, hq, hqa, hqb⟩ := hp.exists_cons hhead hab
      exact ⟨q, hq, hqa, hqb.trans hlast⟩

/-! ### The tree of a method -/

/-- A call path without repetition that starts at a method and ends where it comes to the target
first. -/
structure IsRoute (g : CallGraph) (target e : Signature) (p : List Signature) : Prop
    extends g.IsCallPath p where
  starts : p.head? = some e
  ends : p.getLast? = some target
  first : target ∉ p.dropLast

/-- The branches of a tree are exactly the call paths from a method to the target, each listed once.
All nodes have methods, and those of the children of each node increase. -/
structure IsPathTree (g : CallGraph) (target e : Signature) (t : CallTree) : Prop where
  starts : t.method = some e
  ordered : t.Ordered
  branches : ∀ p, p ∈ t.branches ↔ g.IsRoute target e p
  nodup : t.branches.Nodup

/-- A call path that ends at the target does not come to it before. -/
theorem isRoute_iff {e : Signature} {p : List Signature} :
    g.IsRoute target e p ↔ g.IsCallPath p ∧ p.head? = some e ∧ p.getLast? = some target := by
  constructor
  · intro hp
    exact ⟨hp.toIsCallPath, hp.starts, hp.ends⟩
  · rintro ⟨hpath, hhead, hlast⟩
    refine ⟨hpath, hhead, hlast, fun hmem => ?_⟩
    obtain ⟨q, rfl⟩ := List.getLast?_eq_some_iff.1 hlast
    rw [List.dropLast_concat] at hmem
    exact (List.nodup_append.1 hpath.nodup).2.2 target hmem target (by simp) rfl

/-- A method leads to the target by its pruned tree, or not at all. -/
theorem mem_lead {scope : CycleScope} {m : Signature} {f : Signature × CallTree} :
    f ∈ g.lead scope target m ↔
      f.1 = m ∧ (g.forwardTree scope target m).prune target = some f.2 := by
  obtain ⟨e, t⟩ := f
  simp only [lead, List.mem_map, Option.mem_toList, Prod.mk.injEq]
  constructor
  · rintro ⟨t', ht', rfl, rfl⟩
    exact ⟨rfl, ht'⟩
  · rintro ⟨rfl, ht⟩
    exact ⟨t, ht, rfl, rfl⟩

namespace Mirrored

/-- Where only the path counts, the tree of a node that leads to the target has the call paths to
the target as its branches. -/
theorem isPathTree_of_mem_lead (hg : g.Mirrored) {m : Signature} (hm : m ∈ g.nodes)
    {f : Signature × CallTree} (hf : f ∈ g.lead .pathLocal target m) :
    g.IsPathTree target f.1 f.2 := by
  obtain ⟨rfl, hprune⟩ := mem_lead.1 hf
  obtain ⟨hordered, hmethod⟩ := hg.ordered_forwardTree .pathLocal hm
  have hpruned := hordered.prune hprune
  refine ⟨(method_of_prune hprune).trans hmethod, hpruned, fun p => ?_, hpruned.nodup_branches⟩
  have hbranches := branches_prune target (g.forwardTree .pathLocal target f.1)
  rw [hprune, Option.toList_some, List.flatMap_singleton] at hbranches
  rw [hbranches, List.mem_filter, hg.mem_forwardTree_iff hm, isRoute_iff]

/-- The forward walk from a node that can reach the target enters the target, wherever a method
counts as visited. -/
private theorem target_mem_preorder_forwardTree (hg : g.Mirrored) (scope : CycleScope)
    {m : Signature} (hm : m ∈ g.nodes) (h : ReflTransGen g.Calls m target) :
    target ∈ (g.forwardTree scope target m).preorder := by
  have hnext : ∀ a, ∀ b ∈ (g.forwards scope target).next a, b ∈ g.nodes :=
    fun _ _ hb => hg.mem_nodes_of_mem_callees hb
  have hclosed := Exploration.closed_tree hnext (Exploration.Room.single hm)
  have hroot : m ∈ (g.forwardTree scope target m).preorder :=
    mem_preorder_of_method (hg.ordered_forwardTree scope hm).2
  -- the methods along the calls are entered as long as the target is not among them
  have hentered : ∀ a, ReflTransGen g.Calls m a →
      a ∈ (g.forwardTree scope target m).preorder ∨
        target ∈ (g.forwardTree scope target m).preorder := by
    intro a ha
    induction ha with
    | refl => exact .inl hroot
    | @tail b c _ hbc ih =>
      rcases ih with hb | htarget
      · by_cases hbt : b = target
        · exact .inr (hbt ▸ hb)
        · have hgoes : (g.forwards scope target).halts b = false := by simpa [forwards] using hbt
          rcases hclosed.neighbours b hb hgoes c hbc with hc | hbar
          · exact .inl hc
          · rw [hbar.eq_start]
            exact .inl hroot
      · exact .inr htarget
  exact (hentered target h).elim id id

/-- A node leads to the target exactly if a branch of its forward walk ends there. -/
private theorem lead_ne_nil_iff_exists_branch (hg : g.Mirrored) (scope : CycleScope) {m : Signature}
    (hm : m ∈ g.nodes) :
    g.lead scope target m ≠ [] ↔
      ∃ p ∈ (g.forwardTree scope target m).branches, endsAt target p = true := by
  have hbranches := g.branches_lead scope target m
  constructor
  · intro hne
    obtain ⟨f, hf⟩ := List.exists_mem_of_ne_nil _ hne
    have hpruned := (hg.ordered_forwardTree scope hm).1.prune (mem_lead.1 hf).2
    obtain ⟨p, hp⟩ := List.exists_mem_of_ne_nil _ hpruned.named.branches_ne_nil
    have hmem : p ∈ (g.lead scope target m).flatMap (·.2.branches) :=
      List.mem_flatMap.2 ⟨f, hf, hp⟩
    rw [hbranches] at hmem
    exact ⟨p, List.mem_filter.1 hmem⟩
  · rintro ⟨p, hp⟩ hnil
    -- pruning keeps the branch, so something is left of the tree
    have hmem : p ∈ (g.lead scope target m).flatMap (·.2.branches) := by
      rw [hbranches]
      exact List.mem_filter.2 hp
    rw [hnil] at hmem
    cases hmem

/-- Wherever a method counts as visited, the nodes that lead to the target are those that can reach
it. -/
theorem lead_ne_nil_iff (hg : g.Mirrored) (scope : CycleScope) {m : Signature} (hm : m ∈ g.nodes) :
    g.lead scope target m ≠ [] ↔ ReflTransGen g.Calls m target := by
  rw [hg.lead_ne_nil_iff_exists_branch scope hm]
  constructor
  · rintro ⟨p, hp, hend⟩
    obtain ⟨hhead, hchain, -⟩ := Exploration.of_mem_branches_tree hp
    exact reflTransGen_of_isChain hchain hhead (of_decide_eq_true hend)
  · intro h
    have hentered := hg.target_mem_preorder_forwardTree scope hm h
    obtain ⟨p, hp, hmem⟩ := (hg.ordered_forwardTree scope hm).1.named.exists_branch hentered
    refine ⟨p, hp, ?_⟩
    -- the walk halts at the target, so the branch ends there
    obtain ⟨-, -, hgo⟩ := Exploration.of_mem_branches_tree hp
    obtain ⟨z, hz⟩ : ∃ z, p.getLast? = some z :=
      ⟨_, List.getLast?_eq_some_getLast (ne_nil_of_mem_branches hp)⟩
    rw [← List.dropLast_append_getLast? z hz, List.mem_append] at hmem
    rcases hmem with hmem | hmem
    · have hhalts := hgo target hmem
      simp [forwards] at hhalts
    · rw [List.mem_singleton] at hmem
      rw [endsAt, hz, hmem]
      exact decide_eq_true rfl

/-- Some nodes lead nowhere exactly if none of them can reach the target. -/
theorem flatMap_lead_eq_nil_iff (hg : g.Mirrored) (scope : CycleScope) {ms : List Signature}
    (hms : ms ⊆ g.nodes) :
    ms.flatMap (g.lead scope target) = [] ↔ ¬ ∃ e ∈ ms, ReflTransGen g.Calls e target := by
  rw [List.flatMap_eq_nil_iff]
  simp only [not_exists, not_and]
  refine forall₂_congr fun e he => ?_
  rw [← hg.lead_ne_nil_iff scope (hms he), not_not]

end Mirrored

/-! ### Entry points and the node in their place -/

/-- The methods with a tree are those that lead to the target, in the same order. -/
theorem map_fst_flatMap_lead (scope : CycleScope) (ms : List Signature) :
    (ms.flatMap (g.lead scope target)).map (·.1) =
      ms.filter fun m => !(g.lead scope target m).isEmpty := by
  induction ms with
  | nil => rfl
  | cons m ms ih =>
    rw [List.flatMap_cons, List.map_append, ih, List.filter_cons, lead]
    cases (g.forwardTree scope target m).prune target <;> rfl

/-- The first of some methods that leads to the target is found by a search. -/
theorem map_fst_firstLead (scope : CycleScope) (ms : List Signature) :
    (g.firstLead scope target ms).map (·.1) =
      (ms.find? fun m => !(g.lead scope target m).isEmpty).toList := by
  induction ms with
  | nil => rfl
  | cons m ms ih =>
    rw [firstLead, List.find?_cons, lead]
    cases (g.forwardTree scope target m).prune target with
    | none => exact ih
    | some t => rfl

namespace Mirrored

/-- If an entry point reaches the target, the entry points that do so are found, in order. -/
private theorem found_of_exists (hg : g.Mirrored) {names : List String}
    (h : ∃ e ∈ g.entries names, ReflTransGen g.Calls e target) :
    let methods := (g.found .pathLocal target (g.entries names)).map (·.1)
    (g.entries names).flatMap (g.lead .pathLocal target) ≠ [] ∧ methods.Pairwise Before ∧
      ∀ e, e ∈ methods ↔ e ∈ g.entries names ∧ ReflTransGen g.Calls e target := by
  have hleads : (g.entries names).flatMap (g.lead .pathLocal target) ≠ [] := fun hnil =>
    (hg.flatMap_lead_eq_nil_iff .pathLocal fun _ he => mem_nodes_of_mem_entries he).1 hnil h
  have hfound : g.found .pathLocal target (g.entries names) =
      (g.entries names).flatMap (g.lead .pathLocal target) := by
    simp [found, hleads]
  intro methods
  simp only [methods, hfound, map_fst_flatMap_lead]
  refine ⟨hleads, ?_, fun e => ?_⟩
  · rw [entries_eq]
    exact List.Pairwise.filter _ (List.Pairwise.filter _ (SortedMap.pairwise_keyList _))
  · rw [List.mem_filter, and_congr_right_iff]
    intro he
    rw [← hg.lead_ne_nil_iff .pathLocal (mem_nodes_of_mem_entries he)]
    simp

/-- If no entry point reaches the target, the least node that reaches it is found. -/
private theorem found_of_not_exists (hg : g.Mirrored) (hnode : g.contains target)
    {names : List String} (h : ¬ ∃ e ∈ g.entries names, ReflTransGen g.Calls e target) :
    (g.entries names).flatMap (g.lead .pathLocal target) = [] ∧
      ∃ e, (g.found .pathLocal target (g.entries names)).map (·.1) = [e] ∧
        IsFirst (fun e => e ∈ g.nodes ∧ ReflTransGen g.Calls e target) e := by
  have hleads : (g.entries names).flatMap (g.lead .pathLocal target) = [] :=
    (hg.flatMap_lead_eq_nil_iff .pathLocal fun _ he => mem_nodes_of_mem_entries he).2 h
  have hlooked : ∀ e, (e ∈ g.nodes ∧ (!(g.lead .pathLocal target e).isEmpty) = true) ↔
      e ∈ g.nodes ∧ ReflTransGen g.Calls e target := by
    intro e
    rw [and_congr_right_iff]
    intro he
    rw [← hg.lead_ne_nil_iff .pathLocal he]
    simp
  have hfound : (g.found .pathLocal target (g.entries names)).map (·.1) =
      (g.nodes.find? fun m => !(g.lead .pathLocal target m).isEmpty).toList := by
    simp only [found, hleads, List.isEmpty_nil, if_true, map_fst_firstLead]
  refine ⟨hleads, ?_⟩
  -- the search among the nodes ends at the target at the latest
  cases hfind : g.nodes.find? fun m => !(g.lead .pathLocal target m).isEmpty with
  | none =>
    have htarget := (hlooked target).2 ⟨mem_nodes.2 hnode, .refl⟩
    exact absurd htarget.2 (List.find?_eq_none.1 hfind target htarget.1)
  | some e =>
    refine ⟨e, by rw [hfound, hfind]; rfl, ?_⟩
    have hfirst := (find?_eq_some_iff_isFirst (SortedMap.pairwise_keyList _)).1 hfind
    exact ⟨(hlooked e).1 hfirst.1, fun b hb => hfirst.2 b ((hlooked b).2 hb)⟩

end Mirrored

/-- A single tree stands for itself, and other numbers of trees get a common root. -/
theorem joinTrees_spec (ts : List CallTree) :
    (∀ t, ts = [t] → joinTrees ts = t) ∧ (ts.length ≠ 1 → joinTrees ts = .node none ts) := by
  match ts with
  | [] => exact ⟨fun _ h => absurd h (by simp), fun _ => rfl⟩
  | [t] => exact ⟨fun _ h => List.singleton_inj.1 h, fun h => absurd rfl h⟩
  | t :: t' :: ts => exact ⟨fun _ h => absurd h (by simp), fun _ => rfl⟩

/-- Without a visit limit and where only the path counts for cycles, the entry tree of a node is
made as follows.  If entry points reach the target or are the target, these are its entry points, in
order; otherwise the least node that reaches the target or is the target takes their place.  For
each of them there is the tree of all call paths to the target.  A single tree is the root itself,
and several trees get a root without a method. -/
theorem entryTree_exact (calls : List Edge) (names : List String) (policy : Policy)
    (target : Signature) (hscope : policy.cycleScope = .pathLocal) (hlimit : policy.maxVisits = 0)
    (hnode : (ofCalls calls).contains target = true) :
    let g := ofCalls calls
    let run := g.entryTree names policy target
    let reaches := fun e => e ∈ g.nodes ∧ ReflTransGen g.Calls e target
    let isEntry := fun e => e ∈ g.nodes ∧ ((∀ c, c ∉ g.callers e) ∨ e.method ∈ names)
    ((∃ e, isEntry e ∧ reaches e) →
        run.usedFallback = false ∧ run.entryPoints.Pairwise Before ∧
          ∀ e, e ∈ run.entryPoints ↔ isEntry e ∧ reaches e) ∧
      ((¬ ∃ e, isEntry e ∧ reaches e) →
        run.usedFallback = true ∧ ∃ e, run.entryPoints = [e] ∧ IsFirst reaches e) ∧
      ∃ trees, List.Forall₂ (g.IsPathTree target) run.entryPoints trees ∧
        (∀ t, trees = [t] → run.root = t) ∧ (trees.length ≠ 1 → run.root = .node none trees) := by
  intro g run reaches isEntry
  have hg : g.Mirrored := mirrored_ofCalls calls
  have hfree : policy.visitLimit = none := by simp [Policy.visitLimit, hlimit]
  have hrun : run = _ := entryTree_of_covers hnode names (hfree ▸ Budget.covers_initial_none _)
  rw [hscope] at hrun
  -- the two ways to say that an entry point reaches the target
  have hentry : ∀ e, isEntry e ∧ reaches e ↔
      e ∈ g.entries names ∧ ReflTransGen g.Calls e target := by
    intro e
    rw [mem_entries_iff]
    exact ⟨fun h => ⟨h.1, h.2.2⟩, fun h => ⟨h.1, h.1.1, h.2⟩⟩
  have hexists : (∃ e, isEntry e ∧ reaches e) ↔
      ∃ e ∈ g.entries names, ReflTransGen g.Calls e target :=
    exists_congr hentry
  refine ⟨fun h => ?_, fun h => ?_, ?_⟩
  · obtain ⟨hleads, hincreasing, hmem⟩ := hg.found_of_exists (hexists.1 h)
    rw [hrun]
    refine ⟨?_, hincreasing, fun e => (hmem e).trans (hentry e).symm⟩
    rw [List.isEmpty_eq_false_iff.2 hleads, Bool.false_and]
  · obtain ⟨hleads, e, hfound, hfirst⟩ := hg.found_of_not_exists hnode (mt hexists.2 h)
    rw [hrun]
    refine ⟨?_, e, hfound, hfirst⟩
    have hne : g.found .pathLocal target (g.entries names) ≠ [] := by
      intro hnil
      rw [hnil] at hfound
      cases hfound
    rw [List.isEmpty_iff.2 hleads, List.isEmpty_eq_false_iff.2 hne]
    rfl
  · rw [hrun]
    refine ⟨(g.found .pathLocal target (g.entries names)).map (·.2), ?_, joinTrees_spec _⟩
    rw [List.forall₂_map_left_iff, List.forall₂_map_right_iff, List.forall₂_same]
    intro f hf
    obtain ⟨m, hm, hf⟩ := exists_lead_of_mem_found hf
    exact hg.isPathTree_of_mem_lead hm hf

/-- A root and a named method on a cycle are the entry points that reach the target; another root
does not reach it. -/
theorem entryTree_exact_two_entries :
    let sig := fun name => (⟨"p", "T", name, []⟩ : Signature)
    let calls : List Edge := [⟨sig "r", sig "a"⟩, ⟨sig "r", sig "t"⟩, ⟨sig "a", sig "t"⟩,
      ⟨sig "t", sig "a"⟩, ⟨sig "c", sig "d"⟩, ⟨sig "d", sig "c"⟩, ⟨sig "d", sig "t"⟩,
      ⟨sig "s", sig "u"⟩]
    let policy : Policy := { maxVisits := 0 }
    let g := ofCalls calls
    let run := g.entryTree ["d"] policy (sig "t")
    let reaches := fun e => e ∈ g.nodes ∧ ReflTransGen g.Calls e (sig "t")
    let isEntry := fun e => e ∈ g.nodes ∧ ((∀ c, c ∉ g.callers e) ∨ e.method ∈ ["d"])
    (policy.cycleScope = .pathLocal ∧ policy.maxVisits = 0 ∧ g.contains (sig "t") = true ∧
        run.entryPoints = [sig "d", sig "r"] ∧
        run.root.branches =
          [[sig "d", sig "t"], [sig "r", sig "a", sig "t"], [sig "r", sig "t"]]) ∧
      ((∃ e, isEntry e ∧ reaches e) →
        run.usedFallback = false ∧ run.entryPoints.Pairwise Before ∧
          ∀ e, e ∈ run.entryPoints ↔ isEntry e ∧ reaches e) ∧
      ((¬ ∃ e, isEntry e ∧ reaches e) →
        run.usedFallback = true ∧ ∃ e, run.entryPoints = [e] ∧ IsFirst reaches e) ∧
      ∃ trees, List.Forall₂ (g.IsPathTree (sig "t")) run.entryPoints trees ∧
        (∀ t, trees = [t] → run.root = t) ∧ (trees.length ≠ 1 → run.root = .node none trees) :=
  ⟨by decide, entryTree_exact _ ["d"] _ _ rfl rfl (by decide)⟩

end CallGraph

end CallPaths
