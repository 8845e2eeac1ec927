import CallPaths.Proofs.EntryTrees

/-!
# Call paths from roots

The backward walk that lists caller chains and the forward walks that make an entry tree see the
same call paths.  Where only the path counts for cycles, both come to exactly the call paths without
repetition; a chain stops where nobody calls its last method, and a branch of an entry tree starts
at such a method or at another entry point.  So the chains that end at a root and the branches that
start at a root are the same paths, read in opposite directions.

## Key results

- `CallGraph.Mirrored.mem_chainTree_iff`: the chains that end at a root
- `CallGraph.Mirrored.mem_found_iff`: the branches that start at a root
- `CallGraph.Mirrored.nodup_found`: no branch is found twice
- `CallGraph.callerChains_agree_entryTree`: chains and branches are the same paths
-/

namespace CallPaths

namespace CallGraph

open CallTree

/-- Each method of the path calls the next one, and no method is repeated. -/
structure IsCallPath (g : CallGraph) (p : List Signature) : Prop where
  calls : p.IsChain fun a b => b ∈ g.callees a
  nodup : p.Nodup

/-- Whether there is a method and nobody calls it. -/
def isRoot (g : CallGraph) (m : Option Signature) : Bool :=
  m.any fun m => (g.callers m).isEmpty

variable {g : CallGraph} {target : Signature}

/-- Nobody calls a root. -/
private theorem not_mem_callers_of_isRoot {m a : Signature} (h : g.isRoot (some m) = true) :
    a ∉ g.callers m :=
  SortedSet.isEmpty_iff.1 h a

namespace Mirrored

/-- A path along callers is a call path read backwards. -/
private theorem isCallPath_reverse (hg : g.Mirrored) {p : List Signature} :
    g.IsCallPath p.reverse ↔ p.IsChain (fun a b => b ∈ g.callers a) ∧ p.Nodup := by
  have hswap : (fun a b => b ∈ g.callers a) = fun a b => a ∈ g.callees b := by
    funext a b
    exact propext (hg.mem_callers b a)
  rw [hswap]
  constructor
  · intro h
    exact ⟨List.isChain_reverse.1 h.calls, (List.reverse_perm p).nodup_iff.1 h.nodup⟩
  · intro h
    exact ⟨List.isChain_reverse.2 h.1, (List.reverse_perm p).nodup_iff.2 h.2⟩

/-- The chains that end at a root are the call paths from a root to the target, read backwards. -/
theorem mem_chainTree_iff (hg : g.Mirrored) (h : g.contains target) {p : List Signature}
    (hroot : g.isRoot p.getLast? = true) :
    p ∈ (g.chainTree .pathLocal target).branches ↔
      g.IsCallPath p.reverse ∧ p.head? = some target := by
  rw [hg.mem_chainTree_iff_isMaximalChain h, hg.isCallPath_reverse]
  constructor
  · intro hp
    exact ⟨⟨hp.callers, hp.nodup⟩, hp.starts⟩
  · rintro ⟨⟨hchain, hnodup⟩, hhead⟩
    refine ⟨hhead, hnodup, hchain, fun z hz c hc => ?_⟩
    -- the last method is a root, so no path goes on from there
    rw [hz] at hroot
    exact absurd hc (not_mem_callers_of_isRoot hroot)

/-- The branches of a forward walk that end at the target are the call paths to it. -/
theorem mem_forwardTree_iff (hg : g.Mirrored) {m : Signature} (hm : m ∈ g.nodes)
    {p : List Signature} :
    p ∈ (g.forwardTree .pathLocal target m).branches ∧ endsAt target p ↔
      g.IsCallPath p ∧ p.head? = some m ∧ p.getLast? = some target := by
  have hmem := Exploration.mem_branches_tree (x := g.forwards .pathLocal target) (p := p) rfl
    (fun _ _ hab => hg.mem_nodes_of_mem_callees hab) (Exploration.Room.single hm)
  rw [forwardTree, hmem]
  constructor
  · rintro ⟨⟨hhead, hbranch⟩, hend⟩
    obtain ⟨q, rfl⟩ : ∃ q, p = m :: q := List.head?_eq_some_iff.1 hhead
    obtain ⟨hpath, -⟩ := (Exploration.isBranch_iff (by simp)).1 hbranch
    exact ⟨⟨hpath.steps, hpath.nodup⟩, hhead, of_decide_eq_true hend⟩
  · rintro ⟨hpath, hhead, hend⟩
    obtain ⟨q, rfl⟩ : ∃ q, p = m :: q := List.head?_eq_some_iff.1 hhead
    refine ⟨⟨hhead, (Exploration.isBranch_iff (by simp)).2
      ⟨⟨hpath.calls, hpath.nodup, by simp, fun a ha => ?_⟩, fun z hz => .inl ?_⟩⟩,
      decide_eq_true hend⟩
    · -- the target is the last method of the path and comes nowhere before
      obtain ⟨r, hr⟩ := List.getLast?_eq_some_iff.1 hend
      rw [hr, List.dropLast_concat] at ha
      have hnodup := hpath.nodup
      rw [hr, List.nodup_append] at hnodup
      have hne : a ≠ target := hnodup.2.2 a ha target (by simp)
      simpa [forwards] using hne
    · rw [hend] at hz
      cases hz
      simp [forwards]

end Mirrored

/-! ### What an entry tree consists of -/

namespace Mirrored

/-- The tree of a forward walk from a node is ordered and starts at the node. -/
theorem ordered_forwardTree (hg : g.Mirrored) (scope : CycleScope) {m : Signature}
    (hm : m ∈ g.nodes) :
    (g.forwardTree scope target m).Ordered ∧ (g.forwardTree scope target m).method = some m :=
  Exploration.ordered_tree (fun _ _ hab => hg.mem_nodes_of_mem_callees hab)
    (Exploration.Room.single hm)

/-- No branch is found twice: the walks start at different methods, and each lists its own branches
once. -/
theorem nodup_found (hg : g.Mirrored) (scope : CycleScope) (names : List String) :
    ((g.found scope target (g.entries names)).flatMap (·.2.branches)).Nodup := by
  simp only [found]
  split
  · rcases g.firstLead_eq scope target g.nodes with hnil | ⟨m, hm, heq⟩
    · simp [hnil]
    · rw [heq, branches_lead]
      exact List.Pairwise.filter _ (hg.ordered_forwardTree scope hm).1.nodup_branches
  · have hfilter : ((g.entries names).flatMap (g.lead scope target)).flatMap (·.2.branches) =
        (((g.entries names).map (g.forwardTree scope target)).flatMap
          CallTree.branches).filter (endsAt target) := by
      rw [List.flatMap_assoc, List.flatMap_map, List.filter_flatMap]
      simp only [branches_lead]
    have hmethods : ((g.entries names).map (g.forwardTree scope target)).filterMap method =
        g.entries names := by
      rw [List.filterMap_map]
      refine Eq.trans (List.filterMap_congr fun m hm => ?_) List.filterMap_some
      exact (hg.ordered_forwardTree scope (mem_nodes_of_mem_entries hm)).2
    have hordered : ∀ t ∈ (g.entries names).map (g.forwardTree scope target), t.Ordered :=
      List.forall_mem_map.2 fun m hm =>
        (hg.ordered_forwardTree scope (mem_nodes_of_mem_entries hm)).1
    rw [hfilter]
    refine List.Pairwise.filter _ (Ordered.nodup_flatMap_branches hordered ?_)
    rw [hmethods, entries_eq]
    exact List.Pairwise.filter _ (SortedMap.pairwise_keyList _)

/-- The branches that start at a root are the call paths from a root to the target. -/
theorem mem_found_iff (hg : g.Mirrored) (h : g.contains target) (names : List String)
    {p : List Signature} (hroot : g.isRoot p.head? = true) :
    p ∈ (g.found .pathLocal target (g.entries names)).flatMap (·.2.branches) ↔
      g.IsCallPath p ∧ p.getLast? = some target := by
  constructor
  · intro hp
    obtain ⟨m, hm, hp⟩ := exists_forwardTree_of_mem_found hp
    obtain ⟨hpath, -, hend⟩ := (hg.mem_forwardTree_iff hm).1 hp
    exact ⟨hpath, hend⟩
  · rintro ⟨hpath, hend⟩
    obtain ⟨m, hhead⟩ : ∃ m, p.head? = some m := by
      cases p with
      | nil => simp at hend
      | cons m q => exact ⟨m, rfl⟩
    -- the path starts at the target itself or at a method that calls another one
    have hnode : m ∈ g.nodes := by
      obtain ⟨q, rfl⟩ : ∃ q, p = m :: q := List.head?_eq_some_iff.1 hhead
      cases q with
      | nil =>
        obtain rfl : m = target := by simpa using hend
        exact mem_nodes.2 h
      | cons c q =>
        exact mem_nodes.2 (contains_of_mem_callees (List.isChain_cons_cons.1 hpath.calls).1)
    have hlead : p ∈ (g.lead .pathLocal target m).flatMap (·.2.branches) := by
      rw [branches_lead, List.mem_filter]
      exact (hg.mem_forwardTree_iff hnode).2 ⟨hpath, hhead, hend⟩
    have hmem : p ∈ ((g.entries names).flatMap (g.lead .pathLocal target)).flatMap
        (·.2.branches) := by
      rw [hhead] at hroot
      rw [List.flatMap_assoc]
      have hentry : m ∈ g.entries names :=
        mem_entries_iff.2 ⟨hnode, .inl fun _ => not_mem_callers_of_isRoot hroot⟩
      exact List.mem_flatMap.2 ⟨m, hentry, hlead⟩
    -- so an entry point leads to the target, and no other node is needed
    have hne : (g.entries names).flatMap (g.lead .pathLocal target) ≠ [] := by
      intro hnil
      simp [hnil] at hmem
    simpa [found, hne] using hmem

end Mirrored

/-- Without a visit limit and with cycles cut where a path would repeat a method, caller chains and
entry tree agree: the chains that end at a method without callers, read backwards, are the branches
that start at a method without callers, and neither lists a path twice. -/
theorem callerChains_agree_entryTree (calls : List Edge) (names : List String) (policy : Policy)
    (target : Signature) (hscope : policy.cycleScope = .pathLocal) (hlimit : policy.maxVisits = 0) :
    let g := ofCalls calls
    let chains := ((g.callerChains policy target).chains.filter
      fun p => g.isRoot p.getLast?).map List.reverse
    let branches := (g.entryTree names policy target).root.branches.filter
      fun p => g.isRoot p.head?
    chains.Nodup ∧ branches.Nodup ∧ ∀ p, p ∈ chains ↔ p ∈ branches := by
  intro g chains branches
  have hg : g.Mirrored := mirrored_ofCalls calls
  by_cases h : g.contains target = true
  · have hfree : policy.visitLimit = none := by simp [Policy.visitLimit, hlimit]
    have hchains : (g.callerChains policy target).chains =
        (g.chainTree .pathLocal target).branches := by
      rw [callerChains_of_covers h (hfree ▸ Budget.covers_initial_none _), hscope]
    have hbranches : (g.entryTree names policy target).root.branches =
        (g.found .pathLocal target (g.entries names)).flatMap (·.2.branches) := by
      rw [entryTree_of_covers h names (hfree ▸ Budget.covers_initial_none _), branches_joinTrees,
        List.flatMap_map, hscope]
    simp only [chains, branches, hchains, hbranches]
    refine ⟨?_, List.Pairwise.filter _ (hg.nodup_found .pathLocal names), fun p => ?_⟩
    · exact List.Pairwise.map _ (fun _ _ hne heq => hne (List.reverse_inj.1 heq))
        (List.Pairwise.filter _ (hg.ordered_chainTree .pathLocal h).nodup_branches)
    · rw [List.mem_map_of_involutive List.reverse_involutive, List.mem_filter, List.mem_filter,
        List.getLast?_reverse, and_congr_left_iff]
      intro hroot
      rw [hg.mem_chainTree_iff h (by rwa [List.getLast?_reverse]), List.reverse_reverse,
        List.head?_reverse, hg.mem_found_iff h names hroot]
  · rw [Bool.not_eq_true] at h
    simp [chains, branches, callerChains_of_not_contains h, entryTree_of_not_contains h]

/-- A root and a cycle above the target: two chains end at the root, and the walk around the cycle
ends at none. -/
theorem callerChains_agree_entryTree_cycle :
    let sig := fun name => (⟨"p", "T", name, []⟩ : Signature)
    let calls : List Edge := [⟨sig "r", sig "a"⟩, ⟨sig "a", sig "t"⟩, ⟨sig "r", sig "t"⟩,
      ⟨sig "t", sig "a"⟩, ⟨sig "c", sig "d"⟩, ⟨sig "d", sig "c"⟩, ⟨sig "d", sig "t"⟩]
    let policy : Policy := { maxVisits := 0 }
    let g := ofCalls calls
    let chains := ((g.callerChains policy (sig "t")).chains.filter
      fun p => g.isRoot p.getLast?).map List.reverse
    let branches := (g.entryTree ["d"] policy (sig "t")).root.branches.filter
      fun p => g.isRoot p.head?
    (policy.cycleScope = .pathLocal ∧ policy.maxVisits = 0 ∧
        chains = [[sig "r", sig "a", sig "t"], [sig "r", sig "t"]]) ∧
      chains.Nodup ∧ branches.Nodup ∧ ∀ p, p ∈ chains ↔ p ∈ branches :=
  ⟨by decide, callerChains_agree_entryTree _ ["d"] _ _ rfl rfl⟩

end CallGraph

end CallPaths
