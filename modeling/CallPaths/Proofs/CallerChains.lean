import CallPaths.Proofs.SimplePaths

/-!
# Caller chains and their visit limit

The caller chains of a target are the branches of one ordered tree, that of the backward walk from
the target (`CallGraph.chainTree`).  Where only the path counts for cycles, they are the paths along
callers that repeat no method and go on as long as they can (`CallGraph.IsMaximalChain`).

A visit limit only decides how far the walk goes through the tree: it cuts the list of chains at its
end, and it does so exactly if the tree has more nodes than the limit allows.

## Key results

- `CallGraph.callerChains_maximal`: the chains without a limit, as paths and in their order
- `CallGraph.callerChains_eq`: chains, visits and truncation in terms of the tree
- `CallGraph.callerChains_of_covers`: the chains if the budget lasts
- `CallGraph.callerChains_visitLimit`: runs with different limits compared
-/

namespace CallPaths

/-- Zero is no limit on the visits, and any other number is one. -/
theorem Policy.visitLimit_with (policy : Policy) (k : Nat) :
    ({ policy with maxVisits := k } : Policy).visitLimit = if k = 0 then none else some k := rfl

namespace CallGraph

open CallTree Budget

/-- The tree of the backward walk from a target. -/
def chainTree (g : CallGraph) (scope : CycleScope) (target : Signature) : CallTree :=
  ((g.backwards scope).tree g.nodes.length [target]
    ((∅ : SortedSet Signature).insert target)).1

/-- A method that is no node has no chains. -/
theorem callerChains_of_not_contains {g : CallGraph} {target : Signature}
    (h : g.contains target = false) (policy : Policy) : g.callerChains policy target = {} := by
  simp [callerChains, h]

/-- The chains of a node are the branches of its tree that the budget covers. -/
theorem callerChains_eq {g : CallGraph} {target : Signature} (h : g.contains target)
    (policy : Policy) :
    let r := (g.chainTree policy.cycleScope target).branchesWithin
      ((initial policy.visitLimit).spend 1)
    g.callerChains policy target =
      { chains := r.1, truncated := r.2.exhausted, visits := r.2.used } := by
  have hlists := g.lists_chainsFrom policy.cycleScope g.nodes.length target []
    { toWalk := { budget := (initial policy.visitLimit).spend 1
                  seen := (∅ : SortedSet Signature).insert target } }
    ((∅ : SortedSet Signature).insert target) (fun _ => rfl)
  have hbudget := hlists.budget
  have hfinished := hlists.finished
  simp only [branchesWithinAll, List.append_nil, List.reverse_nil, List.nil_append,
    List.map_id'] at hbudget hfinished
  rw [← List.reverse_eq_iff] at hfinished
  simp only [callerChains, h, if_true, chainTree]
  rw [← hbudget, ← hfinished]
  rfl

/-- The tree of the backward walk is ordered. -/
theorem Mirrored.ordered_chainTree {g : CallGraph} (hg : g.Mirrored) (scope : CycleScope)
    {target : Signature} (h : g.contains target) : (g.chainTree scope target).Ordered :=
  (Exploration.ordered_tree (fun _ _ hab => hg.mem_nodes_of_mem_callers hab)
    (Exploration.Room.single (mem_nodes.2 h))).1

/-! ### Chains are maximal paths -/

/-- A path from a target along callers that repeats no method and cannot go on, since all callers of
its last method are on it. -/
structure IsMaximalChain (g : CallGraph) (target : Signature) (p : List Signature) : Prop where
  starts : p.head? = some target
  nodup : p.Nodup
  callers : p.IsChain fun a b => b ∈ g.callers a
  maximal : ∀ z ∈ p.getLast?, ∀ c ∈ g.callers z, c ∈ p

/-- Where only the path counts, the branches of the backward walk are the maximal chains. -/
theorem Mirrored.mem_chainTree_iff_isMaximalChain {g : CallGraph} (hg : g.Mirrored)
    {target : Signature} (h : g.contains target) {p : List Signature} :
    p ∈ (g.chainTree .pathLocal target).branches ↔ g.IsMaximalChain target p := by
  have hmem := Exploration.mem_branches_tree (x := g.backwards .pathLocal) (p := p) rfl
    (fun _ _ hab => hg.mem_nodes_of_mem_callers hab) (Exploration.Room.single (mem_nodes.2 h))
  rw [chainTree, hmem]
  constructor
  · rintro ⟨hhead, hbranch⟩
    obtain ⟨q, rfl⟩ := List.head?_eq_some_iff.1 hhead
    obtain ⟨hpath, hend⟩ := (Exploration.isBranch_iff (by simp)).1 hbranch
    refine ⟨hhead, hpath.nodup, hpath.steps, fun z hz c hc => ?_⟩
    -- the backward walk never halts, so it ends where it cannot go on
    rcases hend z hz with hhalt | hstuck
    · cases hhalt
    · simpa using hstuck c hc
  · intro hp
    obtain ⟨q, rfl⟩ := List.head?_eq_some_iff.1 hp.starts
    refine ⟨rfl, (Exploration.isBranch_iff (by simp)).2 ⟨⟨hp.callers, hp.nodup, by simp,
      fun _ _ => rfl⟩, fun z hz => .inr fun c hc => .inr (hp.maximal z hz c hc)⟩⟩

/-! ### Runs without and with a limit -/

section Runs

variable {g : CallGraph} {target : Signature} {policy : Policy}

/-- The visits of a walk without a limit. -/
def chainEffort (g : CallGraph) (scope : CycleScope) (target : Signature) : Nat :=
  1 + (g.chainTree scope target).descendants

/-- A walk whose budget pays for the target pays for all visits. -/
private theorem snd_branchesWithin_chainTree {scope : CycleScope} {b : Budget} (hw : b.WithinLimit)
    (h1 : b.Covers 1) :
    ((g.chainTree scope target).branchesWithin (b.spend 1)).2 =
      b.spend (g.chainEffort scope target) := by
  rw [branchesWithin_snd _ (hw.spend 1) ((exhausted_spend 1).2 h1), spend_spend, chainEffort]

/-- If the budget lasts, all branches are listed and all nodes are visited. -/
theorem callerChains_of_covers (h : g.contains target)
    (hc : (initial policy.visitLimit).Covers (g.chainEffort policy.cycleScope target)) :
    g.callerChains policy target =
      { chains := (g.chainTree policy.cycleScope target).branches
        truncated := false
        visits := g.chainEffort policy.cycleScope target } := by
  have hw := withinLimit_initial policy.visitLimit
  obtain ⟨h1, hcov⟩ := covers_add.1 hc
  rw [callerChains_eq h, branchesWithin_of_covered _ (hw.spend 1) hcov,
    snd_branchesWithin_chainTree hw h1, spend_of_covers hc]
  simp [initial]

/-- Without a limit, all branches are listed and all nodes are visited. -/
theorem callerChains_of_unlimited (h : g.contains target) (hlimit : policy.maxVisits = 0) :
    g.callerChains policy target =
      { chains := (g.chainTree policy.cycleScope target).branches
        truncated := false
        visits := g.chainEffort policy.cycleScope target } := by
  have hfree : policy.visitLimit = none := by simp [Policy.visitLimit, hlimit]
  exact callerChains_of_covers h (hfree ▸ covers_initial_none _)

/-- Visits are counted up to the limit, which is reached exactly if there are more. -/
private theorem callerChains_limited (h : g.contains target) {l : Nat}
    (hp : policy.visitLimit = some l) (hl : 1 ≤ l) :
    (g.callerChains policy target).visits = min l (g.chainEffort policy.cycleScope target) ∧
      ((g.callerChains policy target).truncated = true ↔
        l < g.chainEffort policy.cycleScope target) := by
  rw [callerChains_eq h, hp]
  simp only [snd_branchesWithin_chainTree (withinLimit_initial _) (covers_initial_some.2 hl)]
  exact ⟨used_spend_initial _ _, exhausted_spend_initial⟩

/-- A limit that is reached leaves out a chain: there is one below every node that is not
entered. -/
private theorem Mirrored.length_chains_lt (hg : g.Mirrored) (h : g.contains target) {l : Nat}
    (hp : policy.visitLimit = some l) (hl : 1 ≤ l)
    (hlt : l < g.chainEffort policy.cycleScope target) :
    (g.callerChains policy target).chains.length <
      (g.chainTree policy.cycleScope target).branches.length := by
  have h1 : (initial (some l)).Covers 1 := covers_initial_some.2 hl
  rw [callerChains_eq h, hp]
  refine length_branchesWithin_lt _ (hg.ordered_chainTree _ h).named
    ((withinLimit_initial _).spend 1) ((exhausted_spend 1).2 h1) fun hcov => ?_
  exact absurd (covers_initial_some.1 (covers_add.2 ⟨h1, hcov⟩)) (Nat.not_le.2 hlt)

/-- With a higher limit the same chains are listed first. -/
private theorem chains_prefix_of_le (h : g.contains target) {policy' : Policy}
    (hscope : policy'.cycleScope = policy.cycleScope) {l : Nat} (hp : policy.visitLimit = some l)
    (hl : 1 ≤ l) (hle : ∀ l' ∈ policy'.visitLimit, l ≤ l') :
    (g.callerChains policy target).chains <+: (g.callerChains policy' target).chains := by
  rw [callerChains_eq h, callerChains_eq h, hp, hscope]
  exact branchesWithin_prefix_of_tighter _ ((withinLimit_initial _).spend 1)
    ((withinLimit_initial _).spend 1) ((tighter_initial hle).spend (covers_initial_some.2 hl))

end Runs

/-- Without a visit limit and where only the path counts for cycles, the chains of a node are
exactly its maximal chains, each listed once and all in increasing lexicographic order, and nothing
is cut off.  A method that is no node has no chains. -/
theorem callerChains_maximal (calls : List Edge) (policy : Policy) (target : Signature)
    (hscope : policy.cycleScope = .pathLocal) (hlimit : policy.maxVisits = 0) :
    let g := ofCalls calls
    let run := g.callerChains policy target
    (g.contains target = true →
        run.truncated = false ∧ (∀ p, p ∈ run.chains ↔ g.IsMaximalChain target p) ∧
          run.chains.Nodup ∧ run.chains.Pairwise (List.Lex Before)) ∧
      (g.contains target = false → run.chains = []) := by
  intro g run
  have hg : g.Mirrored := mirrored_ofCalls calls
  refine ⟨fun h => ?_, fun h => ?_⟩
  · have hrun : run = _ := callerChains_of_unlimited h hlimit
    have hordered := hg.ordered_chainTree .pathLocal h
    rw [hrun, hscope]
    exact ⟨rfl, fun p => hg.mem_chainTree_iff_isMaximalChain h, hordered.nodup_branches,
      hordered.pairwise_lex_branches⟩
  · have hrun : run = {} := callerChains_of_not_contains h policy
    rw [hrun]

/-- A method that calls itself, a cycle through the target and two ways up to one root. -/
theorem callerChains_maximal_cycle :
    let sig := fun name => (⟨"p", "T", name, []⟩ : Signature)
    let calls : List Edge := [⟨sig "b", sig "t"⟩, ⟨sig "a", sig "t"⟩, ⟨sig "t", sig "a"⟩,
      ⟨sig "a", sig "a"⟩, ⟨sig "r", sig "a"⟩, ⟨sig "r", sig "b"⟩]
    let policy : Policy := { maxVisits := 0 }
    let g := ofCalls calls
    let run := g.callerChains policy (sig "t")
    (policy.cycleScope = .pathLocal ∧ policy.maxVisits = 0 ∧ g.contains (sig "t") = true ∧
        run.chains = [[sig "t", sig "a", sig "r"], [sig "t", sig "b", sig "r"]]) ∧
      (g.contains (sig "t") = true →
        run.truncated = false ∧ (∀ p, p ∈ run.chains ↔ g.IsMaximalChain (sig "t") p) ∧
          run.chains.Nodup ∧ run.chains.Pairwise (List.Lex Before)) ∧
      (g.contains (sig "t") = false → run.chains = []) :=
  ⟨by decide, callerChains_maximal _ _ _ rfl rfl⟩

/-- Runs with visit limits `m ≤ n` and without a limit, where zero is no limit: the chains of the
lower limit come first in those of the higher one, visits are counted up to the limit, and a run is
truncated exactly if more visits are needed, which is exactly if it leaves out a chain. -/
theorem callerChains_visitLimit (calls : List Edge) (policy : Policy) (target : Signature)
    (m n : Nat) (hm : 1 ≤ m) (hn : n = 0 ∨ m ≤ n) :
    let run := fun k => (ofCalls calls).callerChains { policy with maxVisits := k } target
    (run m).chains <+: (run n).chains ∧
      (run m).visits = min m (run 0).visits ∧
      ((run m).truncated = true ↔ m < (run 0).visits) ∧
      ((run m).truncated = true ↔
        (run m).chains <+: (run 0).chains ∧ (run m).chains ≠ (run 0).chains) := by
  intro run
  by_cases h : (ofCalls calls).contains target = true
  · have hg := mirrored_ofCalls calls
    have hpm : ({ policy with maxVisits := m } : Policy).visitLimit = some m := by
      rw [Policy.visitLimit_with, if_neg (by omega)]
    have hfree : run 0 = _ := callerChains_of_covers h (covers_initial_none _)
    obtain ⟨hvisits, htruncated⟩ := callerChains_limited h hpm hm
    have hle : ∀ k, k = 0 ∨ m ≤ k → (run m).chains <+: (run k).chains := by
      intro k hk
      refine chains_prefix_of_le h rfl hpm hm fun l' hl' => ?_
      rw [Policy.visitLimit_with] at hl'
      split at hl'
      · cases hl'
      · cases hl'
        omega
    refine ⟨hle n hn, ?_, ?_, ?_⟩
    · rw [hfree]
      exact hvisits
    · rw [hfree]
      exact htruncated
    · refine htruncated.trans ⟨fun hlt => ⟨hle 0 (.inl rfl), fun heq => ?_⟩, fun hne => ?_⟩
      · -- a run that leaves out a chain lists fewer of them
        have hlen := hg.length_chains_lt h hpm hm hlt
        rw [hfree] at heq
        exact absurd (congrArg List.length heq) (Nat.ne_of_lt hlen)
      · apply Nat.lt_of_not_le
        intro hcov
        apply hne.2
        have hlimited : run m = _ := callerChains_of_covers h (by
          rw [hpm]
          exact covers_initial_some.2 hcov)
        rw [hfree, hlimited]
  · rw [Bool.not_eq_true] at h
    simp [run, callerChains_of_not_contains h]

/-- Two callers of one method, one of which calls itself: a limit of two visits refuses both
callers, a limit of three is enough. -/
theorem callerChains_visitLimit_two_callers :
    let sig := fun name => (⟨"p", "T", name, []⟩ : Signature)
    let calls : List Edge := [⟨sig "a", sig "t"⟩, ⟨sig "b", sig "t"⟩, ⟨sig "a", sig "a"⟩]
    let run := fun k => (ofCalls calls).callerChains { maxVisits := k } (sig "t")
    (1 ≤ 2 ∧ (3 = 0 ∨ 2 ≤ 3) ∧ (run 2).truncated = true ∧ (run 3).truncated = false) ∧
      (run 2).chains <+: (run 3).chains ∧
      (run 2).visits = min 2 (run 0).visits ∧
      ((run 2).truncated = true ↔ 2 < (run 0).visits) ∧
      ((run 2).truncated = true ↔
        (run 2).chains <+: (run 0).chains ∧ (run 2).chains ≠ (run 0).chains) :=
  ⟨by decide, callerChains_visitLimit _ {} _ 2 3 (by decide) (by decide)⟩

end CallGraph

end CallPaths
