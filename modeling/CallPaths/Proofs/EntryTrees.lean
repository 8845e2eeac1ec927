import CallPaths.Proofs.CallerChains

/-!
# Entry trees and their visit limit

The tree of calls from one method to the target is the pruned tree of the forward walk from the
method (`CallGraph.forwardTree`).  The search goes through the entry points and, if none of them
leads to the target, through all nodes up to the first one that does; one budget pays for all walks.

As for chains, a visit limit only decides how far the search goes: what a search finds is the same
for all limits (`CallGraph.found`), and so is the number of visits it takes (`CallGraph.effort`).
A search whose budget runs out comes to the first of these methods, and to the first of the branches
of their trees.

## Key results

- `CallGraph.searched_search`: what a search finds and pays for
- `CallGraph.entryTree_of_covers`: the entry tree if the budget lasts
- `CallGraph.entryTree_visitLimit`: runs with and without a limit compared
-/

namespace CallPaths

namespace CallGraph

open CallTree Budget

/-- The branches of joined trees are those of the trees. -/
theorem branches_joinTrees (ts : List CallTree) :
    (joinTrees ts).branches = ts.flatMap branches := by
  match ts with
  | [] => exact branches_node_none []
  | [t] => simp [joinTrees]
  | t :: t' :: ts => exact branches_node_none _

/-! ### What there is to find -/

section Found

variable (g : CallGraph) (scope : CycleScope) (target : Signature)

/-- The tree of the forward walk from a method. -/
def forwardTree (entry : Signature) : CallTree :=
  ((g.forwards scope target).tree g.nodes.length [entry]
    ((∅ : SortedSet Signature).insert entry)).1

/-- A method with the pruned tree of its forward walk, if it leads to the target. -/
def lead (entry : Signature) : List (Signature × CallTree) :=
  ((g.forwardTree scope target entry).prune target).toList.map fun t => (entry, t)

/-- The visits of the forward walk from a method. -/
def leadEffort (entry : Signature) : Nat :=
  1 + (g.forwardTree scope target entry).descendants

/-- The visits of the forward walks from several methods. -/
def leadsEffort : List Signature → Nat
  | [] => 0
  | m :: ms => g.leadEffort scope target m + leadsEffort ms

/-- The first of some methods that leads to the target. -/
def firstLead : List Signature → List (Signature × CallTree)
  | [] => []
  | m :: ms => if (g.lead scope target m).isEmpty then firstLead ms else g.lead scope target m

/-- The visits up to the first of some methods that leads to the target. -/
def firstLeadEffort : List Signature → Nat
  | [] => 0
  | m :: ms =>
    g.leadEffort scope target m +
      if (g.lead scope target m).isEmpty then firstLeadEffort ms else 0

/-- The methods whose trees an entry tree consists of, with these trees: those of the given entry
points that lead to the target or, if there are none, the first node that does. -/
def found (entries : List Signature) : List (Signature × CallTree) :=
  let leads := entries.flatMap (g.lead scope target)
  if leads.isEmpty then g.firstLead scope target g.nodes else leads

/-- The visits that finding these trees takes. -/
def effort (entries : List Signature) : Nat :=
  g.leadsEffort scope target entries +
    if (entries.flatMap (g.lead scope target)).isEmpty
    then g.firstLeadEffort scope target g.nodes else 0

/-- The branches of what a method leads to are those of its forward walk that end at the target. -/
theorem branches_lead (m : Signature) :
    (g.lead scope target m).flatMap (·.2.branches) =
      (g.forwardTree scope target m).branches.filter (endsAt target) := by
  rw [lead, List.flatMap_map, branches_prune]

/-- The first method that leads to the target, if there is one, is one of the methods. -/
theorem firstLead_eq (ms : List Signature) :
    g.firstLead scope target ms = [] ∨
      ∃ m ∈ ms, g.firstLead scope target ms = g.lead scope target m := by
  induction ms with
  | nil => exact .inl rfl
  | cons m ms ih =>
    rw [firstLead]
    split
    · refine ih.imp_right fun ⟨m', hm', h⟩ => ⟨m', by simp [hm'], h⟩
    · exact .inr ⟨m, by simp, rfl⟩

end Found

/-! ### Searches within a budget -/

/-- A search has paid for its visits and comes to the first of the trees there are to find, possibly
to a part of the last one; if its budget covers the visits, it finds all of them.  All nodes of the
trees have methods. -/
structure Searched (found : List (Signature × CallTree)) (effort : Nat) (b : Budget)
    (r : List (Signature × CallTree) × Budget) : Prop where
  budget : r.2 = b.spend effort
  complete : b.Covers effort → r.1 = found
  methods : r.1.map (·.1) <+: found.map (·.1)
  branches : r.1.flatMap (·.2.branches) <+: found.flatMap (·.2.branches)
  named : ∀ f ∈ r.1, f.2.Named

namespace Searched

variable {found found' : List (Signature × CallTree)} {effort effort' : Nat} {b : Budget}
  {r r' : List (Signature × CallTree) × Budget}

/-- A search for nothing. -/
theorem nil (hw : b.WithinLimit) : Searched [] 0 b ([], b) where
  budget := (spend_zero hw).symm
  complete _ := rfl
  methods := List.nil_prefix
  branches := List.nil_prefix
  named := by simp

/-- A search whose budget lasted can afford its visits. -/
theorem covers (h : Searched found effort b r) (hr : r.2.exhausted = false) : b.Covers effort := by
  rw [h.budget] at hr
  exact (exhausted_spend effort).1 hr

/-- A search whose budget ran out does not come to what is behind. -/
private theorem stop (h : Searched found effort b r) (hb : b.exhausted = false)
    (hr : r.2.exhausted = true) (found' : List (Signature × CallTree)) (effort' : Nat) :
    Searched (found ++ found') (effort + effort') b r := by
  have hc : ¬ b.Covers effort := by
    rw [← exhausted_spend, ← h.budget, hr]
    simp
  refine ⟨?_, fun hall => absurd (covers_add.1 hall).1 hc, ?_, ?_, h.named⟩
  · rw [spend_add_of_not_covers hb hc, h.budget]
  · rw [List.map_append]
    exact h.methods.trans (List.prefix_append _ _)
  · rw [List.flatMap_append]
    exact h.branches.trans (List.prefix_append _ _)

/-- A search whose budget lasted goes on. -/
theorem append (h : Searched found effort b r) (hr : r.2.exhausted = false)
    (h' : Searched found' effort' r.2 r') :
    Searched (found ++ found') (effort + effort') b (r.1 ++ r'.1, r'.2) := by
  have hall := h.complete (h.covers hr)
  refine ⟨?_, fun hc => ?_, ?_, ?_, List.forall_mem_append.2 ⟨h.named, h'.named⟩⟩
  · rw [h'.budget, h.budget, spend_spend]
  · rw [h.budget] at h'
    rw [hall, h'.complete (covers_add.1 hc).2]
  · rw [hall, List.map_append, List.map_append]
    exact (List.prefix_append_right_inj _).2 h'.methods
  · rw [hall, List.flatMap_append, List.flatMap_append]
    exact (List.prefix_append_right_inj _).2 h'.branches

end Searched

section Search

variable (g : CallGraph) (scope : CycleScope) (target : Signature) {b : Budget}

/-- A walk that grows through the tree of a method, once the method is paid for, is a search for
what the method leads to. -/
private theorem searched_of_grows {entry : Signature} {seen : SortedSet Signature} {w w' : Walk}
    {t : Option CallTree} (hw : b.WithinLimit) (h1 : b.Covers 1) (hpaid : w.budget = b.spend 1)
    (h : Walk.Grows target [g.forwardTree scope target entry] seen w w' t.toList) :
    Searched (g.lead scope target entry) (g.leadEffort scope target entry) b
      (t.toList.map fun t => (entry, t), w'.budget) := by
  have hbudget : w'.budget = b.spend (g.leadEffort scope target entry) := by
    rw [h.budget, hpaid, branchesWithinAll_snd _ (hw.spend 1) ((exhausted_spend 1).2 h1),
      spend_spend]
    rfl
  have hbranches : t.toList.flatMap CallTree.branches <+:
      (g.lead scope target entry).flatMap (·.2.branches) := by
    have hall := branchesWithinAll_prefix_branchesAll [g.forwardTree scope target entry]
      (hw.spend 1)
    rw [h.branches, hpaid, branches_lead]
    simpa [branchesAll] using hall.filter (endsAt target)
  refine ⟨hbudget, fun hc => ?_, ?_, ?_, ?_⟩
  · rw [(h.complete (by rw [hbudget]; exact (exhausted_spend _).2 hc)).1]
    simp [pruneAll, lead]
  · -- what grows has a branch, and this is a branch of the pruned tree, which is there then
    cases t with
    | none => exact List.nil_prefix
    | some t =>
      cases hp : (g.forwardTree scope target entry).prune target with
      | none =>
        have hne := (h.named t (by simp)).branches_ne_nil
        simp [lead, hp, hne] at hbranches
      | some t' => simp [lead, hp]
  · simpa [List.flatMap_map] using hbranches
  · simpa using h.named

/-- Growing the tree of one method. -/
private theorem searched_grow (entry : Signature) (hw : b.WithinLimit) (hb : b.exhausted = false) :
    Searched (g.lead scope target entry) (g.leadEffort scope target entry) b
      ((g.grow scope target entry b).1.toList.map fun t => (entry, t),
        (g.grow scope target entry b).2) := by
  by_cases h1 : b.Covers 1
  · have hgrow : g.grow scope target entry b =
        let r := g.growFrom scope target g.nodes.length [entry]
          { budget := b.spend 1, seen := (∅ : SortedSet Signature).insert entry }
        (r.1, r.2.budget) := by
      simp only [grow, (exhausted_spend 1).2 h1, Bool.false_eq_true, if_false]
    rw [hgrow]
    exact g.searched_of_grows scope target hw h1 rfl
      (g.grows_growFrom scope g.nodes.length entry [] _ _ (hw.spend 1) fun _ => rfl)
  · have hgrow : g.grow scope target entry b = (none, b.spend 1) := by
      rw [← exhausted_spend, Bool.not_eq_false] at h1
      simp [grow, h1]
    rw [hgrow]
    refine ⟨?_, fun hc => absurd (covers_add.1 hc).1 h1, List.nil_prefix, List.nil_prefix, by simp⟩
    rw [leadEffort, spend_add_of_not_covers hb h1]

/-- Growing the trees of several methods. -/
private theorem searched_growAll (ms : List Signature) (hw : b.WithinLimit)
    (hb : b.exhausted = false) :
    Searched (ms.flatMap (g.lead scope target)) (g.leadsEffort scope target ms) b
      (g.growAll scope target ms b) := by
  induction ms generalizing b with
  | nil => exact .nil hw
  | cons m ms ih =>
    have hgrow := g.searched_grow scope target m hw hb
    rw [List.flatMap_cons, leadsEffort]
    by_cases hex : (g.grow scope target m b).2.exhausted = true
    · -- the budget ran out, and the other methods are not looked at
      simp only [growAll, hex, if_true]
      exact hgrow.stop hb hex _ _
    · rw [Bool.not_eq_true] at hex
      have hw' : (g.grow scope target m b).2.WithinLimit := by
        rw [hgrow.budget]
        exact hw.spend _
      simp only [growAll, hex, Bool.false_eq_true, if_false]
      exact hgrow.append hex (ih hw' hex)

/-- Growing the tree of the first method that leads to the target. -/
private theorem searched_growFirst (ms : List Signature) (hw : b.WithinLimit)
    (hb : b.exhausted = false) :
    Searched (g.firstLead scope target ms) (g.firstLeadEffort scope target ms) b
      (g.growFirst scope target ms b) := by
  induction ms generalizing b with
  | nil => exact .nil hw
  | cons m ms ih =>
    have hgrow := g.searched_grow scope target m hw hb
    rw [growFirst, firstLead, firstLeadEffort]
    cases hr : g.grow scope target m b with
    | mk t b' =>
      rw [hr] at hgrow
      cases t with
      | some t =>
        -- the method was found, so it leads to the target
        have hne : g.lead scope target m ≠ [] := by
          intro hnil
          simpa [hnil] using hgrow.methods
        simpa [hne] using hgrow
      | none =>
        by_cases hex : b'.exhausted = true
        · -- the method may lead to the target or not; the budget ran out before that was known
          simp only [hex, if_true]
          by_cases hnil : g.lead scope target m = []
          · have hstop := hgrow.stop hb hex (g.firstLead scope target ms)
              (g.firstLeadEffort scope target ms)
            simpa [hnil] using hstop
          · simpa [hnil] using hgrow
        · -- the whole tree of the method was grown, so it does not lead to the target
          rw [Bool.not_eq_true] at hex
          have hnil : g.lead scope target m = [] :=
            (hgrow.complete (hgrow.covers hex)).symm
          have hw' : b'.WithinLimit := by
            rw [show b' = _ from hgrow.budget]
            exact hw.spend _
          simp only [hex, Bool.false_eq_true, if_false]
          simpa [hnil] using hgrow.append hex (ih hw' hex)

/-- The trees that a search finds, with the budget after it. -/
def search (entries : List Signature) (b : Budget) : List (Signature × CallTree) × Budget :=
  let r := g.growAll scope target entries b
  if r.1.isEmpty && !r.2.exhausted then g.growFirst scope target g.nodes r.2 else r

/-- The search among the entry points and, if need be, among all nodes. -/
theorem searched_search (entries : List Signature) (hw : b.WithinLimit)
    (hb : b.exhausted = false) :
    Searched (g.found scope target entries) (g.effort scope target entries) b
      (g.search scope target entries b) := by
  have hall := g.searched_growAll scope target entries hw hb
  rw [search, found, effort]
  generalize g.growAll scope target entries b = r at hall ⊢
  cases hex : r.2.exhausted with
  | true =>
    -- there is no fallback, but the visits that one would take do not count any more either
    by_cases hnil : entries.flatMap (g.lead scope target) = []
    · have hstop := hall.stop hb hex (g.firstLead scope target g.nodes)
        (g.firstLeadEffort scope target g.nodes)
      simpa [hnil] using hstop
    · simpa [hnil] using hall
  | false =>
    have hr := hall.complete (hall.covers hex)
    by_cases hnil : entries.flatMap (g.lead scope target) = []
    · -- no entry point leads to the target
      have hw' : r.2.WithinLimit := by
        rw [hall.budget]
        exact hw.spend _
      have happ := hall.append hex (g.searched_growFirst scope target g.nodes hw' hex)
      simpa [hr, hnil] using happ
    · simpa [hr, hnil] using hall

end Search

/-! ### Entry trees -/

/-- The methods that are entry points. -/
def entries (g : CallGraph) (names : List String) : List Signature :=
  (g.entryPoints names).map (·.signature)

/-- The entry points are chosen from the nodes in order. -/
theorem entries_eq (g : CallGraph) (names : List String) :
    g.entries names =
      g.nodes.filter fun m => g.inDegree m = 0 || names.contains m.method := by
  rw [entries, entryPoints, List.map_filterMap, ← List.filterMap_eq_filter]
  congr 1
  funext m
  by_cases hroot : g.inDegree m = 0
  · simp [entryPoint?, hroot, Option.guard]
  · by_cases hname : m.method ∈ names
    · simp [entryPoint?, hroot, hname, Option.guard]
    · simp [entryPoint?, hroot, hname, Option.guard]

/-- The entry points are the nodes that nobody calls and those that have one of the names. -/
theorem mem_entries_iff {g : CallGraph} {names : List String} {m : Signature} :
    m ∈ g.entries names ↔ m ∈ g.nodes ∧ ((∀ c, c ∉ g.callers m) ∨ m.method ∈ names) := by
  have hroot : g.inDegree m = 0 ↔ ∀ c, c ∉ g.callers m := by
    rw [inDegree, SortedSet.size, List.length_eq_zero_iff, List.eq_nil_iff_forall_not_mem]
    rfl
  simp [entries_eq, hroot]

/-- Entry points are nodes. -/
theorem mem_nodes_of_mem_entries {g : CallGraph} {names : List String} {m : Signature}
    (h : m ∈ g.entries names) : m ∈ g.nodes :=
  (mem_entries_iff.1 h).1

variable {g : CallGraph} {target : Signature}

/-- A method that is no node has the empty tree. -/
theorem entryTree_of_not_contains (h : g.contains target = false) (names : List String)
    (policy : Policy) : g.entryTree names policy target = {} := by
  simp [entryTree, h]

/-- The entry tree of a node joins the trees that the search finds. -/
theorem entryTree_eq (h : g.contains target) (names : List String) (policy : Policy) :
    let b := initial policy.visitLimit
    let leads := g.growAll policy.cycleScope target (g.entries names) b
    let r := g.search policy.cycleScope target (g.entries names) b
    g.entryTree names policy target =
      { root := joinTrees (r.1.map (·.2))
        entryPoints := r.1.map (·.1)
        usedFallback := leads.1.isEmpty && !leads.2.exhausted && !r.1.isEmpty
        truncated := r.2.exhausted
        visits := r.2.used } := by
  intro b leads r
  by_cases hc : (leads.1.isEmpty && !leads.2.exhausted) = true
  · have hr : r = g.growFirst policy.cycleScope target g.nodes leads.2 := if_pos hc
    rw [hr, hc, Bool.true_and]
    simp only [leads, b, entries, initial] at hc
    simp only [entryTree, h, if_true, hc]
    rfl
  · have hr : r = leads := if_neg hc
    rw [Bool.not_eq_true] at hc
    rw [hr, hc, Bool.false_and]
    simp only [leads, b, entries, initial] at hc
    simp only [entryTree, h, if_true, hc, Bool.false_eq_true, if_false]
    rfl

/-- The entry tree if the budget lasts. -/
theorem entryTree_of_covers (h : g.contains target) (names : List String) {policy : Policy}
    (hc : (initial policy.visitLimit).Covers
      (g.effort policy.cycleScope target (g.entries names))) :
    let found := g.found policy.cycleScope target (g.entries names)
    let leads := (g.entries names).flatMap (g.lead policy.cycleScope target)
    g.entryTree names policy target =
      { root := joinTrees (found.map (·.2))
        entryPoints := found.map (·.1)
        usedFallback := leads.isEmpty && !found.isEmpty
        truncated := false
        visits := g.effort policy.cycleScope target (g.entries names) } := by
  intro found leads
  have hw := withinLimit_initial policy.visitLimit
  have hall := g.searched_growAll policy.cycleScope target (g.entries names) hw rfl
  have hsearch := g.searched_search policy.cycleScope target (g.entries names) hw rfl
  have hleads := (covers_add.1 hc).1
  rw [entryTree_eq h]
  simp only [hall.complete hleads, hall.budget, hsearch.complete hc, hsearch.budget,
    (exhausted_spend _).2 hleads, spend_of_covers hc]
  simp [found, leads, initial]

/-- The entry tree without a visit limit. -/
theorem entryTree_of_unlimited (h : g.contains target) (names : List String) {policy : Policy}
    (hlimit : policy.maxVisits = 0) :
    let found := g.found policy.cycleScope target (g.entries names)
    let leads := (g.entries names).flatMap (g.lead policy.cycleScope target)
    g.entryTree names policy target =
      { root := joinTrees (found.map (·.2))
        entryPoints := found.map (·.1)
        usedFallback := leads.isEmpty && !found.isEmpty
        truncated := false
        visits := g.effort policy.cycleScope target (g.entries names) } := by
  have hfree : policy.visitLimit = none := by simp [Policy.visitLimit, hlimit]
  exact entryTree_of_covers h names (hfree ▸ covers_initial_none _)

/-! ### Runs without and with a limit -/

/-- What is found is what some node leads to. -/
theorem exists_lead_of_mem_found {scope : CycleScope} {names : List String}
    {f : Signature × CallTree} (h : f ∈ g.found scope target (g.entries names)) :
    ∃ m ∈ g.nodes, f ∈ g.lead scope target m := by
  simp only [found] at h
  split at h
  · rcases g.firstLead_eq scope target g.nodes with hnil | ⟨m, hm, heq⟩
    · simp [hnil] at h
    · exact ⟨m, hm, heq ▸ h⟩
  · obtain ⟨m, hm, hf⟩ := List.mem_flatMap.1 h
    exact ⟨m, mem_nodes_of_mem_entries hm, hf⟩

/-- Every branch that is found is one of a forward walk from a node, and it ends at the target. -/
theorem exists_forwardTree_of_mem_found {scope : CycleScope} {names : List String}
    {p : List Signature}
    (h : p ∈ (g.found scope target (g.entries names)).flatMap (·.2.branches)) :
    ∃ m ∈ g.nodes, p ∈ (g.forwardTree scope target m).branches ∧ endsAt target p := by
  obtain ⟨f, hf, hp⟩ := List.mem_flatMap.1 h
  obtain ⟨m, hm, hf⟩ := exists_lead_of_mem_found hf
  have hlead : p ∈ (g.lead scope target m).flatMap (·.2.branches) :=
    List.mem_flatMap.2 ⟨f, hf, hp⟩
  rw [branches_lead, List.mem_filter] at hlead
  exact ⟨m, hm, hlead⟩

/-- Visits are counted up to the limit, which is reached exactly if there are more. -/
private theorem entryTree_limited (h : g.contains target) (names : List String) {policy : Policy}
    {l : Nat} (hp : policy.visitLimit = some l) :
    let effort := g.effort policy.cycleScope target (g.entries names)
    (g.entryTree names policy target).visits = min l effort ∧
      ((g.entryTree names policy target).truncated = true ↔ l < effort) := by
  have hsearch := g.searched_search policy.cycleScope target (g.entries names)
    (withinLimit_initial policy.visitLimit) rfl
  rw [entryTree_eq h]
  simp only [hsearch.budget]
  rw [hp]
  exact ⟨used_spend_initial _ _, exhausted_spend_initial⟩

/-- Whatever the limit, the entry points are the first of the methods there are to find. -/
private theorem entryPoints_entryTree (h : g.contains target) (names : List String)
    (policy : Policy) : (g.entryTree names policy target).entryPoints <+:
      (g.found policy.cycleScope target (g.entries names)).map (·.1) := by
  rw [entryTree_eq h]
  exact (g.searched_search policy.cycleScope target (g.entries names)
    (withinLimit_initial policy.visitLimit) rfl).methods

/-- Whatever the limit, the branches are the first of those there are to find. -/
private theorem branches_entryTree (h : g.contains target) (names : List String) (policy : Policy) :
    (g.entryTree names policy target).root.branches <+:
      (g.found policy.cycleScope target (g.entries names)).flatMap (·.2.branches) := by
  rw [entryTree_eq h]
  simp only [branches_joinTrees, List.flatMap_map]
  exact (g.searched_search policy.cycleScope target (g.entries names)
    (withinLimit_initial policy.visitLimit) rfl).branches

/-- Whatever the limit, another node takes the place of the entry points only if none of them leads
to the target and the node does. -/
private theorem usedFallback_entryTree (h : g.contains target) (names : List String)
    (policy : Policy) (hused : (g.entryTree names policy target).usedFallback = true) :
    (g.entries names).flatMap (g.lead policy.cycleScope target) = [] ∧
      g.found policy.cycleScope target (g.entries names) ≠ [] := by
  have hw := withinLimit_initial policy.visitLimit
  have hall := g.searched_growAll policy.cycleScope target (g.entries names) hw rfl
  have hsearch := g.searched_search policy.cycleScope target (g.entries names) hw rfl
  rw [entryTree_eq h] at hused
  simp only [Bool.and_eq_true, Bool.not_eq_true', List.isEmpty_iff,
    List.isEmpty_eq_false_iff] at hused
  obtain ⟨⟨hnil, hlasted⟩, hne⟩ := hused
  refine ⟨by rw [← hall.complete (hall.covers hlasted), hnil], fun hfound => hne ?_⟩
  have hmethods := hsearch.methods
  rw [hfound, List.map_nil, List.prefix_nil, List.map_eq_nil_iff] at hmethods
  exact hmethods

/-- A run with a visit limit `m` and a run without one: visits are counted up to the limit, and the
limited run is truncated exactly if more visits are needed.  If it is not, both runs agree.  If it
is, its entry points come first in those of the other run, it falls back to another node only if the
other run does, and each of its branches ends at the target and is a branch of the other tree. -/
theorem entryTree_visitLimit (calls : List Edge) (names : List String) (policy : Policy)
    (target : Signature) (m : Nat) (hm : 1 ≤ m) :
    let run := fun k => (ofCalls calls).entryTree names { policy with maxVisits := k } target
    (run m).visits = min m (run 0).visits ∧
      ((run m).truncated = true ↔ m < (run 0).visits) ∧
      ((run m).truncated = false → run m = run 0) ∧
      ((run m).truncated = true →
        (run m).entryPoints <+: (run 0).entryPoints ∧
          ((run m).usedFallback = true → (run 0).usedFallback = true) ∧
          ∀ p ∈ (run m).root.branches,
            p.getLast? = some target ∧ p ∈ (run 0).root.branches) := by
  intro run
  by_cases h : (ofCalls calls).contains target = true
  · have hpm : ({ policy with maxVisits := m } : Policy).visitLimit = some m := by
      rw [Policy.visitLimit_with, if_neg (by omega)]
    have hfree : run 0 = _ := entryTree_of_covers h names (covers_initial_none _)
    obtain ⟨hvisits, htruncated⟩ := entryTree_limited h names hpm
    refine ⟨?_, ?_, fun hlasted => ?_, fun _ => ⟨?_, fun hused => ?_, fun p hp => ?_⟩⟩
    · rw [hfree]
      exact hvisits
    · rw [hfree]
      exact htruncated
    · -- the limit covers the visits, so what is found is the same
      have hle : _ ≤ m := Nat.le_of_not_lt (fun hlt => by
        have htrue : (run m).truncated = true := htruncated.2 hlt
        rw [hlasted] at htrue
        cases htrue)
      have hlimited : run m = _ := entryTree_of_covers h names (by
        rw [hpm]
        exact covers_initial_some.2 hle)
      rw [hfree, hlimited]
    · rw [hfree]
      exact entryPoints_entryTree h names _
    · obtain ⟨hnil, hne⟩ := usedFallback_entryTree h names _ hused
      rw [hfree]
      simpa [hnil] using hne
    · have hmem := (branches_entryTree h names _).subset hp
      have hroot : p ∈ (run 0).root.branches := by
        rw [hfree, branches_joinTrees, List.flatMap_map]
        exact hmem
      obtain ⟨e, -, -, hend⟩ := exists_forwardTree_of_mem_found hmem
      exact ⟨of_decide_eq_true hend, hroot⟩
  · rw [Bool.not_eq_true] at h
    simp [run, entryTree_of_not_contains h]

/-- Two entry points, the first of which is called in a cycle: four visits are enough for the tree
of the first one, and the search is truncated before that of the second. -/
theorem entryTree_visitLimit_two_entries :
    let sig := fun name => (⟨"p", "T", name, []⟩ : Signature)
    let calls : List Edge := [⟨sig "a", sig "t"⟩, ⟨sig "b", sig "t"⟩, ⟨sig "a", sig "c"⟩,
      ⟨sig "c", sig "t"⟩, ⟨sig "c", sig "a"⟩]
    let run := fun k => (ofCalls calls).entryTree ["a"] { maxVisits := k } (sig "t")
    (1 ≤ 4 ∧ (run 4).truncated = true ∧
        (run 4).root.branches = [[sig "a", sig "c", sig "t"], [sig "a", sig "t"]] ∧
        (run 0).visits = 6) ∧
      (run 4).visits = min 4 (run 0).visits ∧
      ((run 4).truncated = true ↔ 4 < (run 0).visits) ∧
      ((run 4).truncated = false → run 4 = run 0) ∧
      ((run 4).truncated = true →
        (run 4).entryPoints <+: (run 0).entryPoints ∧
          ((run 4).usedFallback = true → (run 0).usedFallback = true) ∧
          ∀ p ∈ (run 4).root.branches,
            p.getLast? = some (sig "t") ∧ p ∈ (run 0).root.branches) :=
  ⟨by decide, entryTree_visitLimit _ ["a"] {} _ 4 (by decide)⟩

end CallGraph

end CallPaths
