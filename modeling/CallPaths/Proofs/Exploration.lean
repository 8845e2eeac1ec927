import CallPaths.Graph.Chains
import CallPaths.Proofs.Adjacency
import CallPaths.Proofs.VisitLimit

/-!
# The tree that a walk goes through

The walk that lists caller chains and the walk that grows a call tree enter nodes by one rule; they
differ in the direction of their steps and in where they stop.  An `Exploration` fixes these
choices, and `Exploration.tree` is the tree of all nodes that the walk enters when no visit is
refused.

A walk with a budget goes through that tree in order until its budget runs out.  So the chains are
the branches that it comes to (`CallGraph.lists_chainsFrom`), and the grown tree has those among
them that end at the target (`CallGraph.grows_growFrom`).  What remains is a matter of trees: see
`CallPaths.Proofs.VisitLimit` for budgets and `CallPaths.Proofs.Branches` for branches.
-/

namespace CallPaths

open CallTree

/-- The steps of a walk, the methods where it stops, and where a method counts as visited. -/
structure Exploration where
  next : Signature → SortedSet Signature
  halts : Signature → Bool
  scope : CycleScope

namespace Exploration

/-- A walk that entered some nodes and has no visit limit. -/
def walkFrom (seen : SortedSet Signature) : Walk :=
  { budget := { limit := none }, seen }

/-- The neighbours that may be entered from the end of a path. -/
def fresh (x : Exploration) (seen : SortedSet Signature) (m : Signature) (path : List Signature) :
    List Signature :=
  (walkFrom seen).fresh x.scope (m :: path) (x.next m)

/-- The entered nodes after some more are entered. -/
def enter (x : Exploration) (seen : SortedSet Signature) (next : List Signature) :
    SortedSet Signature :=
  ((walkFrom seen).enter x.scope next).seen

/-- Explores from several methods one after another. -/
def gather (f : Signature → SortedSet Signature → CallTree × SortedSet Signature) :
    List Signature → SortedSet Signature → List CallTree × SortedSet Signature
  | [], seen => ([], seen)
  | c :: cs, seen =>
    let r := f c seen
    let rs := gather f cs r.2
    (r.1 :: rs.1, rs.2)

/-- The tree of nodes that a walk without a visit limit enters from the end of a path, and the nodes
entered by then.  The first argument bounds the number of steps; a walk without steps gives a node
without a method. -/
def tree (x : Exploration) : Nat → List Signature → SortedSet Signature →
    CallTree × SortedSet Signature
  | 0, _, seen => (.node none [], seen)
  | _, [], seen => (.node none [], seen)
  | depth + 1, m :: path, seen =>
    if x.halts m then (.node (some m) [], seen)
    else
      let next := x.fresh seen m path
      let r := gather (fun c => tree x depth (c :: m :: path)) next (x.enter seen next)
      (.node (some m) r.1, r.2)

/-! ### Equations -/

variable {x : Exploration}

/-- A walk stops at a method where it halts. -/
theorem tree_halts {m : Signature} (h : x.halts m = true) (depth : Nat) (path : List Signature)
    (seen : SortedSet Signature) :
    x.tree (depth + 1) (m :: path) seen = (.node (some m) [], seen) := by
  simp [tree, h]

/-- A walk that does not halt goes on from each fresh neighbour. -/
theorem tree_goes {m : Signature} (h : x.halts m = false) (depth : Nat) (path : List Signature)
    (seen : SortedSet Signature) :
    x.tree (depth + 1) (m :: path) seen =
      (.node (some m) (gather (fun c => x.tree depth (c :: m :: path)) (x.fresh seen m path)
          (x.enter seen (x.fresh seen m path))).1,
        (gather (fun c => x.tree depth (c :: m :: path)) (x.fresh seen m path)
          (x.enter seen (x.fresh seen m path))).2) := by
  simp [tree, h]

/-- One tree is gathered for each method. -/
theorem length_gather (f : Signature → SortedSet Signature → CallTree × SortedSet Signature)
    (cs : List Signature) (seen : SortedSet Signature) :
    (gather f cs seen).1.length = cs.length := by
  induction cs generalizing seen with
  | nil => rfl
  | cons c cs ih => simp [gather, ih]

/-- Trees are gathered if there are methods. -/
theorem gather_ne_nil (f : Signature → SortedSet Signature → CallTree × SortedSet Signature)
    {cs : List Signature} (h : cs ≠ []) (seen : SortedSet Signature) :
    (gather f cs seen).1 ≠ [] := by
  intro hnil
  have hlen := length_gather f cs seen
  rw [hnil] at hlen
  exact h (List.eq_nil_of_length_eq_zero hlen.symm)

/-- The fresh neighbours do not depend on the budget of a walk. -/
private theorem fresh_eq (w : Walk) (m : Signature) (path : List Signature) :
    w.fresh x.scope (m :: path) (x.next m) = x.fresh w.seen m path := by
  unfold fresh Walk.fresh walkFrom Walk.isBlocked
  cases x.scope <;> rfl

/-- The nodes entered by a walk do not depend on its budget. -/
private theorem seen_enter (w : Walk) (next : List Signature) :
    (w.enter x.scope next).seen = x.enter w.seen next := by
  unfold enter Walk.enter walkFrom
  cases x.scope <;> rfl

end Exploration

namespace CallGraph

/-- The walk from callees to callers, which never halts. -/
def backwards (g : CallGraph) (scope : CycleScope) : Exploration where
  next := g.callers
  halts _ := false
  scope := scope

/-- The walk from callers to callees, which halts at a target. -/
def forwards (g : CallGraph) (scope : CycleScope) (target : Signature) : Exploration where
  next := g.callees
  halts m := m = target
  scope := scope

end CallGraph

/-! ### Chains are the branches of the backward walk -/

/-- A walk of chains goes through some trees below a path: it lists the branches that its budget
covers, each after the path, and if the budget lasts it has entered the given nodes. -/
structure ChainWalk.Lists (path : List Signature) (ts : List CallTree)
    (seen : SortedSet Signature) (w w' : ChainWalk) : Prop where
  budget : w'.budget = (branchesWithinAll ts w.budget).2
  finished : w'.finished =
    ((branchesWithinAll ts w.budget).1.map (path.reverse ++ ·)).reverse ++ w.finished
  seen : w'.budget.exhausted = false → w'.seen = seen

/-- A fold over some methods goes through the gathered trees if each step goes through its own. -/
private theorem ChainWalk.lists_foldl {path : List Signature}
    (f : Signature → ChainWalk → ChainWalk)
    (e : Signature → SortedSet Signature → CallTree × SortedSet Signature)
    (h : ∀ c w seen, (w.budget.exhausted = false → w.seen = seen) →
      Lists path [(e c seen).1] (e c seen).2 w (f c w))
    (cs : List Signature) (w : ChainWalk) (seen : SortedSet Signature)
    (hseen : w.budget.exhausted = false → w.seen = seen) :
    Lists path (Exploration.gather e cs seen).1 (Exploration.gather e cs seen).2 w
      (cs.foldl (fun w c => f c w) w) := by
  induction cs generalizing w seen with
  | nil =>
    refine ⟨rfl, ?_, hseen⟩
    simp [Exploration.gather, branchesWithinAll]
  | cons c cs ih =>
    have hstep := h c w seen hseen
    have hrest := ih (f c w) (e c seen).2 hstep.seen
    have hbudget := hstep.budget
    have hfinished := hstep.finished
    simp only [branchesWithinAll, List.append_nil] at hbudget hfinished
    refine ⟨?_, ?_, hrest.seen⟩
    · simp only [List.foldl_cons, hrest.budget, Exploration.gather, branchesWithinAll, hbudget]
    · simp only [List.foldl_cons, hrest.finished, Exploration.gather, branchesWithinAll, hbudget,
        hfinished, List.map_append, List.reverse_append, List.append_assoc]

/-- A walk that pays for the children of a node goes through the tree of the node by going through
those of the children. -/
theorem ChainWalk.Lists.node {m : Signature} {path : List Signature} {ts : List CallTree}
    {seen : SortedSet Signature} {w w' : ChainWalk} {paid : Walk} (hts : ts ≠ [])
    (hc : w.budget.Covers ts.length) (hpaid : paid.budget = w.budget.spend ts.length)
    (h : Lists (m :: path) ts seen { w with toWalk := paid } w') :
    Lists path [.node (some m) ts] seen w w' := by
  have hbudget := h.budget
  have hfinished := h.finished
  simp only [hpaid] at hbudget hfinished
  refine ⟨?_, ?_, h.seen⟩
  · simp [branchesWithinAll, branchesWithin_paid hts hc, hbudget]
  · simp [branchesWithinAll, branchesWithin_paid hts hc, hfinished]

namespace CallGraph

section Chains

variable (g : CallGraph) (scope : CycleScope)

/-- A walk of chains whose budget ran out does nothing more. -/
private theorem chainsFrom_exhausted {w : ChainWalk} (hb : w.budget.exhausted = true) (depth : Nat)
    (path : List Signature) : g.chainsFrom scope depth path w = w := by
  cases depth with
  | zero => simp [chainsFrom]
  | succ depth => cases path <;> simp [chainsFrom, hb]

/-- A path without fresh callers is a chain. -/
private theorem chainsFrom_deadEnd {w : ChainWalk} {m : Signature} {path : List Signature}
    (hb : w.budget.exhausted = false) (h : (g.backwards scope).fresh w.seen m path = [])
    (depth : Nat) :
    g.chainsFrom scope (depth + 1) (m :: path) w =
      { w with finished := (m :: path).reverse :: w.finished } := by
  have hfresh : w.fresh scope (m :: path) (g.callers m) = [] :=
    (Exploration.fresh_eq (x := g.backwards scope) w.toWalk m path).trans h
  simp [chainsFrom, hb, hfresh]

/-- A walk that cannot pay for the fresh callers enters none of them. -/
private theorem chainsFrom_refused {w : ChainWalk} {m : Signature} {path next : List Signature}
    (hb : w.budget.exhausted = false) (h : (g.backwards scope).fresh w.seen m path = next)
    (hne : next ≠ []) (hc : ¬ w.budget.Covers next.length) (depth : Nat) :
    g.chainsFrom scope (depth + 1) (m :: path) w = { w with toWalk := w.enter scope next } := by
  have hfresh : w.fresh scope (m :: path) (g.callers m) = next :=
    (Exploration.fresh_eq (x := g.backwards scope) w.toWalk m path).trans h
  have hex : (w.enter scope next).budget.exhausted = true := by
    rw [← Budget.exhausted_spend, Bool.not_eq_false] at hc
    exact hc
  simp [chainsFrom, hb, hfresh, hne, hex]

/-- A walk that can pay for the fresh callers goes on from each of them. -/
private theorem chainsFrom_paid {w : ChainWalk} {m : Signature} {path next : List Signature}
    (h : (g.backwards scope).fresh w.seen m path = next) (hne : next ≠ [])
    (hc : w.budget.Covers next.length) (depth : Nat) :
    g.chainsFrom scope (depth + 1) (m :: path) w =
      next.foldl (fun w c => g.chainsFrom scope depth (c :: m :: path) w)
        { w with toWalk := w.enter scope next } := by
  have hfresh : w.fresh scope (m :: path) (g.callers m) = next :=
    (Exploration.fresh_eq (x := g.backwards scope) w.toWalk m path).trans h
  have hex : (w.enter scope next).budget.exhausted = false :=
    (Budget.exhausted_spend next.length).2 hc
  simp [chainsFrom, hc.1, hfresh, hne, hex]

/-- The chains that go on from a path are the branches of the backward walk from there. -/
theorem lists_chainsFrom (depth : Nat) (m : Signature) (path : List Signature) (w : ChainWalk)
    (seen : SortedSet Signature) (hseen : w.budget.exhausted = false → w.seen = seen) :
    ChainWalk.Lists path [((g.backwards scope).tree depth (m :: path) seen).1]
      ((g.backwards scope).tree depth (m :: path) seen).2 w
      (g.chainsFrom scope depth (m :: path) w) := by
  induction depth generalizing m path w seen with
  | zero =>
    exact ⟨by simp [chainsFrom, Exploration.tree, branchesWithinAll, branchesWithin_unnamed],
      by simp [chainsFrom, Exploration.tree, branchesWithinAll, branchesWithin_unnamed], hseen⟩
  | succ depth ih =>
    by_cases hb : w.budget.exhausted = true
    · rw [chainsFrom_exhausted g scope hb]
      exact ⟨by simp [branchesWithinAll_of_exhausted hb],
        by simp [branchesWithinAll_of_exhausted hb], by simp [hb]⟩
    rw [Bool.not_eq_true] at hb
    obtain rfl := hseen hb
    rw [Exploration.tree_goes rfl]
    generalize hnext : (g.backwards scope).fresh w.seen m path = next
    by_cases hne : next = []
    · subst hne
      rw [chainsFrom_deadEnd g scope hb hnext]
      refine ⟨?_, ?_, fun _ => ?_⟩
      · simp [Exploration.gather, branchesWithinAll, branchesWithin_leaf hb]
      · simp [Exploration.gather, branchesWithinAll, branchesWithin_leaf hb]
      · cases scope <;> rfl
    · have hlen := Exploration.length_gather
        (fun c => (g.backwards scope).tree depth (c :: m :: path)) next
        ((g.backwards scope).enter w.seen next)
      have hts := Exploration.gather_ne_nil
        (fun c => (g.backwards scope).tree depth (c :: m :: path)) hne
        ((g.backwards scope).enter w.seen next)
      by_cases hc : w.budget.Covers next.length
      · rw [chainsFrom_paid g scope hnext hne hc]
        have hfold := ChainWalk.lists_foldl
          (fun c w => g.chainsFrom scope depth (c :: m :: path) w) _
          (fun c w seen hseen => ih c (m :: path) w seen hseen) next
          { w with toWalk := w.enter scope next } _
          fun _ => Exploration.seen_enter (x := g.backwards scope) w.toWalk next
        exact ChainWalk.Lists.node hts (hlen ▸ hc) (by rw [hlen]; rfl) hfold
      · rw [chainsFrom_refused g scope hb hnext hne hc]
        rw [← hlen] at hc
        refine ⟨?_, ?_, fun h => ?_⟩
        · simp only [branchesWithinAll, branchesWithin_refused hb hts hc, hlen]
          rfl
        · simp [branchesWithinAll, branchesWithin_refused hb hts hc]
        · rw [hlen] at hc
          exact absurd ((Budget.exhausted_spend next.length).1 h) hc

end Chains

end CallGraph

/-! ### Grown trees have the branches of the forward walk that end at the target -/

/-- A growing walk goes through some trees: the kept trees have the branches that its budget covers
and that end at the target, and all their nodes have methods.  If the budget lasts, they are the
pruned trees, and the walk has entered the given nodes. -/
structure Walk.Grows (target : Signature) (ts : List CallTree) (seen : SortedSet Signature)
    (w w' : Walk) (kept : List CallTree) : Prop where
  budget : w'.budget = (branchesWithinAll ts w.budget).2
  branches : kept.flatMap CallTree.branches =
    (branchesWithinAll ts w.budget).1.filter (endsAt target)
  named : ∀ t ∈ kept, t.Named
  complete : w'.budget.exhausted = false → kept = pruneAll target ts ∧ w'.seen = seen

/-- Adds the tree that grows from a method to the trees so far. -/
def Walk.growNext (f : Signature → Walk → Option CallTree × Walk) (acc : List CallTree × Walk)
    (c : Signature) : List CallTree × Walk :=
  (acc.1 ++ (f c acc.2).1.toList, (f c acc.2).2)

/-- A fold over some methods grows through the gathered trees if each step grows through its own. -/
private theorem Walk.grows_foldl {target : Signature}
    (f : Signature → Walk → Option CallTree × Walk)
    (e : Signature → SortedSet Signature → CallTree × SortedSet Signature)
    (h : ∀ c w seen, w.budget.WithinLimit → (w.budget.exhausted = false → w.seen = seen) →
      Grows target [(e c seen).1] (e c seen).2 w (f c w).2 (f c w).1.toList)
    (cs : List Signature) (acc : List CallTree) (w : Walk) (seen : SortedSet Signature)
    (hw : w.budget.WithinLimit) (hseen : w.budget.exhausted = false → w.seen = seen) :
    ∃ kept, (cs.foldl (growNext f) (acc, w)).1 = acc ++ kept ∧
      Grows target (Exploration.gather e cs seen).1 (Exploration.gather e cs seen).2 w
        (cs.foldl (growNext f) (acc, w)).2 kept := by
  induction cs generalizing acc w seen with
  | nil =>
    refine ⟨[], by simp, rfl, ?_, by simp, fun hb => ⟨rfl, hseen hb⟩⟩
    simp [Exploration.gather, branchesWithinAll]
  | cons c cs ih =>
    have hstep := h c w seen hw hseen
    have hw' : (f c w).2.budget.WithinLimit := by
      rw [hstep.budget]
      exact withinLimit_branchesWithinAll _ hw
    obtain ⟨kept, hkept, hrest⟩ := ih (acc ++ (f c w).1.toList) (f c w).2 (e c seen).2 hw'
      fun hb => (hstep.complete hb).2
    refine ⟨(f c w).1.toList ++ kept, ?_, ?_, ?_,
      List.forall_mem_append.2 ⟨hstep.named, hrest.named⟩, fun hb => ?_⟩
    · rw [List.foldl_cons, growNext, hkept, List.append_assoc]
    · have hbudget := hstep.budget
      simp only [branchesWithinAll] at hbudget
      rw [List.foldl_cons, growNext, hrest.budget, hbudget]
      rfl
    · have hbudget := hstep.budget
      have hbranches := hstep.branches
      simp only [branchesWithinAll, List.append_nil] at hbudget hbranches
      rw [List.flatMap_append, hbranches, hrest.branches, hbudget, ← List.filter_append]
      rfl
    · -- the budget lasts to the end, so it lasted through the first step
      have hfirst : (f c w).2.budget.exhausted = false := by
        cases hex : (f c w).2.budget.exhausted with
        | false => rfl
        | true =>
          rw [List.foldl_cons, growNext, hrest.budget, branchesWithinAll_of_exhausted hex] at hb
          exact absurd hb (by simp [hex])
      have hhead := (hstep.complete hfirst).1
      rw [List.foldl_cons, growNext] at hb ⊢
      obtain ⟨htail, hseen'⟩ := hrest.complete hb
      refine ⟨?_, hseen'⟩
      simp only [pruneAll, List.append_nil] at hhead
      rw [hhead, htail]
      rfl

/-- A walk that pays for the children of a node grows through the tree of the node by growing
through those of the children. -/
theorem Walk.Grows.node {target m : Signature} {ts kept : List CallTree}
    {seen : SortedSet Signature} {w w' paid : Walk} (hts : ts ≠ []) (hw : w.budget.WithinLimit)
    (hc : w.budget.Covers ts.length) (hpaid : paid.budget = w.budget.spend ts.length)
    (h : Grows target ts seen paid w' kept) :
    Grows target [.node (some m) ts] seen w w'
      (if kept.isEmpty then none else some (.node (some m) kept)).toList := by
  have hbudget := h.budget
  have hbranches := h.branches
  rw [hpaid] at hbudget hbranches
  refine ⟨?_, ?_, ?_, fun hb => ?_⟩
  · simp [branchesWithinAll, branchesWithin_paid hts hc, hbudget]
  · -- the method of the node in front of a branch does not change where the branch ends
    have hend : (branchesWithinAll ts (w.budget.spend ts.length)).1.filter
        (endsAt target ∘ (m :: ·)) =
        (branchesWithinAll ts (w.budget.spend ts.length)).1.filter (endsAt target) := by
      refine List.filter_congr fun p hp => ?_
      have hmem := (branchesWithinAll_prefix_branchesAll ts (hw.spend _)).subset hp
      rw [branchesAll_eq_flatMap] at hmem
      obtain ⟨t, -, hp⟩ := List.mem_flatMap.1 hmem
      exact endsAt_append (p := [m]) (ne_nil_of_mem_branches hp)
    simp only [branchesWithinAll, branchesWithin_paid hts hc, List.append_nil,
      Option.toList_some, List.singleton_append, List.filter_map, hend, ← hbranches]
    by_cases hk : kept = []
    · simp [hk]
    · simp [hk, branches_inner]
  · by_cases hk : kept = []
    · simp [hk]
    · simp only [List.isEmpty_iff, hk, if_false, Option.toList_some, List.forall_mem_singleton]
      exact .node m kept h.named
  · obtain ⟨hkept, hseen⟩ := h.complete hb
    refine ⟨?_, hseen⟩
    simp [pruneAll, prune, hts, hkept]

namespace CallGraph

section Growth

variable (g : CallGraph) (scope : CycleScope) {target : Signature}

/-- A growing walk whose budget ran out does nothing more. -/
private theorem growFrom_exhausted {w : Walk} (hb : w.budget.exhausted = true) (depth : Nat)
    (path : List Signature) : g.growFrom scope target depth path w = (none, w) := by
  cases depth with
  | zero => simp [growFrom]
  | succ depth => cases path <;> simp [growFrom, hb]

/-- The target is a leaf. -/
private theorem growFrom_target {w : Walk} (hb : w.budget.exhausted = false) (depth : Nat)
    (path : List Signature) :
    g.growFrom scope target (depth + 1) (target :: path) w =
      (some (.node (some target) []), w) := by
  simp [growFrom, hb]

/-- A growing walk that cannot pay for the fresh callees enters none of them. -/
private theorem growFrom_refused {w : Walk} {m : Signature} {path next : List Signature}
    (hb : w.budget.exhausted = false) (hm : m ≠ target)
    (h : (g.forwards scope target).fresh w.seen m path = next)
    (hc : ¬ w.budget.Covers next.length) (depth : Nat) :
    g.growFrom scope target (depth + 1) (m :: path) w = (none, w.enter scope next) := by
  have hfresh : w.fresh scope (m :: path) (g.callees m) = next :=
    (Exploration.fresh_eq (x := g.forwards scope target) w m path).trans h
  have hex : (w.enter scope next).budget.exhausted = true := by
    rw [← Budget.exhausted_spend, Bool.not_eq_false] at hc
    exact hc
  simp [growFrom, hb, hm, hfresh, hex]

/-- A growing walk that can pay for the fresh callees grows from each of them. -/
private theorem growFrom_paid {w : Walk} {m : Signature} {path next : List Signature}
    (hm : m ≠ target) (h : (g.forwards scope target).fresh w.seen m path = next)
    (hc : w.budget.Covers next.length) (depth : Nat) :
    g.growFrom scope target (depth + 1) (m :: path) w =
      let r := next.foldl
        (Walk.growNext fun c => g.growFrom scope target depth (c :: m :: path))
        ([], w.enter scope next)
      (if r.1.isEmpty then none else some (.node (some m) r.1), r.2) := by
  have hfresh : w.fresh scope (m :: path) (g.callees m) = next :=
    (Exploration.fresh_eq (x := g.forwards scope target) w m path).trans h
  have hex : (w.enter scope next).budget.exhausted = false :=
    (Budget.exhausted_spend next.length).2 hc
  simp only [growFrom, hc.1, hm, hfresh, hex, Bool.false_eq_true, if_false]
  rfl

/-- The tree that grows at the end of a path has the branches of the forward walk from there that
end at the target. -/
theorem grows_growFrom (depth : Nat) (m : Signature) (path : List Signature) (w : Walk)
    (seen : SortedSet Signature) (hw : w.budget.WithinLimit)
    (hseen : w.budget.exhausted = false → w.seen = seen) :
    Walk.Grows target [((g.forwards scope target).tree depth (m :: path) seen).1]
      ((g.forwards scope target).tree depth (m :: path) seen).2 w
      (g.growFrom scope target depth (m :: path) w).2
      (g.growFrom scope target depth (m :: path) w).1.toList := by
  -- the marks of the walk are general, since each sibling adds to them
  induction depth generalizing m path w seen with
  | zero =>
    exact ⟨by simp [growFrom, Exploration.tree, branchesWithinAll, branchesWithin_unnamed],
      by simp [growFrom, Exploration.tree, branchesWithinAll, branchesWithin_unnamed],
      by simp [growFrom],
      fun hb => ⟨by simp [growFrom, Exploration.tree, pruneAll, prune], hseen hb⟩⟩
  | succ depth ih =>
    by_cases hb : w.budget.exhausted = true
    · rw [growFrom_exhausted g scope hb]
      exact ⟨by simp [branchesWithinAll_of_exhausted hb],
        by simp [branchesWithinAll_of_exhausted hb], by simp, by simp [hb]⟩
    rw [Bool.not_eq_true] at hb
    obtain rfl := hseen hb
    by_cases hm : m = target
    · subst hm
      rw [Exploration.tree_halts (by simp [forwards]), growFrom_target g scope hb]
      refine ⟨?_, ?_, ?_, fun _ => ⟨?_, rfl⟩⟩
      · simp [branchesWithinAll, branchesWithin_leaf hb]
      · simp [branchesWithinAll, branchesWithin_leaf hb, endsAt]
      · simpa using Named.node m [] (by simp)
      · simp [pruneAll, prune]
    rw [Exploration.tree_goes (by simpa [forwards] using hm)]
    generalize hnext : (g.forwards scope target).fresh w.seen m path = next
    have hlen := Exploration.length_gather
      (fun c => (g.forwards scope target).tree depth (c :: m :: path)) next
      ((g.forwards scope target).enter w.seen next)
    by_cases hc : w.budget.Covers next.length
    · rw [growFrom_paid g scope hm hnext hc]
      obtain ⟨kept, hkept, hfold⟩ := Walk.grows_foldl
        (fun c => g.growFrom scope target depth (c :: m :: path)) _
        (fun c w seen hw hseen => ih c (m :: path) w seen hw hseen) next []
        (w.enter scope next) _ (hw.spend next.length)
        fun _ => Exploration.seen_enter (x := g.forwards scope target) w next
      rw [List.nil_append] at hkept
      by_cases hne : next = []
      · -- no callee may be entered, and nothing grows
        subst hne
        have hpaid : (w.enter scope []).budget = w.budget := Budget.spend_zero hw
        refine ⟨?_, ?_, by simp, fun _ => ⟨?_, ?_⟩⟩
        · simp [Exploration.gather, branchesWithinAll, branchesWithin_leaf hb, hpaid]
        · simp [Exploration.gather, branchesWithinAll, branchesWithin_leaf hb, endsAt, hm]
        · simp [Exploration.gather, pruneAll, prune, hm]
        · exact Exploration.seen_enter (x := g.forwards scope target) w []
      · rw [← hkept] at hfold
        have hts := Exploration.gather_ne_nil
          (fun c => (g.forwards scope target).tree depth (c :: m :: path)) hne
          ((g.forwards scope target).enter w.seen next)
        exact Walk.Grows.node hts hw (hlen ▸ hc) (by rw [hlen]; rfl) hfold
    · have hne : next ≠ [] := by
        rintro rfl
        exact hc (hw.covers_zero hb)
      have hts := Exploration.gather_ne_nil
        (fun c => (g.forwards scope target).tree depth (c :: m :: path)) hne
        ((g.forwards scope target).enter w.seen next)
      rw [growFrom_refused g scope hb hm hnext hc]
      rw [← hlen] at hc
      refine ⟨?_, ?_, by simp, fun h => ?_⟩
      · simp only [branchesWithinAll, branchesWithin_refused hb hts hc, hlen]
        rfl
      · simp [branchesWithinAll, branchesWithin_refused hb hts hc]
      · rw [hlen] at hc
        exact absurd ((Budget.exhausted_spend next.length).1 h) hc

end Growth

end CallGraph

end CallPaths
