import CallPaths.Proofs.Reachability

/-!
# The methods on caller chains

A walk does not enter a method that is barred: one that is on the path already, or one that was
entered before, depending on where a method counts as visited.  Under both rules a barred neighbour
stands elsewhere in the tree of the walk, so the tree loses no method by it: with a method it has
all neighbours of the method, up to those that were barred from the start (`Exploration.Closed`).

Nothing but the target is barred at the start of the walk that lists chains.  So the methods on the
chains are all methods that can reach the target, under either rule, though the chains differ.

## Key results

- `Exploration.closed_tree`: the tree of a walk is closed under steps up to what was barred
- `CallGraph.Mirrored.mem_preorder_chainTree_iff`: the methods in the tree of the backward walk
- `CallGraph.callerChains_span_ancestors`: the methods on the chains are the target and all its
  ancestors
-/

namespace CallPaths

namespace Exploration

variable {x : Exploration} {nodes : List Signature}

/-- A method may not be entered from the end of a path. -/
def Barred (x : Exploration) (path : List Signature) (seen : SortedSet Signature)
    (a : Signature) : Prop :=
  match x.scope with
  | .pathLocal => a ∈ path
  | .global => a ∈ seen

/-- The fresh neighbours are those that are not barred. -/
private theorem mem_fresh_iff {seen : SortedSet Signature} {m c : Signature}
    {path : List Signature} :
    c ∈ x.fresh seen m path ↔ c ∈ x.next m ∧ ¬ x.Barred (m :: path) seen c := by
  unfold Barred
  split
  · next h => exact mem_fresh_pathLocal h
  · next h => exact mem_fresh_global h

/-- A longer path bars only its new method in addition. -/
private theorem Barred.of_cons {seen : SortedSet Signature} {m b : Signature}
    {path : List Signature} (h : x.Barred (m :: path) seen b) : b = m ∨ x.Barred path seen b := by
  unfold Barred at h ⊢
  split at h
  · exact List.mem_cons.1 h
  · exact .inr h

/-- Entering nodes bars only these in addition. -/
private theorem Barred.of_enter {seen : SortedSet Signature} {b : Signature}
    {path next : List Signature}
    (h : x.Barred path (x.enter seen next) b) : b ∈ next ∨ x.Barred path seen b := by
  unfold Barred at h ⊢
  split at h
  · exact .inr h
  · next hscope => exact (mem_enter_global hscope).1 h

/-- Only the start is barred where a walk begins. -/
theorem Barred.eq_start {m b : Signature}
    (h : x.Barred [] ((∅ : SortedSet Signature).insert m) b) : b = m := by
  unfold Barred at h
  split at h
  · cases h
  · rcases SortedSet.mem_insert.1 h with hb | hempty
    · exact hb
    · exact absurd hempty (SortedSet.not_mem_empty b)

/-- Some methods are closed under the steps of a walk: a neighbour of one of them is one of them or
was barred before.  Where all entered nodes count, no others were marked since. -/
structure Closed (x : Exploration) (path : List Signature) (seen : SortedSet Signature)
    (ms : List Signature) (seen' : SortedSet Signature) : Prop where
  marked : x.scope = .global → ∀ a ∈ seen', a ∈ seen ∨ a ∈ ms
  neighbours : ∀ a ∈ ms, x.halts a = false → ∀ b ∈ x.next a, b ∈ ms ∨ x.Barred path seen b

/-- What is barred after an exploration was barred before or is one of its methods. -/
private theorem Closed.barred {path ms : List Signature} {seen seen' : SortedSet Signature}
    (h : Closed x path seen ms seen') {b : Signature} (hb : x.Barred path seen' b) :
    b ∈ ms ∨ x.Barred path seen b := by
  have hmarked := h.marked
  unfold Barred at hb ⊢
  split at hb
  · exact .inr hb
  · next hscope => exact (hmarked hscope b hb).symm

/-- Explorations one after another are closed together if each of them is. -/
private theorem closed_gather {f : Signature → SortedSet Signature → CallTree × SortedSet Signature}
    {path : List Signature} (hf : ∀ c seen, ∀ a ∈ seen, a ∈ (f c seen).2) (cs : List Signature)
    (seen : SortedSet Signature)
    (h : ∀ c ∈ cs, ∀ seen', (∀ a ∈ seen, a ∈ seen') →
      Closed x path seen' (f c seen').1.preorder (f c seen').2) :
    Closed x path seen (CallTree.preorderAll (gather f cs seen).1) (gather f cs seen).2 := by
  induction cs generalizing seen with
  | nil => exact ⟨fun _ _ ha => .inl ha, by simp [gather, CallTree.preorderAll]⟩
  | cons c cs ih =>
    have hfirst := h c (by simp) seen fun _ ha => ha
    have hrest := ih (f c seen).2 fun c' hc' seen' hseen' =>
      h c' (by simp [hc']) seen' fun a ha => hseen' a (hf c seen a ha)
    simp only [gather, CallTree.preorderAll]
    refine ⟨fun hscope a ha => ?_, fun a ha hhalt b hb => ?_⟩
    · rw [List.mem_append]
      rcases hrest.marked hscope a ha with ha | ha
      · exact (hfirst.marked hscope a ha).imp_right .inl
      · exact .inr (.inr ha)
    · rw [List.mem_append] at ha ⊢
      rcases ha with ha | ha
      · exact (hfirst.neighbours a ha hhalt b hb).imp_left .inl
      · rcases hrest.neighbours a ha hhalt b hb with hb | hb
        · exact .inl (.inr hb)
        · -- barred for a later exploration, so it was met by the first one or barred before
          exact (hfirst.barred hb).imp_left .inl

/-- A node is closed together with what lies below it, if all its fresh neighbours are there. -/
theorem Closed.node {seen seen' : SortedSet Signature} {m : Signature} {path ms : List Signature}
    (h : Closed x (m :: path) (x.enter seen (x.fresh seen m path)) ms seen')
    (hfresh : ∀ c ∈ x.fresh seen m path, c ∈ ms) : Closed x path seen (m :: ms) seen' := by
  -- what is barred at the node is the node itself or was barred before
  have hbarred : ∀ b, x.Barred (m :: path) seen b → b ∈ m :: ms ∨ x.Barred path seen b := by
    intro b hb
    rcases hb.of_cons with rfl | hb
    · exact .inl List.mem_cons_self
    · exact .inr hb
  refine ⟨fun hscope a ha => ?_, fun a ha hhalt b hb => ?_⟩
  · rcases h.marked hscope a ha with ha | ha
    · rcases (mem_enter_global hscope).1 ha with ha | ha
      · exact .inr (List.mem_cons_of_mem _ (hfresh a ha))
      · exact .inl ha
    · exact .inr (List.mem_cons_of_mem _ ha)
  · rcases List.mem_cons.1 ha with rfl | ha
    · by_cases hbar : x.Barred (a :: path) seen b
      · exact hbarred b hbar
      · exact .inl (List.mem_cons_of_mem _ (hfresh b (mem_fresh_iff.2 ⟨hb, hbar⟩)))
    · rcases h.neighbours a ha hhalt b hb with hb | hb
      · exact .inl (List.mem_cons_of_mem _ hb)
      · rcases hb.of_enter with hb | hb
        · exact .inl (List.mem_cons_of_mem _ (hfresh b hb))
        · exact hbarred b hb

/-- With room for all steps, the tree of an exploration is closed. -/
theorem closed_tree (hnext : ∀ a, ∀ b ∈ x.next a, b ∈ nodes) {depth : Nat} {m : Signature}
    {path : List Signature} {seen : SortedSet Signature}
    (h : Room x nodes depth (m :: path) seen) :
    Closed x path seen (x.tree depth (m :: path) seen).1.preorder
      (x.tree depth (m :: path) seen).2 := by
  induction depth generalizing m path seen with
  | zero => exact absurd h.depth_pos (Nat.lt_irrefl 0)
  | succ depth ih =>
    cases hm : x.halts m with
    | true =>
      rw [tree_halts hm]
      refine ⟨fun _ _ ha => .inl ha, fun a ha hhalt => ?_⟩
      obtain rfl : a = m := by simpa [CallTree.preorder, CallTree.preorderAll] using ha
      rw [hm] at hhalt
      cases hhalt
    | false =>
      have hmono : ∀ c seen, ∀ a ∈ seen, a ∈ (x.tree depth (c :: m :: path) seen).2 :=
        fun c _ _ ha => mem_tree_of_mem depth (c :: m :: path) ha
      have hroom : ∀ c ∈ x.fresh seen m path, ∀ seen',
          (∀ a ∈ x.enter seen (x.fresh seen m path), a ∈ seen') →
            Room x nodes depth (c :: m :: path) seen' :=
        fun c hc seen' hseen' => h.step hnext hc hseen'
      -- the fresh neighbours are the roots of the trees below the node
      obtain ⟨-, hroots⟩ := ordered_gather hmono (x.fresh seen m path) _
        fun c hc seen' hseen' => ordered_tree hnext (hroom c hc seen' hseen')
      rw [tree_goes hm, CallTree.preorder, Option.toList_some, List.singleton_append]
      refine Closed.node (closed_gather hmono _ _ fun c hc seen' hseen' =>
        ih (hroom c hc seen' hseen')) fun c hc => ?_
      rw [← hroots] at hc
      exact CallTree.mem_preorderAll_of_mem_methods hc

end Exploration

namespace CallGraph

open CallTree Relation

variable {g : CallGraph} {target : Signature}

namespace Mirrored

/-- The tree of the backward walk has exactly the methods with a call path to the target, wherever a
method counts as visited. -/
theorem mem_preorder_chainTree_iff (hg : g.Mirrored) (scope : CycleScope)
    (h : g.contains target) {a : Signature} :
    a ∈ (g.chainTree scope target).preorder ↔ ReflTransGen g.Calls a target := by
  constructor
  · have hstep : ∀ b, ReflTransGen g.Calls b target →
        ∀ c ∈ (g.backwards scope).next b, ReflTransGen g.Calls c target :=
      fun b hb c hc => hb.head (hg.mem_callers_iff.1 hc)
    exact Exploration.forall_mem_tree hstep .refl
  · have hroom := Exploration.Room.single (x := g.backwards scope) (mem_nodes.2 h)
    have hnext : ∀ b, ∀ c ∈ (g.backwards scope).next b, c ∈ g.nodes :=
      fun _ _ hc => hg.mem_nodes_of_mem_callers hc
    have hclosed := Exploration.closed_tree hnext hroom
    obtain ⟨-, hroot⟩ := Exploration.ordered_tree hnext hroom
    intro hpath
    have htarget : target ∈ (g.chainTree scope target).preorder := mem_preorder_of_method hroot
    induction hpath using ReflTransGen.head_induction_on with
    | refl => exact htarget
    | head hab _ ih =>
      rcases hclosed.neighbours _ ih rfl _ (hg.mem_callers_iff.2 hab) with ha | hbar
      · exact ha
      · rw [hbar.eq_start]
        exact htarget

/-- Without a visit limit, a method is on a chain exactly if it is in the tree of the backward
walk. -/
private theorem exists_chain_iff (hg : g.Mirrored) {policy : Policy} (hlimit : policy.maxVisits = 0)
    (h : g.contains target) {a : Signature} :
    (∃ chain ∈ (g.callerChains policy target).chains, a ∈ chain) ↔
      a ∈ (g.chainTree policy.cycleScope target).preorder := by
  rw [callerChains_of_unlimited h hlimit]
  constructor
  · rintro ⟨chain, hchain, ha⟩
    exact mem_preorder_of_mem_branches hchain ha
  · exact (hg.ordered_chainTree policy.cycleScope h).named.exists_branch

end Mirrored

/-- Without a visit limit, and wherever a method counts as visited, the methods on the chains of a
node are the node and its ancestors, which are the methods that can reach it. -/
theorem callerChains_span_ancestors (calls : List Edge) (policy : Policy) (target : Signature)
    (hlimit : policy.maxVisits = 0) (hnode : (ofCalls calls).contains target = true) :
    let g := ofCalls calls
    ∀ a, ((∃ chain ∈ (g.callerChains policy target).chains, a ∈ chain) ↔
        a = target ∨ a ∈ g.ancestors target) ∧
      ((∃ chain ∈ (g.callerChains policy target).chains, a ∈ chain) ↔
        ReflTransGen g.Calls a target) := by
  intro g a
  have hg : g.Mirrored := mirrored_ofCalls calls
  have hpath := (hg.exists_chain_iff hlimit hnode).trans
    (hg.mem_preorder_chainTree_iff policy.cycleScope hnode (a := a))
  exact ⟨hpath.trans hg.eq_or_mem_ancestors_iff.symm, hpath⟩

/-- Two ways up to a method of a cycle through the target: the walk that enters each method once
lists it on one chain only, and both walks have it. -/
theorem callerChains_span_ancestors_diamond :
    let sig := fun name => (⟨"p", "T", name, []⟩ : Signature)
    let calls : List Edge := [⟨sig "a", sig "t"⟩, ⟨sig "b", sig "t"⟩, ⟨sig "c", sig "a"⟩,
      ⟨sig "c", sig "b"⟩, ⟨sig "t", sig "c"⟩]
    let run := fun scope =>
      (ofCalls calls).callerChains { cycleScope := scope, maxVisits := 0 } (sig "t")
    ((ofCalls calls).contains (sig "t") = true ∧
        (run .pathLocal).chains = [[sig "t", sig "a", sig "c"], [sig "t", sig "b", sig "c"]] ∧
        (run .global).chains = [[sig "t", sig "a", sig "c"], [sig "t", sig "b"]]) ∧
      ∀ scope a, ((∃ chain ∈ (run scope).chains, a ∈ chain) ↔
          a = sig "t" ∨ a ∈ (ofCalls calls).ancestors (sig "t")) ∧
        ((∃ chain ∈ (run scope).chains, a ∈ chain) ↔
          ReflTransGen (ofCalls calls).Calls a (sig "t")) :=
  ⟨by decide, fun scope => callerChains_span_ancestors _ { cycleScope := scope, maxVisits := 0 } _
    rfl (by decide)⟩

end CallGraph

end CallPaths
