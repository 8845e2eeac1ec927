import CallPaths.Proofs.EntryPaths
import CallPaths.Proofs.SpanningTrees
import Mathlib.Data.List.Find

/-!
# Entry trees of walks that enter each method once

Where a method counts as visited in the whole walk, a forward walk leaves out most call paths to the
target.  It never leaves out the target itself: a barred callee was entered elsewhere, and the walk
goes on from there too.  So the same methods lead to the target under both rules.

The target is entered once, and the walk halts there.  So one branch of the forward walk ends at the
target, and this branch is all that pruning leaves of the tree (`CallTree.ofPath`).

## Key results

- `CallTree.Named.eq_ofPath`: a tree with a single branch is a path
- `CallGraph.Mirrored.isRoute_of_mem_lead_global`: what is left of a forward walk
- `CallGraph.Mirrored.map_fst_found_global`: the same methods are found under both rules
- `CallGraph.entryTree_single_paths`: the entry trees under both rules compared
-/

namespace CallPaths

namespace CallTree

/-- The tree that is a single path: each method but the last one has exactly one child. -/
def ofPath : List Signature → CallTree
  | [] => .node none []
  | [m] => .node (some m) []
  | m :: c :: p => .node (some m) [ofPath (c :: p)]

/-- A method in front of a path gets the path as its only child. -/
private theorem ofPath_cons {m : Signature} {p : List Signature} (h : p ≠ []) :
    ofPath (m :: p) = .node (some m) [ofPath p] := by
  cases p with
  | nil => exact absurd rfl h
  | cons c p => rfl

/-- A tree with a single branch is a path. -/
theorem Named.eq_ofPath {t : CallTree} (h : t.Named) {p : List Signature}
    (hp : t.branches = [p]) : t = ofPath p := by
  induction h generalizing p with
  | node m cs hcs ih =>
    cases cs with
    | nil =>
      rw [branches_leaf] at hp
      obtain rfl : [m] = p := List.singleton_inj.1 hp
      rfl
    | cons c cs =>
      rw [branches_inner (List.cons_ne_nil c cs), List.flatMap_cons, List.map_append,
        Option.toList_some] at hp
      -- every child has a branch, so there is no second child
      have hchild : c.branches ≠ [] := (hcs c (by simp)).branches_ne_nil
      have hothers : cs = [] := by
        cases cs with
        | nil => rfl
        | cons c' cs =>
          have hchild' : c'.branches ≠ [] := (hcs c' (by simp)).branches_ne_nil
          have hlen := congrArg List.length hp
          have hpos := List.length_pos_iff.2 hchild
          have hpos' := List.length_pos_iff.2 hchild'
          simp only [List.length_append, List.length_map, List.flatMap_cons,
            List.length_singleton] at hlen
          omega
      subst hothers
      rw [List.flatMap_nil, List.map_nil, List.append_nil, List.map_eq_singleton_iff] at hp
      obtain ⟨q, hq, rfl⟩ := hp
      have hne : q ≠ [] := ne_nil_of_mem_branches (t := c) (by simp [hq])
      rw [ih c (by simp) hq, List.singleton_append, ofPath_cons hne]

end CallTree

namespace CallGraph

open CallTree

variable {g : CallGraph} {target : Signature}

namespace Mirrored

/-- The methods of a forward walk that enters each method once are all different. -/
private theorem nodup_preorder_forwardTree (hg : g.Mirrored) {m : Signature} (hm : m ∈ g.nodes) :
    (g.forwardTree .global target m).preorder.Nodup :=
  Exploration.nodup_preorder_tree rfl (fun _ _ hb => hg.mem_nodes_of_mem_callees hb)
    (Exploration.Room.single hm)

/-- One branch of a forward walk that enters each method once ends at the target, if any does. -/
private theorem exists_branches_eq_of_mem_lead_global (hg : g.Mirrored) {m : Signature}
    (hm : m ∈ g.nodes) {f : Signature × CallTree} (hf : f ∈ g.lead .global target m) :
    ∃ p, f.2.branches = [p] ∧ p ∈ (g.forwardTree .global target m).branches ∧
      p.getLast? = some target := by
  have hordered : (g.forwardTree .global target m).Ordered := (hg.ordered_forwardTree .global hm).1
  have hprune := (mem_lead.1 hf).2
  have hpruned := hordered.prune hprune
  have hkept : ∀ q, q ∈ f.2.branches ↔
      q ∈ (g.forwardTree .global target m).branches ∧ q.getLast? = some target := by
    intro q
    have hbranches := branches_prune target (g.forwardTree .global target m)
    rw [hprune, Option.toList_some, List.flatMap_singleton] at hbranches
    rw [hbranches, List.mem_filter, endsAt, decide_eq_true_iff]
  obtain ⟨p, hp⟩ := List.exists_mem_of_ne_nil _ hpruned.named.branches_ne_nil
  obtain ⟨hmem, hend⟩ := (hkept p).1 hp
  refine ⟨p, ?_, hmem, hend⟩
  -- branches that end alike are the same, and none is listed twice
  have hsame : ∀ q ∈ f.2.branches, q = p := by
    intro q hq
    obtain ⟨hqmem, hqend⟩ := (hkept q).1 hq
    exact hordered.named.eq_of_getLast?_eq (hg.nodup_preorder_forwardTree hm) hqmem hmem
      (hqend.trans hend.symm)
  have hperm : f.2.branches.Perm [p] := by
    rw [List.perm_ext_iff_of_nodup hpruned.nodup_branches (List.nodup_singleton p)]
    intro q
    rw [List.mem_singleton]
    exact ⟨hsame q, fun h => h ▸ hp⟩
  exact List.perm_singleton.1 hperm

/-- What is left of a forward walk that enters each method once is a single call path to the
target. -/
theorem isRoute_of_mem_lead_global (hg : g.Mirrored) {m : Signature} (hm : m ∈ g.nodes)
    {f : Signature × CallTree} (hf : f ∈ g.lead .global target m) :
    ∃ p, g.IsRoute target f.1 p ∧ f.2 = ofPath p := by
  obtain ⟨p, hbranches, hp, hend⟩ := hg.exists_branches_eq_of_mem_lead_global hm hf
  obtain ⟨rfl, hprune⟩ := mem_lead.1 hf
  have hpruned := (hg.ordered_forwardTree .global hm).1.prune hprune
  obtain ⟨hhead, hchain, -⟩ := Exploration.of_mem_branches_tree hp
  have hnodup : p.Nodup :=
    (hg.nodup_preorder_forwardTree hm).sublist (sublist_preorder_of_mem_branches hp)
  exact ⟨p, isRoute_iff.2 ⟨⟨hchain, hnodup⟩, hhead, hend⟩, hpruned.named.eq_ofPath hbranches⟩

end Mirrored

/-! ### Both rules compared -/

/-- Which methods are found depends on which methods lead to the target. -/
private theorem map_fst_found (scope : CycleScope) (entries : List Signature) :
    (g.found scope target entries).map (·.1) =
      let leads := entries.filter fun m => !(g.lead scope target m).isEmpty
      if leads.isEmpty then (g.nodes.find? fun m => !(g.lead scope target m).isEmpty).toList
      else leads := by
  have hleads : (entries.flatMap (g.lead scope target)).map (·.1) =
      entries.filter fun m => !(g.lead scope target m).isEmpty := map_fst_flatMap_lead scope entries
  have hempty : (entries.flatMap (g.lead scope target)).isEmpty =
      (entries.filter fun m => !(g.lead scope target m).isEmpty).isEmpty := by
    rw [← hleads, List.isEmpty_map]
  rw [found, hempty]
  split
  · next h => rw [if_pos h, map_fst_firstLead]
  · next h => rw [if_neg h, hleads]

namespace Mirrored

/-- The same nodes lead to the target under both rules. -/
private theorem isEmpty_lead_global (hg : g.Mirrored) {m : Signature} (hm : m ∈ g.nodes) :
    (g.lead .global target m).isEmpty = (g.lead .pathLocal target m).isEmpty := by
  rw [Bool.eq_iff_iff, List.isEmpty_iff, List.isEmpty_iff, ← not_iff_not]
  exact (hg.lead_ne_nil_iff .global hm).trans (hg.lead_ne_nil_iff .pathLocal hm).symm

/-- The same methods are found under both rules, and by the same kind of search. -/
theorem map_fst_found_global (hg : g.Mirrored) (target : Signature) (names : List String) :
    (g.found .global target (g.entries names)).map (·.1) =
        (g.found .pathLocal target (g.entries names)).map (·.1) ∧
      ((g.entries names).flatMap (g.lead .global target)).isEmpty =
        ((g.entries names).flatMap (g.lead .pathLocal target)).isEmpty := by
  have hentries : ((g.entries names).filter fun m => !(g.lead .global target m).isEmpty) =
      (g.entries names).filter fun m => !(g.lead .pathLocal target m).isEmpty := by
    refine List.filter_congr fun m hm => ?_
    rw [hg.isEmpty_lead_global (mem_nodes_of_mem_entries hm)]
  have hnodes : (g.nodes.find? fun m => !(g.lead .global target m).isEmpty) =
      g.nodes.find? fun m => !(g.lead .pathLocal target m).isEmpty := by
    refine List.find?_congr fun m hm => ?_
    rw [hg.isEmpty_lead_global hm]
  constructor
  · rw [map_fst_found, map_fst_found, hentries, hnodes]
  · rw [← List.isEmpty_map (f := (·.1)), map_fst_flatMap_lead, hentries, ← map_fst_flatMap_lead,
      List.isEmpty_map]

/-- A call path from a method that is found to the target is a branch of what is found, where only
the path counts. -/
private theorem mem_branches_found_of_isRoute (hg : g.Mirrored) {names : List String}
    {e : Signature}
    (he : e ∈ (g.found .pathLocal target (g.entries names)).map (·.1)) {p : List Signature}
    (hp : g.IsRoute target e p) :
    p ∈ (g.found .pathLocal target (g.entries names)).flatMap (·.2.branches) := by
  obtain ⟨f, hf, rfl⟩ := List.mem_map.1 he
  obtain ⟨m, hm, hlead⟩ := exists_lead_of_mem_found hf
  have htree := hg.isPathTree_of_mem_lead hm hlead
  exact List.mem_flatMap.2 ⟨f, hf, (htree.branches p).2 hp⟩

end Mirrored

/-- Without a visit limit, the entry tree of a walk that enters each method once has the same entry
points as that of a walk where only the path counts, and falls back to another node exactly if that
one does.  For each entry point it has a single call path without repetition to the target, which is
one of the branches of the other tree.  A single path is the root itself, and several paths get a
root without a method. -/
theorem entryTree_single_paths (calls : List Edge) (names : List String) (policy : Policy)
    (target : Signature) (hlimit : policy.maxVisits = 0)
    (hnode : (ofCalls calls).contains target = true) :
    let g := ofCalls calls
    let run := fun scope => g.entryTree names { policy with cycleScope := scope } target
    (run .global).entryPoints = (run .pathLocal).entryPoints ∧
      (run .global).usedFallback = (run .pathLocal).usedFallback ∧
      ∃ paths, List.Forall₂ (g.IsRoute target) (run .global).entryPoints paths ∧
        (∀ p ∈ paths, p ∈ (run .pathLocal).root.branches) ∧
        (∀ p, paths = [p] → (run .global).root = ofPath p) ∧
        (paths.length ≠ 1 → (run .global).root = .node none (paths.map ofPath)) := by
  intro g run
  have hg : g.Mirrored := mirrored_ofCalls calls
  have hrun : ∀ scope, run scope = _ := fun scope => entryTree_of_unlimited hnode names hlimit
  obtain ⟨hmethods, hfallback⟩ := hg.map_fst_found_global target names
  have hroute : ∀ f ∈ g.found .global target (g.entries names),
      ∃ p, g.IsRoute target f.1 p ∧ f.2 = ofPath p := by
    intro f hf
    obtain ⟨m, hm, hlead⟩ := exists_lead_of_mem_found hf
    exact hg.isRoute_of_mem_lead_global hm hlead
  choose! route hroute using hroute
  have htrees : (g.found .global target (g.entries names)).map (·.2) =
      ((g.found .global target (g.entries names)).map route).map ofPath := by
    rw [List.map_map]
    exact List.map_congr_left fun f hf => (hroute f hf).2
  rw [hrun .global, hrun .pathLocal]
  refine ⟨hmethods, ?_, (g.found .global target (g.entries names)).map route, ?_, ?_, ?_, ?_⟩
  · have hfound : (g.found .global target (g.entries names)).isEmpty =
        (g.found .pathLocal target (g.entries names)).isEmpty := by
      rw [← List.isEmpty_map (f := (·.1)), hmethods, List.isEmpty_map]
    exact congrArg₂ (· && !·) hfallback hfound
  · rw [List.forall₂_map_left_iff, List.forall₂_map_right_iff, List.forall₂_same]
    exact fun f hf => (hroute f hf).1
  · intro p hp
    obtain ⟨f, hf, rfl⟩ := List.mem_map.1 hp
    rw [branches_joinTrees, List.flatMap_map]
    refine hg.mem_branches_found_of_isRoute ?_ (hroute f hf).1
    rw [← hmethods]
    exact List.mem_map_of_mem hf
  · intro p hp
    refine (joinTrees_spec _).1 _ ?_
    rw [htrees, hp, List.map_singleton]
  · intro hlen
    rw [← htrees]
    refine (joinTrees_spec _).2 ?_
    rwa [List.length_map] at hlen ⊢

/-- Two entry points, and a cycle that leads to the target from two sides: of the call paths from
each entry point one is left. -/
theorem entryTree_single_paths_two_entries :
    let sig := fun name => (⟨"p", "T", name, []⟩ : Signature)
    let calls : List Edge := [⟨sig "r", sig "a"⟩, ⟨sig "r", sig "b"⟩, ⟨sig "a", sig "b"⟩,
      ⟨sig "b", sig "a"⟩, ⟨sig "a", sig "t"⟩, ⟨sig "b", sig "t"⟩, ⟨sig "t", sig "a"⟩,
      ⟨sig "s", sig "b"⟩]
    let policy : Policy := { maxVisits := 0 }
    let g := ofCalls calls
    let run := fun scope => g.entryTree [] { policy with cycleScope := scope } (sig "t")
    (policy.maxVisits = 0 ∧ g.contains (sig "t") = true ∧
        (run .global).root.branches = [[sig "r", sig "a", sig "t"], [sig "s", sig "b", sig "t"]] ∧
        (run .pathLocal).root.branches.length = 6) ∧
      (run .global).entryPoints = (run .pathLocal).entryPoints ∧
      (run .global).usedFallback = (run .pathLocal).usedFallback ∧
      ∃ paths, List.Forall₂ (g.IsRoute (sig "t")) (run .global).entryPoints paths ∧
        (∀ p ∈ paths, p ∈ (run .pathLocal).root.branches) ∧
        (∀ p, paths = [p] → (run .global).root = ofPath p) ∧
        (paths.length ≠ 1 → (run .global).root = .node none (paths.map ofPath)) :=
  ⟨by decide, entryTree_single_paths _ [] _ _ rfl (by decide)⟩

end CallGraph

end CallPaths
