import CallPaths.Proofs.Exploration
import Mathlib.Data.List.Chain

/-!
# Explorations list simple paths

A walk never enters a node that is on its path already.  So a path has at most as many nodes as the
graph, and a walk with that many steps left does not run out of them.  `Exploration.Room` is the
invariant that carries this from step to step, for both rules of when a method counts as visited.

Where a method counts as visited on its own path only, the branches of an exploration are exactly
the paths that go on as long as they can without a repetition (`Exploration.mem_branches_tree`).

## Key results

- `Exploration.ordered_tree`: the tree of an exploration is ordered
- `Exploration.mem_branches_tree`: which paths are branches
- `Exploration.isPath_cons_cons`: how a walk goes on
- `Exploration.isBranch_iff`: branches as chains without repetition
-/

namespace CallPaths

namespace Exploration

open CallTree

variable {x : Exploration} {nodes : List Signature}

/-! ### Entering nodes -/

/-- A neighbour may be entered if it is not on the path, where only the path counts. -/
theorem mem_fresh_pathLocal (h : x.scope = .pathLocal) {seen : SortedSet Signature}
    {m c : Signature} {path : List Signature} :
    c ∈ x.fresh seen m path ↔ c ∈ x.next m ∧ c ∉ m :: path := by
  simp [fresh, Walk.fresh, Walk.isBlocked, h, SortedSet.mem_def]

/-- A neighbour may be entered if it was not entered before, where all entered nodes count. -/
theorem mem_fresh_global (h : x.scope = .global) {seen : SortedSet Signature}
    {m c : Signature} {path : List Signature} :
    c ∈ x.fresh seen m path ↔ c ∈ x.next m ∧ c ∉ seen := by
  have hcontains : ∀ a, seen.contains a = false ↔ a ∉ seen := by
    intro a
    rw [← SortedSet.contains_iff, Bool.not_eq_true]
  simp [fresh, Walk.fresh, Walk.isBlocked, h, walkFrom, hcontains, SortedSet.mem_def]

/-- The fresh neighbours increase. -/
theorem pairwise_fresh (seen : SortedSet Signature) (m : Signature) (path : List Signature) :
    (x.fresh seen m path).Pairwise Before :=
  SortedSet.pairwise_filter (x.next m).sorted

/-- Nothing is marked where only the path counts. -/
theorem enter_pathLocal (h : x.scope = .pathLocal) (seen : SortedSet Signature)
    (next : List Signature) : x.enter seen next = seen := by
  simp [enter, Walk.enter, h, walkFrom]

/-- The entered nodes are marked where all entered nodes count. -/
theorem mem_enter_global (h : x.scope = .global) {seen : SortedSet Signature}
    {next : List Signature} {a : Signature} : a ∈ x.enter seen next ↔ a ∈ next ∨ a ∈ seen := by
  simp [enter, Walk.enter, h, walkFrom, SortedSet.mem_foldl_insert]

/-- Entering nodes takes no mark away. -/
private theorem mem_enter_of_mem {seen : SortedSet Signature} {a : Signature} (h : a ∈ seen)
    (next : List Signature) : a ∈ x.enter seen next := by
  cases hscope : x.scope with
  | pathLocal => rwa [enter_pathLocal hscope]
  | global => exact (mem_enter_global hscope).2 (.inr h)

/-- Gathering takes no mark away if no exploration does. -/
private theorem mem_gather_of_mem
    {f : Signature → SortedSet Signature → CallTree × SortedSet Signature}
    (hf : ∀ c seen, ∀ a ∈ seen, a ∈ (f c seen).2) (cs : List Signature)
    {seen : SortedSet Signature} {a : Signature} (h : a ∈ seen) : a ∈ (gather f cs seen).2 := by
  induction cs generalizing seen with
  | nil => exact h
  | cons c cs ih => exact ih (hf c seen a h)

/-- An exploration takes no mark away. -/
theorem mem_tree_of_mem (depth : Nat) (path : List Signature) {seen : SortedSet Signature}
    {a : Signature} (h : a ∈ seen) : a ∈ (x.tree depth path seen).2 := by
  induction depth generalizing path seen a with
  | zero => exact h
  | succ depth ih =>
    cases path with
    | nil => exact h
    | cons m path =>
      cases hm : x.halts m with
      | true => rwa [tree_halts hm]
      | false =>
        rw [tree_goes hm]
        exact mem_gather_of_mem (fun c _ _ ha => ih (c :: m :: path) ha) _
          (mem_enter_of_mem h _)

/-! ### Room for all steps -/

/-- There are enough steps left for all nodes that are not on the path: the path is made of
different nodes, and its nodes are marked where all entered nodes count. -/
structure Room (x : Exploration) (nodes : List Signature) (depth : Nat) (path : List Signature)
    (seen : SortedSet Signature) : Prop where
  nodup : path.Nodup
  subset : path ⊆ nodes
  steps : nodes.length < depth + path.length
  marked : x.scope = .global → ∀ a ∈ path, a ∈ seen

namespace Room

variable {depth : Nat} {path : List Signature} {seen : SortedSet Signature}

/-- Where there is room, there is a step left. -/
theorem depth_pos (h : Room x nodes depth path seen) : 0 < depth := by
  have hlen := h.nodup.length_le_of_subset h.subset
  have hsteps := h.steps
  omega

/-- A path of one node leaves room for as many steps as there are nodes. -/
theorem single {m : Signature} (hm : m ∈ nodes) :
    Room x nodes nodes.length [m] ((∅ : SortedSet Signature).insert m) where
  nodup := by simp
  subset := by simpa using hm
  steps := by simp
  marked := by simp

/-- A step to a fresh neighbour keeps the room, whatever was marked since. -/
theorem step {m c : Signature} {seen' : SortedSet Signature}
    (h : Room x nodes (depth + 1) (m :: path) seen) (hnext : ∀ a, ∀ b ∈ x.next a, b ∈ nodes)
    (hc : c ∈ x.fresh seen m path)
    (hseen : ∀ a ∈ x.enter seen (x.fresh seen m path), a ∈ seen') :
    Room x nodes depth (c :: m :: path) seen' := by
  have hcm : c ∈ x.next m ∧ c ∉ m :: path := by
    cases hscope : x.scope with
    | pathLocal => exact (mem_fresh_pathLocal hscope).1 hc
    | global =>
      obtain ⟨hn, hs⟩ := (mem_fresh_global hscope).1 hc
      exact ⟨hn, fun hmem => hs (h.marked hscope c hmem)⟩
  refine ⟨List.nodup_cons.2 ⟨hcm.2, h.nodup⟩, ?_, ?_, fun hscope a ha => ?_⟩
  · exact List.cons_subset.2 ⟨hnext m c hcm.1, h.subset⟩
  · have hsteps := h.steps
    simp only [List.length_cons] at hsteps ⊢
    omega
  · apply hseen
    rw [mem_enter_global hscope]
    rcases List.mem_cons.1 ha with rfl | ha
    · exact .inl hc
    · exact .inr (h.marked hscope a ha)

end Room

/-! ### Ordered trees -/

/-- Gathered trees are ordered and stand for the given methods, if each of them is and does. -/
theorem ordered_gather {f : Signature → SortedSet Signature → CallTree × SortedSet Signature}
    (hf : ∀ c seen, ∀ a ∈ seen, a ∈ (f c seen).2) (cs : List Signature)
    (seen : SortedSet Signature)
    (h : ∀ c ∈ cs, ∀ seen', (∀ a ∈ seen, a ∈ seen') →
      (f c seen').1.Ordered ∧ (f c seen').1.method = some c) :
    (∀ t ∈ (gather f cs seen).1, t.Ordered) ∧ (gather f cs seen).1.filterMap method = cs := by
  induction cs generalizing seen with
  | nil => exact ⟨by simp [gather], rfl⟩
  | cons c cs ih =>
    obtain ⟨hord, hmethod⟩ := h c (by simp) seen fun _ ha => ha
    obtain ⟨hords, hmethods⟩ := ih (f c seen).2 fun c' hc' seen' hseen' =>
      h c' (by simp [hc']) seen' fun a ha => hseen' a (hf c seen a ha)
    refine ⟨?_, ?_⟩
    · exact List.forall_mem_cons.2 ⟨hord, hords⟩
    · rw [gather, List.filterMap_cons_some hmethod, hmethods]

/-- With room for all steps, the tree of an exploration is ordered and starts at the end of the
path. -/
theorem ordered_tree (hnext : ∀ a, ∀ b ∈ x.next a, b ∈ nodes) {depth : Nat} {m : Signature}
    {path : List Signature} {seen : SortedSet Signature}
    (h : Room x nodes depth (m :: path) seen) :
    (x.tree depth (m :: path) seen).1.Ordered ∧
      (x.tree depth (m :: path) seen).1.method = some m := by
  -- the case without steps left is the one that the room rules out
  induction depth generalizing m path seen with
  | zero => exact absurd h.depth_pos (Nat.lt_irrefl 0)
  | succ depth ih =>
    cases hm : x.halts m with
    | true =>
      rw [tree_halts hm]
      exact ⟨.node m [] (by simp) (by simp), rfl⟩
    | false =>
      rw [tree_goes hm]
      obtain ⟨hord, hmethods⟩ := ordered_gather
        (fun c _ _ ha => mem_tree_of_mem depth (c :: m :: path) ha) (x.fresh seen m path)
        (x.enter seen (x.fresh seen m path))
        fun c hc seen' hseen' => ih (h.step hnext hc hseen')
      refine ⟨.node m _ ?_ hord, rfl⟩
      rw [hmethods]
      exact pairwise_fresh seen m path

/-! ### Branches where only the path counts -/

/-- The paths that a walk goes on from a path, where only the path counts: each step goes to a
neighbour that is not on the path, and the last node is one where the walk halts or from where no
such step is left. -/
def IsBranch (x : Exploration) : List Signature → List Signature → Prop
  | _, [] => False
  | path, [m] => x.halts m = true ∨ ∀ c ∈ x.next m, c ∈ m :: path
  | path, m :: c :: p =>
    x.halts m = false ∧ c ∈ x.next m ∧ c ∉ m :: path ∧ IsBranch x (m :: path) (c :: p)

/-- Explorations mark nothing where only the path counts. -/
private theorem tree_snd_pathLocal (hx : x.scope = .pathLocal) (depth : Nat) (path : List Signature)
    (seen : SortedSet Signature) : (x.tree depth path seen).2 = seen := by
  induction depth generalizing path seen with
  | zero => rfl
  | succ depth ih =>
    cases path with
    | nil => rfl
    | cons m path =>
      cases hm : x.halts m with
      | true => rw [tree_halts hm]
      | false =>
        rw [tree_goes hm, enter_pathLocal hx]
        generalize x.fresh seen m path = cs
        induction cs with
        | nil => rfl
        | cons c cs ihcs =>
          simp only [gather, ih (c :: m :: path) seen]
          exact ihcs

/-- Where only the path counts, the trees from several neighbours do not depend on each other. -/
theorem gather_pathLocal (hx : x.scope = .pathLocal) (depth : Nat) (m : Signature)
    (path : List Signature) (seen : SortedSet Signature) (cs : List Signature) :
    (gather (fun c => x.tree depth (c :: m :: path)) cs seen).1 =
      cs.map fun c => (x.tree depth (c :: m :: path) seen).1 := by
  induction cs with
  | nil => rfl
  | cons c cs ih =>
    simp only [gather, tree_snd_pathLocal hx, List.map_cons, ih]

/-- The branches of the tree of an exploration. -/
theorem mem_branches_tree (hx : x.scope = .pathLocal) (hnext : ∀ a, ∀ b ∈ x.next a, b ∈ nodes)
    {depth : Nat} {m : Signature} {path p : List Signature} {seen : SortedSet Signature}
    (h : Room x nodes depth (m :: path) seen) :
    p ∈ (x.tree depth (m :: path) seen).1.branches ↔ p.head? = some m ∧ x.IsBranch path p := by
  induction depth generalizing m path p with
  | zero => exact absurd h.depth_pos (Nat.lt_irrefl 0)
  | succ depth ih =>
    cases hm : x.halts m with
    | true =>
      -- the walk halts here, so the only branch is the method itself
      rw [tree_halts hm]
      match p with
      | [] => simp
      | [a] => simp +contextual [IsBranch, hm]
      | a :: c :: p => simp +contextual [IsBranch, hm]
    | false =>
      rw [tree_goes hm, enter_pathLocal hx, gather_pathLocal hx]
      have hfresh : ∀ c, c ∈ x.fresh seen m path ↔ c ∈ x.next m ∧ c ∉ m :: path :=
        fun c => mem_fresh_pathLocal hx
      have hstep : ∀ c ∈ x.fresh seen m path, ∀ q,
          q ∈ (x.tree depth (c :: m :: path) seen).1.branches ↔
            q.head? = some c ∧ x.IsBranch (m :: path) q := fun c hc q =>
        ih (h.step hnext hc fun a ha => by rwa [enter_pathLocal hx] at ha)
      generalize x.fresh seen m path = next at hfresh hstep
      by_cases hne : next = []
      · -- no step is left, so the only branch is the method itself
        subst hne
        have hend : ∀ c, c ∈ x.next m → c ∈ m :: path := by
          intro c hc
          by_cases hcm : c ∈ m :: path
          · exact hcm
          · exact absurd ((hfresh c).2 ⟨hc, hcm⟩) List.not_mem_nil
        rw [List.map_nil, branches_leaf, Option.toList_some, List.map_singleton,
          List.mem_singleton]
        constructor
        · rintro rfl
          exact ⟨rfl, .inr hend⟩
        · rintro ⟨hhead, hp⟩
          match p, hp with
          | [a], _ => simpa using hhead
          | a :: c :: q, ⟨_, hc, hcm, _⟩ =>
            obtain rfl : a = m := by simpa using hhead
            exact absurd (hend c hc) hcm
      · rw [branches_inner (by simpa using hne), List.mem_map]
        constructor
        · rintro ⟨q, hq, rfl⟩
          obtain ⟨t, ht, hq⟩ := List.mem_flatMap.1 hq
          obtain ⟨c, hc, rfl⟩ := List.mem_map.1 ht
          obtain ⟨hhead, hbranch⟩ := (hstep c hc q).1 hq
          refine ⟨rfl, ?_⟩
          match q, hbranch with
          | a :: q, hbranch =>
            obtain rfl : a = c := by simpa using hhead
            obtain ⟨hcn, hcm⟩ := (hfresh a).1 hc
            exact ⟨hm, hcn, hcm, hbranch⟩
        · rintro ⟨hhead, hp⟩
          match p, hp with
          | [a], hp =>
            -- a step is left, so the path cannot end here
            obtain rfl : a = m := by simpa using hhead
            obtain ⟨c, hc⟩ := List.exists_mem_of_ne_nil next hne
            obtain ⟨hcn, hcm⟩ := (hfresh c).1 hc
            rcases hp with hp | hp
            · rw [hm] at hp
              exact absurd hp Bool.false_ne_true
            · exact absurd (hp c hcn) hcm
          | a :: c :: q, ⟨_, hcn, hcm, hp⟩ =>
            obtain rfl : a = m := by simpa using hhead
            have hc := (hfresh c).2 ⟨hcn, hcm⟩
            refine ⟨c :: q, ?_, rfl⟩
            exact List.mem_flatMap.2 ⟨_, List.mem_map_of_mem hc, (hstep c hc _).2 ⟨rfl, hp⟩⟩

/-- The paths that a walk goes on from a path, where only the path counts, up to any of their nodes:
chains without repetition that avoid the path and halt nowhere before their end. -/
structure IsPath (x : Exploration) (path p : List Signature) : Prop where
  steps : p.IsChain fun a b => b ∈ x.next a
  nodup : p.Nodup
  avoids : ∀ a ∈ p, a ∉ path
  goes : ∀ a ∈ p.dropLast, x.halts a = false

/-- A node that is not on the path is a way to go on. -/
theorem isPath_singleton {m : Signature} {path : List Signature} (hm : m ∉ path) :
    x.IsPath path [m] where
  steps := List.isChain_singleton m
  nodup := by simp
  avoids := by simpa using hm
  goes := by simp

/-- A walk goes on by a step to a neighbour that is not on the path, and then from there. -/
theorem isPath_cons_cons {m c : Signature} {path p : List Signature} (hm : m ∉ path) :
    x.IsPath path (m :: c :: p) ↔
      x.halts m = false ∧ c ∈ x.next m ∧ c ∉ m :: path ∧ x.IsPath (m :: path) (c :: p) := by
  have hlast : (m :: c :: p).dropLast = m :: (c :: p).dropLast :=
    List.dropLast_cons_of_ne_nil (List.cons_ne_nil c p)
  constructor
  · intro hp
    obtain ⟨hcn, hsteps⟩ := List.isChain_cons_cons.1 hp.steps
    obtain ⟨hmem, hnodup⟩ := List.nodup_cons.1 hp.nodup
    -- the rest of the path avoids the first node too
    have havoids : ∀ a ∈ c :: p, a ∉ m :: path := by
      intro a ha hpath
      rcases List.mem_cons.1 hpath with rfl | hpath
      · exact hmem ha
      · exact hp.avoids a (List.mem_cons_of_mem _ ha) hpath
    refine ⟨hp.goes m (by simp), hcn, havoids c (by simp), hsteps, hnodup, havoids, fun a ha => ?_⟩
    apply hp.goes
    rw [hlast]
    exact List.mem_cons_of_mem _ ha
  · rintro ⟨hhalt, hcn, -, hp⟩
    refine ⟨List.isChain_cons_cons.2 ⟨hcn, hp.steps⟩, List.nodup_cons.2 ⟨?_, hp.nodup⟩, ?_, ?_⟩
    · exact fun hmem => hp.avoids m hmem (by simp)
    · refine List.forall_mem_cons.2 ⟨hm, fun a ha hpath => ?_⟩
      exact hp.avoids a ha (List.mem_cons_of_mem _ hpath)
    · rw [hlast]
      exact List.forall_mem_cons.2 ⟨hhalt, hp.goes⟩

/-- Branches are the paths that cannot go on. -/
theorem isBranch_iff {m : Signature} {path p : List Signature} (hm : m ∉ path) :
    x.IsBranch path (m :: p) ↔ x.IsPath path (m :: p) ∧
      ∀ z ∈ (m :: p).getLast?, x.halts z = true ∨ ∀ c ∈ x.next z, c ∈ path ∨ c ∈ m :: p := by
  induction p generalizing m path with
  | nil =>
    have hswap : ∀ c, c ∈ m :: path ↔ c ∈ path ∨ c ∈ [m] := fun c => by
      rw [List.mem_cons, List.mem_singleton, or_comm]
    simp [IsBranch, isPath_singleton hm, hswap]
  | cons c p ih =>
    -- whether a node is on the path or ahead of it does not matter at the end
    have hswap : ∀ c', c' ∈ path ∨ c' ∈ m :: c :: p ↔ c' ∈ m :: path ∨ c' ∈ c :: p := by
      intro c'
      rw [List.mem_cons (b := m), List.mem_cons (b := m), or_left_comm, or_assoc]
    rw [IsBranch, isPath_cons_cons hm, List.getLast?_cons_cons]
    simp only [hswap]
    constructor
    · rintro ⟨hhalt, hcn, hcm, hp⟩
      obtain ⟨hpath, hend⟩ := (ih hcm).1 hp
      exact ⟨⟨hhalt, hcn, hcm, hpath⟩, hend⟩
    · rintro ⟨⟨hhalt, hcn, hcm, hpath⟩, hend⟩
      exact ⟨hhalt, hcn, hcm, (ih hcm).2 ⟨hpath, hend⟩⟩

end Exploration

end CallPaths
