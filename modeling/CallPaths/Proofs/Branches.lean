import CallPaths.Graph.Tree
import CallPaths.Proofs.Sorted

/-!
# Branches of call trees

A branch of a tree is the sequence of methods from its root to a leaf.  A root without a method does
not count, so the branches of several trees under a common root are those of the trees.

Pruning a tree at a target keeps the branches that end there and nothing else (`branches_prune`).
In an ordered tree, where the children of each node increase, the branches are listed in increasing
lexicographic order (`Ordered.pairwise_lex_branches`), and so none is listed twice.  Pruning keeps a
tree ordered (`Ordered.prune`).
-/

namespace CallPaths

namespace CallTree

/-- Induction over a tree with the hypothesis for each child. -/
@[elab_as_elim, induction_eliminator]
theorem induct {motive : CallTree → Prop}
    (node : ∀ m cs, (∀ t ∈ cs, motive t) → motive (.node m cs)) (t : CallTree) : motive t :=
  @CallTree.rec motive (fun ts => ∀ t ∈ ts, motive t) (fun m cs ih => node m cs ih) (by simp)
    (fun _ _ ht hts => List.forall_mem_cons.2 ⟨ht, hts⟩) t

mutual

/-- The methods from the root to each leaf, in order; a root without a method is left out. -/
def branches : CallTree → List (List Signature)
  | node m cs =>
    if cs.isEmpty then m.toList.map fun m => [m]
    else (branchesAll cs).map (m.toList ++ ·)

/-- The branches of several trees. -/
def branchesAll : List CallTree → List (List Signature)
  | [] => []
  | t :: ts => branches t ++ branchesAll ts

end

mutual

/-- The number of nodes below the root. -/
def descendants : CallTree → Nat
  | node _ cs => cs.length + descendantsAll cs

/-- The number of nodes below the roots of several trees. -/
def descendantsAll : List CallTree → Nat
  | [] => 0
  | t :: ts => descendants t + descendantsAll ts

end

mutual

/-- The part of a tree that leads to leaves with a method, if there is any. -/
def prune (target : Signature) : CallTree → Option CallTree
  | node m cs =>
    if cs.isEmpty then if m = some target then some (node m []) else none
    else
      let kept := pruneAll target cs
      if kept.isEmpty then none else some (node m kept)

/-- The parts of several trees that lead to leaves with a method. -/
def pruneAll (target : Signature) : List CallTree → List CallTree
  | [] => []
  | t :: ts => (prune target t).toList ++ pruneAll target ts

end

/-- Every node has a method. -/
inductive Named : CallTree → Prop
  | node (m : Signature) (cs : List CallTree) (named : ∀ t ∈ cs, Named t) :
      Named (.node (some m) cs)

/-- Every node has a method, and the methods of the children of a node increase. -/
inductive Ordered : CallTree → Prop
  | node (m : Signature) (cs : List CallTree)
      (increasing : (cs.filterMap method).Pairwise Before)
      (ordered : ∀ t ∈ cs, Ordered t) : Ordered (.node (some m) cs)

/-! ### Equations -/

/-- The branches of several trees, one tree after another. -/
theorem branchesAll_eq_flatMap (ts : List CallTree) : branchesAll ts = ts.flatMap branches := by
  induction ts with
  | nil => rfl
  | cons t ts ih => rw [branchesAll, ih, List.flatMap_cons]

/-- The methods of several trees, one tree after another. -/
theorem preorderAll_eq_flatMap (ts : List CallTree) : preorderAll ts = ts.flatMap preorder := by
  induction ts with
  | nil => rfl
  | cons t ts ih => rw [preorderAll, ih, List.flatMap_cons]

/-- What is listed once for each node of a tree is listed once for each node of several trees. -/
theorem length_flatMap_nodes {α : Type u} {f : CallTree → List α} {ts : List CallTree}
    (h : ∀ t ∈ ts, (f t).length = 1 + t.descendants) :
    (ts.flatMap f).length = ts.length + descendantsAll ts := by
  induction ts with
  | nil => rfl
  | cons t ts ih =>
    obtain ⟨ht, hts⟩ := List.forall_mem_cons.1 h
    rw [List.flatMap_cons, List.length_append, List.length_cons, descendantsAll, ht, ih hts]
    omega

/-- The method at the root is one of the tree. -/
theorem mem_preorder_of_method {t : CallTree} {m : Signature} (h : t.method = some m) :
    m ∈ t.preorder := by
  cases t with
  | node m' cs =>
    rw [preorder, List.mem_append]
    exact .inl (Option.mem_toList.2 h)

/-- The methods at the roots of several trees are among their methods. -/
theorem mem_preorderAll_of_mem_methods {ts : List CallTree} {m : Signature}
    (h : m ∈ ts.filterMap method) : m ∈ preorderAll ts := by
  obtain ⟨t, ht, hm⟩ := List.mem_filterMap.1 h
  rw [preorderAll_eq_flatMap]
  exact List.mem_flatMap.2 ⟨t, ht, mem_preorder_of_method hm⟩

/-- A leaf is a branch of its own. -/
@[simp] theorem branches_leaf (m : Option Signature) :
    (node m []).branches = m.toList.map fun m => [m] := by
  simp [branches]

/-- A branch of an inner node goes on with a branch of a child. -/
theorem branches_inner {m : Option Signature} {cs : List CallTree} (h : cs ≠ []) :
    (node m cs).branches = (cs.flatMap branches).map (m.toList ++ ·) := by
  simp [branches, h, branchesAll_eq_flatMap]

/-- A root without a method does not show in the branches. -/
theorem branches_node_none (cs : List CallTree) :
    (node none cs).branches = cs.flatMap branches := by
  cases cs with
  | nil => simp
  | cons t ts => simp [branches_inner]

/-- A branch is not empty. -/
theorem ne_nil_of_mem_branches {t : CallTree} {p : List Signature} (h : p ∈ t.branches) :
    p ≠ [] := by
  induction t generalizing p with
  | node m cs ih =>
    by_cases hcs : cs = []
    · subst hcs
      rw [branches_leaf, List.mem_map] at h
      obtain ⟨a, -, rfl⟩ := h
      simp
    · rw [branches_inner hcs, List.mem_map] at h
      obtain ⟨q, hq, rfl⟩ := h
      obtain ⟨t, ht, hq⟩ := List.mem_flatMap.1 hq
      simp [ih t ht hq]

/-- The methods on a branch are methods of the tree. -/
theorem mem_preorder_of_mem_branches {t : CallTree} {p : List Signature} (h : p ∈ t.branches)
    {a : Signature} (ha : a ∈ p) : a ∈ t.preorder := by
  induction t generalizing p with
  | node m cs ih =>
    rw [preorder, preorderAll_eq_flatMap, List.mem_append, List.mem_flatMap]
    by_cases hcs : cs = []
    · subst hcs
      rw [branches_leaf, List.mem_map] at h
      obtain ⟨b, hb, rfl⟩ := h
      rw [List.mem_singleton] at ha
      exact .inl (ha ▸ hb)
    · rw [branches_inner hcs, List.mem_map] at h
      obtain ⟨q, hq, rfl⟩ := h
      obtain ⟨t, ht, hq⟩ := List.mem_flatMap.1 hq
      rcases List.mem_append.1 ha with ha | ha
      · exact .inl ha
      · exact .inr ⟨t, ht, ih t ht hq ha⟩

/-! ### Pruning -/

/-- The last method of a branch decides whether it ends at a target. -/
def endsAt (target : Signature) (p : List Signature) : Bool :=
  p.getLast? = some target

/-- What comes before a branch does not matter for its end. -/
theorem endsAt_append {target : Signature} {p q : List Signature} (h : q ≠ []) :
    endsAt target (p ++ q) = endsAt target q := by
  rw [endsAt, endsAt, List.getLast?_append, List.getLast?_eq_some_getLast h, Option.some_or]

/-- Pruning keeps exactly the branches that end at the target. -/
theorem branches_prune (target : Signature) (t : CallTree) :
    (t.prune target).toList.flatMap branches = t.branches.filter (endsAt target) := by
  induction t with
  | node m cs ih =>
    by_cases hcs : cs = []
    · subst hcs
      cases m with
      | none => simp [prune]
      | some m =>
        by_cases hm : m = target
        · simp [prune, hm, endsAt]
        · simp [prune, hm, endsAt]
    · -- the branches of the kept children are the kept branches of the children
      have hkept : (pruneAll target cs).flatMap branches =
          (cs.flatMap branches).filter (endsAt target) := by
        clear hcs
        induction cs with
        | nil => rfl
        | cons t ts iht =>
          rw [pruneAll, List.flatMap_append, List.flatMap_cons, List.filter_append,
            ih t (by simp), iht fun t' ht' => ih t' (by simp [ht'])]
      rw [branches_inner hcs, List.filter_map]
      have hend : (cs.flatMap branches).filter (endsAt target ∘ (m.toList ++ ·)) =
          (cs.flatMap branches).filter (endsAt target) := by
        refine List.filter_congr fun q hq => ?_
        obtain ⟨t, -, hq⟩ := List.mem_flatMap.1 hq
        exact endsAt_append (ne_nil_of_mem_branches hq)
      rw [hend, ← hkept]
      by_cases hnil : pruneAll target cs = []
      · simp [prune, hcs, hnil]
      · simp [prune, hcs, hnil, branches_inner]

/-- The parts of several trees, one tree after another. -/
private theorem pruneAll_eq_flatMap (target : Signature) (ts : List CallTree) :
    pruneAll target ts = ts.flatMap fun t => (t.prune target).toList := by
  induction ts with
  | nil => rfl
  | cons t ts ih => rw [pruneAll, ih, List.flatMap_cons]

/-- If pruning leaves a part of a tree, it has the same root over the parts of the children. -/
private theorem eq_of_prune {target : Signature} {m : Option Signature} {cs : List CallTree}
    {t : CallTree} (h : (node m cs).prune target = some t) : t = node m (pruneAll target cs) := by
  cases cs with
  | nil =>
    simp only [prune, List.isEmpty_nil, if_true, Option.ite_none_right_eq_some,
      Option.some.injEq] at h
    exact h.2.symm
  | cons c cs =>
    simp only [prune, List.isEmpty_cons, Bool.false_eq_true, if_false,
      Option.ite_none_left_eq_some, Option.some.injEq] at h
    exact h.2.symm

/-- What pruning leaves of a tree has the same root. -/
theorem method_of_prune {target : Signature} {t t' : CallTree} (h : t.prune target = some t') :
    t'.method = t.method := by
  cases t with
  | node m cs =>
    rw [eq_of_prune h]
    rfl

/-- The roots of what pruning leaves of several trees are among their roots, in the same order. -/
private theorem methods_pruneAll_sublist (target : Signature) (ts : List CallTree) :
    ((pruneAll target ts).filterMap method).Sublist (ts.filterMap method) := by
  induction ts with
  | nil => exact .slnil
  | cons t ts ih =>
    rw [pruneAll, List.filterMap_append, ← List.singleton_append (l := ts), List.filterMap_append]
    refine List.Sublist.append ?_ ih
    cases h : t.prune target with
    | none => exact List.nil_sublist _
    | some t' => simp [List.filterMap, method_of_prune h]

/-! ### Named trees -/

namespace Named

/-- A named tree has a branch. -/
theorem branches_ne_nil {t : CallTree} (h : t.Named) : t.branches ≠ [] := by
  induction h with
  | node m cs _ ih =>
    by_cases hcs : cs = []
    · simp [hcs]
    · obtain ⟨t, ts, rfl⟩ := List.exists_cons_of_ne_nil hcs
      rw [branches_inner hcs]
      simp [ih t (by simp)]

/-- Every method of a named tree is on a branch. -/
theorem exists_branch {t : CallTree} (h : t.Named) {a : Signature} (ha : a ∈ t.preorder) :
    ∃ p ∈ t.branches, a ∈ p := by
  induction h with
  | node m cs hcs ih =>
    rw [preorder, Option.toList_some, List.singleton_append, preorderAll_eq_flatMap,
      List.mem_cons, List.mem_flatMap] at ha
    by_cases hnil : cs = []
    · subst hnil
      exact ⟨[m], by simp, by simpa using ha⟩
    · rw [branches_inner hnil]
      rcases ha with rfl | ⟨t, ht, ha⟩
      · -- the root is on every branch, and there is one
        obtain ⟨t, ts, rfl⟩ := List.exists_cons_of_ne_nil hnil
        obtain ⟨q, hq⟩ := List.exists_mem_of_ne_nil _ (hcs t (by simp)).branches_ne_nil
        exact ⟨a :: q, List.mem_map.2 ⟨q, List.mem_flatMap.2 ⟨t, by simp, hq⟩, rfl⟩, by simp⟩
      · obtain ⟨q, hq, haq⟩ := ih t ht ha
        exact ⟨m :: q, List.mem_map.2 ⟨q, List.mem_flatMap.2 ⟨t, ht, hq⟩, rfl⟩, by simp [haq]⟩

end Named

/-! ### Ordered trees -/

namespace Ordered

/-- An ordered tree is named. -/
theorem named {t : CallTree} (h : t.Ordered) : t.Named := by
  induction h with
  | node m cs _ _ ih => exact .node m cs ih

/-- An ordered tree has a method at its root. -/
theorem exists_method {t : CallTree} (h : t.Ordered) : ∃ m, t.method = some m := by
  cases h with
  | node m cs _ _ => exact ⟨m, rfl⟩

/-- The branches of an ordered tree start with the method at its root. -/
private theorem head_of_mem_branches {t : CallTree} (h : t.Ordered) {p : List Signature}
    (hp : p ∈ t.branches) : p.head? = t.method := by
  cases h with
  | node m cs _ _ =>
    by_cases hcs : cs = []
    · subst hcs
      simp only [branches_leaf, Option.toList_some, List.map_cons, List.map_nil,
        List.mem_singleton] at hp
      simp [hp, method]
    · rw [branches_inner hcs, List.mem_map] at hp
      obtain ⟨q, -, rfl⟩ := hp
      simp [method]

/-- Paths from the roots of trees are in lexicographic order if the roots increase and those of each
tree are. -/
theorem pairwise_lex_flatMap {f : CallTree → List (List Signature)} {ts : List CallTree}
    (hord : ∀ t ∈ ts, t.Ordered) (hhead : ∀ t ∈ ts, ∀ p ∈ f t, p.head? = t.method)
    (hinc : (ts.filterMap method).Pairwise Before)
    (hlex : ∀ t ∈ ts, (f t).Pairwise (List.Lex Before)) :
    (ts.flatMap f).Pairwise (List.Lex Before) := by
  induction ts with
  | nil => simp
  | cons t ts ih =>
    obtain ⟨m, hm⟩ := (hord t (by simp)).exists_method
    rw [List.filterMap_cons_some hm, List.pairwise_cons] at hinc
    rw [List.flatMap_cons, List.pairwise_append]
    refine ⟨hlex t (by simp), ih (fun s hs => hord s (by simp [hs]))
      (fun s hs => hhead s (by simp [hs])) hinc.2 (fun s hs => hlex s (by simp [hs])),
      fun p hp q hq => ?_⟩
    -- the first methods of paths in different trees decide
    obtain ⟨s, hs, hq⟩ := List.mem_flatMap.1 hq
    obtain ⟨m', hm'⟩ := (hord s (by simp [hs])).exists_method
    have hpm := hhead t (by simp) p hp
    have hqm := hhead s (by simp [hs]) q hq
    obtain ⟨p, rfl⟩ := List.head?_eq_some_iff.1 (hpm.trans hm)
    obtain ⟨q, rfl⟩ := List.head?_eq_some_iff.1 (hqm.trans hm')
    exact .rel (hinc.1 m' (List.mem_filterMap.2 ⟨s, hs, hm'⟩))

/-- The branches of an ordered tree are listed in increasing lexicographic order. -/
theorem pairwise_lex_branches {t : CallTree} (h : t.Ordered) :
    t.branches.Pairwise (List.Lex Before) := by
  induction h with
  | node m cs hinc hord ih =>
    by_cases hcs : cs = []
    · simp [hcs]
    · rw [branches_inner hcs]
      exact List.Pairwise.map _ (fun p q hpq => .cons hpq)
        (pairwise_lex_flatMap hord (fun t ht p hp => (hord t ht).head_of_mem_branches hp) hinc ih)

/-- Lists in increasing lexicographic order are distinct. -/
theorem nodup_of_pairwise_lex {ps : List (List Signature)} (h : ps.Pairwise (List.Lex Before)) :
    ps.Nodup := by
  refine h.imp fun hpq heq => ?_
  rw [heq] at hpq
  exact List.lex_irrefl Before.irrefl _ hpq

/-- No branch of an ordered tree is listed twice. -/
theorem nodup_branches {t : CallTree} (h : t.Ordered) : t.branches.Nodup :=
  nodup_of_pairwise_lex h.pairwise_lex_branches

/-- No branch of ordered trees whose roots increase is listed twice. -/
theorem nodup_flatMap_branches {ts : List CallTree} (hord : ∀ t ∈ ts, t.Ordered)
    (hinc : (ts.filterMap method).Pairwise Before) : (ts.flatMap branches).Nodup :=
  nodup_of_pairwise_lex (pairwise_lex_flatMap hord
    (fun t ht _ hp => (hord t ht).head_of_mem_branches hp) hinc
    fun t ht => (hord t ht).pairwise_lex_branches)

/-- What pruning leaves of an ordered tree is ordered. -/
theorem prune {target : Signature} {t t' : CallTree} (h : t.Ordered)
    (ht' : t.prune target = some t') : t'.Ordered := by
  induction h generalizing t' with
  | node m cs hinc hord ih =>
    rw [eq_of_prune ht']
    refine .node m _ (hinc.sublist (methods_pruneAll_sublist target cs)) fun s hs => ?_
    rw [pruneAll_eq_flatMap, List.mem_flatMap] at hs
    obtain ⟨c, hc, hs⟩ := hs
    exact ih c hc (Option.mem_toList.1 hs)

end Ordered

end CallTree

end CallPaths
