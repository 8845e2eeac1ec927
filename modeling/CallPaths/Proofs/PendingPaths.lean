import CallPaths.Proofs.SimplePaths

/-!
# Explorations as loops over pending paths

`Exploration.tree` goes into a graph by recursion, and its depth is bounded from outside.  The same
exploration is a loop over a stack of pending paths: a round takes the path on top, which either
ends there or makes way for the paths to the fresh neighbours of its last node.  Nothing bounds the
number of rounds, and on a graph with cycles it is not obvious that there is a last one.

There is one nevertheless.  The loop goes through the tree of the recursion in preorder, one node a
round, and what it has collected in the end are the branches of the tree.  So it makes as many
rounds as it counts visits.

## Key results

- `Exploration.Rounds.unique`: a loop has one outcome at most
- `Exploration.explores_tree`: the loop goes through the tree of the recursion
- `Exploration.ends_iff`: when the loop ends, and with which paths
-/

namespace CallPaths

namespace Exploration

open CallTree

/-- The state of a loop: the pending paths, each as its last node and the nodes before it backwards,
the nodes that are marked, the number of visits, and the paths that ended, the latest one first. -/
structure Agenda where
  pending : List (Signature × List Signature)
  seen : SortedSet Signature
  visits : Nat
  ended : List (List Signature)

/-- The state in which a loop starts: a single method is pending and was visited. -/
def Agenda.start (m : Signature) : Agenda :=
  { pending := [(m, [])], seen := (∅ : SortedSet Signature).insert m, visits := 1, ended := [] }

/-- A round of the loop, which there is if a path is pending. -/
def round? (x : Exploration) (a : Agenda) : Option Agenda :=
  match a.pending with
  | [] => none
  | (m, path) :: rest =>
    -- where the walk halts, the neighbours are not even looked at
    let next := if x.halts m then [] else x.fresh a.seen m path
    if next.isEmpty then
      some { a with pending := rest, ended := (m :: path).reverse :: a.ended }
    else
      -- the least neighbour comes on top, and all of them are marked before it is taken
      some
        { pending := next.map (·, m :: path) ++ rest
          seen := x.enter a.seen next
          visits := a.visits + next.length
          ended := a.ended }

/-- A number of rounds leads from one state to another. -/
inductive Rounds (x : Exploration) : Nat → Agenda → Agenda → Prop
  | zero (a : Agenda) : Rounds x 0 a a
  | succ {n : Nat} {a b c : Agenda} (first : x.round? a = some b) (rest : Rounds x n b c) :
      Rounds x (n + 1) a c

variable {x : Exploration} {nodes : List Signature}

/-! ### Rounds -/

section Round

variable {m : Signature} {path : List Signature} {seen : SortedSet Signature}

/-- A path ends where the walk halts or where there is no fresh neighbour. -/
private theorem round?_ends (h : x.halts m = true ∨ x.fresh seen m path = [])
    (rest : List (Signature × List Signature)) (visits : Nat) (ended : List (List Signature)) :
    x.round? ⟨(m, path) :: rest, seen, visits, ended⟩ =
      some ⟨rest, seen, visits, (m :: path).reverse :: ended⟩ := by
  rcases h with h | h <;> simp [round?, h]

/-- A path that does not end makes way for those to the fresh neighbours. -/
private theorem round?_goes (hm : x.halts m = false) (h : x.fresh seen m path ≠ [])
    (rest : List (Signature × List Signature)) (visits : Nat) (ended : List (List Signature)) :
    x.round? ⟨(m, path) :: rest, seen, visits, ended⟩ =
      some ⟨(x.fresh seen m path).map (·, m :: path) ++ rest, x.enter seen (x.fresh seen m path),
        visits + (x.fresh seen m path).length, ended⟩ := by
  simp [round?, hm, h]

end Round

/-- Nothing is marked if nothing is entered. -/
private theorem enter_nil (seen : SortedSet Signature) : x.enter seen [] = seen := by
  cases hscope : x.scope with
  | pathLocal => exact enter_pathLocal hscope seen []
  | global => simp [enter, Walk.enter, hscope, walkFrom]

namespace Rounds

variable {n k : Nat} {a b c : Agenda}

/-- Rounds after rounds. -/
theorem trans (h : x.Rounds n a b) (h' : x.Rounds k b c) : x.Rounds (n + k) a c := by
  induction h with
  | zero a => rwa [Nat.zero_add]
  | succ first _ ih =>
    rw [Nat.add_right_comm]
    exact .succ first (ih h')

/-- A loop that is over has one outcome and one number of rounds. -/
theorem unique (h : x.Rounds n a b) (hb : x.round? b = none) (h' : x.Rounds k a c)
    (hc : x.round? c = none) : n = k ∧ b = c := by
  induction h generalizing k with
  | zero a =>
    cases h' with
    | zero => exact ⟨rfl, rfl⟩
    | succ first _ => simp [hb] at first
  | succ first _ ih =>
    cases h' with
    | zero => simp [hc] at first
    | succ first' rest' =>
      -- a state has one round at most, so both runs agree on the first one
      obtain rfl := Option.some.inj (first.symm.trans first')
      obtain ⟨rfl, rfl⟩ := ih hb rest'
      exact ⟨rfl, rfl⟩

end Rounds

/-! ### The loop and the recursion -/

/-- The rounds that take a pending path from the stack, with all that takes its place, go through a
tree: there is one for each node, each node below the root is a visit, and the branches are the
paths that end.  What lies below on the stack is not touched. -/
def Explores (x : Exploration) (m : Signature) (path : List Signature)
    (seen : SortedSet Signature) (r : CallTree × SortedSet Signature) : Prop :=
  ∀ rest visits ended, x.Rounds (1 + r.1.descendants) ⟨(m, path) :: rest, seen, visits, ended⟩
    ⟨rest, r.2, visits + r.1.descendants, (r.1.branches.map (path.reverse ++ ·)).reverse ++ ended⟩

/-- Several pending paths are taken from the stack one after another. -/
private theorem rounds_gather (path : List Signature)
    {f : Signature → SortedSet Signature → CallTree × SortedSet Signature}
    (hf : ∀ c seen, ∀ a ∈ seen, a ∈ (f c seen).2) (cs : List Signature)
    (seen : SortedSet Signature)
    (h : ∀ c ∈ cs, ∀ seen', (∀ a ∈ seen, a ∈ seen') → x.Explores c path seen' (f c seen'))
    (rest : List (Signature × List Signature)) (visits : Nat) (ended : List (List Signature)) :
    x.Rounds (cs.length + descendantsAll (gather f cs seen).1)
      ⟨cs.map (·, path) ++ rest, seen, visits, ended⟩
      ⟨rest, (gather f cs seen).2, visits + descendantsAll (gather f cs seen).1,
        ((branchesAll (gather f cs seen).1).map (path.reverse ++ ·)).reverse ++ ended⟩ := by
  induction cs generalizing seen visits ended with
  | nil => exact .zero _
  | cons c cs ih =>
    -- the others lie below the first path while it is taken, and start from the marks it leaves
    have hfirst := h c (by simp) seen (fun _ ha => ha) (cs.map (·, path) ++ rest) visits ended
    have hothers := ih (f c seen).2
      (fun c' hc' seen' hseen' => h c' (by simp [hc']) seen' fun a ha => hseen' a (hf c seen a ha))
      (visits + (f c seen).1.descendants)
      (((f c seen).1.branches.map (path.reverse ++ ·)).reverse ++ ended)
    have hall := hfirst.trans hothers
    simp only [gather, descendantsAll, branchesAll, List.map_cons, List.cons_append,
      List.length_cons, List.map_append, List.reverse_append, List.append_assoc]
    rw [← Nat.add_assoc visits]
    convert hall using 1
    omega

/-- With room for all steps, the rounds go through the tree of the recursion. -/
theorem explores_tree (hnext : ∀ a, ∀ b ∈ x.next a, b ∈ nodes) {depth : Nat} {m : Signature}
    {path : List Signature} {seen : SortedSet Signature}
    (h : Room x nodes depth (m :: path) seen) :
    x.Explores m path seen (x.tree depth (m :: path) seen) := by
  -- the induction is on the bound of the recursion, which the loop does not have
  induction depth generalizing m path seen with
  | zero => exact absurd h.depth_pos (Nat.lt_irrefl 0)
  | succ depth ih =>
    intro rest visits ended
    -- a path that ends is the only branch, and it takes one round
    have hleaf : x.halts m = true ∨ x.fresh seen m path = [] →
        x.Rounds 1 ⟨(m, path) :: rest, seen, visits, ended⟩
          ⟨rest, seen, visits, (m :: path).reverse :: ended⟩ := fun h =>
      .succ (round?_ends h rest visits ended) (.zero _)
    cases hm : x.halts m with
    | true =>
      rw [tree_halts hm]
      simpa [descendants, descendantsAll] using hleaf (.inl hm)
    | false =>
      rw [tree_goes hm]
      by_cases hfresh : x.fresh seen m path = []
      · rw [hfresh, enter_nil]
        simpa [descendants, descendantsAll, gather] using hleaf (.inr hfresh)
      · -- the first round puts the neighbours on the stack, and the others take them off again
        have hfirst := round?_goes hm hfresh rest visits ended
        have hothers := rounds_gather (m :: path)
          (fun c _ _ ha => mem_tree_of_mem depth (c :: m :: path) ha) (x.fresh seen m path)
          (x.enter seen (x.fresh seen m path))
          (fun c hc seen' hseen' => ih (h.step hnext hc hseen')) rest
          (visits + (x.fresh seen m path).length) ended
        have hlen := length_gather (fun c => x.tree depth (c :: m :: path)) (x.fresh seen m path)
          (x.enter seen (x.fresh seen m path))
        have hne := gather_ne_nil (fun c => x.tree depth (c :: m :: path)) hfresh
          (x.enter seen (x.fresh seen m path))
        have hpaths : (path.reverse ++ ·) ∘ ((some m).toList ++ ·) = ((m :: path).reverse ++ ·) :=
          funext fun p => by simp
        rw [branches_inner hne, ← branchesAll_eq_flatMap, descendants, hlen, List.map_map, hpaths,
          Nat.add_comm 1, ← Nat.add_assoc visits]
        exact .succ hfirst hothers

/-! ### Whole loops -/

/-- The loop from a method is over after a number of rounds, with as many visits and with the given
paths. -/
def Ends (x : Exploration) (m : Signature) (rounds : Nat) (paths : List (List Signature)) : Prop :=
  ∃ last, x.Rounds rounds (.start m) last ∧ x.round? last = none ∧ last.visits = rounds ∧
    last.ended.reverse = paths

/-- The loop from a node is over when it went through the tree of the recursion, and then only. -/
theorem ends_iff (hnext : ∀ a, ∀ b ∈ x.next a, b ∈ nodes) {m : Signature} (hm : m ∈ nodes)
    {rounds : Nat} {paths : List (List Signature)} :
    let t := (x.tree nodes.length [m] ((∅ : SortedSet Signature).insert m)).1
    x.Ends m rounds paths ↔ rounds = 1 + t.descendants ∧ paths = t.branches := by
  intro t
  have hrounds := explores_tree (x := x) hnext (Room.single hm) [] 1 []
  -- the loop starts with an empty path, so the branches stand for themselves
  have hended : ((t.branches.map ([].reverse ++ ·)).reverse ++ []).reverse = t.branches := by
    simp
  constructor
  · rintro ⟨last, hlast, hover, -, rfl⟩
    obtain ⟨rfl, rfl⟩ := hlast.unique hover hrounds rfl
    exact ⟨rfl, hended⟩
  · rintro ⟨rfl, rfl⟩
    exact ⟨_, hrounds, rfl, rfl, hended⟩

end Exploration

end CallPaths
