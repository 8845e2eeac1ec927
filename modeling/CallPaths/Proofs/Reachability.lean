import CallPaths.Graph.Ancestors
import CallPaths.Proofs.ShownMethods
import Mathlib.Logic.Relation

/-!
# Ancestors and call paths

`CallGraph.ancestors` is found by a loop over pending methods.  Every method that the loop has found
has a path of calls to the target, and the callers of the target and of each found method have been
found too, unless it is still pending (`AncestorSearch.Explored`).  A method becomes pending when it
is found, so the pending methods and the nodes that are not found yet become fewer by one with each
round, and the loop ends after as many rounds as there are nodes and one.

The ancestors of a method are therefore exactly the methods with a path of one or more calls to it,
and a graph with more calls has more of them.

## Key results

- `AncestorSearch.Explored.round`, `AncestorSearch.left_round`: what a round of the loop does
- `AncestorSearch.Explored.after`, `AncestorSearch.pending_after`: the loop as a whole
- `CallGraph.Mirrored.mem_ancestors_iff`: ancestors are the methods with a call path to a target
- `CallGraph.Mirrored.ancestors_subset`: more calls, more ancestors
-/

namespace CallPaths

open Relation

/-- One method calls another one. -/
def CallGraph.Calls (g : CallGraph) (a b : Signature) : Prop :=
  b ∈ g.callees a

/-- The callers of a method are those who call it. -/
theorem CallGraph.Mirrored.mem_callers_iff {g : CallGraph} (hg : g.Mirrored) {a b : Signature} :
    a ∈ g.callers b ↔ g.Calls a b :=
  hg.mem_callers a b

namespace AncestorSearch

variable {g : CallGraph} {target : Signature} {s s' : AncestorSearch}

/-! ### Callers -/

private theorem add_of_mem {c : Signature} (h : c ∈ s.found) : s.add c = s :=
  if_pos (SortedSet.contains_iff.2 h)

private theorem add_of_not_mem {c : Signature} (h : c ∉ s.found) :
    s.add c = ⟨c :: s.pending, s.found.insert c⟩ :=
  if_neg (mt SortedSet.contains_iff.1 h)

/-- The callers of a method are found. -/
private theorem mem_found_foldl {a : Signature} (cs : List Signature) (s : AncestorSearch) :
    a ∈ (cs.foldl add s).found ↔ a ∈ s.found ∨ a ∈ cs := by
  induction cs generalizing s with
  | nil => simp
  | cons c cs ih =>
    rw [List.foldl_cons, ih, List.mem_cons]
    by_cases hc : c ∈ s.found
    · rw [add_of_mem hc]
      grind
    · rw [add_of_not_mem hc, SortedSet.mem_insert, or_assoc, or_left_comm]

/-- The callers that were not found before are pending. -/
private theorem mem_pending_foldl {a : Signature} (cs : List Signature) (s : AncestorSearch) :
    a ∈ (cs.foldl add s).pending ↔ a ∈ s.pending ∨ a ∈ cs ∧ a ∉ s.found := by
  induction cs generalizing s with
  | nil => simp
  | cons c cs ih =>
    rw [List.foldl_cons, ih, List.mem_cons]
    by_cases hc : c ∈ s.found
    · rw [add_of_mem hc]
      grind
    · rw [add_of_not_mem hc, List.mem_cons, SortedSet.mem_insert]
      grind

/-! ### The end of the loop -/

/-- The pending methods and the nodes that are not found yet. -/
def left (g : CallGraph) (s : AncestorSearch) : Nat :=
  s.pending.length + (g.nodes.filter (· ∉ s.found)).length

/-- A node that is found becomes pending, so no more methods are left. -/
private theorem left_add {c : Signature} (hc : c ∈ g.nodes) (s : AncestorSearch) :
    left g (s.add c) ≤ left g s := by
  by_cases hfound : c ∈ s.found
  · rw [add_of_mem hfound]
  · -- one more method is pending, and one node less is not found yet
    have hfilter : g.nodes.filter (· ∉ s.found.insert c) =
        (g.nodes.filter (· ∉ s.found)).filter (· ≠ c) := by
      rw [List.filter_filter]
      refine List.filter_congr fun a _ => ?_
      simp [SortedSet.mem_insert]
    have hlt : ((g.nodes.filter (· ∉ s.found)).filter (· ≠ c)).length <
        (g.nodes.filter (· ∉ s.found)).length := by
      rw [List.length_filter_lt_length_iff_exists]
      exact ⟨c, List.mem_filter.2 ⟨hc, by simpa using hfound⟩, by simp⟩
    rw [add_of_not_mem hfound, left, left, hfilter, List.length_cons]
    omega

private theorem left_foldl {cs : List Signature} (hcs : ∀ c ∈ cs, c ∈ g.nodes)
    (s : AncestorSearch) : left g (cs.foldl add s) ≤ left g s := by
  induction cs generalizing s with
  | nil => exact Nat.le_refl _
  | cons c cs ih =>
    obtain ⟨hc, hcs⟩ := List.forall_mem_cons.1 hcs
    exact Nat.le_trans (ih hcs (s.add c)) (left_add hc s)

/-- A round leaves fewer methods. -/
theorem left_round (hg : g.Mirrored) (h : s.round? g = some s') : left g s' < left g s := by
  unfold round? at h
  split at h
  · cases h
  · next m rest hpending =>
    cases h
    -- only taking the method from the list counts, since its callers leave no more than before
    have hle : left g ((g.callers m).toList.foldl add { s with pending := rest }) ≤ _ :=
      left_foldl (fun c hc => hg.mem_nodes_of_mem_callers hc) _
    have hpop : left g s = left g { s with pending := rest } + 1 := by
      simp only [left, hpending, List.length_cons]
      omega
    omega

/-- With a round for each method that is left, no method is pending in the end. -/
theorem pending_after (hg : g.Mirrored) {rounds : Nat} (h : left g s ≤ rounds) :
    (after g rounds s).pending = [] := by
  induction rounds generalizing s with
  | zero =>
    have hzero : s.pending.length = 0 := by
      rw [left] at h
      omega
    exact List.length_eq_zero_iff.1 hzero
  | succ rounds ih =>
    rw [after]
    split
    · next hover =>
      unfold round? at hover
      split at hover
      · next hpending => exact hpending
      · cases hover
    · next s' hround =>
      have hlt := left_round hg hround
      exact ih (by omega)

/-! ### What the loop finds -/

/-- What holds after every round: what was found has a call path to the target, and the callers of
what is not pending any more were found. -/
structure Explored (g : CallGraph) (target : Signature) (s : AncestorSearch) : Prop where
  reaches : ∀ a ∈ s.found, TransGen g.Calls a target
  pending : ∀ a ∈ s.pending, a = target ∨ a ∈ s.found
  closed : ∀ b, b = target ∨ b ∈ s.found → b ∈ s.pending ∨ ∀ a ∈ g.callers b, a ∈ s.found

private theorem explored_start (g : CallGraph) (target : Signature) :
    Explored g target (start target) where
  reaches a ha := absurd ha (SortedSet.not_mem_empty a)
  pending a ha := .inl (List.mem_singleton.1 ha)
  closed b hb := by
    rcases hb with rfl | hb
    · exact .inl (List.mem_singleton_self b)
    · exact absurd hb (SortedSet.not_mem_empty b)

namespace Explored

/-- A round keeps it so. -/
theorem round (hg : g.Mirrored) (h : Explored g target s) (hround : s.round? g = some s') :
    Explored g target s' := by
  unfold round? at hround
  split at hround
  · cases hround
  next m rest hpending =>
  cases hround
  have hm : m = target ∨ m ∈ s.found := h.pending m (by simp [hpending])
  constructor
  · intro a ha
    rcases (mem_found_foldl _ _).1 ha with ha | ha
    · exact h.reaches a ha
    · -- a caller of the method that is looked at
      have hcall : g.Calls a m := hg.mem_callers_iff.1 ha
      rcases hm with rfl | hm
      · exact .single hcall
      · exact .head hcall (h.reaches m hm)
  · intro a ha
    rw [mem_found_foldl]
    rcases (mem_pending_foldl _ _).1 ha with ha | ⟨ha, -⟩
    · rcases h.pending a (by simp [hpending, ha]) with htarget | hfound
      · exact .inl htarget
      · exact .inr (.inl hfound)
    · exact .inr (.inr ha)
  · intro b hb
    rw [mem_pending_foldl]
    by_cases hold : b = target ∨ b ∈ s.found
    · rcases h.closed b hold with hb | hcallers
      · rcases List.mem_cons.1 (hpending ▸ hb) with rfl | hb
        · exact .inr fun a ha => (mem_found_foldl _ _).2 (.inr ha)
        · exact .inl (.inl hb)
      · exact .inr fun a ha => (mem_found_foldl _ _).2 (.inl (hcallers a ha))
    · -- a method that is found in this round is pending
      obtain ⟨hother, hnew⟩ := not_or.1 hold
      rw [mem_found_foldl] at hb
      exact .inl (.inr ⟨(hb.resolve_left hother).resolve_left hnew, hnew⟩)

theorem after (hg : g.Mirrored) {rounds : Nat} (h : Explored g target s) :
    Explored g target (after g rounds s) := by
  induction rounds generalizing s with
  | zero => exact h
  | succ rounds ih =>
    rw [AncestorSearch.after]
    split
    · exact h
    · next s' hround => exact ih (h.round hg hround)

/-- When no method is pending any more, all methods with a call path to the target were found. -/
theorem mem_found_iff (hg : g.Mirrored) (h : Explored g target s) (hover : s.pending = [])
    {a : Signature} : a ∈ s.found ↔ TransGen g.Calls a target := by
  have hclosed : ∀ b, b = target ∨ b ∈ s.found → ∀ a ∈ g.callers b, a ∈ s.found := fun b hb =>
    (h.closed b hb).resolve_left (by simp [hover])
  constructor
  · exact h.reaches a
  · intro hpath
    -- the induction goes along the path from its last call backwards
    induction hpath using TransGen.head_induction_on with
    | single hab => exact hclosed target (.inl rfl) _ (hg.mem_callers_iff.2 hab)
    | head hab _ ih => exact hclosed _ (.inr ih) _ (hg.mem_callers_iff.2 hab)

end Explored

end AncestorSearch

namespace CallGraph

open AncestorSearch

variable {g : CallGraph} {target : Signature}

namespace Mirrored

/-- The loop for the ancestors of a method is over after as many rounds as there are nodes and one,
and then it has found the methods with a path of one or more calls to it. -/
theorem after_start (hg : g.Mirrored) (target : Signature) {rounds : Nat}
    (h : g.nodes.length < rounds) :
    (after g rounds (.start target)).pending = [] ∧
      ∀ a, a ∈ (after g rounds (.start target)).found ↔ TransGen g.Calls a target := by
  have hleft : left g (.start target) ≤ rounds := by
    have hle := List.length_filter_le (· ∉ (start target).found) g.nodes
    simp only [left, start, List.length_singleton] at hle ⊢
    omega
  have hover := pending_after hg hleft
  exact ⟨hover, fun a => ((explored_start g target).after hg).mem_found_iff hg hover⟩

/-- The ancestors of a method are the methods with a path of one or more calls to it. -/
theorem mem_ancestors_iff (hg : g.Mirrored) {a : Signature} :
    a ∈ g.ancestors target ↔ TransGen g.Calls a target :=
  (hg.after_start target (Nat.lt_succ_self _)).2 a

/-- The ancestors of a method are nodes. -/
theorem mem_nodes_of_mem_ancestors (hg : g.Mirrored) {a : Signature} (ha : a ∈ g.ancestors target) :
    a ∈ g.nodes := by
  obtain ⟨b, hab, -⟩ := TransGen.head'_iff.1 (hg.mem_ancestors_iff.1 ha)
  exact hg.mem_nodes_of_mem_callers (hg.mem_callers_iff.2 hab)

/-- A method is the target or an ancestor of it exactly if it has a call path to the target, where
no call at all is a path too. -/
theorem eq_or_mem_ancestors_iff (hg : g.Mirrored) {a : Signature} :
    a = target ∨ a ∈ g.ancestors target ↔ ReflTransGen g.Calls a target := by
  rw [hg.mem_ancestors_iff, reflTransGen_iff_eq_or_transGen, eq_comm]

/-- A graph that has all calls of another one has all its ancestors too. -/
theorem ancestors_subset (hg : g.Mirrored) {g' : CallGraph} (hg' : g'.Mirrored)
    (h : ∀ a b, g.Calls a b → g'.Calls a b) {a : Signature} (ha : a ∈ g.ancestors target) :
    a ∈ g'.ancestors target :=
  hg'.mem_ancestors_iff.2 (TransGen.mono h _ _ (hg.mem_ancestors_iff.1 ha))

end Mirrored

end CallGraph

end CallPaths
