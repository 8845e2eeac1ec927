import CallPaths.Proofs.Adjacency

/-!
# The edges of built graphs

`CallGraph.build` first adds the calls inside the scope, then the edges to the implementations that
their callees are expanded onto.  So an edge of a built graph is one of the given calls, or it leads
from an end of such a call to a selected implementation of its callee.  Edges of the second kind are
not expanded again, also where an implementation is an interface method itself.

## Key results

- `CallGraph.mem_selected_iff`: the implementations that a call is expanded onto
- `CallGraph.mem_buildEdges`: the edges that a build adds
- `CallGraph.mem_callees_build`: the edges of a built graph
- `CallGraph.mem_nodes_build`: the nodes of a built graph
- `CallGraph.build_congr`, `CallGraph.build_perm`: what a built graph depends on
- `CallGraph.build_exact`: edges and nodes of a built graph, without reference to how they are added
-/

namespace CallPaths

namespace CallGraph

/-- The edges after adding some are the old ones and these. -/
theorem mem_callees_foldl_insertEdge {g : CallGraph} {edges : List Edge} {a b : Signature} :
    b ∈ (edges.foldl insertEdge g).callees a ↔ b ∈ g.callees a ∨ ⟨a, b⟩ ∈ edges := by
  induction edges generalizing g with
  | nil => simp
  | cons e edges ih =>
    rw [List.foldl_cons, ih, mem_callees_insertEdge, List.mem_cons]
    have hedge : (a = e.caller ∧ b = e.callee) ↔ (⟨a, b⟩ : Edge) = e := by
      cases e
      simp
    rw [hedge, or_comm (a := _ = e), or_assoc]

/-- The implementations that a call of an interface method is to be expanded onto: all of them, or
the least one. -/
def Selects (r : Implementations) (fanOut : FanOut) (i m : Signature) : Prop :=
  let implementations := (r.implementationsOf? i).getD ∅
  match fanOut with
  | .all => m ∈ implementations
  | .firstOnly => IsFirst (· ∈ implementations) m

/-- The listed implementations are the ones to be selected. -/
theorem mem_selected_iff {r : Implementations} {fanOut : FanOut} {i m : Signature} :
    m ∈ selected r fanOut i ↔ Selects r fanOut i m := by
  cases fanOut with
  | all => exact Iff.rfl
  | firstOnly =>
    have hfirst : r.firstImplementation? i = ((r.implementationsOf? i).getD ∅).min? := by
      rw [Implementations.firstImplementation?]
      cases r.implementationsOf? i <;> rfl
    rw [selected, Option.mem_toList, hfirst]
    exact SortedSet.min?_eq_some_iff

/-- The edges that a call adds lead from its ends to the selected implementations of its callee. -/
private theorem mem_fanOutEdges {r : Implementations} {fanOut : FanOut} {e : Edge}
    {a b : Signature} : ⟨a, b⟩ ∈ fanOutEdges r fanOut e ↔
      (a = e.caller ∨ a = e.callee) ∧ b ∈ selected r fanOut e.callee := by
  simp only [fanOutEdges, List.mem_flatMap, List.mem_cons, List.not_mem_nil, or_false,
    Edge.mk.injEq]
  constructor
  · rintro ⟨m, hm, ⟨ha, rfl⟩ | ⟨ha, rfl⟩⟩
    · exact ⟨.inl ha, hm⟩
    · exact ⟨.inr ha, hm⟩
  · rintro ⟨ha, hb⟩
    exact ⟨b, hb, ha.imp (⟨·, rfl⟩) (⟨·, rfl⟩)⟩

section Build

variable {edges : List Edge} {r : Implementations} {scope : Scope} {fanOut : FanOut}
  {a b : Signature}

/-- The edges that a build adds, in this order: the calls inside the scope, then those to
implementations. -/
def buildEdges (edges : List Edge) (r : Implementations) (scope : Scope) (fanOut : FanOut) :
    List Edge :=
  let direct := (SortedSet.ofList (edges.filter (·.inScope scope))).toList
  direct ++ direct.flatMap (fanOutEdges r fanOut)

/-- The callees of a built graph are those of the edges that the build adds. -/
private theorem forward_build (edges : List Edge) (r : Implementations) (scope : Scope)
    (fanOut : FanOut) : (build edges r scope fanOut).forward =
      ((buildEdges edges r scope fanOut).foldl insertEdge ∅).forward := by
  rw [buildEdges, List.foldl_append]
  rfl

/-- An edge that a build adds is a call inside the scope, or leads from an end of such a call to an
implementation that its callee is expanded onto. -/
theorem mem_buildEdges :
    ⟨a, b⟩ ∈ buildEdges edges r scope fanOut ↔
      ∃ e ∈ edges, e.inScope scope ∧
        (e = ⟨a, b⟩ ∨ (a = e.caller ∨ a = e.callee) ∧ b ∈ selected r fanOut e.callee) := by
  have hdirect : ∀ e, e ∈ (SortedSet.ofList (edges.filter (·.inScope scope))).toList ↔
      e ∈ edges ∧ e.inScope scope := by
    intro e
    rw [← SortedSet.mem_def, SortedSet.mem_ofList, List.mem_filter]
  simp only [buildEdges, List.mem_append, List.mem_flatMap, hdirect, mem_fanOutEdges]
  constructor
  · rintro (⟨he, hin⟩ | ⟨e, ⟨he, hin⟩, hfan⟩)
    · exact ⟨⟨a, b⟩, he, hin, .inl rfl⟩
    · exact ⟨e, he, hin, .inr hfan⟩
  · rintro ⟨e, he, hin, rfl | hfan⟩
    · exact .inl ⟨he, hin⟩
    · exact .inr ⟨e, ⟨he, hin⟩, hfan⟩

/-- The edges of a built graph are the calls inside the scope, and those from an end of such a call
to an implementation that its callee is expanded onto. -/
theorem mem_callees_build :
    b ∈ (build edges r scope fanOut).callees a ↔
      ∃ e ∈ edges, e.inScope scope ∧
        (e = ⟨a, b⟩ ∨ (a = e.caller ∨ a = e.callee) ∧ b ∈ selected r fanOut e.callee) := by
  rw [callees, forward_build, ← mem_buildEdges]
  refine mem_callees_foldl_insertEdge.trans (or_iff_right ?_)
  exact SortedSet.not_mem_empty b

/-- The nodes of a built graph are the ends of the calls inside the scope and the implementations
that their callees are expanded onto. -/
theorem mem_nodes_build :
    a ∈ (build edges r scope fanOut).nodes ↔
      ∃ e ∈ edges, e.inScope scope ∧
        (a = e.caller ∨ a = e.callee ∨ a ∈ selected r fanOut e.callee) := by
  rw [mem_nodes, contains, forward_build]
  refine contains_foldl_insertEdge.trans ((or_iff_right ?_).trans ?_)
  · exact Bool.false_ne_true
  constructor
  · rintro ⟨⟨c, m⟩, hadded, ha⟩
    obtain ⟨e, he, hin, rfl | ⟨hc, hm⟩⟩ := mem_buildEdges.1 hadded
    · exact ⟨_, he, hin, ha.imp_right .inl⟩
    · -- an edge to an implementation starts at an end of the call it comes from
      refine ⟨e, he, hin, ?_⟩
      rcases ha with rfl | rfl
      · exact hc.imp_right .inl
      · exact .inr (.inr hm)
  · rintro ⟨e, he, hin, ha⟩
    have hcall : e ∈ buildEdges edges r scope fanOut := mem_buildEdges.2 ⟨e, he, hin, .inl rfl⟩
    rcases ha with ha | ha | ha
    · exact ⟨e, hcall, .inl ha⟩
    · exact ⟨e, hcall, .inr ha⟩
    · exact ⟨⟨e.caller, a⟩, mem_buildEdges.2 ⟨e, he, hin, .inr ⟨.inl rfl, ha⟩⟩, .inr rfl⟩

end Build

/-- A built graph depends on which calls inside the scope there are, and on how many calls outside
of it. -/
theorem build_congr {edges edges' : List Edge} {scope : Scope}
    (hdirect : ∀ e, e.inScope scope → (e ∈ edges ↔ e ∈ edges'))
    (hdropped : (edges.filter fun e => !e.inScope scope).length =
      (edges'.filter fun e => !e.inScope scope).length)
    (r : Implementations) (fanOut : FanOut) :
    build edges r scope fanOut = build edges' r scope fanOut := by
  have hset : SortedSet.ofList (edges.filter (·.inScope scope)) =
      SortedSet.ofList (edges'.filter (·.inScope scope)) := by
    refine SortedSet.ext_mem fun e => ?_
    rw [SortedSet.mem_ofList, SortedSet.mem_ofList, List.mem_filter, List.mem_filter]
    exact and_congr_left (hdirect e)
  rw [build, build, hset, hdropped]

/-- A built graph does not depend on the order of the calls. -/
theorem build_perm {edges edges' : List Edge} (h : edges.Perm edges') (r : Implementations)
    (scope : Scope) (fanOut : FanOut) :
    build edges r scope fanOut = build edges' r scope fanOut :=
  build_congr (fun _ _ => h.mem_iff) (h.filter _).length_eq r fanOut

/-- The calls that a graph is made of: those with both ends inside the scope. -/
def IsDirect (edges : List Edge) (scope : Scope) (e : Edge) : Prop :=
  e ∈ edges ∧ scope.contains e.caller = true ∧ scope.contains e.callee = true

theorem isDirect_iff {edges : List Edge} {scope : Scope} {e : Edge} :
    IsDirect edges scope e ↔ e ∈ edges ∧ e.inScope scope = true := by
  rw [IsDirect, Edge.inScope, Bool.and_eq_true]

/-- The edges from an end of a call that a graph is made of to an implementation that the callee is
to be expanded onto. -/
def IsExpansion (edges : List Edge) (r : Implementations) (scope : Scope) (fanOut : FanOut)
    (e : Edge) : Prop :=
  ∃ call, IsDirect edges scope call ∧ (e.caller = call.caller ∨ e.caller = call.callee) ∧
    Selects r fanOut call.callee e.callee

/-- A built graph has exactly the calls inside the scope and their expansions as edges, in both
directions, and exactly the ends of these edges as nodes. -/
theorem build_exact (edges : List Edge) (r : Implementations) (scope : Scope) (fanOut : FanOut) :
    let g := build edges r scope fanOut
    let isEdge := fun e => IsDirect edges scope e ∨ IsExpansion edges r scope fanOut e
    (∀ a b, b ∈ g.callees a ↔ isEdge ⟨a, b⟩) ∧ (∀ a b, a ∈ g.callers b ↔ isEdge ⟨a, b⟩) ∧
      ∀ m, m ∈ g.nodes ↔ ∃ e, isEdge e ∧ (m = e.caller ∨ m = e.callee) := by
  intro g isEdge
  have hcallees : ∀ a b, b ∈ g.callees a ↔ isEdge ⟨a, b⟩ := by
    intro a b
    simp only [g, isEdge, mem_callees_build, IsDirect, IsExpansion, mem_selected_iff,
      Edge.inScope, Bool.and_eq_true]
    constructor
    · rintro ⟨e, he, hin, rfl | hfan⟩
      · exact .inl ⟨he, hin⟩
      · exact .inr ⟨e, ⟨he, hin⟩, hfan⟩
    · rintro (⟨he, hin⟩ | ⟨e, ⟨he, hin⟩, hfan⟩)
      · exact ⟨⟨a, b⟩, he, hin, .inl rfl⟩
      · exact ⟨e, he, hin, .inr hfan⟩
  have hg : g.Mirrored := mirrored_build edges r scope fanOut
  refine ⟨hcallees, fun a b => (hg.mem_callers a b).trans (hcallees a b), fun m => ?_⟩
  constructor
  · intro hm
    obtain ⟨e, he, hin, hend⟩ := mem_nodes_build.1 hm
    have hdirect : IsDirect edges scope e := ⟨he, (Bool.and_eq_true _ _).mp hin⟩
    rcases hend with hm | hm | hm
    · exact ⟨e, .inl hdirect, .inl hm⟩
    · exact ⟨e, .inl hdirect, .inr hm⟩
    · exact ⟨⟨e.caller, m⟩, .inr ⟨e, hdirect, .inl rfl, mem_selected_iff.1 hm⟩, .inr rfl⟩
  · rintro ⟨⟨a, b⟩, hedge, rfl | rfl⟩
    · exact mem_nodes.2 (contains_of_mem_callees ((hcallees _ b).2 hedge))
    · exact hg.mem_nodes_of_mem_callees ((hcallees a _).2 hedge)

end CallGraph

end CallPaths
