import CallPaths.Proofs.Reachability
import CallPaths.Proofs.Records

/-!
# Wider scopes

A scope whose text is a beginning of the text of another one contains all types of the other one.
The scope is asked for in four places: for the callers whose calls are resolved, for both ends of an
edge, for the classes that implement something and for the interfaces that they list.  Each of them
lets more through in a wider scope, and a call expanded onto all implementations reaches those that
any other expansion reaches.  So the graph of a wider scope with expansion onto all implementations
has all edges of the graph of the narrower scope, and every method has all its ancestors there.

## Key results

- `Implementations.mem_pairsOf_of_wider`, `Snapshot.mem_edges_of_wider`: the places that ask for
  the scope
- `Snapshot.callGraph_widen`: edges and ancestors in a wider scope
-/

namespace CallPaths

section Widening

variable {narrow wide : Scope}

namespace Scope

/-- A wider scope contains the types of a narrower one. -/
private theorem containsType_of_wider (h : wide.root.toList <+: narrow.root.toList) {name : String}
    (hname : narrow.containsType name = true) : wide.containsType name = true := by
  rw [containsType, List.isPrefixOf_iff_prefix] at hname ⊢
  exact h.trans hname

end Scope

/-- An edge inside a scope lies inside a wider one. -/
private theorem Edge.inScope_of_wider (h : wide.root.toList <+: narrow.root.toList) {e : Edge}
    (he : e.inScope narrow = true) : e.inScope wide = true := by
  rw [inScope, Bool.and_eq_true] at he ⊢
  exact ⟨Scope.containsType_of_wider h he.1, Scope.containsType_of_wider h he.2⟩

namespace Implementations

variable {types : SortedMap String ResolvedType}

/-- A type contributes in a wider scope what it contributes in a narrower one. -/
theorem mem_pairsOf_of_wider (h : wide.root.toList <+: narrow.root.toList) {t : ResolvedType}
    {i m : Signature} (hpair : (i, m) ∈ pairsOf types narrow t) :
    (i, m) ∈ pairsOf types wide t := by
  obtain ⟨hkind, hin, hm, name, hname, declared, hget, hinterface, hin', hi⟩ :=
    mem_pairsOf.1 hpair
  exact mem_pairsOf.2 ⟨hkind, Scope.containsType_of_wider h hin, hm, name, hname, declared, hget,
    hinterface, Scope.containsType_of_wider h hin', hi⟩

/-- Whatever an interface method is expanded onto in a narrower scope is one of its implementations
in a wider one. -/
private theorem mem_selected_all_of_wider (h : wide.root.toList <+: narrow.root.toList)
    {fanOut : FanOut}
    {i m : Signature} (hm : m ∈ CallGraph.selected (build types narrow) fanOut i) :
    m ∈ CallGraph.selected (build types wide) .all i := by
  obtain ⟨t, ht, hpair⟩ :=
    mem_implementationsOf_build.1 (CallGraph.mem_implementationsOf_of_mem_selected hm)
  exact mem_implementationsOf_build.2 ⟨t, ht, mem_pairsOf_of_wider h hpair⟩

end Implementations

namespace Snapshot

/-- The calls of a narrower scope are calls of a wider one: a call is resolved in the same way in
all scopes that its caller lies in. -/
theorem mem_edges_of_wider (h : wide.root.toList <+: narrow.root.toList) {files : List SourceFile}
    {e : Edge} (he : e ∈ (build files narrow).edges) : e ∈ (build files wide).edges := by
  rw [edges_build] at he ⊢
  obtain ⟨m, hm, he⟩ := List.mem_flatMap.1 he
  obtain ⟨hm, hin⟩ := List.mem_filter.1 hm
  exact List.mem_flatMap.2 ⟨m, List.mem_filter.2 ⟨hm, Scope.containsType_of_wider h hin⟩, he⟩

/-- The graph of a wider scope, with calls expanded onto all implementations, has the edges of the
graph of a narrower scope. -/
private theorem calls_callGraph_of_wider (h : wide.root.toList <+: narrow.root.toList)
    (files : List SourceFile) (fanOut : FanOut) {a b : Signature}
    (hab : ((build files narrow).callGraph narrow fanOut).Calls a b) :
    ((build files wide).callGraph wide .all).Calls a b := by
  obtain ⟨e, he, hin, hends⟩ := CallGraph.mem_callees_build.1 hab
  refine CallGraph.mem_callees_build.2
    ⟨e, mem_edges_of_wider h he, Edge.inScope_of_wider h hin, ?_⟩
  -- the resolved types are the same in all scopes
  exact hends.imp_right fun ⟨ha, hb⟩ =>
    ⟨ha, Implementations.mem_selected_all_of_wider h hb⟩

end Snapshot

end Widening

namespace Snapshot

/-- A scope whose text is a beginning of the text of another one, with calls expanded onto all
implementations, has all edges, callers and ancestors that the other scope has with any
expansion. -/
theorem callGraph_widen (files : List SourceFile) (narrow wide : Scope) (fanOut : FanOut)
    (h : wide.root.toList <+: narrow.root.toList) :
    let g := (build files narrow).callGraph narrow fanOut
    let g' := (build files wide).callGraph wide .all
    (∀ a b, b ∈ g.callees a → b ∈ g'.callees a) ∧
      ∀ target, (∀ a ∈ g.callers target, a ∈ g'.callers target) ∧
        ∀ a ∈ g.ancestors target, a ∈ g'.ancestors target := by
  intro g g'
  have hcalls : ∀ a b, g.Calls a b → g'.Calls a b :=
    fun _ _ => calls_callGraph_of_wider h files fanOut
  have hg : g.Mirrored := CallGraph.mirrored_build ..
  have hg' : g'.Mirrored := CallGraph.mirrored_build ..
  refine ⟨hcalls, fun target => ⟨fun a ha => ?_, fun a ha => ?_⟩⟩
  · exact hg'.mem_callers_iff.2 (hcalls a target (hg.mem_callers_iff.1 ha))
  · exact hg.ancestors_subset hg' hcalls ha

/-- An interface with one implementation inside the narrower scope and one outside of it, where the
latter is called by a method of its own package. -/
theorem callGraph_widen_implementation :
    let method := fun name calls =>
      (⟨name, [], ⟨1, 1⟩, name, none, none, [], calls⟩ : MethodDecl)
    let inner : List TypeDecl :=
      [⟨"Api", .interfaceDecl, none, [], [], [method "run" []], ⟨1, 1⟩⟩,
        ⟨"Impl", .classDecl, none, ["Api"], [], [method "run" []], ⟨1, 1⟩⟩,
        ⟨"App", .classDecl, none, [], [⟨"api", "Api"⟩],
          [method "main" [⟨.path ["api"], "run", [], 1⟩]], ⟨1, 1⟩⟩]
    let outer : List TypeDecl :=
      [⟨"Other", .classDecl, none, ["p.a.Api"], [],
        [method "run" [], method "test" [⟨.implicit, "run", [], 1⟩]], ⟨1, 1⟩⟩]
    let files : List SourceFile :=
      [{ package := some "p.a", types := inner, path := "App.java", text := "" },
        { package := some "p.b", types := outer, path := "Other.java", text := "" }]
    let narrow : Scope := ⟨"p.a"⟩
    let wide : Scope := ⟨"p"⟩
    let g := (build files narrow).callGraph narrow .firstOnly
    let g' := (build files wide).callGraph wide .all
    let main : Signature := ⟨"p.a", "App", "main", []⟩
    let api : Signature := ⟨"p.a", "Api", "run", []⟩
    let impl : Signature := ⟨"p.a", "Impl", "run", []⟩
    let other : Signature := ⟨"p.b", "Other", "run", []⟩
    (wide.root.toList <+: narrow.root.toList ∧ (g.ancestors impl).toList = [api, main] ∧
        (g.ancestors other).toList = [] ∧
        (g'.ancestors other).toList = [api, main, ⟨"p.b", "Other", "test", []⟩]) ∧
      (∀ a b, b ∈ g.callees a → b ∈ g'.callees a) ∧
      ∀ target, (∀ a ∈ g.callers target, a ∈ g'.callers target) ∧
        ∀ a ∈ g.ancestors target, a ∈ g'.ancestors target := by
  intro method inner outer files narrow wide g g' main api impl other
  exact ⟨by decide +kernel +zetaReduce,
    callGraph_widen files narrow wide .firstOnly (by decide +zetaReduce)⟩

end Snapshot

end CallPaths
