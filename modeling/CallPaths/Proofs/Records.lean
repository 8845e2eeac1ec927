import CallPaths.Locate
import CallPaths.Proofs.BuiltGraphs
import CallPaths.Proofs.ImplementationPairs
import Mathlib.Algebra.GroupWithZero.Nat

/-!
# Records of the methods of a graph

A snapshot has a record for every method that its files declare, whatever type declares it and
however often (`Snapshot.isSome_record?_build`).  Callers are declared methods by construction.
Callees are found by a search through declared types, and implementations are taken from resolved
types; both give the signature of a method of a declared type, which is the key of a record.

So all nodes of the graph of a snapshot have records, and the same holds for located targets.  The
nodes lie inside the scope: direct calls are filtered by it, and implementations are only taken from
types inside it.

## Key results

- `Declarations.declaredIn_of_resolve?`: a resolved call refers to a declared method
- `Snapshot.declaredIn_of_mem_nodes`: the nodes of a graph are declared and lie inside the scope
- `Snapshot.declaredIn_of_locate`: a located target is declared
-/

namespace CallPaths

/-! ### Declared methods -/

/-- A declared type has a method with the signature. -/
def Declared.Declares (d : Declarations) (owner : Declared) (s : Signature) : Prop :=
  ∃ m ∈ owner.type.methods, d.signatureOf? owner m = some s

/-- Some type of the files has a method with the signature. -/
def DeclaredIn (files : List SourceFile) (s : Signature) : Prop :=
  ∃ owner ∈ declaredTypes files, owner.Declares (Declarations.ofFiles files) s

namespace Declared

variable {d : Declarations} {owner : Declared} {s : Signature}

/-- The listed methods of a type are those that it declares. -/
theorem mem_map_methodsOf : s ∈ (d.methodsOf owner).map (·.signature) ↔ owner.Declares d s := by
  simp only [Declarations.methodsOf, Declares, List.mem_map, List.mem_filterMap,
    Option.map_eq_some_iff]
  constructor
  · rintro ⟨_, ⟨m, hm, _, hs, rfl⟩, rfl⟩
    exact ⟨m, hm, hs⟩
  · rintro ⟨m, hm, hs⟩
    exact ⟨⟨owner, m, s⟩, ⟨m, hm, s, hs, rfl⟩, rfl⟩

/-- The type of a signature is the one that declares the method. -/
theorem qualifiedType_of_signatureOf? {m : MethodDecl} (h : d.signatureOf? owner m = some s) :
    s.qualifiedType = owner.qualifiedName := by
  obtain ⟨ps, -, rfl⟩ := Option.map_eq_some_iff.1 h
  rfl

/-- The type of a declared method is the one that declares it. -/
theorem Declares.qualifiedType (h : owner.Declares d s) :
    s.qualifiedType = owner.qualifiedName := by
  obtain ⟨m, -, hm⟩ := h
  exact qualifiedType_of_signatureOf? hm

end Declared

/-- A name is looked up as the first declared type that has it. -/
theorem Declarations.lookup?_ofFiles (files : List SourceFile) (name : String) :
    (ofFiles files).lookup? name = (declaredTypes files).find? (·.qualifiedName = name) := by
  have hfirst := SortedMap.get?_foldl_insertIfNew Declared.qualifiedName (fun d => d)
    (declaredTypes files) ∅ name
  rwa [SortedMap.get?_empty, Option.none_or, Option.map_id'] at hfirst

/-- A name is looked up as one of the declared types. -/
theorem Declarations.mem_of_lookup? {files : List SourceFile} {name : String} {owner : Declared}
    (h : (ofFiles files).lookup? name = some owner) : owner ∈ declaredTypes files := by
  rw [lookup?_ofFiles] at h
  exact List.mem_of_find?_eq_some h

namespace Declarations

variable {files : List SourceFile}

/-- The best of some pairs is one of them. -/
theorem mem_of_bestOf {cs : List (Nat × MethodDecl)} {c : Nat × MethodDecl}
    (h : bestOf cs = some c) : c ∈ cs := by
  fun_induction bestOf cs with
  | case1 => cases h
  | case2 c' cs b hb hlt ih =>
    cases h
    exact List.mem_cons_of_mem _ (ih hb)
  | case3 c' cs b hb hlt ih =>
    cases h
    exact List.mem_cons_self
  | case4 c' cs hb ih =>
    cases h
    exact List.mem_cons_self

/-- The method that fits best is one of the type. -/
private theorem mem_of_bestMethod? {d : Declarations} {owner : Declared} {name : String}
    {hints : List (Option String)} {m : MethodDecl} (h : d.bestMethod? owner name hints = some m) :
    m ∈ owner.type.methods := by
  obtain ⟨⟨points, m'⟩, hbest, rfl⟩ := Option.map_eq_some_iff.1 h
  obtain ⟨m', hm', hfit⟩ := List.mem_filterMap.1 (mem_of_bestOf hbest)
  obtain ⟨_, -, hpair⟩ := Option.map_eq_some_iff.1 hfit
  cases hpair
  exact (List.mem_filter.1 hm').1

/-- A search through declared types finds a declared method. -/
private theorem declaredIn_of_searchMethod? {name : String} {hints : List (Option String)}
    {rounds : Nat} {visited queue : List String} {s : Signature}
    (h : (ofFiles files).searchMethod? name hints rounds visited queue = some s) :
    DeclaredIn files s := by
  -- each round either finds the method in a declared type or goes on with another queue
  induction rounds generalizing visited queue with
  | zero => cases h
  | succ rounds ih =>
    rw [searchMethod?] at h
    split at h
    · cases h
    · split at h
      · cases h
      · next owner howner =>
        split at h
        · next m hm => exact ⟨owner, mem_of_lookup? howner, m, mem_of_bestMethod? hm, h⟩
        · exact ih h

/-- A resolved call refers to a declared method. -/
theorem declaredIn_of_resolve? {c : CallContext} {call : CallSite} {s : Signature}
    (h : (ofFiles files).resolve? c call = some s) : DeclaredIn files s := by
  obtain ⟨t, -, ht⟩ := List.exists_of_findSome?_eq_some h
  exact declaredIn_of_searchMethod? ht

/-- The calls of a method that can be resolved. -/
def edgesOf (d : Declarations) (m : DeclaredMethod) : List Edge :=
  m.method.calls.filterMap fun call =>
    (d.resolve? ⟨m.owner, m.method⟩ call).map fun callee => ⟨m.signature, callee⟩

end Declarations

/-! ### Counted calls -/

namespace CallTally

variable (d : Declarations)

/-- What a call adds: it is seen, and if it can be resolved, it is counted and kept. -/
private theorem add_eq (m : DeclaredMethod) (t : CallTally) (call : CallSite) :
    add d m t call =
      let resolved := (d.resolve? ⟨m.owner, m.method⟩ call).toList.map (Edge.mk m.signature)
      ⟨t.edges ++ resolved.toArray, t.seen + 1, t.resolved + resolved.length⟩ := by
  rw [add]
  cases d.resolve? ⟨m.owner, m.method⟩ call <;> simp

/-- What the calls of a method add. -/
private theorem foldl_add (m : DeclaredMethod) (calls : List CallSite) (t : CallTally) :
    calls.foldl (add d m) t =
      let resolved := calls.filterMap fun call =>
        (d.resolve? ⟨m.owner, m.method⟩ call).map (Edge.mk m.signature)
      ⟨t.edges ++ resolved.toArray, t.seen + calls.length, t.resolved + resolved.length⟩ := by
  induction calls generalizing t with
  | nil => simp
  | cons call calls ih =>
    rw [List.foldl_cons, ih, add_eq]
    cases hcall : d.resolve? ⟨m.owner, m.method⟩ call <;>
      simp [hcall, Nat.add_assoc, Nat.add_comm 1]

/-- What the calls of several methods add. -/
private theorem foldl_callers (ms : List DeclaredMethod) (t : CallTally) :
    ms.foldl (fun t m => m.method.calls.foldl (add d m) t) t =
      ⟨t.edges ++ (ms.flatMap d.edgesOf).toArray,
        t.seen + (ms.map fun m => m.method.calls.length).sum,
        t.resolved + (ms.flatMap d.edgesOf).length⟩ := by
  induction ms generalizing t with
  | nil => simp
  | cons m ms ih =>
    rw [List.foldl_cons, foldl_add, ih]
    simp [Declarations.edgesOf, Nat.add_assoc]

/-- The calls of some methods are kept as far as they can be resolved, in their order, and as many
are counted as resolved. -/
private theorem ofCallers_eq (ms : List DeclaredMethod) :
    ofCallers d ms = ⟨(ms.flatMap d.edgesOf).toArray,
      (ms.map fun m => m.method.calls.length).sum, (ms.flatMap d.edgesOf).length⟩ := by
  rw [ofCallers, foldl_callers]
  simp

end CallTally

namespace Snapshot

variable {files : List SourceFile} {scope : Scope}

/-- The methods of all declared types are the declared ones. -/
private theorem exists_mem_methodsOf {s : Signature} :
    (∃ m ∈ (declaredTypes files).flatMap (Declarations.ofFiles files).methodsOf,
      m.signature = s) ↔ DeclaredIn files s := by
  simp only [DeclaredIn, ← Declared.mem_map_methodsOf, List.mem_flatMap, List.mem_map]
  constructor
  · rintro ⟨m, ⟨owner, howner, hm⟩, rfl⟩
    exact ⟨owner, howner, m, hm, rfl⟩
  · rintro ⟨owner, howner, m, hm, rfl⟩
    exact ⟨m, ⟨owner, howner, hm⟩, rfl⟩

/-- A snapshot has records of exactly the declared methods. -/
theorem isSome_record?_build {s : Signature} :
    ((build files scope).record? s).isSome ↔ DeclaredIn files s := by
  have hcontains := SortedMap.contains_foldl_insertIfNew DeclaredMethod.signature
    DeclaredMethod.record ((declaredTypes files).flatMap (Declarations.ofFiles files).methodsOf) ∅ s
  rw [exists_mem_methodsOf] at hcontains
  refine hcontains.trans ⟨fun h => h.elim (fun hempty => ?_) id, .inr⟩
  cases hempty

/-- The methods whose calls are resolved. -/
def callers (files : List SourceFile) (scope : Scope) : List DeclaredMethod :=
  ((declaredTypes files).flatMap (Declarations.ofFiles files).methodsOf).filter fun m =>
    scope.containsType m.owner.qualifiedName

/-- The resolved calls are those of the methods inside the scope, one method after another. -/
theorem edges_build (files : List SourceFile) (scope : Scope) :
    (build files scope).edges =
      (callers files scope).flatMap (Declarations.ofFiles files).edgesOf := by
  show (CallTally.ofCallers _ _).edges.toList = _
  rw [CallTally.ofCallers_eq]
  rfl

/-- As many calls are counted as resolved as there are. -/
theorem callsResolved_build (files : List SourceFile) (scope : Scope) :
    (build files scope).stats.callsResolved = (build files scope).edges.length := by
  rw [edges_build]
  show (CallTally.ofCallers _ _).resolved = _
  rw [CallTally.ofCallers_eq]
  rfl

/-- All calls of the methods inside the scope are looked at. -/
theorem callsSeen_build (files : List SourceFile) (scope : Scope) :
    (build files scope).stats.callsSeen =
      ((callers files scope).map fun m => m.method.calls.length).sum := by
  show (CallTally.ofCallers _ _).seen = _
  rw [CallTally.ofCallers_eq]
  rfl

/-- Both ends of a call are declared. -/
private theorem declaredIn_of_mem_edges {e : Edge} (h : e ∈ (build files scope).edges) :
    DeclaredIn files e.caller ∧ DeclaredIn files e.callee := by
  rw [edges_build] at h
  obtain ⟨m, hm, he⟩ := List.mem_flatMap.1 h
  obtain ⟨call, -, hcall⟩ := List.mem_filterMap.1 he
  obtain ⟨callee, hcallee, rfl⟩ := Option.map_eq_some_iff.1 hcall
  exact ⟨exists_mem_methodsOf.1 ⟨m, (List.mem_filter.1 hm).1, rfl⟩,
    Declarations.declaredIn_of_resolve? hcallee⟩

/-- The types of a snapshot are the declared ones, with their names resolved. -/
private theorem exists_declared_of_mem_types {t : ResolvedType}
    (h : t ∈ (build files scope).types.values) :
    ∃ owner ∈ declaredTypes files, t = (Declarations.ofFiles files).resolveType owner := by
  obtain ⟨name, hname⟩ := SortedMap.mem_values.1 h
  have hfirst := SortedMap.get?_foldl_insertIfNew Declared.qualifiedName
    (Declarations.ofFiles files).resolveType (declaredTypes files) ∅ name
  rw [SortedMap.get?_empty, Option.none_or] at hfirst
  obtain ⟨owner, howner, rfl⟩ := Option.map_eq_some_iff.1 (hfirst.symm.trans hname)
  exact ⟨owner, List.mem_of_find?_eq_some howner, rfl⟩

/-- A located target is declared. -/
theorem declaredIn_of_locate {className : String} {line : Nat} {t : Target}
    (h : (build files scope).locate className line = .ok t) : DeclaredIn files t.signature := by
  rw [locate] at h
  split at h
  · cases h
  · next owner m hat =>
    obtain ⟨owner', howner, hm⟩ := List.exists_of_findSome?_eq_some hat
    obtain ⟨m', hfind, hpair⟩ := Option.map_eq_some_iff.1 hm
    cases hpair
    split at h
    · next s hs =>
      cases h
      exact ⟨owner, (List.mem_filter.1 howner).1, m, List.mem_of_find?_eq_some hfind, hs⟩
    · cases h

end Snapshot

/-! ### The nodes of the graph of a snapshot -/

/-- A selected implementation is one of the implementations. -/
theorem CallGraph.mem_implementationsOf_of_mem_selected {r : Implementations} {fanOut : FanOut}
    {s a : Signature} (h : a ∈ selected r fanOut s) : a ∈ (r.implementationsOf? s).getD ∅ := by
  have hselects := mem_selected_iff.1 h
  cases fanOut with
  | all => exact hselects
  | firstOnly => exact hselects.1

namespace Snapshot

/-- The graph of the calls of a snapshot inside a scope, with the implementations that its types
give. -/
def callGraph (s : Snapshot) (scope : Scope) (fanOut : FanOut) : CallGraph :=
  CallGraph.build s.edges (Implementations.build s.types scope) scope fanOut

/-- The nodes of the graph of a snapshot are declared and lie inside the scope. -/
theorem declaredIn_of_mem_nodes (files : List SourceFile) (scope : Scope) (fanOut : FanOut)
    {a : Signature} (h : a ∈ ((build files scope).callGraph scope fanOut).nodes) :
    DeclaredIn files a ∧ scope.contains a := by
  obtain ⟨e, he, hscope, ha⟩ := CallGraph.mem_nodes_build.1 h
  obtain ⟨hcaller, hcallee⟩ := declaredIn_of_mem_edges he
  obtain ⟨hin, hin'⟩ := (Bool.and_eq_true _ _).mp hscope
  rcases ha with rfl | rfl | ha
  · exact ⟨hcaller, hin⟩
  · exact ⟨hcallee, hin'⟩
  · -- the scope of an implementation is that of the type which declares it
    obtain ⟨t, ht, hpair⟩ := Implementations.mem_implementationsOf_build.1
      (CallGraph.mem_implementationsOf_of_mem_selected ha)
    obtain ⟨-, hin, hmethod, -⟩ := Implementations.mem_pairsOf.1 hpair
    obtain ⟨owner, howner, rfl⟩ := exists_declared_of_mem_types ht
    have hdeclares := Declared.mem_map_methodsOf.1 hmethod
    refine ⟨⟨owner, howner, hdeclares⟩, ?_⟩
    rw [Scope.contains, hdeclares.qualifiedType]
    exact hin

end Snapshot

end CallPaths
