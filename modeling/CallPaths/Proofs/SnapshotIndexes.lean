import CallPaths.Proofs.Lists
import CallPaths.Proofs.MethodSearch
import Mathlib.Algebra.Order.BigOperators.Group.List
import Mathlib.Algebra.Order.Group.Nat

/-!
# The indexes of a snapshot

A snapshot keeps three indexes of one list of files: the declarations by qualified name, the
resolved types by qualified name, and the records of methods by signature.  They are filled one by
one, and in each of them the first comer stays.  Names and signatures may be declared several times,
and a method whose parameters do not all have types has no signature; still the indexes tell of the
same declarations.

The resolved calls of a snapshot are counted against all calls that were looked at.

## Key results

- `Snapshot.get?_types_build`: a resolved type is that of the declaration found under its name
- `Snapshot.get?_records_build`: a record is that of the first method with its signature
- `Snapshot.length_edges_build_le`: no call is resolved twice
- `Snapshot.build_indexes_agree`: how the indexes and the calls fit together
-/

namespace CallPaths

/-! ### Names of resolved methods -/

namespace Declarations

variable {d : Declarations}

private theorem method_of_signatureOf? {owner : Declared} {m : MethodDecl} {s : Signature}
    (h : d.signatureOf? owner m = some s) : s.method = m.name := by
  obtain ⟨ps, -, rfl⟩ := Option.map_eq_some_iff.1 h
  rfl

private theorem method_of_searchMethod? {name : String} {hints : List (Option String)}
    {rounds : Nat} {visited queue : List String} {s : Signature}
    (h : d.searchMethod? name hints rounds visited queue = some s) : s.method = name := by
  -- only the round that ends the search matters, and its method was chosen by name
  induction rounds generalizing visited queue with
  | zero => cases h
  | succ rounds ih =>
    rw [searchMethod?] at h
    split at h
    · cases h
    · split at h
      · cases h
      · next owner howner =>
        split at h
        · next m hm =>
          rw [method_of_signatureOf? h]
          exact (offers_of_bestMethod? howner hm).named
        · exact ih h

/-- A resolved call refers to a method of the name that is called. -/
private theorem method_of_resolve? {c : CallContext} {call : CallSite} {s : Signature}
    (h : d.resolve? c call = some s) : s.method = call.name := by
  obtain ⟨t, -, ht⟩ := List.exists_of_findSome?_eq_some h
  exact method_of_searchMethod? ht

/-- The methods with signatures, in the flat order of all methods. -/
private theorem flatMap_methodsOf (d : Declarations) (files : List SourceFile) :
    (declaredTypes files).flatMap d.methodsOf =
      (writtenMethods files).filterMap fun c =>
        (d.signatureOf? c.1 c.2).map fun s => ⟨c.1, c.2, s⟩ := by
  simp only [writtenMethods, List.filterMap_flatMap, List.filterMap_map, Function.comp_def]
  rfl

end Declarations

namespace Snapshot

variable {files : List SourceFile} {scope : Scope}

/-! ### Types and records -/

/-- A resolved type is that of the declaration found under its name. -/
theorem get?_types_build (files : List SourceFile) (scope : Scope) (q : String) :
    (build files scope).types.get? q =
      ((build files scope).declarations.lookup? q).map
        (build files scope).declarations.resolveType := by
  have hfirst := SortedMap.get?_foldl_insertIfNew Declared.qualifiedName
    (Declarations.ofFiles files).resolveType (declaredTypes files) ∅ q
  rw [SortedMap.get?_empty, Option.none_or, ← Declarations.lookup?_ofFiles] at hfirst
  exact hfirst

/-- A record is that of the first method with its signature. -/
theorem get?_records_build (files : List SourceFile) (scope : Scope) (s : Signature) :
    (build files scope).records.get? s =
      ((writtenMethods files).find? fun c =>
        (build files scope).declarations.signatureOf? c.1 c.2 = some s).map fun c =>
          (⟨c.1.file.path, c.2.lineRange, c.2.source, c.2.body, c.2.comments⟩ : MethodRecord) := by
  have hfirst := SortedMap.get?_foldl_insertIfNew DeclaredMethod.signature DeclaredMethod.record
    ((declaredTypes files).flatMap (Declarations.ofFiles files).methodsOf) ∅ s
  rw [SortedMap.get?_empty, Option.none_or] at hfirst
  refine hfirst.trans ?_
  rw [Declarations.flatMap_methodsOf, List.find?_filterMap]
  -- a method is looked for by its signature, so methods without one are passed over
  have htest : (fun c : Declared × MethodDecl =>
      (((Declarations.ofFiles files).signatureOf? c.1 c.2).map fun s =>
        (⟨c.1, c.2, s⟩ : DeclaredMethod)).any fun m => decide (m.signature = s)) =
      fun c => decide ((Declarations.ofFiles files).signatureOf? c.1 c.2 = some s) := by
    funext c
    cases (Declarations.ofFiles files).signatureOf? c.1 c.2 <;> simp
  rw [htest]
  show _ = ((writtenMethods files).find? fun c =>
    decide ((Declarations.ofFiles files).signatureOf? c.1 c.2 = some s)).map _
  cases hfind : (writtenMethods files).find? fun c =>
      decide ((Declarations.ofFiles files).signatureOf? c.1 c.2 = some s) with
  | none => rfl
  | some c =>
    have hs : (Declarations.ofFiles files).signatureOf? c.1 c.2 = some s := by
      simpa using List.find?_some hfind
    simp only [Option.bind_some, hs, Option.map_some]
    rfl

/-! ### Calls -/

/-- No call is resolved twice. -/
theorem length_edges_build_le (files : List SourceFile) (scope : Scope) :
    (build files scope).edges.length ≤ (build files scope).stats.callsSeen := by
  rw [edges_build, callsSeen_build, List.length_flatMap]
  exact List.sum_le_sum fun m _ => List.length_filterMap_le _ _

/-- Where a resolved call comes from. -/
private theorem exists_call_of_mem_edges {e : Edge} (h : e ∈ (build files scope).edges) :
    scope.contains e.caller = true ∧ ∃ c ∈ writtenMethods files,
      (build files scope).declarations.signatureOf? c.1 c.2 = some e.caller ∧
        ∃ call ∈ c.2.calls,
          (build files scope).declarations.resolve? ⟨c.1, c.2⟩ call = some e.callee := by
  rw [edges_build] at h
  obtain ⟨m, hcaller, he⟩ := List.mem_flatMap.1 h
  obtain ⟨hm, hscope⟩ := List.mem_filter.1 hcaller
  rw [Declarations.flatMap_methodsOf] at hm
  obtain ⟨c, hc, hmethod⟩ := List.mem_filterMap.1 hm
  obtain ⟨s, hs, rfl⟩ := Option.map_eq_some_iff.1 hmethod
  obtain ⟨call, hcall, hedge⟩ := List.mem_filterMap.1 he
  obtain ⟨callee, hcallee, rfl⟩ := Option.map_eq_some_iff.1 hedge
  refine ⟨?_, c, hc, hs, call, hcall, hcallee⟩
  rw [Scope.contains, Declared.qualifiedType_of_signatureOf? hs]
  exact hscope

/-- The indexes of a snapshot agree, whatever the files declare.  The resolved types are those of
the declared names, and each is made of the declaration that its name is looked up as, which is the
first one of that name.  The records are those of the signatures that methods have, and each shows
the first method with its signature.  The resolved calls are as many as counted, and no more than
the calls that were looked at; each comes from a call, by its name, in a method inside the scope. -/
theorem build_indexes_agree (files : List SourceFile) (scope : Scope) :
    let snapshot := build files scope
    let d := snapshot.declarations
    (∀ q, snapshot.types.contains q = d.isDeclared q) ∧
      (∀ q owner, d.lookup? q = some owner ↔
        IsFirstOf (declaredTypes files) (fun o => o.qualifiedName = q) owner) ∧
      (∀ q owner, d.lookup? q = some owner → ∃ t, snapshot.types.get? q = some t ∧
        t.qualifiedName = q ∧ t.kind = owner.type.kind ∧
        t.superclass = owner.type.superclass.map (d.qualify owner.file owner.type.name) ∧
        t.interfaces = owner.type.interfaces.map (d.qualify owner.file owner.type.name) ∧
        t.methods = owner.type.methods.filterMap (d.signatureOf? owner)) ∧
      (∀ s, snapshot.records.contains s = true ↔
        ∃ owner ∈ declaredTypes files, ∃ m ∈ owner.type.methods,
          d.signatureOf? owner m = some s) ∧
      (∀ s r, snapshot.records.get? s = some r ↔ ∃ owner m,
        IsFirstOf (writtenMethods files) (fun c => d.signatureOf? c.1 c.2 = some s) (owner, m) ∧
          r = ⟨owner.file.path, m.lineRange, m.source, m.body, m.comments⟩) ∧
      snapshot.edges.length = snapshot.stats.callsResolved ∧
      snapshot.stats.callsResolved ≤ snapshot.stats.callsSeen ∧
      ∀ e ∈ snapshot.edges, scope.contains e.caller = true ∧
        ∃ owner ∈ declaredTypes files, ∃ m ∈ owner.type.methods,
          d.signatureOf? owner m = some e.caller ∧
            ∃ call ∈ m.calls, d.resolve? ⟨owner, m⟩ call = some e.callee ∧
              e.callee.method = call.name := by
  intro snapshot d
  have hlookup : ∀ q owner, d.lookup? q = some owner ↔
      IsFirstOf (declaredTypes files) (fun o => o.qualifiedName = q) owner := by
    intro q owner
    rw [← find?_eq_some_iff_isFirstOf, ← Declarations.lookup?_ofFiles]
    rfl
  refine ⟨fun q => ?_, hlookup, fun q owner howner => ?_, fun s => ?_, fun s r => ?_,
    (callsResolved_build files scope).symm, ?_, fun e he => ?_⟩
  · rw [SortedMap.contains, get?_types_build, Option.isSome_map]
    rfl
  · refine ⟨d.resolveType owner, ?_, ((hlookup q owner).1 howner).1, rfl, rfl, rfl, ?_⟩
    · rw [get?_types_build, howner]
      rfl
    · -- the listed methods are those with signatures, in the order of the declaration
      simp only [Declarations.resolveType, Declarations.methodsOf, List.map_filterMap,
        Option.map_map]
      congr 1
      funext m
      cases d.signatureOf? owner m <;> rfl
  · exact isSome_record?_build
  · rw [get?_records_build, Option.map_eq_some_iff]
    constructor
    · rintro ⟨⟨owner, m⟩, hfirst, rfl⟩
      exact ⟨owner, m, find?_eq_some_iff_isFirstOf.1 hfirst, rfl⟩
    · rintro ⟨owner, m, hfirst, rfl⟩
      exact ⟨(owner, m), find?_eq_some_iff_isFirstOf.2 hfirst, rfl⟩
  · show (build files scope).stats.callsResolved ≤ (build files scope).stats.callsSeen
    rw [callsResolved_build]
    exact length_edges_build_le files scope
  · obtain ⟨hscope, c, hc, hs, call, hcall, hcallee⟩ := exists_call_of_mem_edges he
    obtain ⟨owner, howner, hmethod⟩ := List.mem_flatMap.1 hc
    obtain ⟨m, hm, rfl⟩ := List.mem_map.1 hmethod
    exact ⟨hscope, owner, howner, m, hm, hs, call, hcall, hcallee,
      Declarations.method_of_resolve? hcallee⟩

end Snapshot

end CallPaths
