import CallPaths.Graph.Ancestors
import CallPaths.Graph.Chains
import CallPaths.Graph.Tree
import CallPaths.Proofs.Lists
import CallPaths.Proofs.Records
import Mathlib.Data.List.Nodup

/-!
# The order of the files

A snapshot indexes types by name and methods by signature, and of several declarations the first one
counts.  If no two types have the same qualified name, there is nothing to choose between: a name
belongs to one type, and a signature tells the type that declares it.  So the order in which files
are given does not matter.  All three maps are the same for every order, calls are therefore
resolved in the same way, and only the order of the resolved calls changes.  The graph does not
depend on that, nor does any answer taken from it.

## Key results

- `SortedMap.foldl_insertIfNew_perm`: when the first value for a key does not depend on the order
- `Declarations.ofFiles_perm`: the index of declared types
- `Snapshot.build_files_perm`: the snapshot, the graph and the answers
-/

namespace CallPaths

/-! ### Insertions and order -/

/-- Insertions that keep what is there, for several elements that each bring some keys: their order
does not matter if no key is brought by two of them. -/
theorem SortedMap.foldl_insertIfNew_perm {α : Type u} {β : Type v} [Ord α] [Std.TransOrd α]
    [Std.LawfulEqOrd α] [DecidableEq α] {γ : Type w} {δ : Type x} (f : γ → List δ) (key : δ → α)
    (val : δ → β) {l₁ l₂ : List γ} (h : l₁.Perm l₂)
    (huniq : ∀ a ∈ l₁, ∀ b ∈ l₁, ∀ c ∈ f a, ∀ d ∈ f b, key c = key d → a = b) :
    (l₁.flatMap f).foldl (fun m c => m.insertIfNew (key c) (val c)) (∅ : SortedMap α β) =
      (l₂.flatMap f).foldl (fun m c => m.insertIfNew (key c) (val c)) ∅ := by
  refine ext_get? fun k => ?_
  rw [get?_foldl_insertIfNew, get?_foldl_insertIfNew, List.find?_flatMap, List.find?_flatMap,
    findSome?_perm h]
  intro a ha b hb c hc d hd
  -- two elements that bring the key are the same one, so they bring the same first value
  have hck : key c = k := by simpa using List.find?_some hc
  have hdk : key d = k := by simpa using List.find?_some hd
  obtain rfl := huniq a ha b hb c (List.mem_of_find?_eq_some hc) d
    (List.mem_of_find?_eq_some hd) (hck.trans hdk.symm)
  exact Option.mem_unique hc hd

/-! ### Declared types -/

/-- No two types of the files have the same qualified name. -/
def UniqueNames (files : List SourceFile) : Prop :=
  ((declaredTypes files).map Declared.qualifiedName).Nodup

instance (files : List SourceFile) : Decidable (UniqueNames files) :=
  inferInstanceAs (Decidable (List.Nodup _))

/-- Files in another order declare the same types in another order. -/
private theorem declaredTypes_perm {files files' : List SourceFile} (h : files.Perm files') :
    (declaredTypes files).Perm (declaredTypes files') :=
  h.flatMap_right _

namespace UniqueNames

variable {files files' : List SourceFile}

/-- A qualified name belongs to one declared type. -/
private theorem eq_of_qualifiedName (hnames : UniqueNames files) {a b : Declared}
    (ha : a ∈ declaredTypes files) (hb : b ∈ declaredTypes files)
    (h : a.qualifiedName = b.qualifiedName) : a = b :=
  List.inj_on_of_nodup_map hnames ha hb h

/-- A signature tells the type that declares it. -/
private theorem eq_of_signature (hnames : UniqueNames files) {d : Declarations} {a b : Declared}
    (ha : a ∈ declaredTypes files) (hb : b ∈ declaredTypes files) {m n : DeclaredMethod}
    (hm : m ∈ d.methodsOf a) (hn : n ∈ d.methodsOf b) (h : m.signature = n.signature) : a = b := by
  have hma : a.Declares d m.signature := Declared.mem_map_methodsOf.1 (List.mem_map_of_mem hm)
  have hnb : b.Declares d n.signature := Declared.mem_map_methodsOf.1 (List.mem_map_of_mem hn)
  refine hnames.eq_of_qualifiedName ha hb ?_
  rw [← hma.qualifiedType, ← hnb.qualifiedType, h]

/-- A map of the declared types by name does not depend on the order of the files. -/
private theorem foldl_insertIfNew (hnames : UniqueNames files) (h : files.Perm files') {β : Type u}
    (val : Declared → β) :
    (declaredTypes files).foldl (fun m o => m.insertIfNew o.qualifiedName (val o))
        (∅ : SortedMap String β) =
      (declaredTypes files').foldl (fun m o => m.insertIfNew o.qualifiedName (val o)) ∅ := by
  have hfold := SortedMap.foldl_insertIfNew_perm (fun o : Declared => [o]) Declared.qualifiedName
    val (declaredTypes_perm h) fun a ha b hb c hc d hd hkey => by
      rw [List.mem_singleton.1 hc, List.mem_singleton.1 hd] at hkey
      exact hnames.eq_of_qualifiedName ha hb hkey
  rwa [List.flatMap_singleton', List.flatMap_singleton'] at hfold

end UniqueNames

/-- The index of declared types does not depend on the order of the files. -/
theorem Declarations.ofFiles_perm {files files' : List SourceFile} (hnames : UniqueNames files)
    (h : files.Perm files') : ofFiles files = ofFiles files' :=
  congrArg Declarations.mk (hnames.foldl_insertIfNew h fun o => o)

/-! ### Snapshots -/

namespace Snapshot

section Parts

variable {files files' : List SourceFile} (hnames : UniqueNames files) (h : files.Perm files')
include hnames h

/-- The resolved types do not depend on the order of the files. -/
private theorem types_build_perm (scope : Scope) :
    (build files scope).types = (build files' scope).types := by
  simp only [build, ← Declarations.ofFiles_perm hnames h]
  exact hnames.foldl_insertIfNew h _

/-- The records do not depend on the order of the files. -/
private theorem records_build_perm (scope : Scope) :
    (build files scope).records = (build files' scope).records := by
  simp only [build, ← Declarations.ofFiles_perm hnames h]
  exact SortedMap.foldl_insertIfNew_perm _ _ _ (declaredTypes_perm h)
    fun a ha b hb _ hm _ hn hkey => hnames.eq_of_signature ha hb hm hn hkey

/-- Only the order of the methods whose calls are resolved depends on that of the files. -/
private theorem callers_perm (scope : Scope) :
    (callers files scope).Perm (callers files' scope) := by
  rw [callers, callers, ← Declarations.ofFiles_perm hnames h]
  exact ((declaredTypes_perm h).flatMap_right _).filter _

/-- Only the order of the resolved calls depends on that of the files. -/
private theorem edges_build_perm (scope : Scope) :
    (build files scope).edges.Perm (build files' scope).edges := by
  rw [edges_build, edges_build, ← Declarations.ofFiles_perm hnames h]
  exact (callers_perm hnames h scope).flatMap_right _

/-- The figures do not depend on the order of the files. -/
private theorem stats_build_perm (scope : Scope) :
    (build files scope).stats = (build files' scope).stats := by
  have htypes := congrArg SortedMap.size (types_build_perm hnames h scope)
  have hrecords := congrArg SortedMap.size (records_build_perm hnames h scope)
  have hseen := ((callers_perm hnames h scope).map fun m => m.method.calls.length).sum_nat
  have hedges := (edges_build_perm hnames h scope).length_eq
  rw [← callsSeen_build, ← callsSeen_build] at hseen
  rw [← callsResolved_build, ← callsResolved_build] at hedges
  simp only [build] at htypes hrecords hseen hedges ⊢
  rw [h.length_eq, htypes, hrecords, hseen, hedges]

end Parts

end Snapshot

/-! ### Graphs and answers -/

namespace Snapshot

/-- Files without two types of one qualified name give the same snapshot in every order, up to the
order of the resolved calls.  So they give the same implementations, the same graph, and the same
answers to all queries. -/
theorem build_files_perm (files files' : List SourceFile) (scope : Scope)
    (hnames : UniqueNames files) (h : files.Perm files') :
    let s := build files scope
    let s' := build files' scope
    (s.records = s'.records ∧ s.types = s'.types ∧ s.edges.Perm s'.edges ∧ s.stats = s'.stats) ∧
      Implementations.build s.types scope = Implementations.build s'.types scope ∧
      ∀ fanOut,
        let g := s.callGraph scope fanOut
        let g' := s'.callGraph scope fanOut
        (g.forward = g'.forward ∧ g.reverse = g'.reverse ∧ g.stats = g'.stats) ∧
          ∀ m, g.ancestors m = g'.ancestors m ∧ g.callers m = g'.callers m ∧
            ∀ policy, g.callerChains policy m = g'.callerChains policy m ∧
              ∀ names, g.entryTree names policy m = g'.entryTree names policy m := by
  intro s s'
  have htypes : s.types = s'.types := types_build_perm hnames h scope
  have hedges : s.edges.Perm s'.edges := edges_build_perm hnames h scope
  have hgraph : ∀ fanOut, s.callGraph scope fanOut = s'.callGraph scope fanOut := by
    intro fanOut
    rw [callGraph, callGraph, htypes, CallGraph.build_perm hedges]
  refine ⟨⟨records_build_perm hnames h scope, htypes, hedges, stats_build_perm hnames h scope⟩,
    by rw [htypes], fun fanOut => ?_⟩
  simp only [hgraph fanOut, implies_true, and_self]

/-- Two files whose types call each other: in the other order the same calls are resolved in the
other order. -/
theorem build_files_perm_two_files :
    let file := fun name callee => ({
      package := some "p"
      types := [⟨name, .classDecl, none, [], [],
        [⟨"run", [], ⟨1, 1⟩, "", none, none, [], [⟨.path [callee], "run", [], 1⟩]⟩], ⟨1, 1⟩⟩]
      path := name
      text := "" } : SourceFile)
    let files := [file "A" "B", file "B" "A"]
    let files' := [file "B" "A", file "A" "B"]
    let scope : Scope := ⟨"p"⟩
    let a : Signature := ⟨"p", "A", "run", []⟩
    let b : Signature := ⟨"p", "B", "run", []⟩
    let s := build files scope
    let s' := build files' scope
    (UniqueNames files ∧ files.Perm files' ∧
        s.edges = [⟨a, b⟩, ⟨b, a⟩] ∧ s'.edges = [⟨b, a⟩, ⟨a, b⟩]) ∧
      (s.records = s'.records ∧ s.types = s'.types ∧ s.edges.Perm s'.edges ∧
        s.stats = s'.stats) ∧
      Implementations.build s.types scope = Implementations.build s'.types scope ∧
      ∀ fanOut,
        let g := s.callGraph scope fanOut
        let g' := s'.callGraph scope fanOut
        (g.forward = g'.forward ∧ g.reverse = g'.reverse ∧ g.stats = g'.stats) ∧
          ∀ m, g.ancestors m = g'.ancestors m ∧ g.callers m = g'.callers m ∧
            ∀ policy, g.callerChains policy m = g'.callerChains policy m ∧
              ∀ names, g.entryTree names policy m = g'.entryTree names policy m := by
  intro file files files' scope a b s s'
  have hnames : UniqueNames files := by decide +zetaReduce
  have hperm : files.Perm files' := List.Perm.swap ..
  exact ⟨⟨hnames, hperm, by decide +zetaReduce, by decide +zetaReduce⟩,
    build_files_perm files files' scope hnames hperm⟩

end Snapshot

end CallPaths
