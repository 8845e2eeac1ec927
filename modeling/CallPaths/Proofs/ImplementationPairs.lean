import CallPaths.Graph.Implementations
import CallPaths.Proofs.Sorted

/-!
# Pairs of interface methods and implementations

`Implementations.build` collects the pairs that each declared type contributes.  A class inside the
scope contributes a pair for every method of the same shape in an interface that it lists, if this
interface is declared inside the scope too (`Implementations.mem_pairsOf`).

## Key results

- `Implementations.mem_implementationsOf_foldl`: the implementations are those of the pairs
- `Implementations.mem_implementationsOf_build`: the implementations that declared types give
-/

namespace CallPaths

/-- A member that is added at a key belongs to the set of this key. -/
theorem SortedMap.mem_addTo {r : SortedMap Signature (SortedSet Signature)} {k x s a : Signature} :
    a ∈ ((r.addTo k x).get? s).getD ∅ ↔ (s = k ∧ a = x) ∨ a ∈ (r.get? s).getD ∅ := by
  rw [addTo, get?_alter]
  by_cases hs : s = k
  · simp [hs]
  · simp [hs]

namespace Implementations

/-- Relating two methods adds to the implementations of the first one. -/
theorem mem_implementationsOf_insert {r : Implementations} {i m s a : Signature} :
    a ∈ ((r.insert i m).implementationsOf? s).getD ∅ ↔
      (s = i ∧ a = m) ∨ a ∈ (r.implementationsOf? s).getD ∅ :=
  SortedMap.mem_addTo

/-- The implementations are those of the pairs. -/
theorem mem_implementationsOf_foldl {ps : List (Signature × Signature)} {r : Implementations}
    {s a : Signature} :
    a ∈ ((ps.foldl (fun r p => r.insert p.1 p.2) r).implementationsOf? s).getD ∅ ↔
      (s, a) ∈ ps ∨ a ∈ (r.implementationsOf? s).getD ∅ := by
  induction ps generalizing r with
  | nil => simp
  | cons p ps ih =>
    rw [List.foldl_cons, ih, mem_implementationsOf_insert, List.mem_cons, Prod.ext_iff, or_assoc]
    exact or_left_comm

variable {types : SortedMap String ResolvedType} {scope : Scope}

/-- The declared interfaces inside the scope. -/
private theorem interfaceNamed?_eq_some_iff {name : String} {declared : ResolvedType} :
    interfaceNamed? types scope name = some declared ↔
      types.get? name = some declared ∧ declared.kind = .interfaceDecl ∧
        scope.containsType name = true := by
  unfold interfaceNamed?
  cases types.get? name with
  | none => simp
  | some t =>
    rw [Option.ite_none_right_eq_some, Option.some.injEq, Bool.and_eq_true, decide_eq_true_iff]
    constructor
    · rintro ⟨hkind, rfl⟩
      exact ⟨rfl, hkind⟩
    · rintro ⟨rfl, hkind⟩
      exact ⟨hkind, rfl⟩

/-- The pairs that a type contributes. -/
theorem mem_pairsOf {t : ResolvedType} {i m : Signature} :
    (i, m) ∈ pairsOf types scope t ↔
      t.kind ≠ .interfaceDecl ∧ scope.containsType t.qualifiedName = true ∧ m ∈ t.methods ∧
        ∃ name ∈ t.interfaces, ∃ declared, types.get? name = some declared ∧
          declared.kind = .interfaceDecl ∧ scope.containsType name = true ∧
          i ∈ declared.methods ∧ i.sameShape m = true := by
  unfold pairsOf
  split
  · next hskip =>
    refine iff_of_false List.not_mem_nil fun ⟨hkind, hin, _⟩ => ?_
    simp [hkind, hin] at hskip
  · next hskip =>
    simp only [Bool.or_eq_true, decide_eq_true_iff, Bool.not_eq_true', not_or,
      Bool.not_eq_false] at hskip
    simp only [List.mem_flatMap, List.mem_filterMap, interfaceNamed?_eq_some_iff, List.mem_map,
      List.mem_filter, Prod.mk.injEq]
    constructor
    · rintro ⟨declared, ⟨name, hname, hget, hkind, hin⟩, m', hm, i', ⟨hi, hshape⟩, rfl, rfl⟩
      exact ⟨hskip.1, hskip.2, hm, name, hname, declared, hget, hkind, hin, hi, hshape⟩
    · rintro ⟨-, -, hm, name, hname, declared, hget, hkind, hin, hi, hshape⟩
      exact ⟨declared, ⟨name, hname, hget, hkind, hin⟩, m, hm, i, ⟨hi, hshape⟩, rfl, rfl⟩

/-- The implementations that declared types give to an interface method are those of the pairs that
the types contribute. -/
theorem mem_implementationsOf_build {i m : Signature} :
    m ∈ ((build types scope).implementationsOf? i).getD ∅ ↔
      ∃ t ∈ types.values, (i, m) ∈ pairsOf types scope t := by
  rw [build, mem_implementationsOf_foldl, List.mem_flatMap]
  exact or_iff_left (SortedSet.not_mem_empty m)

end Implementations

end CallPaths
