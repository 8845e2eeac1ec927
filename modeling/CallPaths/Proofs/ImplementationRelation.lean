import CallPaths.Proofs.BuildFigures
import CallPaths.Proofs.ImplementationPairs

/-!
# Both directions of the implementation relation

Interface methods and implementations are kept in two maps, one for each direction, and every pair
is put into both of them.  So the maps stay converse to each other, and a key only comes up together
with a first member of its set.  The number of keys of the first map is therefore the number of
interface methods with an implementation.

What declared types contribute can be told without the nested loops of the build: a class inside the
scope lists an interface that is declared inside the scope, and both have a method of the same name
and the same parameter types (`Implementations.ImplementsIn`).

## Key results

- `Implementations.mem_implementationsOf_build_iff`: the relation that declared types give
- `Implementations.Consistent.insert`: what relating two methods preserves
- `Implementations.relation_exact`: the relation after a build and any further pairs
-/

namespace CallPaths

/-- There are as many entries as keys with a value. -/
private theorem SortedMap.size_eq_ncard (m : SortedMap Signature (SortedSet Signature)) :
    m.size = {k | m.contains k}.ncard := by
  have hset : {k | m.contains k} = {k | k ∈ m.keyList} := Set.ext fun _ => mem_keyList.symm
  have hnodup : m.keyList.Nodup := SortedSet.nodup_of_pairwise m.pairwise_keyList
  rw [hset, ncard_mem_of_nodup hnodup, keyList, List.length_map]
  rfl

/-- Methods have the same shape if their names and their parameter types are equal. -/
private theorem Signature.sameShape_iff {s t : Signature} :
    s.sameShape t = true ↔ s.method = t.method ∧ s.parameters = t.parameters := by
  rw [sameShape, Bool.and_eq_true, decide_eq_true_iff, decide_eq_true_iff]

namespace Implementations

/-! ### Declared types -/

/-- A class inside the scope lists an interface that is declared inside the scope, and has a method
with the name and the parameter types of one of the methods of this interface. -/
def ImplementsIn (types : SortedMap String ResolvedType) (scope : Scope) (i m : Signature) : Prop :=
  ∃ key c, types.get? key = some c ∧ c.kind ≠ .interfaceDecl ∧
    scope.containsType c.qualifiedName = true ∧
      ∃ name ∈ c.interfaces, ∃ declared, types.get? name = some declared ∧
        declared.kind = .interfaceDecl ∧ scope.containsType name = true ∧
          i ∈ declared.methods ∧ m ∈ c.methods ∧ i.method = m.method ∧ i.parameters = m.parameters

/-- The relation that declared types give. -/
theorem mem_implementationsOf_build_iff {types : SortedMap String ResolvedType} {scope : Scope}
    {i m : Signature} :
    m ∈ ((build types scope).implementationsOf? i).getD ∅ ↔ ImplementsIn types scope i m := by
  simp only [mem_implementationsOf_build, SortedMap.mem_values, mem_pairsOf,
    Signature.sameShape_iff]
  constructor
  · rintro ⟨c, ⟨key, hc⟩, hkind, hin, hm, name, hname, declared, hget, hdeclared, hscope, hi,
      hshape⟩
    exact ⟨key, c, hc, hkind, hin, name, hname, declared, hget, hdeclared, hscope, hi, hm, hshape⟩
  · rintro ⟨key, c, hc, hkind, hin, name, hname, declared, hget, hdeclared, hscope, hi, hm, hshape⟩
    exact ⟨c, ⟨key, hc⟩, hkind, hin, hm, name, hname, declared, hget, hdeclared, hscope, hi, hshape⟩

/-! ### Relating methods one after another -/

/-- The two maps are the two directions of one relation, none of their sets is empty, and the size
counts the interface methods with an implementation. -/
structure Consistent (r : Implementations) : Prop where
  /-- One direction is the converse of the other. -/
  converse : ∀ i m, m ∈ (r.implementationsOf? i).getD ∅ ↔ i ∈ (r.interfacesOf? m).getD ∅
  /-- Every interface method that has a set of implementations has an implementation. -/
  implemented : ∀ i s, r.implementationsOf? i = some s → ∃ m, m ∈ s
  /-- Every method that has a set of interface methods implements one. -/
  implementing : ∀ m s, r.interfacesOf? m = some s → ∃ i, i ∈ s
  /-- The size is the number of interface methods with an implementation. -/
  counted : r.size = {i | ∃ m, m ∈ (r.implementationsOf? i).getD ∅}.ncard

/-- If no set is empty, the keys are the interface methods with an implementation. -/
private theorem size_eq_ncard_of_implemented {r : Implementations}
    (h : ∀ i s, r.implementationsOf? i = some s → ∃ m, m ∈ s) :
    r.size = {i | ∃ m, m ∈ (r.implementationsOf? i).getD ∅}.ncard := by
  rw [size, SortedMap.size_eq_ncard]
  congr 1
  ext i
  -- a key is in the map exactly if a set is found for it, and no such set is empty
  show (r.implementationsOf? i).isSome = true ↔ ∃ m, m ∈ (r.implementationsOf? i).getD ∅
  cases hget : r.implementationsOf? i with
  | none => simp
  | some s => simpa using h i s hget

/-- If no set is empty, none is after a member was added. -/
private theorem exists_mem_addTo {r : SortedMap Signature (SortedSet Signature)} {k x : Signature}
    (h : ∀ a s, r.get? a = some s → ∃ b, b ∈ s) (a : Signature) (s : SortedSet Signature)
    (hs : (r.addTo k x).get? a = some s) : ∃ b, b ∈ s := by
  rw [SortedMap.addTo, SortedMap.get?_alter] at hs
  split at hs
  · -- the set of the key has the new member
    cases hs
    exact ⟨x, SortedSet.mem_insert.2 (.inl rfl)⟩
  · exact h a s hs

/-- An empty relation has no pairs in either direction. -/
theorem consistent_empty : Consistent ∅ where
  converse i m := iff_of_false (SortedSet.not_mem_empty m) (SortedSet.not_mem_empty i)
  implemented _ _ hs := by cases hs
  implementing _ _ hs := by cases hs
  counted := size_eq_ncard_of_implemented fun _ _ hs => by cases hs

/-- Relating two methods keeps both directions in step. -/
theorem Consistent.insert {r : Implementations} (h : r.Consistent) (i m : Signature) :
    (r.insert i m).Consistent where
  converse j n := by
    -- the new pair is put under its interface method in one map, under its implementation in the
    -- other
    have hbackward : j ∈ ((r.insert i m).interfacesOf? n).getD ∅ ↔
        (n = m ∧ j = i) ∨ j ∈ (r.interfacesOf? n).getD ∅ := SortedMap.mem_addTo
    rw [mem_implementationsOf_insert, hbackward, h.converse j n, and_comm]
  implemented := exists_mem_addTo h.implemented
  implementing := exists_mem_addTo h.implementing
  counted := size_eq_ncard_of_implemented (exists_mem_addTo h.implemented)

/-- Any sequence of pairs keeps both directions in step. -/
theorem Consistent.foldl_insert {r : Implementations} (h : r.Consistent)
    (ps : List (Signature × Signature)) :
    (ps.foldl (fun r p => r.insert p.1 p.2) r).Consistent := by
  induction ps generalizing r with
  | nil => exact h
  | cons p ps ih => exact ih (h.insert p.1 p.2)

/-- For every map of declared types and every scope, a build relates an interface method to a method
exactly if a class inside the scope implements it by a listed interface that is declared inside the
scope.  Any further pairs are added to this relation, and nothing else is.  Both directions stay
converse to each other, no set is empty, and the size counts the interface methods with an
implementation. -/
theorem relation_exact (types : SortedMap String ResolvedType) (scope : Scope) :
    (∀ i m, m ∈ ((build types scope).implementationsOf? i).getD ∅ ↔ ImplementsIn types scope i m) ∧
      ∀ pairs : List (Signature × Signature),
        let r := pairs.foldl (fun r p => r.insert p.1 p.2) (build types scope)
        r.Consistent ∧ ∀ i m, m ∈ (r.implementationsOf? i).getD ∅ ↔
          (i, m) ∈ pairs ∨ ImplementsIn types scope i m := by
  refine ⟨fun i m => mem_implementationsOf_build_iff, fun pairs => ?_⟩
  intro r
  refine ⟨?_, fun i m => ?_⟩
  · -- a build is itself a sequence of pairs
    have hbuild : (build types scope).Consistent := consistent_empty.foldl_insert _
    exact hbuild.foldl_insert pairs
  · rw [mem_implementationsOf_foldl, mem_implementationsOf_build_iff]

end Implementations

end CallPaths
