import CallPaths.Proofs.ImplementationRelation
import CallPaths.Report.Basic

/-!
# Related methods

An interface method and its implementations make up a family.  A method may belong to several
families: it may implement several interface methods, and it may be an interface method with
implementations of its own, which it may be one of.  The methods related to it are all members of
its families (`Implementations.Consistent.mem_siblings_iff`).

The families of a method are looked up in two maps, one for each role that it may have.  Since the
maps are converse to each other, it does not matter from which member of a family the look-up
starts, and so the relation is symmetric.

## Key results

- `Implementations.Consistent.mem_rootsOf_iff`: the families of a method
- `Implementations.Consistent.mem_siblings_iff`: related methods have a family in common
- `Implementations.siblings_exact`: related methods after any sequence of pairs, and how reports
  name them
-/

namespace CallPaths

namespace Implementations

/-- A method is an interface method or one of its implementations. -/
def InFamily (r : Implementations) (i m : Signature) : Prop :=
  m = i ∨ m ∈ (r.implementationsOf? i).getD ∅

/-- A fold that adds families has the members of these. -/
private theorem mem_foldl_family {f : Signature → SortedSet Signature} {is : List Signature}
    {acc : SortedSet Signature} {m : Signature} :
    m ∈ is.foldl (fun acc i => (f i).union (acc.insert i)) acc ↔
      m ∈ acc ∨ ∃ i ∈ is, m = i ∨ m ∈ f i := by
  induction is generalizing acc with
  | nil => simp
  | cons i is ih =>
    rw [List.foldl_cons, ih, SortedSet.mem_union, SortedSet.mem_insert, List.exists_mem_cons_iff]
    constructor
    · rintro ((h | h | h) | h)
      · exact .inr (.inl (.inr h))
      · exact .inr (.inl (.inl h))
      · exact .inl h
      · exact .inr (.inr h)
    · rintro (h | (h | h) | h)
      · exact .inl (.inr (.inr h))
      · exact .inl (.inr (.inl h))
      · exact .inl (.inl h)
      · exact .inr h

/-- An interface method with an implementation has a set of them. -/
private theorem isSome_of_mem {r : Implementations} {i m : Signature}
    (h : m ∈ (r.implementationsOf? i).getD ∅) : (r.implementationsOf? i).isSome = true := by
  cases hget : r.implementationsOf? i with
  | none =>
    rw [hget] at h
    exact absurd h (SortedSet.not_mem_empty m)
  | some s => rfl

namespace Consistent

variable {r : Implementations} {s t i : Signature}

/-- The look-up in both maps gives the families that a method belongs to. -/
theorem mem_rootsOf_iff (h : r.Consistent) :
    i ∈ r.rootsOf s ↔ (r.implementationsOf? i).isSome = true ∧ r.InFamily i s := by
  -- the second map is looked up at `s`, but by the converse it says what the first one has at `i`
  have hconverse : i ∈ ((r.interfacesOf? s).getD ∅).toList ↔ s ∈ (r.implementationsOf? i).getD ∅ :=
    (h.converse i s).symm
  rw [rootsOf, List.mem_append, hconverse]
  constructor
  · rintro (hi | hi)
    · split at hi
      · next hkey =>
        obtain rfl : i = s := by simpa using hi
        exact ⟨hkey, .inl rfl⟩
      · cases hi
    · exact ⟨isSome_of_mem hi, .inr hi⟩
  · rintro ⟨hkey, rfl | hs⟩
    · left
      have hcontains : r.implementations.contains s = true := hkey
      simp [hcontains]
    · exact .inr hs

/-- Two methods are related if they belong to a common family. -/
theorem mem_siblings_iff (h : r.Consistent) :
    t ∈ r.siblings s ↔
      ∃ i, (r.implementationsOf? i).isSome = true ∧ r.InFamily i s ∧ r.InFamily i t := by
  rw [siblings, mem_foldl_family, or_iff_right (SortedSet.not_mem_empty t)]
  constructor
  · rintro ⟨i, hi, ht⟩
    obtain ⟨hkey, hs⟩ := h.mem_rootsOf_iff.1 hi
    exact ⟨i, hkey, hs, ht⟩
  · rintro ⟨i, hkey, hs, ht⟩
    exact ⟨i, h.mem_rootsOf_iff.2 ⟨hkey, hs⟩, ht⟩

private theorem mem_siblings_comm (h : r.Consistent) : t ∈ r.siblings s ↔ s ∈ r.siblings t := by
  rw [h.mem_siblings_iff, h.mem_siblings_iff]
  constructor
  · rintro ⟨i, hkey, hs, ht⟩
    exact ⟨i, hkey, ht, hs⟩
  · rintro ⟨i, hkey, ht, hs⟩
    exact ⟨i, hkey, hs, ht⟩

/-- The methods that are related to themselves are the ends of the pairs of the relation. -/
private theorem mem_siblings_self_iff (h : r.Consistent) :
    s ∈ r.siblings s ↔ ∃ i m, m ∈ (r.implementationsOf? i).getD ∅ ∧ (s = i ∨ s = m) := by
  rw [h.mem_siblings_iff]
  constructor
  · rintro ⟨i, hkey, hs, -⟩
    rcases hs with rfl | hs
    · -- a key has an implementation, since no set is empty
      obtain ⟨ms, hms⟩ := Option.isSome_iff_exists.1 hkey
      obtain ⟨m, hm⟩ := h.implemented s ms hms
      refine ⟨s, m, ?_, .inl rfl⟩
      rwa [hms]
    · exact ⟨i, s, hs, .inr rfl⟩
  · rintro ⟨i, m, hm, hs⟩
    have hfamily : r.InFamily i s := by
      rcases hs with rfl | rfl
      · exact .inl rfl
      · exact .inr hm
    exact ⟨i, isSome_of_mem hm, hfamily, hfamily⟩

/-- A method that is related to another one is related to itself. -/
private theorem mem_siblings_self_of_mem (h : r.Consistent) (ht : t ∈ r.siblings s) :
    t ∈ r.siblings t := by
  obtain ⟨i, hkey, -, ht⟩ := h.mem_siblings_iff.1 ht
  exact h.mem_siblings_iff.2 ⟨i, hkey, ht, ht⟩

end Consistent

/-! ### Names of related methods -/

/-- The methods that a report names beside a method: those related to it, without itself. -/
def relatives (r : Implementations) (s : Signature) : List Signature :=
  ((r.siblings s).filter (· ≠ s)).toList

private theorem mem_relatives {r : Implementations} {s t : Signature} :
    t ∈ r.relatives s ↔ t ∈ r.siblings s ∧ t ≠ s := by
  rw [relatives, ← SortedSet.mem_def, SortedSet.mem_filter, decide_eq_true_iff]

private theorem Consistent.mem_relatives_comm {r : Implementations} (h : r.Consistent)
    {s t : Signature} : t ∈ r.relatives s ↔ s ∈ r.relatives t := by
  rw [mem_relatives, mem_relatives, h.mem_siblings_comm, ne_comm]

/-- Where no other related method is written like a method, its name stands for it. -/
private theorem Consistent.text_mem_relatives_iff {r : Implementations} (h : r.Consistent)
    {s t : Signature} (hname : ∀ u, u ∈ r.siblings u → u.text = t.text → u = t) :
    t.text ∈ (r.relatives s).map Signature.text ↔ t ∈ r.relatives s := by
  rw [List.mem_map]
  constructor
  · rintro ⟨u, hu, htext⟩
    have hself : u ∈ r.siblings u := h.mem_siblings_self_of_mem (mem_relatives.1 hu).1
    rwa [← hname u hself htext]
  · intro ht
    exact ⟨t, ht, rfl⟩

/-- For every sequence of pairs of an interface method and an implementation, two methods are
related exactly if some interface method of the relation is such that each of them is this method or
one of its implementations.  So being related is symmetric, and a method is related to itself
exactly if it stands in one of the pairs.

The list of probable implementations that a report has for a method is made of the names of the
related methods other than the method itself, in order.  It names another method exactly if the list
of that one names it, also when only the written names are compared, as long as no other method of
the relation is written like one of the two. -/
theorem siblings_exact (pairs : List (Signature × Signature)) :
    let r := pairs.foldl (fun r p => r.insert p.1 p.2) (∅ : Implementations)
    (∀ s t, t ∈ r.siblings s ↔
        ∃ i, (r.implementationsOf? i).isSome = true ∧ r.InFamily i s ∧ r.InFamily i t) ∧
      (∀ s t, t ∈ r.siblings s ↔ s ∈ r.siblings t) ∧
      (∀ s, s ∈ r.siblings s ↔ ∃ p ∈ pairs, s = p.1 ∨ s = p.2) ∧
      ∀ (snapshot : Snapshot) (output : OutputSettings),
        let names := fun s => ((⟨snapshot, r, output⟩ : Assembly).entry s).probableImplementations
        (∃ listed : Signature → List Signature,
          (∀ s, names s = (listed s).map Signature.text) ∧ (∀ s, (listed s).Pairwise Before) ∧
            (∀ s t, t ∈ listed s ↔ t ∈ r.siblings s ∧ t ≠ s) ∧
            ∀ s t, t ∈ listed s ↔ s ∈ listed t) ∧
          ∀ s t, (∀ p ∈ pairs, ∀ u ∈ [p.1, p.2],
              (u.text = s.text → u = s) ∧ (u.text = t.text → u = t)) →
            (t.text ∈ names s ↔ s.text ∈ names t) := by
  intro r
  have hr : r.Consistent := consistent_empty.foldl_insert pairs
  have hpairs : ∀ i m, m ∈ (r.implementationsOf? i).getD ∅ ↔ (i, m) ∈ pairs := by
    intro i m
    exact mem_implementationsOf_foldl.trans (or_iff_left (SortedSet.not_mem_empty m))
  have hself : ∀ s, s ∈ r.siblings s ↔ ∃ p ∈ pairs, s = p.1 ∨ s = p.2 := by
    intro s
    rw [hr.mem_siblings_self_iff]
    simp only [hpairs, Prod.exists]
  refine ⟨fun s t => hr.mem_siblings_iff, fun s t => hr.mem_siblings_comm, hself, ?_⟩
  intro snapshot output names
  refine ⟨⟨r.relatives, fun s => rfl, fun s => ?_, fun s t => mem_relatives,
    fun s t => hr.mem_relatives_comm⟩, fun s t hunique => ?_⟩
  · exact ((r.siblings s).filter (· ≠ s)).sorted
  · -- the methods of the relation are the ends of the pairs, so the names of `s` and `t` are unique
    have hends : ∀ u, u ∈ r.siblings u → (u.text = s.text → u = s) ∧ (u.text = t.text → u = t) := by
      intro u hu
      obtain ⟨p, hp, hend⟩ := (hself u).1 hu
      exact hunique p hp u (by simpa using hend)
    calc t.text ∈ names s
        ↔ t ∈ r.relatives s := hr.text_mem_relatives_iff fun u hu => (hends u hu).2
      _ ↔ s ∈ r.relatives t := hr.mem_relatives_comm
      _ ↔ s.text ∈ names t := (hr.text_mem_relatives_iff fun u hu => (hends u hu).1).symm

/-- An implementation that has implementations of its own, itself among them: it is related to the
methods of both families, and these are not all related to each other. -/
theorem siblings_exact_two_families :
    let sig := fun name => (⟨"p", name, "run", []⟩ : Signature)
    let pairs := [(sig "I", sig "B"), (sig "B", sig "B"), (sig "B", sig "C"), (sig "D", sig "C")]
    let r := pairs.foldl (fun r p => r.insert p.1 p.2) (∅ : Implementations)
    ((r.siblings (sig "B")).toList = [sig "B", sig "C", sig "I"] ∧
        (r.siblings (sig "C")).toList = [sig "B", sig "C", sig "D"] ∧
        ∀ p ∈ pairs, ∀ u ∈ [p.1, p.2],
          (u.text = (sig "B").text → u = sig "B") ∧ (u.text = (sig "C").text → u = sig "C")) ∧
      ∀ (snapshot : Snapshot) (output : OutputSettings),
        let names := fun s => ((⟨snapshot, r, output⟩ : Assembly).entry s).probableImplementations
        (sig "C").text ∈ names (sig "B") ↔ (sig "B").text ∈ names (sig "C") :=
  ⟨by decide +kernel, fun snapshot output =>
    ((siblings_exact _).2.2.2 snapshot output).2 _ _ (by decide +kernel)⟩

end Implementations

end CallPaths
