import CallPaths.Proofs.Records
import CallPaths.Proofs.Targets

/-!
# The search for a method

A type is linked to its superclass and its interfaces, as far as it is declared.  The search for a
method goes through the types at growing distance from an owner: at every moment its queue consists
of types at one distance and, behind them, of types one link further.  Types that were expanded have
no method that could be called, and every declared type that they are linked to is expanded or
stands in the queue.  A way over an expanded type can therefore be replaced by one that starts in
the queue and is no longer, so the first type with a method that can be called is a nearest one.

Each round expands a declared type for the first time, which bounds the number of rounds.

## Key results

- `getElem?_spreadParameters`: the parameter that an argument goes to
- `Declarations.fit?_isSome_iff`: the methods that a number of arguments can be given to
- `Declarations.searchMethod?_add`: the search ends by itself
- `Declarations.found_searchMethod?`: the search comes to a nearest type
- `Declarations.findMethod?_nearest`: what a search for a method finds, in every list of files
-/

namespace CallPaths

/-! ### Arguments and parameters -/

/-- A method can be called with a number of arguments: it has as many parameters, or the last one
takes any number of arguments and there are enough for the others. -/
def MethodDecl.Accepts (m : MethodDecl) (n : Nat) : Prop :=
  m.parameters.length = n ∨ (m.isVarargs = true ∧ m.parameters.length ≤ n + 1)

/-- A method that can be called with some arguments has a parameter. -/
private theorem MethodDecl.Accepts.parameters_ne_nil {m : MethodDecl} {n : Nat} (h : m.Accepts n)
    (hn : 0 < n) : m.parameters ≠ [] := by
  intro hnil
  rcases h with hlen | ⟨hvarargs, -⟩
  · rw [hnil] at hlen
    simp only [List.length_nil] at hlen
    omega
  · simp [isVarargs, hnil] at hvarargs

/-- An argument goes to the parameter at its own place, or to the last one if there are not so many
parameters. -/
theorem getElem?_spreadParameters {ps : List Parameter} {n i : Nat} (hne : ps ≠ []) (hi : i < n) :
    (spreadParameters ps n)[i]? = ps[min i (ps.length - 1)]? := by
  have hpos : 0 < ps.length := List.length_pos_iff.2 hne
  have hlast : ps.getLast? = some (ps.getLast hne) := List.getLast?_eq_some_getLast hne
  simp only [spreadParameters, hlast]
  by_cases hlt : i < ps.length
  · -- the argument has a parameter of its own
    have hmin : min i (ps.length - 1) = i := by omega
    rw [hmin, List.getElem?_append_left (by simp; omega), List.getElem?_take_of_lt hi]
  · -- all parameters are taken, and the last one is repeated
    have hmin : min i (ps.length - 1) = ps.length - 1 := by omega
    have htake : (ps.take n).length = ps.length := by
      rw [List.length_take]
      omega
    rw [hmin, List.getElem?_append_right (by omega), htake,
      List.getElem?_replicate_of_lt (by omega), ← List.getLast?_eq_getElem?, hlast]

/-- Every argument of a call has a parameter that it goes to. -/
private theorem MethodDecl.Accepts.exists_parameter {m : MethodDecl} {n i : Nat} (h : m.Accepts n)
    (hi : i < n) :
    ∃ p, m.parameters[min i (m.parameters.length - 1)]? = some p ∧
      (spreadParameters m.parameters n)[i]? = some p := by
  have hne := h.parameters_ne_nil (by omega)
  have hpos : 0 < m.parameters.length := List.length_pos_iff.2 hne
  have hlt : min i (m.parameters.length - 1) < m.parameters.length := by omega
  rw [getElem?_spreadParameters hne hi, List.getElem?_eq_getElem hlt]
  exact ⟨_, rfl, rfl⟩

namespace Declarations

variable {d : Declarations} {name : String} {hints : List (Option String)}

/-- A method has points exactly if it can be called with that many arguments. -/
theorem fit?_isSome_iff (d : Declarations) (owner : Declared) (m : MethodDecl)
    (hints : List (Option String)) :
    (d.fit? owner m hints).isSome ↔ m.Accepts hints.length := by
  simp only [fit?, MethodDecl.Accepts]
  split
  · next h => simpa using h
  · next h => simpa using h

/-! ### Types that offer a method -/

/-- A name is that of a declared type with a method of a given name that can be called with a number
of arguments. -/
structure Offers (d : Declarations) (name : String) (n : Nat) (t : String) (owner : Declared)
    (m : MethodDecl) : Prop where
  declared : d.lookup? t = some owner
  member : m ∈ owner.type.methods
  named : m.name = name
  accepts : m.Accepts n

/-- Nothing is best only where there is nothing. -/
private theorem bestOf_eq_none_iff {cs : List (Nat × MethodDecl)} : bestOf cs = none ↔ cs = [] := by
  cases cs with
  | nil => simp [bestOf]
  | cons c cs =>
    rw [bestOf]
    split
    · split <;> simp
    · simp

/-- The method that fits best is one that the type offers. -/
theorem offers_of_bestMethod? {t : String} {owner : Declared} {m : MethodDecl}
    (ht : d.lookup? t = some owner) (h : d.bestMethod? owner name hints = some m) :
    d.Offers name hints.length t owner m := by
  obtain ⟨⟨points, m'⟩, hbest, rfl⟩ := Option.map_eq_some_iff.1 h
  obtain ⟨m', hm', hfit⟩ := List.mem_filterMap.1 (mem_of_bestOf hbest)
  obtain ⟨points', hpoints, hpair⟩ := Option.map_eq_some_iff.1 hfit
  cases hpair
  obtain ⟨hmember, hname⟩ := List.mem_filter.1 hm'
  refine ⟨ht, hmember, by simpa using hname, (d.fit?_isSome_iff owner m' hints).1 ?_⟩
  rw [hpoints]
  rfl

/-- A type without a best method offers none. -/
theorem not_offers_of_bestMethod? {t : String} {owner : Declared} (ht : d.lookup? t = some owner)
    (h : d.bestMethod? owner name hints = none) (owner' : Declared) (m : MethodDecl) :
    ¬ d.Offers name hints.length t owner' m := by
  intro hoffers
  obtain rfl : owner = owner' := Option.some.inj (ht.symm.trans hoffers.declared)
  obtain ⟨points, hpoints⟩ :=
    Option.isSome_iff_exists.1 ((d.fit?_isSome_iff owner m hints).2 hoffers.accepts)
  -- the offered method is one of the candidates, so there is a best one
  have hnil := bestOf_eq_none_iff.1 (Option.map_eq_none_iff.1 h)
  have hcandidate := List.filterMap_eq_nil_iff.1 hnil m
    (List.mem_filter.2 ⟨hoffers.member, by simpa using hoffers.named⟩)
  rw [hpoints] at hcandidate
  cases hcandidate

/-! ### Links -/

/-- A declared type is linked to its superclass and its interfaces, with their names qualified in
the file and the type that they are written in. -/
def Link (d : Declarations) (a b : String) : Prop :=
  ∃ owner written, d.lookup? a = some owner ∧
    (owner.type.superclass = some written ∨ written ∈ owner.type.interfaces) ∧
    b = d.qualify owner.file owner.type.name written

/-- One type is so many links away from another one. -/
def Ascends (d : Declarations) : Nat → String → String → Prop
  | 0, a, b => a = b
  | k + 1, a, b => ∃ c, d.Link a c ∧ d.Ascends k c b

/-- The links of a declared type lead to its supertypes. -/
theorem link_iff {a b : String} {owner : Declared} (h : d.lookup? a = some owner) :
    d.Link a b ↔ b ∈ d.supertypes owner := by
  simp only [Link, supertypes, List.mem_map, List.mem_append, Option.mem_toList, qualifyIn, h,
    Option.some.injEq]
  constructor
  · rintro ⟨_, written, rfl, hwritten, rfl⟩
    exact ⟨written, hwritten, rfl⟩
  · rintro ⟨written, hwritten, rfl⟩
    exact ⟨owner, written, rfl, hwritten, rfl⟩

/-- Nothing is linked to or offered where nothing is declared. -/
theorem not_offers_of_ascends {a b : String} {k n : Nat} {owner : Declared} {m : MethodDecl}
    (ha : d.lookup? a = none) (hab : d.Ascends k a b) : ¬ d.Offers name n b owner m := by
  intro hoffers
  cases k with
  | zero =>
    obtain rfl : a = b := hab
    cases ha.symm.trans hoffers.declared
  | succ k =>
    obtain ⟨c, ⟨owner', written, howner, -⟩, -⟩ := hab
    cases ha.symm.trans howner

/-! ### Steps of the search -/

theorem isDeclared_eq (d : Declarations) (t : String) : d.isDeclared t = (d.lookup? t).isSome := rfl

section Steps

variable {rounds : Nat} {visited queue : List String} {t : String}

private theorem searchMethod?_nil : d.searchMethod? name hints rounds visited [] = none := by
  cases rounds <;> rfl

/-- A type that was expanded before, or is not declared, is passed over. -/
theorem searchMethod?_skip (h : t ∈ visited ∨ d.lookup? t = none) :
    d.searchMethod? name hints rounds visited (t :: queue) =
      d.searchMethod? name hints rounds visited queue := by
  have hskip : (visited.contains t || !d.isDeclared t) = true := by
    rcases h with h | h
    · simp [h]
    · simp [isDeclared_eq, h]
  cases rounds with
  | zero => rfl
  | succ rounds => simp only [searchMethod?, List.dropWhile_cons, hskip, if_true]

variable {owner : Declared} (hnew : t ∉ visited) (ht : d.lookup? t = some owner)
include hnew ht

/-- A declared type is not passed over the first time. -/
private theorem dropWhile_fresh :
    (t :: queue).dropWhile (fun t => visited.contains t || !d.isDeclared t) = t :: queue :=
  List.dropWhile_cons_of_neg (by simp [isDeclared_eq, hnew, ht])

/-- The search ends at a type with a method that fits. -/
theorem searchMethod?_found {m : MethodDecl} (hm : d.bestMethod? owner name hints = some m) :
    d.searchMethod? name hints (rounds + 1) visited (t :: queue) = d.signatureOf? owner m := by
  simp only [searchMethod?, dropWhile_fresh hnew ht, ht, hm]

/-- Any other type is expanded: its supertypes are put at the end of the queue. -/
theorem searchMethod?_expand (hm : d.bestMethod? owner name hints = none) :
    d.searchMethod? name hints (rounds + 1) visited (t :: queue) =
      d.searchMethod? name hints rounds (t :: visited) (queue ++ d.supertypes owner) := by
  simp only [searchMethod?, dropWhile_fresh hnew ht, ht, hm]

end Steps

/-- The number of declared types that were not expanded yet. -/
def pending (d : Declarations) (visited : List String) : Nat :=
  (d.index.keyList.filter (· ∉ visited)).length

/-- At the start no declared type was expanded. -/
theorem pending_nil (d : Declarations) : d.pending [] = d.size := by
  have hall : d.index.keyList.filter (· ∉ ([] : List String)) = d.index.keyList :=
    List.filter_eq_self.2 fun _ _ => by simp
  rw [pending, hall, SortedMap.keyList, List.length_map]
  rfl

/-- Expanding a declared type leaves fewer of them. -/
theorem pending_cons_lt {visited : List String} {t : String} {owner : Declared} (hnew : t ∉ visited)
    (ht : d.lookup? t = some owner) : d.pending (t :: visited) < d.pending visited := by
  have hkey : t ∈ d.index.keyList := by
    refine SortedMap.mem_keyList.2 ?_
    show (d.lookup? t).isSome = true
    rw [ht]
    rfl
  have hfilter : d.index.keyList.filter (· ∉ t :: visited) =
      (d.index.keyList.filter (· ∉ visited)).filter (· ≠ t) := by
    rw [List.filter_filter]
    refine List.filter_congr fun a _ => ?_
    simp [not_or]
  rw [pending, pending, hfilter, List.length_filter_lt_length_iff_exists]
  exact ⟨t, List.mem_filter.2 ⟨hkey, by simpa using hnew⟩, by simp⟩

/-- With a round for each declared type that is left, more rounds change nothing. -/
theorem searchMethod?_add {rounds : Nat} {visited queue : List String}
    (hrounds : d.pending visited ≤ rounds) (extra : Nat) :
    d.searchMethod? name hints (rounds + extra) visited queue =
      d.searchMethod? name hints rounds visited queue := by
  -- rounds count expanded types only, so the types of the queue are gone through inside
  induction rounds generalizing visited queue with
  | zero =>
    induction queue with
    | nil => rw [searchMethod?_nil, searchMethod?_nil]
    | cons t queue ih =>
      have hskip : t ∈ visited ∨ d.lookup? t = none := by
        refine Classical.byContradiction fun h => ?_
        obtain ⟨hnew, hsome⟩ := not_or.1 h
        obtain ⟨owner, ht⟩ := Option.ne_none_iff_exists'.1 hsome
        have hlt := pending_cons_lt hnew ht
        omega
      rw [searchMethod?_skip hskip, searchMethod?_skip hskip, ih]
  | succ rounds ihRounds =>
    rw [Nat.add_right_comm]
    induction queue with
    | nil => rw [searchMethod?_nil, searchMethod?_nil]
    | cons t queue ih =>
      by_cases hskip : t ∈ visited ∨ d.lookup? t = none
      · rw [searchMethod?_skip hskip, searchMethod?_skip hskip, ih]
      · obtain ⟨hnew, hsome⟩ := not_or.1 hskip
        obtain ⟨owner, ht⟩ := Option.ne_none_iff_exists'.1 hsome
        cases hm : d.bestMethod? owner name hints with
        | some m => rw [searchMethod?_found hnew ht hm, searchMethod?_found hnew ht hm]
        | none =>
          rw [searchMethod?_expand hnew ht hm, searchMethod?_expand hnew ht hm]
          have hlt := pending_cons_lt hnew ht
          exact ihRounds (by omega)

/-! ### Nearest types -/

/-- What is ahead of a queue whose second part is one link further away than its first part. -/
def Ahead (d : Declarations) (current next : List String) (k : Nat) (t : String) : Prop :=
  (∃ q ∈ current, d.Ascends k q t) ∨ ∃ q ∈ next, ∃ j, k = j + 1 ∧ d.Ascends j q t

/-- A type at a distance that offers a method, where none of the types ahead that offer one is
nearer. -/
structure Nearest (d : Declarations) (name : String) (n : Nat) (ahead : Nat → String → Prop)
    (k : Nat) (t : String) (owner : Declared) (m : MethodDecl) : Prop where
  place : ahead k t
  offers : d.Offers name n t owner m
  least : ∀ k' t' owner' m', ahead k' t' → d.Offers name n t' owner' m' → k ≤ k'

/-- The result of a search: the signature of a method that a nearest type offers, or nothing if no
type ahead offers one. -/
def Found (d : Declarations) (name : String) (n : Nat) (ahead : Nat → String → Prop)
    (result : Option Signature) : Prop :=
  (∃ k t owner m, d.Nearest name n ahead k t owner m ∧ result = d.signatureOf? owner m) ∨
    (result = none ∧ ∀ k t owner m, ahead k t → ¬ d.Offers name n t owner m)

/-- What has been expanded offers nothing, and its links lead to expanded or waiting types. -/
structure Explored (d : Declarations) (name : String) (n : Nat)
    (visited current next : List String) : Prop where
  barren : ∀ v ∈ visited, ∀ owner m, ¬ d.Offers name n v owner m
  closed : ∀ v ∈ visited, ∀ c, d.Link v c →
    d.lookup? c = none ∨ c ∈ visited ∨ c ∈ current ∨ c ∈ next

section Search

variable {n k : Nat} {visited current next : List String} {t : String} {owner : Declared}
  {m : MethodDecl} {result : Option Signature}

/-- A way over an expanded type can be replaced by a shorter one from the queue, or by one of the
same length that starts with a type of the second part of the queue. -/
theorem Explored.exists_earlier (h : d.Explored name n visited current next) {v : String}
    (hv : v ∈ visited) (hway : d.Ascends k v t) (ht : d.Offers name n t owner m) :
    (∃ k' < k, d.Ahead current next k' t) ∨ ∃ q ∈ next, ∃ j, k = j + 1 ∧ d.Ascends j q t := by
  induction k generalizing v with
  | zero =>
    obtain rfl : v = t := hway
    exact absurd ht (h.barren v hv owner m)
  | succ k ih =>
    obtain ⟨c, hlink, hway⟩ := hway
    rcases h.closed v hv c hlink with hc | hc | hc | hc
    · exact absurd ht (not_offers_of_ascends hc hway)
    · rcases ih hc hway with ⟨k', hlt, hahead⟩ | hnext
      · exact .inl ⟨k', by omega, hahead⟩
      · exact .inl ⟨k, by omega, .inr hnext⟩
    · exact .inl ⟨k, by omega, .inl ⟨c, hc, hway⟩⟩
    · exact .inr ⟨c, hc, k, rfl, hway⟩

/-- A way over an expanded type can be replaced by one from the queue that is no longer. -/
private theorem Explored.exists_ahead (h : d.Explored name n visited current next) {v : String}
    (hv : v ∈ visited) (hway : d.Ascends k v t) (ht : d.Offers name n t owner m) :
    ∃ k' ≤ k, d.Ahead current next k' t := by
  rcases h.exists_earlier hv hway ht with ⟨k', hlt, hahead⟩ | hnext
  · exact ⟨k', by omega, hahead⟩
  · exact ⟨k, Nat.le_refl k, .inr hnext⟩

/-- A search finds the same for types ahead with the same least distances. -/
theorem Found.congr {ahead ahead' : Nat → String → Prop} (h : d.Found name n ahead result)
    (hsub : ∀ k t, ahead k t → ahead' k t)
    (hle : ∀ k t owner m, ahead' k t → d.Offers name n t owner m → ∃ k' ≤ k, ahead k' t) :
    d.Found name n ahead' result := by
  rcases h with ⟨k, t, owner, m, hnearest, hresult⟩ | ⟨hresult, hnone⟩
  · refine .inl ⟨k, t, owner, m, ⟨hsub k t hnearest.place, hnearest.offers, ?_⟩, hresult⟩
    intro k' t' owner' m' hahead hoffers
    obtain ⟨k'', hk, hahead⟩ := hle k' t' owner' m' hahead hoffers
    have hleast := hnearest.least k'' t' owner' m' hahead hoffers
    omega
  · refine .inr ⟨hresult, fun k t owner m hahead hoffers => ?_⟩
    obtain ⟨k', -, hahead⟩ := hle k t owner m hahead hoffers
    exact hnone k' t owner m hahead hoffers

/-- When all types at one distance are gone through, the search goes on one link further. -/
private theorem Found.advance (h : d.Found name n (d.Ahead next []) result) :
    d.Found name n (d.Ahead [] next) result := by
  have hiff : ∀ k t, d.Ahead [] next k t ↔ ∃ j, k = j + 1 ∧ d.Ahead next [] j t := by
    intro k t
    simp only [Ahead, List.not_mem_nil, false_and, exists_false, false_or, or_false]
    constructor
    · rintro ⟨q, hq, j, rfl, hway⟩
      exact ⟨j, rfl, q, hq, hway⟩
    · rintro ⟨j, rfl, q, hq, hway⟩
      exact ⟨q, hq, j, rfl, hway⟩
  rcases h with ⟨k, t, owner, m, hnearest, hresult⟩ | ⟨hresult, hnone⟩
  · refine .inl ⟨k + 1, t, owner, m, ⟨?_, hnearest.offers, ?_⟩, hresult⟩
    · exact (hiff (k + 1) t).2 ⟨k, rfl, hnearest.place⟩
    · intro k' t' owner' m' hahead hoffers
      obtain ⟨j, rfl, hnext⟩ := (hiff k' t').1 hahead
      have hleast := hnearest.least j t' owner' m' hnext hoffers
      omega
  · refine .inr ⟨hresult, fun k t owner m hahead hoffers => ?_⟩
    obtain ⟨j, rfl, hnext⟩ := (hiff k t).1 hahead
    exact hnone j t owner m hnext hoffers

/-- Passing over a type that was expanded, or is not declared, does not change what is found. -/
theorem Found.skip (hexplored : d.Explored name n visited current next)
    (hskip : t ∈ visited ∨ d.lookup? t = none) (h : d.Found name n (d.Ahead current next) result) :
    d.Found name n (d.Ahead (t :: current) next) result := by
  refine h.congr ?_ ?_
  · rintro k t' (⟨q, hq, hway⟩ | hnext)
    · exact .inl ⟨q, List.mem_cons_of_mem t hq, hway⟩
    · exact .inr hnext
  · rintro k t' owner m (⟨q, hq, hway⟩ | hnext) hoffers
    · rcases List.mem_cons.1 hq with rfl | hq
      · rcases hskip with hv | hnone
        · exact hexplored.exists_ahead hv hway hoffers
        · exact absurd hoffers (not_offers_of_ascends hnone hway)
      · exact ⟨k, Nat.le_refl k, .inl ⟨q, hq, hway⟩⟩
    · exact ⟨k, Nat.le_refl k, .inr hnext⟩

/-- Expanding a type that offers nothing does not change what is found. -/
theorem Found.expand (ht : d.lookup? t = some owner)
    (hbarren : ∀ owner m, ¬ d.Offers name n t owner m)
    (h : d.Found name n (d.Ahead current (next ++ d.supertypes owner)) result) :
    d.Found name n (d.Ahead (t :: current) next) result := by
  refine h.congr ?_ ?_
  · rintro k t' (⟨q, hq, hway⟩ | ⟨q, hq, j, rfl, hway⟩)
    · exact .inl ⟨q, List.mem_cons_of_mem t hq, hway⟩
    · rcases List.mem_append.1 hq with hq | hq
      · exact .inr ⟨q, hq, j, rfl, hway⟩
      · exact .inl ⟨t, List.mem_cons_self, q, (link_iff ht).2 hq, hway⟩
  · rintro k t' owner' m (⟨q, hq, hway⟩ | ⟨q, hq, j, rfl, hway⟩) hoffers
    · rcases List.mem_cons.1 hq with rfl | hq
      · -- a way that starts at the expanded type goes on with one of its links
        cases k with
        | zero =>
          obtain rfl : q = t' := hway
          exact absurd hoffers (hbarren owner' m)
        | succ k =>
          obtain ⟨c, hlink, hway⟩ := hway
          have hc : c ∈ next ++ d.supertypes owner :=
            List.mem_append_right next ((link_iff ht).1 hlink)
          exact ⟨k + 1, Nat.le_refl _, .inr ⟨c, hc, k, rfl, hway⟩⟩
      · exact ⟨k, Nat.le_refl k, .inl ⟨q, hq, hway⟩⟩
    · exact ⟨j + 1, Nat.le_refl _, .inr ⟨q, List.mem_append_left _ hq, j, rfl, hway⟩⟩

/-- The types that are expanded, after one more. -/
theorem Explored.expand (h : d.Explored name n visited (t :: current) next)
    (ht : d.lookup? t = some owner) (hbarren : ∀ owner m, ¬ d.Offers name n t owner m) :
    d.Explored name n (t :: visited) current (next ++ d.supertypes owner) where
  barren v hv := by
    rcases List.mem_cons.1 hv with rfl | hv
    · exact hbarren
    · exact h.barren v hv
  closed v hv c hlink := by
    simp only [List.mem_append, List.mem_cons]
    rcases List.mem_cons.1 hv with rfl | hv
    · exact .inr (.inr (.inr (.inr ((link_iff ht).1 hlink))))
    · rcases h.closed v hv c hlink with hc | hc | hc | hc
      · exact .inl hc
      · exact .inr (.inl (.inr hc))
      · rcases List.mem_cons.1 hc with rfl | hc
        · exact .inr (.inl (.inl rfl))
        · exact .inr (.inr (.inl hc))
      · exact .inr (.inr (.inr (.inl hc)))

/-- The types that are expanded, after one was passed over. -/
theorem Explored.skip (h : d.Explored name n visited (t :: current) next)
    (hskip : t ∈ visited ∨ d.lookup? t = none) : d.Explored name n visited current next where
  barren := h.barren
  closed v hv c hlink := by
    rcases h.closed v hv c hlink with hc | hc | hc | hc
    · exact .inl hc
    · exact .inr (.inl hc)
    · rcases List.mem_cons.1 hc with rfl | hc
      · exact hskip.elim (fun hc => .inr (.inl hc)) .inl
      · exact .inr (.inr (.inl hc))
    · exact .inr (.inr (.inr hc))

/-- With a round for each declared type that is left, the search comes to a nearest type that offers
a method, or to nothing if there is none. -/
theorem found_searchMethod? {rounds : Nat} {visited current next : List String}
    (h : d.Explored name hints.length visited current next)
    (hrounds : d.pending visited ≤ rounds) :
    d.Found name hints.length (d.Ahead current next)
      (d.searchMethod? name hints rounds visited (current ++ next)) := by
  match current, next with
  | [], [] =>
    refine .inr ⟨searchMethod?_nil, ?_⟩
    rintro k t owner m (⟨q, hq, -⟩ | ⟨q, hq, -⟩)
    · cases hq
    · cases hq
  | [], q :: next =>
    have hexplored : d.Explored name hints.length visited (q :: next) [] :=
      ⟨h.barren, fun v hv c hlink => by simpa using h.closed v hv c hlink⟩
    have hfound := found_searchMethod? hexplored hrounds
    rw [List.append_nil] at hfound
    exact hfound.advance
  | t :: current, next =>
    by_cases hskip : t ∈ visited ∨ d.lookup? t = none
    · rw [List.cons_append, searchMethod?_skip hskip]
      exact (found_searchMethod? (h.skip hskip) hrounds).skip (h.skip hskip) hskip
    · obtain ⟨hnew, hsome⟩ := not_or.1 hskip
      obtain ⟨owner, ht⟩ := Option.ne_none_iff_exists'.1 hsome
      have hlt := pending_cons_lt hnew ht
      obtain ⟨rounds, rfl⟩ : ∃ r, rounds = r + 1 := ⟨rounds - 1, by omega⟩
      rw [List.cons_append]
      cases hm : d.bestMethod? owner name hints with
      | some m =>
        -- nothing can be nearer than the start of the queue
        rw [searchMethod?_found hnew ht hm]
        exact .inl ⟨0, t, owner, m, ⟨.inl ⟨t, List.mem_cons_self, rfl⟩,
          offers_of_bestMethod? ht hm, fun k' _ _ _ _ _ => Nat.zero_le k'⟩, rfl⟩
      | none =>
        have hbarren := not_offers_of_bestMethod? ht hm
        rw [searchMethod?_expand hnew ht hm, List.append_assoc]
        exact (found_searchMethod? (h.expand ht hbarren) (by omega)).expand ht hbarren
termination_by (rounds, current.length + next.length, next.length)

end Search

/-- All parameters of all methods have types. -/
def FullyTyped (files : List SourceFile) : Prop :=
  ∀ f ∈ files, ∀ t ∈ f.types, ∀ m ∈ t.methods, ∀ p ∈ m.parameters, p.typeName ≠ ""

instance (files : List SourceFile) : Decidable (FullyTyped files) :=
  inferInstanceAs (Decidable (∀ f ∈ files, ∀ t ∈ f.types, ∀ m ∈ t.methods, ∀ p ∈ m.parameters,
    p.typeName ≠ ""))

/-- In fully typed files every offered method has a signature. -/
private theorem Offers.exists_signature {files : List SourceFile} (hfiles : FullyTyped files)
    {n : Nat} {t : String} {owner : Declared} {m : MethodDecl}
    (h : (ofFiles files).Offers name n t owner m) :
    ∃ s, (ofFiles files).signatureOf? owner m = some s := by
  obtain ⟨f, hf, howner⟩ := List.mem_flatMap.1 (mem_of_lookup? h.declared)
  obtain ⟨decl, hdecl, rfl⟩ := List.mem_map.1 howner
  exact exists_signatureOf? _ _ (hfiles f hf decl hdecl m h.member)

/-- The search for a method from an owner finds what is nearest to it. -/
private theorem found_findMethod? (d : Declarations) (owner name : String)
    (hints : List (Option String)) :
    d.Found name hints.length (fun k => d.Ascends k owner) (d.findMethod? owner name hints) := by
  have hexplored : d.Explored name hints.length [] [owner] [] :=
    ⟨fun _ hv => absurd hv List.not_mem_nil, fun _ hv => absurd hv List.not_mem_nil⟩
  refine (found_searchMethod? hexplored (Nat.le_of_eq d.pending_nil)).congr ?_ ?_
  · rintro k t (⟨q, hq, hway⟩ | ⟨q, hq, -⟩)
    · rwa [List.mem_singleton.1 hq] at hway
    · cases hq
  · intro k t _ _ hway _
    exact ⟨k, Nat.le_refl k, .inl ⟨owner, List.mem_singleton_self owner, hway⟩⟩

/-- In every list of files the search for a method comes to an end by itself, and every argument has
a parameter that it is compared with.  Types are known by the first declaration of their name.  If
all parameters have types, a signature is found exactly if a declared type at any distance from the
owner has a method of the name that can be called with that many arguments, and it is the signature
of such a method in a nearest type. -/
theorem findMethod?_nearest (files : List SourceFile) (owner name : String)
    (hints : List (Option String)) :
    let d := ofFiles files
    let offers := d.Offers name hints.length
    (∀ extra, d.searchMethod? name hints (d.size + extra) [] [owner] =
        d.findMethod? owner name hints) ∧
      (∀ o m, (d.fit? o m hints).isSome → ∀ i < hints.length,
        ∃ p, m.parameters[min i (m.parameters.length - 1)]? = some p ∧
          (spreadParameters m.parameters hints.length)[i]? = some p) ∧
      (∀ t, d.lookup? t = (declaredTypes files).find? (·.qualifiedName = t)) ∧
      (FullyTyped files →
        ((d.findMethod? owner name hints).isSome ↔
          ∃ k t o m, d.Ascends k owner t ∧ offers t o m) ∧
        ∀ s, d.findMethod? owner name hints = some s →
          ∃ k t o m, d.Ascends k owner t ∧ offers t o m ∧ d.signatureOf? o m = some s ∧
            ∀ k' t' o' m', d.Ascends k' owner t' → offers t' o' m' → k ≤ k') := by
  intro d offers
  have hfound := d.found_findMethod? owner name hints
  refine ⟨searchMethod?_add (Nat.le_of_eq d.pending_nil), fun o m hfit i hi => ?_,
    lookup?_ofFiles files, fun htyped => ?_⟩
  · exact ((d.fit?_isSome_iff o m hints).1 hfit).exists_parameter hi
  · rcases hfound with ⟨k, t, o, m, hnearest, hresult⟩ | ⟨hresult, hnone⟩
    · obtain ⟨s, hs⟩ := hnearest.offers.exists_signature htyped
      refine ⟨iff_of_true ?_ ⟨k, t, o, m, hnearest.place, hnearest.offers⟩, fun s' hs' => ?_⟩
      · rw [hresult, hs]
        rfl
      · exact ⟨k, t, o, m, hnearest.place, hnearest.offers, hresult.symm.trans hs', hnearest.least⟩
    · refine ⟨iff_of_false ?_ ?_, fun s hs => ?_⟩
      · rw [hresult]
        exact Bool.false_ne_true
      · rintro ⟨k, t, o, m, hway, hoffers⟩
        exact hnone k t o m hway hoffers
      · cases hresult.symm.trans hs

/-- Two classes that extend each other, one with an interface that is not declared, the other with
one that is: the method of the interface is found over both of them, since the first class has a
method of the name for another number of arguments only. -/
theorem findMethod?_nearest_cycle :
    let method := fun name varargs =>
      (⟨name, [⟨"x", "int", varargs⟩], ⟨1, 1⟩, "", none, none, [], []⟩ : MethodDecl)
    let files : List SourceFile := [{
      package := some "p"
      types := [
        ⟨"A", .classDecl, some "B", ["Missing"], [], [method "run" false], ⟨1, 1⟩⟩,
        ⟨"B", .classDecl, some "A", ["I"], [], [], ⟨1, 1⟩⟩,
        ⟨"I", .interfaceDecl, none, [], [], [method "run" true], ⟨1, 1⟩⟩]
      path := "A.java"
      text := "" }]
    let hints := [some "int", none]
    let s : Signature := ⟨"p", "I", "run", ["int..."]⟩
    let d := ofFiles files
    (FullyTyped files ∧ d.findMethod? "p.A" "run" hints = some s) ∧
      ∃ k t o m, d.Ascends k "p.A" t ∧ d.Offers "run" 2 t o m ∧ d.signatureOf? o m = some s ∧
        ∀ k' t' o' m', d.Ascends k' "p.A" t' → d.Offers "run" 2 t' o' m' → k ≤ k' := by
  intro method files hints s d
  have htyped : FullyTyped files := by decide +zetaReduce
  have hfound : d.findMethod? "p.A" "run" hints = some s := by decide +zetaReduce
  exact ⟨⟨htyped, hfound⟩, ((findMethod?_nearest files "p.A" "run" hints).2.2.2 htyped).2 s hfound⟩

end Declarations

end CallPaths
