import CallPaths.Proofs.MethodSearch

/-!
# The order of the search for a method

The types that a search can come to form levels: the owner, then its superclass and interfaces as
they are written, then the supertypes of all these, one type after another.  A type may stand in
several levels and several times in one.  The search goes through the levels without going through
the supertypes of a type twice.  What it leaves out in this way has come up before: on a lower
level, or earlier on the same one.  So the first type of all levels with a method that can be called
is the one that the search ends with.

## Key results

- `Declarations.mem_level`: the types of a level are those at its distance
- `FirstIn.congr`: levels in which the same type comes up first
- `Declarations.searchMethod?_of_firstIn`: the search ends with the first type of the levels ahead
- `Declarations.findMethod?_of_nearestOffering`: the method that is found is the best one of this
  type
-/

namespace CallPaths

/-! ### First elements of levels -/

/-- Going through levels one after another, an element is the first one with a property. -/
structure FirstIn (p : String → Bool) (levels : Nat → List String) (k : Nat) (t : String) :
    Prop where
  found : (levels k).find? p = some t
  lower : ∀ j < k, (levels j).find? p = none

/-- The same element comes first in other levels if each of them starts alike, as long as nothing
was found before. -/
theorem FirstIn.congr {p : String → Bool} {levels levels' : Nat → List String} {k : Nat}
    {t : String} (h : FirstIn p levels k t)
    (hfind : ∀ k, (∀ j < k, (levels j).find? p = none) →
      (levels' k).find? p = (levels k).find? p) : FirstIn p levels' k t where
  found := (hfind k h.lower).trans h.found
  lower j hj := by
    have hbelow : ∀ i < j, (levels i).find? p = none := fun i hi => h.lower i (by omega)
    exact (hfind j hbelow).trans (h.lower j hj)

/-- A part of a list can be left out of a search if the list starts with all that is looked for in
it. -/
private theorem find?_append_append {p : String → Bool} {front block rest : List String}
    (h : ∀ b ∈ block, p b = true → b ∈ front) :
    (front ++ (block ++ rest)).find? p = (front ++ rest).find? p := by
  rw [List.find?_append, List.find?_append, List.find?_append]
  cases hfront : front.find? p with
  | some t => rfl
  | none =>
    have hblock : block.find? p = none := by
      refine List.find?_eq_none.2 fun b hb hpb => ?_
      exact List.find?_eq_none.1 hfront b (h b hb hpb) hpb
    rw [hblock, Option.none_or]

namespace Declarations

variable {d : Declarations} {name : String} {n : Nat}

/-! ### Levels of types -/

/-- A name is that of a declared type with a method of a given name that can be called with a number
of arguments. -/
def Callable (d : Declarations) (name : String) (n : Nat) (t : String) : Prop :=
  ∃ owner m, d.Offers name n t owner m

instance (m : MethodDecl) (n : Nat) : Decidable (m.Accepts n) :=
  inferInstanceAs (Decidable (m.parameters.length = n ∨
    (m.isVarargs = true ∧ m.parameters.length ≤ n + 1)))

instance (d : Declarations) (name : String) (n : Nat) (t : String) :
    Decidable (d.Callable name n t) :=
  decidable_of_iff
    (∃ owner ∈ (d.lookup? t).toList, ∃ m ∈ owner.type.methods, m.name = name ∧ m.Accepts n) <| by
    simp only [Option.mem_toList]
    constructor
    · rintro ⟨owner, howner, m, hm, hname, haccepts⟩
      exact ⟨owner, m, howner, hm, hname, haccepts⟩
    · rintro ⟨owner, m, hoffers⟩
      exact ⟨owner, hoffers.declared, m, hoffers.member, hoffers.named, hoffers.accepts⟩

/-- The supertypes of some types, one type after another; a name that is not declared has none. -/
def supertypesOf (d : Declarations) (ts : List String) : List String :=
  ts.flatMap fun t => ((d.lookup? t).map d.supertypes).getD []

/-- The types so many links away from some types, in the order in which they are written. -/
def level (d : Declarations) : Nat → List String → List String
  | 0, ts => ts
  | k + 1, ts => d.level k (d.supertypesOf ts)

/-- The levels ahead of a queue whose second part is one link further away than its first part. -/
def levelAhead (d : Declarations) (current next : List String) : Nat → List String
  | 0 => current
  | k + 1 => d.level k (next ++ d.supertypesOf current)

private theorem level_append (k : Nat) (ts us : List String) :
    d.level k (ts ++ us) = d.level k ts ++ d.level k us := by
  induction k generalizing ts us with
  | zero => rfl
  | succ k ih =>
    have hsuper : d.supertypesOf (ts ++ us) = d.supertypesOf ts ++ d.supertypesOf us :=
      List.flatMap_append
    rw [level, hsuper, ih]
    rfl

/-- The supertypes of some types are what they are linked to. -/
private theorem mem_supertypesOf {ts : List String} {c : String} :
    c ∈ d.supertypesOf ts ↔ ∃ t ∈ ts, d.Link t c := by
  refine List.mem_flatMap.trans (exists_congr fun t => and_congr_right fun _ => ?_)
  cases ht : d.lookup? t with
  | none =>
    refine iff_of_false List.not_mem_nil ?_
    rintro ⟨owner, written, howner, -⟩
    cases ht.symm.trans howner
  | some owner => exact (link_iff ht).symm

/-- The types of a level are those at its distance. -/
theorem mem_level {k : Nat} {ts : List String} {t : String} :
    t ∈ d.level k ts ↔ ∃ q ∈ ts, d.Ascends k q t := by
  induction k generalizing ts with
  | zero => simp [level, Ascends]
  | succ k ih =>
    simp only [level, ih, mem_supertypesOf, Ascends]
    constructor
    · rintro ⟨c, ⟨q, hq, hlink⟩, hway⟩
      exact ⟨q, hq, c, hlink, hway⟩
    · rintro ⟨q, hq, c, hlink, hway⟩
      exact ⟨c, ⟨q, hq, hlink⟩, hway⟩

/-- The types of the levels ahead of a queue are those ahead of it. -/
private theorem mem_levelAhead {current next : List String} {k : Nat} {t : String} :
    t ∈ d.levelAhead current next k ↔ d.Ahead current next k t := by
  cases k with
  | zero =>
    simp only [levelAhead, Ahead, Ascends]
    constructor
    · intro ht
      exact .inl ⟨t, ht, rfl⟩
    · rintro (⟨q, hq, rfl⟩ | ⟨q, hq, j, hj, -⟩)
      · exact hq
      · cases hj
  | succ k =>
    -- a level ahead starts with what the second part leads to, which has one link less to go
    rw [levelAhead, level_append, List.mem_append, mem_level, or_comm, Ahead]
    refine or_congr (mem_level (k := k + 1)) (exists_congr fun q => and_congr_right fun _ => ?_)
    constructor
    · intro hway
      exact ⟨k, rfl, hway⟩
    · rintro ⟨j, hj, hway⟩
      obtain rfl : k = j := Nat.succ.inj hj
      exact hway

/-! ### Steps of the search -/

section Steps

variable {visited current next : List String} {k : Nat} {t x : String} {owner : Declared}

/-- When all types of a level are gone through, the next level is at the front. -/
private theorem firstIn_advance {p : String → Bool} (h : FirstIn p (d.levelAhead [] next) k x) :
    ∃ j, FirstIn p (d.levelAhead next []) j x := by
  have hshift : ∀ j, d.levelAhead [] next (j + 1) = d.levelAhead next [] j := by
    intro j
    have hnone : next ++ d.supertypesOf [] = next := List.append_nil next
    rw [levelAhead, hnone]
    cases j <;> rfl
  cases k with
  | zero => cases h.found -- level 0 is empty, so nothing is found on it
  | succ j =>
    refine ⟨j, (hshift j).symm ▸ h.found, fun i hi => ?_⟩
    rw [← hshift i]
    exact h.lower (i + 1) (by omega)

/-- Nothing is found first in levels that are all empty. -/
private theorem not_firstIn_nil {p : String → Bool} : ¬ FirstIn p (d.levelAhead [] []) k x := by
  intro h
  have hmem := mem_levelAhead.1 (List.mem_of_find?_eq_some h.found)
  rcases hmem with ⟨q, hq, -⟩ | ⟨q, hq, -⟩
  · cases hq
  · cases hq

/-- A type that was expanded before, or is not declared, has no method that can be called. -/
private theorem Explored.not_callable (h : d.Explored name n visited current next)
    (hskip : t ∈ visited ∨ d.lookup? t = none) : ¬ d.Callable name n t := by
  rintro ⟨owner, m, hoffers⟩
  rcases hskip with hv | hnone
  · exact h.barren t hv owner m hoffers
  · cases hnone.symm.trans hoffers.declared

/-- Passing over a type that was expanded, or is not declared, does not change what comes first:
what it leads to comes up before, on a lower level or through the second part of the queue. -/
private theorem Explored.firstIn_skip (h : d.Explored name n visited current next)
    (hskip : t ∈ visited ∨ d.lookup? t = none)
    (hfirst : FirstIn (d.Callable name n ·) (d.levelAhead (t :: current) next) k x) :
    FirstIn (d.Callable name n ·) (d.levelAhead current next) k x := by
  refine hfirst.congr fun k hbelow => ?_
  have hbarren : ¬ d.Callable name n t := h.not_callable hskip
  cases k with
  | zero => exact (List.find?_cons_of_neg (by simpa using hbarren)).symm
  | succ k =>
    -- without `t` the supertypes of `t` are missing from the next level, after those of `next`
    let block := ((d.lookup? t).map d.supertypes).getD []
    have hsuper : d.supertypesOf (t :: current) = block ++ d.supertypesOf current :=
      List.flatMap_cons
    have hblock : ∀ b ∈ d.level k block, decide (d.Callable name n b) = true →
        b ∈ d.level k next := by
      intro b hb hcallable
      obtain ⟨owner, m, hoffers⟩ := of_decide_eq_true hcallable
      have hway : d.Ascends (k + 1) t b := by
        have hsingle : b ∈ d.level (k + 1) [t] := by
          have hone : d.supertypesOf [t] = block := List.append_nil block
          rwa [level, hone]
        obtain ⟨q, hq, hway⟩ := mem_level.1 hsingle
        rwa [List.mem_singleton.1 hq] at hway
      rcases hskip with hv | hnone
      · rcases h.exists_earlier hv hway hoffers with ⟨k', hlt, hahead⟩ | ⟨q, hq, j, hj, hway⟩
        · -- on a lower level the search would have ended already
          have hmem : b ∈ d.levelAhead (t :: current) next k' := by
            refine mem_levelAhead.2 (hahead.imp_left ?_)
            rintro ⟨q, hq, hway⟩
            exact ⟨q, List.mem_cons_of_mem t hq, hway⟩
          exact absurd hcallable (List.find?_eq_none.1 (hbelow k' hlt) b hmem)
        · -- on the same level it comes up through the second part, which stands further in front
          obtain rfl : k = j := Nat.succ.inj hj
          exact mem_level.2 ⟨q, hq, hway⟩
      · exact absurd hoffers (not_offers_of_ascends hnone hway)
    rw [levelAhead, levelAhead, hsuper, level_append, level_append, level_append]
    exact (find?_append_append hblock).symm

/-- Expanding a type that has no method to be called does not change what comes first: its
supertypes are put where they stand in the next level. -/
private theorem firstIn_expand (ht : d.lookup? t = some owner) (hbarren : ¬ d.Callable name n t)
    (hfirst : FirstIn (d.Callable name n ·) (d.levelAhead (t :: current) next) k x) :
    FirstIn (d.Callable name n ·) (d.levelAhead current (next ++ d.supertypes owner)) k x := by
  refine hfirst.congr fun k _ => ?_
  cases k with
  | zero => exact (List.find?_cons_of_neg (by simpa using hbarren)).symm
  | succ k =>
    have hsuper : d.supertypesOf (t :: current) = d.supertypes owner ++ d.supertypesOf current := by
      rw [supertypesOf, List.flatMap_cons, ht]
      rfl
    rw [levelAhead, levelAhead, hsuper, List.append_assoc]

end Steps

/-! ### The search -/

section Search

variable {hints : List (Option String)} {t : String} {o : Declared}

/-- With a round for each declared type that is left, the search ends with the first type of the
levels ahead that has a method to be called. -/
theorem searchMethod?_of_firstIn {rounds k : Nat} {visited current next : List String}
    (h : d.Explored name hints.length visited current next)
    (hrounds : d.pending visited ≤ rounds)
    (hfirst : FirstIn (d.Callable name hints.length ·) (d.levelAhead current next) k t)
    (ho : d.lookup? t = some o) :
    d.searchMethod? name hints rounds visited (current ++ next) =
      (d.bestMethod? o name hints).bind (d.signatureOf? o) := by
  -- an expansion uses up a round; the other steps make the queue shorter or move its second part
  match current, next with
  | [], [] => exact absurd hfirst not_firstIn_nil
  | [], q :: next =>
    have hexplored : d.Explored name hints.length visited (q :: next) [] :=
      ⟨h.barren, fun v hv c hlink => by simpa using h.closed v hv c hlink⟩
    obtain ⟨j, hfirst⟩ := firstIn_advance hfirst
    have hfound := searchMethod?_of_firstIn hexplored hrounds hfirst ho
    rwa [List.append_nil] at hfound
  | q :: current, next =>
    by_cases hskip : q ∈ visited ∨ d.lookup? q = none
    · rw [List.cons_append, searchMethod?_skip hskip]
      have hexplored := h.skip hskip
      exact searchMethod?_of_firstIn hexplored hrounds (hexplored.firstIn_skip hskip hfirst) ho
    · obtain ⟨hnew, hsome⟩ := not_or.1 hskip
      obtain ⟨owner, hq⟩ := Option.ne_none_iff_exists'.1 hsome
      have hlt := pending_cons_lt hnew hq
      obtain ⟨rounds, rfl⟩ : ∃ r, rounds = r + 1 := ⟨rounds - 1, by omega⟩
      rw [List.cons_append]
      cases hm : d.bestMethod? owner name hints with
      | some m =>
        -- the type at the front has a method to be called, so it is the first one
        have hcallable : d.Callable name hints.length q := ⟨owner, m, offers_of_bestMethod? hq hm⟩
        have hfront : (d.levelAhead (q :: current) next 0).find?
            (d.Callable name hints.length ·) = some q :=
          List.find?_cons_of_pos (by simpa using hcallable)
        have hzero : k = 0 := by
          refine Nat.eq_zero_of_not_pos fun hpos => ?_
          cases hfront.symm.trans (hfirst.lower 0 hpos)
        subst hzero
        obtain rfl : q = t := Option.some.inj (hfront.symm.trans hfirst.found)
        obtain rfl : owner = o := Option.some.inj (hq.symm.trans ho)
        rw [searchMethod?_found hnew hq hm, hm]
        rfl
      | none =>
        -- the type at the front is used up, and its supertypes are put at the end of the queue
        have hbarren := not_offers_of_bestMethod? hq hm
        have hfirst := firstIn_expand hq (fun ⟨owner, m, ho⟩ => hbarren owner m ho) hfirst
        rw [searchMethod?_expand hnew hq hm, List.append_assoc]
        exact searchMethod?_of_firstIn (h.expand hq hbarren) (by omega) hfirst ho
termination_by (rounds, current.length + next.length, next.length)

/-- A type is the first one that a search from an owner comes to and that has a method to be called:
the first one of the lowest level with such a type. -/
def NearestOffering (d : Declarations) (owner name : String) (n : Nat) (t : String)
    (o : Declared) : Prop :=
  d.lookup? t = some o ∧ ∃ k, FirstIn (d.Callable name n ·) (d.level · [owner]) k t

/-- The search ends with the nearest type that has a method to be called. -/
theorem findMethod?_of_nearestOffering (hints : List (Option String)) {owner : String}
    (h : d.NearestOffering owner name hints.length t o) :
    d.findMethod? owner name hints = (d.bestMethod? o name hints).bind (d.signatureOf? o) := by
  obtain ⟨ho, k, hfirst⟩ := h
  have hexplored : d.Explored name hints.length [] [owner] [] :=
    ⟨fun _ hv => absurd hv List.not_mem_nil, fun _ hv => absurd hv List.not_mem_nil⟩
  have hlevels : d.levelAhead [owner] [] = (d.level · [owner]) := by
    funext k
    cases k <;> rfl
  refine searchMethod?_of_firstIn hexplored (Nat.le_of_eq d.pending_nil) (k := k) ?_ ho
  rw [hlevels]
  exact hfirst

end Search

end Declarations

end CallPaths
