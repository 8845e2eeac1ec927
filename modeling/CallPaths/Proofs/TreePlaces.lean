import CallPaths.Proofs.GrammarTrees
import Mathlib.Data.List.Basic
import Mathlib.Tactic.Choose

/-!
# Places in trees

A place in a tree is the list of the indexes of the children on the way down to it.  Places are
compared lexicographically, which is the order of a walk in pre-order.  A list is `Listed` by places
if it has one entry for each place at which something stands, with the places in order (`<`) or just
without repetition (`≠`).

A list that is put together from the lists of the members of another one is listed by longer places.
The lemmas below say this once for both kinds of order, and what a walk through a tree lists is then
assembled from them.

## Key results

- `Listed.flatMap`: what is listed below the places of a list
- `Listed.children`: what is listed below the children of a node
- `ParseTree.listed_preorder`: a walk in pre-order lists the nodes of a tree
-/

namespace CallPaths

/-- The indexes of the children on the way to a tree below another one. -/
abbrev Place := List Nat

theorem Place.ne_of_lt {p q : Place} (h : p < q) : p ≠ q := by
  rintro rfl
  exact List.lt_irrefl p h

/-- Places of which neither is above the other stay in order when they go on below. -/
theorem Place.append_lt {p p' : Place} (h : p < p') (hp : ¬ p <+: p') (q q' : Place) :
    p ++ q < p' ++ q' := by
  induction p generalizing p' with
  | nil => exact absurd List.nil_prefix hp
  | cons i p ih =>
    cases p' with
    | nil => cases h
    | cons i' p' =>
      rcases List.cons_lt_cons_iff.1 h with hlt | ⟨rfl, hlt⟩
      · exact List.cons_lt_cons_iff.2 (.inl hlt)
      · have hnot : ¬ p <+: p' := fun hpre => hp (List.cons_prefix_cons.2 ⟨rfl, hpre⟩)
        exact List.cons_lt_cons_iff.2 (.inr ⟨rfl, ih hlt hnot⟩)

/-- A list has one entry for each place at which a relation holds of something, and `r` relates the
places of earlier entries to those of later ones. -/
def Listed {α : Type} (r : Place → Place → Prop) (At : Place → α → Prop) (l : List α) : Prop :=
  ∃ entries : List (Place × α), entries.Pairwise (fun a b => r a.1 b.1) ∧
    (∀ p a, (p, a) ∈ entries ↔ At p a) ∧ entries.map Prod.snd = l

namespace Listed

variable {α β : Type} {r : Place → Place → Prop} {At : Place → α → Prop} {l : List α}

theorem congr {At' : Place → α → Prop} (h : Listed r At l) (hat : ∀ p a, At p a ↔ At' p a) :
    Listed r At' l := by
  obtain ⟨entries, hr, hmem, hl⟩ := h
  exact ⟨entries, hr, fun p a => (hmem p a).trans (hat p a), hl⟩

theorem mono {r' : Place → Place → Prop} (h : Listed r At l) (hr : ∀ p q, r p q → r' p q) :
    Listed r' At l := by
  obtain ⟨entries, hpairs, hmem, hl⟩ := h
  exact ⟨entries, hpairs.imp (hr _ _), hmem, hl⟩

theorem nil (h : ∀ p a, ¬ At p a) : Listed r At [] := by
  refine ⟨[], .nil, fun p a => ?_, rfl⟩
  simp [h]

theorem filterMap (h : Listed r At l) (f : α → Option β) :
    Listed r (fun p b => ∃ a, At p a ∧ f a = some b) (l.filterMap f) := by
  obtain ⟨entries, hr, hmem, rfl⟩ := h
  refine ⟨entries.filterMap fun e => (f e.2).map (Prod.mk e.1), ?_, fun p b => ?_, ?_⟩
  · refine hr.filterMap _ fun a b hab a' ha' b' hb' => ?_
    obtain ⟨_, -, rfl⟩ := Option.map_eq_some_iff.1 ha'
    obtain ⟨_, -, rfl⟩ := Option.map_eq_some_iff.1 hb'
    exact hab
  · simp only [List.mem_filterMap, Option.map_eq_some_iff, Prod.mk.injEq, Prod.exists, ← hmem]
    constructor
    · rintro ⟨q, a, ha, b', hb, rfl, rfl⟩
      exact ⟨a, ha, hb⟩
    · rintro ⟨a, ha, hb⟩
      exact ⟨p, a, ha, b, hb, rfl, rfl⟩
  · rw [List.map_filterMap, List.filterMap_map]
    simp [Function.comp_def]

theorem filter (h : Listed r At l) (keep : α → Bool) :
    Listed r (fun p a => At p a ∧ keep a = true) (l.filter keep) := by
  rw [← List.filterMap_eq_filter]
  refine (h.filterMap _).congr fun p b => ?_
  simp only [Option.guard_eq_some_iff]
  constructor
  · rintro ⟨a, ha, rfl, hkeep⟩
    exact ⟨ha, hkeep⟩
  · rintro ⟨hb, hkeep⟩
    exact ⟨b, hb, rfl, hkeep⟩

/-- What stands in the lists of the entries is listed below the places of these. -/
theorem flatMap {B : Place → Place → β → Prop} {f : α → List β} (h : Listed r At l)
    (hf : ∀ p a, At p a → Listed r (B p) (f a))
    (hbelow : ∀ p q q', r q q' → r (p ++ q) (p ++ q'))
    (hcross : ∀ p a p' a', At p a → At p' a' → r p p' →
      ∀ q b q' b', B p q b → B p' q' b' → r (p ++ q) (p' ++ q')) :
    Listed r (fun s b => ∃ p a q, At p a ∧ B p q b ∧ s = p ++ q) (l.flatMap f) := by
  obtain ⟨entries, hr, hmem, rfl⟩ := h
  have hf' : ∀ e ∈ entries, Listed r (B e.1) (f e.2) := fun e he => hf _ _ ((hmem e.1 e.2).1 he)
  -- the list of an entry has entries of its own, and these go below the place of the entry
  choose! below hpairs hbelowMem hmap using hf'
  refine ⟨entries.flatMap fun e => (below e).map fun x => (e.1 ++ x.1, x.2), ?_, ?_, ?_⟩
  · rw [List.pairwise_flatMap]
    constructor
    · intro e he
      rw [List.pairwise_map]
      exact (hpairs e he).imp (hbelow e.1 _ _)
    · refine hr.imp_of_mem fun {e e'} he he' hee' => ?_
      simp only [List.mem_map]
      rintro _ ⟨x, hx, rfl⟩ _ ⟨x', hx', rfl⟩
      exact hcross _ _ _ _ ((hmem _ _).1 he) ((hmem _ _).1 he') hee' _ _ _ _
        ((hbelowMem e he _ _).1 hx) ((hbelowMem e' he' _ _).1 hx')
  · intro s b
    simp only [List.mem_flatMap, List.mem_map, Prod.exists, Prod.mk.injEq]
    constructor
    · rintro ⟨p, a, he, q, b', hx, rfl, rfl⟩
      exact ⟨p, a, q, (hmem p a).1 he, (hbelowMem _ he q _).1 hx, rfl⟩
    · rintro ⟨p, a, q, ha, hb, rfl⟩
      have he := (hmem p a).2 ha
      exact ⟨p, a, he, q, b, (hbelowMem _ he q b).2 hb, rfl, rfl⟩
  · rw [List.map_flatMap, List.flatMap_map]
    refine List.flatMap_congr fun e he => ?_
    rw [List.map_map, ← hmap e he]
    rfl

/-- The entries of a list, at their indexes. -/
theorem indexes (l : List α) : Listed (· < ·) (fun p a => ∃ i, p = [i] ∧ l[i]? = some a) l := by
  refine ⟨l.zipIdx.map fun e => ([e.2], e.1), ?_, fun p a => ?_, ?_⟩
  · rw [List.pairwise_map]
    have hidx : (l.zipIdx.map Prod.snd).Pairwise (· < ·) := by
      rw [List.zipIdx_map_snd]
      exact List.pairwise_lt_range'
    exact (List.pairwise_map.1 hidx).imp fun h => List.cons_lt_cons_iff.2 (.inl h)
  · simp only [List.mem_map, Prod.exists, Prod.mk.injEq, List.mk_mem_zipIdx_iff_getElem?]
    constructor
    · rintro ⟨a', i, ha, rfl, rfl⟩
      exact ⟨i, rfl, ha⟩
    · rintro ⟨i, rfl, ha⟩
      exact ⟨a, i, ha, rfl, rfl⟩
  · rw [List.map_map]
    exact List.zipIdx_map_fst 0 l

/-- What is listed below the entries of a list, at the indexes of these. -/
theorem children {B : α → Place → β → Prop} {f : α → List β}
    (hf : ∀ a ∈ l, Listed (· < ·) (B a) (f a)) :
    Listed (· < ·) (fun s b => ∃ i a q, l[i]? = some a ∧ B a q b ∧ s = i :: q) (l.flatMap f) := by
  -- a place with a single index names one entry, so the relation below may depend on it
  have hflat := (indexes l).flatMap
    (B := fun p q b => ∃ i a, p = [i] ∧ l[i]? = some a ∧ B a q b) (f := f) ?_ ?_ ?_
  · refine hflat.congr fun s b => ?_
    constructor
    · rintro ⟨_, _, q, ⟨i, rfl, _⟩, ⟨_, a, hi, ha, hb⟩, rfl⟩
      obtain rfl := List.singleton_inj.1 hi
      exact ⟨i, a, q, ha, hb, rfl⟩
    · rintro ⟨i, a, q, ha, hb, rfl⟩
      exact ⟨[i], a, q, ⟨i, rfl, ha⟩, ⟨i, a, rfl, ha, hb⟩, rfl⟩
  · rintro _ a ⟨i, rfl, ha⟩
    refine (hf a (List.mem_of_getElem? ha)).congr fun q b => ⟨fun hb => ⟨i, a, rfl, ha, hb⟩, ?_⟩
    rintro ⟨_, a', hi, ha', hb⟩
    obtain rfl := List.singleton_inj.1 hi
    obtain rfl := Option.some.inj (ha.symm.trans ha')
    exact hb
  · exact fun p q q' h => List.append_left_lt h
  · rintro _ _ _ _ ⟨i, rfl, -⟩ ⟨j, rfl, -⟩ hij q b q' b' - -
    have hlt : i < j := by simpa [List.cons_lt_cons_iff] using hij
    exact List.cons_lt_cons_iff.2 (.inl hlt)

/-- An entry at the place itself comes before what is listed below it. -/
theorem cons {a : α} (h : Listed (· < ·) At l) (hne : ∀ p b, At p b → p ≠ []) :
    Listed (· < ·) (fun p b => (p = [] ∧ b = a) ∨ At p b) (a :: l) := by
  obtain ⟨entries, hr, hmem, rfl⟩ := h
  refine ⟨([], a) :: entries, List.pairwise_cons.2 ⟨fun e he => ?_, hr⟩, fun p b => ?_, rfl⟩
  · have hplace := hne e.1 e.2 ((hmem e.1 e.2).1 he)
    obtain ⟨i, q, hq⟩ := List.exists_cons_of_ne_nil hplace
    rw [hq]
    exact List.nil_lt_cons i q
  · rw [List.mem_cons, Prod.mk.injEq, hmem]

/-- The same list, seen from further above. -/
theorem under (h : Listed (· < ·) At l) (i : Nat) :
    Listed (· < ·) (fun p a => ∃ q, p = i :: q ∧ At q a) l := by
  obtain ⟨entries, hr, hmem, rfl⟩ := h
  refine ⟨entries.map fun e => (i :: e.1, e.2), ?_, fun p a => ?_, ?_⟩
  · rw [List.pairwise_map]
    exact hr.imp fun h => List.cons_lt_cons_iff.2 (.inr ⟨rfl, h⟩)
  · simp only [List.mem_map, Prod.exists, Prod.mk.injEq, ← hmem]
    constructor
    · rintro ⟨q, a', he, rfl, rfl⟩
      exact ⟨q, rfl, he⟩
    · rintro ⟨q, rfl, he⟩
      exact ⟨q, a, he, rfl, rfl⟩
  · rw [List.map_map]
    rfl

/-- What stands at a smaller place comes earlier in the list. -/
theorem exists_earlier {a : α} {i : Nat} (h : Listed (· < ·) At l) (hi : l[i]? = some a) :
    ∃ p, At p a ∧ ∀ q b, At q b → q < p → ∃ j, j < i ∧ l[j]? = some b := by
  obtain ⟨entries, hr, hmem, rfl⟩ := h
  obtain ⟨⟨p, a'⟩, he, rfl⟩ : ∃ e, entries[i]? = some e ∧ e.2 = a := by simpa using hi
  refine ⟨p, (hmem p a').1 (List.mem_of_getElem? he), fun q b hq hlt => ?_⟩
  obtain ⟨j, hj⟩ := List.getElem?_of_mem ((hmem q b).2 hq)
  refine ⟨j, ?_, by simp [hj]⟩
  -- otherwise the smaller place would stand at or after the larger one
  rcases Nat.lt_trichotomy j i with hji | rfl | hij
  · exact hji
  · cases Option.some.inj (hj.symm.trans he)
    exact absurd hlt (List.lt_irrefl _)
  · obtain ⟨hi', hei⟩ := List.getElem?_eq_some_iff.1 he
    obtain ⟨hj', hej⟩ := List.getElem?_eq_some_iff.1 hj
    have hpq := List.pairwise_iff_getElem.1 hr i j hi' hj' hij
    rw [hei, hej] at hpq
    exact absurd (List.lt_trans hlt hpq) (List.lt_irrefl _)

end Listed

/-- A list has what is read off each tree of a relation, one entry for each place. -/
structure Listing {α β : Type} (r : Place → Place → Prop) (At : Place → β → Prop)
    (read? : β → Option α) (l : List α) : Prop where
  listed : Listed r (fun p a => ∃ b, At p b ∧ read? b = some a) l
  total : ∀ p b, At p b → (read? b).isSome = true

namespace Listing

variable {α β γ : Type} {r : Place → Place → Prop} {At : Place → β → Prop}
  {read? : β → Option α} {l : List α}

theorem mono {r' : Place → Place → Prop} (h : Listing r At read? l)
    (hr : ∀ p q, r p q → r' p q) : Listing r' At read? l :=
  ⟨h.listed.mono hr, h.total⟩

/-- What stands in the lists that are read off is listed once, if no place is below two trees. -/
theorem flatMap_ne {B : β → Place → γ → Prop} {f : α → List γ}
    (h : Listing (· ≠ ·) At read? l)
    (hsame : ∀ p x x', At p x → At p x' → ∀ q b, B x q b → B x' q b)
    (hf : ∀ x a, read? x = some a → Listed (· ≠ ·) (B x) (f a))
    (hinj : ∀ p x p' x' q b q' b', At p x → At p' x' → B x q b → B x' q' b' →
      p ++ q = p' ++ q' → p = p') :
    Listed (· ≠ ·) (fun s b => ∃ p x q, At p x ∧ B x q b ∧ s = p ++ q) (l.flatMap f) := by
  have hflat := h.listed.flatMap (f := f) (B := fun p q b => ∃ x, At p x ∧ B x q b) ?_ ?_ ?_
  · refine hflat.congr fun s b => ?_
    constructor
    · rintro ⟨p, a, q, -, ⟨x, hx, hb⟩, rfl⟩
      exact ⟨p, x, q, hx, hb, rfl⟩
    · rintro ⟨p, x, q, hx, hb, rfl⟩
      obtain ⟨a, ha⟩ := Option.isSome_iff_exists.1 (h.total p x hx)
      exact ⟨p, a, q, ⟨x, hx, ha⟩, ⟨x, hx, hb⟩, rfl⟩
  · rintro p a ⟨x, hx, ha⟩
    refine (hf x a ha).congr fun q b => ⟨fun hb => ⟨x, hx, hb⟩, ?_⟩
    rintro ⟨x', hx', hb⟩
    exact hsame p x' x hx' hx q b hb
  · exact fun p q q' hne heq => hne (List.append_cancel_left heq)
  · rintro p _ p' _ - - hne q b q' b' ⟨x, hx, hb⟩ ⟨x', hx', hb'⟩ heq
    exact hne (hinj p x p' x' q b q' b' hx hx' hb hb' heq)

end Listing

namespace ParseTree

/-- The tree at a place; none if the place leads out of the tree. -/
def at? : ParseTree → Place → Option ParseTree
  | t, [] => some t
  | t, i :: p => t.children[i]?.bind (at? · p)

@[simp] theorem at?_nil (t : ParseTree) : t.at? [] = some t := by
  cases t <;> rfl

theorem at?_cons {t d : ParseTree} {i : Nat} {p : Place} :
    t.at? (i :: p) = some d ↔ ∃ c, t.children[i]? = some c ∧ c.at? p = some d := by
  rw [at?, Option.bind_eq_some_iff]

theorem at?_append {t d : ParseTree} {p q : Place} :
    t.at? (p ++ q) = some d ↔ ∃ c, t.at? p = some c ∧ c.at? q = some d := by
  induction p generalizing t with
  | nil => simp
  | cons i p ih =>
    simp only [List.cons_append, at?_cons, ih]
    constructor
    · rintro ⟨c, hc, c', hc', hd⟩
      exact ⟨c', ⟨c, hc, hc'⟩, hd⟩
    · rintro ⟨c', ⟨c, hc, hc'⟩, hd⟩
      exact ⟨c, hc, c', hc', hd⟩

/-- A walk in pre-order lists the nodes of a tree. -/
theorem listed_preorder : (t : ParseTree) →
    Listed (· < ·) (fun p n => t.at? p = some n ∧ n.isNode = true) t.preorder
  | leaf token => by
    refine .nil fun p n => ?_
    rintro ⟨hp, hn⟩
    -- a leaf has no children and is no node
    cases p with
    | nil =>
      obtain rfl : leaf token = n := by simpa using hp
      cases hn
    | cons i p =>
      obtain ⟨c, hc, -⟩ := at?_cons.1 hp
      simp [children] at hc
  | node k role cs => by
    have hchildren : Listed (· < ·) _ (cs.flatMap preorder) :=
      .children fun c (hc : c ∈ cs) => listed_preorder c
    rw [preorder, preorderAll_eq_flatMap]
    refine (hchildren.cons (a := node k role cs) ?_).congr fun p n => ?_
    · rintro _ _ ⟨i, c, q, -, -, rfl⟩
      exact List.cons_ne_nil i q
    · cases p with
      | nil =>
        simp only [at?_nil, Option.some.injEq]
        constructor
        · rintro (⟨-, rfl⟩ | ⟨i, c, q, -, -, hnil⟩)
          · exact ⟨rfl, rfl⟩
          · cases hnil
        · rintro ⟨rfl, -⟩
          exact .inl ⟨trivial, rfl⟩
      | cons j p =>
        rw [at?_cons]
        constructor
        · rintro (⟨hnil, -⟩ | ⟨i, c, q, hc, ⟨hq, hn⟩, hcons⟩)
          · cases hnil
          · cases hcons
            exact ⟨⟨c, hc, hq⟩, hn⟩
        · rintro ⟨⟨c, hc, hp⟩, hn⟩
          exact .inr ⟨j, c, p, hc, ⟨hp, hn⟩, rfl⟩

/-! ### What trees share with the trees below them -/

theorem Sound.of_mem {t c : ParseTree} (h : t.Sound) (hc : c ∈ t.children) : c.Sound := by
  cases t with
  | leaf token => cases hc
  | node k r cs => exact (sound_node.1 h).2 c hc

theorem Sound.of_at? {t c : ParseTree} {p : Place} (h : t.Sound) (hc : t.at? p = some c) :
    c.Sound := by
  induction p generalizing t with
  | nil =>
    obtain rfl : t = c := by simpa using hc
    exact h
  | cons i p ih =>
    obtain ⟨d, hd, hc⟩ := at?_cons.1 hc
    exact ih (h.of_mem (List.mem_of_getElem? hd)) hc

theorem tokens_sublist_of_at? {t c : ParseTree} {p : Place} (h : t.at? p = some c) :
    c.tokens.Sublist t.tokens := by
  induction p generalizing t with
  | nil =>
    obtain rfl : t = c := by simpa using h
    exact List.Sublist.refl _
  | cons i p ih =>
    obtain ⟨d, hd, hc⟩ := at?_cons.1 h
    refine (ih hc).trans ?_
    cases t with
    | leaf token => simp [children] at hd
    | node k r cs =>
      rw [tokens, tokensAll_eq_flatMap, List.flatMap]
      exact List.sublist_flatten_of_mem (List.mem_map_of_mem (List.mem_of_getElem? hd))

theorem tokens_subset_of_at? {t c : ParseTree} {p : Place} (h : t.at? p = some c) :
    c.tokens ⊆ t.tokens :=
  (tokens_sublist_of_at? h).subset

theorem sizeOf_lt_of_at? {t c : ParseTree} {p : Place} (h : t.at? p = some c) (hp : p ≠ []) :
    sizeOf c < sizeOf t := by
  induction p generalizing t with
  | nil => exact absurd rfl hp
  | cons i p ih =>
    obtain ⟨d, hd, hc⟩ := at?_cons.1 h
    have hdt : sizeOf d < sizeOf t := by
      cases t with
      | leaf token => simp [children] at hd
      | node k r cs =>
        have hmem := List.sizeOf_lt_of_mem (List.mem_of_getElem? hd)
        simp only [children] at hmem
        simp only [node.sizeOf_spec]
        omega
    cases p with
    | nil =>
      obtain rfl : d = c := by simpa using hc
      exact hdt
    | cons j p => exact Nat.lt_trans (ih hc (List.cons_ne_nil j p)) hdt

end ParseTree

end CallPaths
