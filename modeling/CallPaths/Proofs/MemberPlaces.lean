import CallPaths.Proofs.TreePlaces
import CallPaths.Source.OfTree

/-!
# Where the types of a tree stand

The types that `ParseTree.typeDecls` reads off a tree are found by a recursion over members, and the
members of an enum may stand one level deeper than others.  Here the same is said without the
recursion: `MemberAt` gives the places of the members of a type declaration, and `TypeAt` those of
the declarations that are reached through members.  No member stands below another one, so the order
of the members is the order of everything below them.

## Key results

- `ParseTree.listed_memberTrees`: the members of a declaration are listed at their places
- `ParseTree.typeDecls_eq_cons`: the recursion, member by member
- `ParseTree.listed_typeDecls`: the types of a tree are listed at their places, in pre-order
-/

namespace CallPaths

open Text

namespace ParseTree

/-! ### Children -/

/-- The first child with a role, and its index. -/
def RoleAt (t : ParseTree) (r : Role) (i : Nat) (c : ParseTree) : Prop :=
  t.children[i]? = some c ∧ c.role? = some r ∧
    ∀ j d, j < i → t.children[j]? = some d → d.role? ≠ some r

theorem child?_eq_some_iff {t c : ParseTree} {r : Role} :
    t.child? r = some c ↔ ∃ i, t.RoleAt r i c := by
  unfold child? RoleAt
  rw [List.find?_eq_some_iff_getElem]
  constructor
  · rintro ⟨hrole, i, hi, hc, hbefore⟩
    refine ⟨i, by rw [List.getElem?_eq_getElem hi, hc], by simpa using hrole, fun j d hj hd => ?_⟩
    obtain ⟨hj', rfl⟩ := List.getElem?_eq_some_iff.1 hd
    simpa using hbefore j hj
  · rintro ⟨i, hc, hrole, hbefore⟩
    obtain ⟨hi, hc⟩ := List.getElem?_eq_some_iff.1 hc
    refine ⟨by simpa using hrole, i, hi, hc, fun j hj => ?_⟩
    simpa using hbefore j _ hj (List.getElem?_eq_getElem (by omega))

theorem RoleAt.unique {t c c' : ParseTree} {r : Role} {i i' : Nat} (h : t.RoleAt r i c)
    (h' : t.RoleAt r i' c') : i = i' ∧ c = c' := by
  obtain ⟨hc, hrole, hbefore⟩ := h
  obtain ⟨hc', hrole', hbefore'⟩ := h'
  rcases Nat.lt_trichotomy i i' with hlt | rfl | hlt
  · exact absurd hrole (hbefore' i c hlt hc)
  · exact ⟨rfl, Option.some.inj (hc.symm.trans hc')⟩
  · exact absurd hrole' (hbefore i' c' hlt hc')

/-- A tree with those before it in a list, from the last one on. -/
abbrev Sibling := List ParseTree × ParseTree

/-- A tree of a list with those before it. -/
def SiblingAt (ts : List ParseTree) (i : Nat) (e : Sibling) : Prop :=
  ts[i]? = some e.2 ∧ e.1 = (ts.take i).reverse

private theorem getElem?_withPreceding (before ts : List ParseTree) (i : Nat) :
    (withPreceding before ts)[i]? = ts[i]?.map fun t => ((ts.take i).reverse ++ before, t) := by
  induction ts generalizing before i with
  | nil => simp [withPreceding]
  | cons t ts ih =>
    cases i with
    | zero => simp [withPreceding]
    | succ i => simp [withPreceding, ih]

private theorem getElem?_withPreceding_nil {ts : List ParseTree} {i : Nat}
    {e : Sibling} :
    (withPreceding [] ts)[i]? = some e ↔ SiblingAt ts i e := by
  obtain ⟨before, t⟩ := e
  simp only [getElem?_withPreceding, Option.map_eq_some_iff, SiblingAt, List.append_nil,
    Prod.mk.injEq]
  constructor
  · rintro ⟨t', ht, rfl, rfl⟩
    exact ⟨ht, rfl⟩
  · rintro ⟨ht, rfl⟩
    exact ⟨t, ht, rfl, rfl⟩

theorem SiblingAt.unique {ts : List ParseTree} {i : Nat} {e e' : Sibling}
    (h : SiblingAt ts i e) (h' : SiblingAt ts i e') : e = e' :=
  Prod.ext (h.2.trans h'.2.symm) (Option.some.inj (h.1.symm.trans h'.1))

/-! ### Members -/

/-- A member that a part of a body stands for, with its preceding siblings: the part itself or, for
the part that follows the constants of an enum, what stands in it. -/
def EntryAt (x : Sibling) (p : Place) (e : Sibling) : Prop :=
  if x.2.isKind .enumBodyDeclarations then ∃ j, p = [j] ∧ SiblingAt x.2.children j e
  else p = [] ∧ e = x

/-- A member of a type declaration, with its preceding siblings. -/
def MemberAt (t : ParseTree) (p : Place) (e : Sibling) : Prop :=
  ∃ b body i x q, t.RoleAt .body b body ∧ SiblingAt body.children i x ∧ EntryAt x q e ∧
    p = b :: i :: q

/-- The members of a type declaration with their preceding siblings. -/
def memberTrees (t : ParseTree) : List (Sibling) :=
  ((t.child? .body).map members).getD []

private theorem listed_entries (x : Sibling) :
    Listed (· < ·) (EntryAt x)
      (if x.2.isKind .enumBodyDeclarations then withPreceding [] x.2.children else [x]) := by
  unfold EntryAt
  split
  · exact (Listed.indexes _).congr fun p e => by simp only [getElem?_withPreceding_nil]
  · have hnil : Listed (· < ·) (fun _ (_ : Sibling) => False) [] :=
      .nil fun _ _ h => h
    exact (hnil.cons fun _ _ h => h.elim).congr fun p e => by simp

theorem listed_memberTrees (t : ParseTree) : Listed (· < ·) t.MemberAt t.memberTrees := by
  unfold memberTrees
  cases hbody : t.child? .body with
  | none =>
    refine .nil fun p e => ?_
    rintro ⟨b, body, -, -, -, hrole, -⟩
    have hsome := child?_eq_some_iff.2 ⟨b, hrole⟩
    rw [hbody] at hsome
    cases hsome
  | some body =>
    obtain ⟨b, hrole⟩ := child?_eq_some_iff.1 hbody
    have hmembers : Listed (· < ·) _ body.members := .children fun x _ => listed_entries x
    refine (hmembers.under b).congr fun p e => ?_
    constructor
    · rintro ⟨_, rfl, i, x, q, hx, he, rfl⟩
      exact ⟨b, body, i, x, q, hrole, getElem?_withPreceding_nil.1 hx, he, rfl⟩
    · rintro ⟨b', body', i, x, q, hrole', hx, he, rfl⟩
      obtain ⟨rfl, rfl⟩ := hrole.unique hrole'
      exact ⟨i :: q, rfl, i, x, q, getElem?_withPreceding_nil.2 hx, he, rfl⟩

theorem EntryAt.at? {x e : Sibling} {p : Place} (h : EntryAt x p e) :
    x.2.at? p = some e.2 := by
  unfold EntryAt at h
  split at h
  · obtain ⟨j, rfl, he, -⟩ := h
    simp [at?_cons, he]
  · obtain ⟨rfl, rfl⟩ := h
    simp

theorem EntryAt.eq_of_isPrefix {x e e' : Sibling} {p p' : Place}
    (h : EntryAt x p e) (h' : EntryAt x p' e') (hp : p <+: p') : p = p' ∧ e = e' := by
  unfold EntryAt at h h'
  split at h
  · next henum =>
    rw [if_pos henum] at h'
    obtain ⟨j, rfl, he⟩ := h
    obtain ⟨j', rfl, he'⟩ := h'
    obtain rfl : j = j' := by simpa using hp
    exact ⟨rfl, he.unique he'⟩
  · next henum =>
    rw [if_neg henum] at h'
    obtain ⟨rfl, rfl⟩ := h
    obtain ⟨rfl, rfl⟩ := h'
    exact ⟨rfl, rfl⟩

namespace MemberAt

variable {t : ParseTree} {p p' : Place} {e e' : Sibling}

theorem at? (h : t.MemberAt p e) : t.at? p = some e.2 := by
  obtain ⟨b, body, i, x, q, ⟨hbody, -⟩, ⟨hx, -⟩, he, rfl⟩ := h
  exact at?_cons.2 ⟨body, hbody, at?_cons.2 ⟨x.2, hx, he.at?⟩⟩

theorem ne_nil (h : t.MemberAt p e) : p ≠ [] := by
  obtain ⟨b, body, i, x, q, -, -, -, rfl⟩ := h
  exact List.cons_ne_nil b _

/-- No member stands below another one. -/
theorem eq_of_isPrefix (h : t.MemberAt p e) (h' : t.MemberAt p' e') (hp : p <+: p') :
    p = p' ∧ e = e' := by
  obtain ⟨b, body, i, x, q, hbody, hx, he, rfl⟩ := h
  obtain ⟨b', body', i', x', q', hbody', hx', he', rfl⟩ := h'
  obtain ⟨rfl, rfl⟩ := hbody.unique hbody'
  obtain ⟨rfl, hq⟩ : i = i' ∧ q <+: q' := by simpa using hp
  obtain rfl := hx.unique hx'
  obtain ⟨rfl, rfl⟩ := he.eq_of_isPrefix he' hq
  exact ⟨rfl, rfl⟩

theorem eq_of_append {q q' : Place} (h : t.MemberAt p e) (h' : t.MemberAt p' e')
    (heq : p ++ q = p' ++ q') : p = p' ∧ e = e' := by
  have hp : p <+: p ++ q := List.prefix_append p q
  have hp' : p' <+: p ++ q := heq ▸ List.prefix_append p' q'
  rcases List.prefix_or_prefix_of_prefix hp hp' with hpre | hpre
  · exact h.eq_of_isPrefix h' hpre
  · obtain ⟨rfl, rfl⟩ := h'.eq_of_isPrefix h hpre
    exact ⟨rfl, rfl⟩

theorem append_lt (h : t.MemberAt p e) (h' : t.MemberAt p' e') (hlt : p < p') (q q' : Place) :
    p ++ q < p' ++ q' := by
  refine Place.append_lt hlt (fun hpre => ?_) q q'
  obtain ⟨rfl, -⟩ := h.eq_of_isPrefix h' hpre
  exact List.lt_irrefl _ hlt

end MemberAt

/-! ### Types -/

/-- The kind of type that a tree declares. -/
def declaredKind? (t : ParseTree) : Option TypeKind :=
  t.kind?.bind typeKind?

/-- The simple name that a declaration gives. -/
def ownName (t : ParseTree) : String :=
  ((t.child? .name).map text).getD ""

/-- A type declaration that is reached from a tree through the members of type declarations, with
the simple names of the declarations on the way and its own. -/
inductive TypeAt : ParseTree → Place → List String → ParseTree → Prop
  | here {t : ParseTree} (kind : t.declaredKind?.isSome = true) : TypeAt t [] [t.ownName] t
  | member {t d : ParseTree} {p q : Place} {e : Sibling} {names : List String}
      (kind : t.declaredKind?.isSome = true) (member : t.MemberAt p e)
      (rest : TypeAt e.2 q names d) : TypeAt t (p ++ q) (t.ownName :: names) d

theorem typeAt_iff {t d : ParseTree} {p : Place} {names : List String} :
    TypeAt t p names d ↔ t.declaredKind?.isSome = true ∧
      ((p = [] ∧ names = [t.ownName] ∧ d = t) ∨
        ∃ q e q' names', t.MemberAt q e ∧ TypeAt e.2 q' names' d ∧ p = q ++ q' ∧
          names = t.ownName :: names') := by
  constructor
  · intro h
    cases h with
    | here kind => exact ⟨kind, .inl ⟨rfl, rfl, rfl⟩⟩
    | member kind member rest => exact ⟨kind, .inr ⟨_, _, _, _, member, rest, rfl, rfl⟩⟩
  · rintro ⟨kind, ⟨rfl, rfl, rfl⟩ | ⟨q, e, q', names', member, rest, rfl, rfl⟩⟩
    · exact .here kind
    · exact .member kind member rest

/-- A type declaration that is reached from a compilation unit, with the simple names of the
declarations around it and its own. -/
def TypePlace (root : ParseTree) (p : Place) (x : List String × ParseTree) : Prop :=
  ∃ i c q, root.children[i]? = some c ∧ TypeAt c q x.1 x.2 ∧ p = i :: q

/-- The type that a declaration declares under the joined names. -/
def type? (rows : List String) (x : List String × ParseTree) : Option TypeDecl :=
  x.2.declaredKind?.map fun kind => x.2.typeDecl rows kind (joinWith "." x.1)

theorem Sound.exists_name {t : ParseTree} {k : NodeKind} (h : t.Sound) (hk : k ∈ namedKinds)
    (hkind : t.isKind k = true) : ∃ name, t.child? .name = some name := by
  cases t with
  | leaf token => cases hkind
  | node k' r cs =>
    obtain ⟨c, hc, hrole⟩ := (sound_node.1 h).1.named k hk hkind
    exact Option.isSome_iff_exists.1 (List.find?_isSome.2 ⟨c, hc, by simpa using hrole⟩)

theorem exists_isKind_of_declaredKind? {t : ParseTree} (h : t.declaredKind?.isSome = true) :
    ∃ k ∈ namedKinds, t.isKind k = true := by
  cases t with
  | leaf token => cases h
  | node k r cs =>
    refine ⟨k, ?_, by simp [isKind, kind?]⟩
    have hk : (typeKind? k).isSome = true := h
    unfold typeKind? at hk
    split at hk <;> simp_all [namedKinds]

private theorem withPreceding_map_snd (before ts : List ParseTree) :
    (withPreceding before ts).map Prod.snd = ts := by
  induction ts generalizing before with
  | nil => rfl
  | cons t ts ih => rw [withPreceding, List.map_cons, ih]

variable (rows : List String)

/-! The types of a body, member by member. -/

private theorem nestedTypes_eq (outer : String) (ts : List ParseTree) :
    nestedTypes rows outer ts =
      (withPreceding [] ts).flatMap fun e => typeDecls rows (some outer) e.2 := by
  have hts : nestedTypes rows outer ts = ts.flatMap (typeDecls rows (some outer)) := by
    induction ts with
    | nil => simp [nestedTypes]
    | cons t ts ih => rw [nestedTypes, ih, List.flatMap_cons]
  rw [hts]
  conv_lhs => rw [← withPreceding_map_snd [] ts, List.flatMap_map]

private theorem memberTypes_eq (outer : String) (body : ParseTree) :
    memberTypes rows outer body.children =
      body.members.flatMap fun e => typeDecls rows (some outer) e.2 := by
  unfold members
  generalize body.children = ts
  -- the siblings of a part do not matter for the types in it
  suffices h : ∀ before, memberTypes rows outer ts = ((withPreceding before ts).flatMap
      fun x => if x.2.isKind .enumBodyDeclarations then withPreceding [] x.2.children
        else [x]).flatMap fun e => typeDecls rows (some outer) e.2 from h []
  induction ts with
  | nil => simp [memberTypes, withPreceding]
  | cons t ts ih =>
    intro before
    rw [withPreceding, List.flatMap_cons, List.flatMap_append, ← ih]
    cases t with
    | leaf token => simp [memberTypes, isKind, kind?, typeDecls]
    | node k r cs =>
      rw [memberTypes, nestedTypes_eq]
      by_cases hk : k = .enumBodyDeclarations
      · simp [isKind, kind?, hk, children]
      · simp [isKind, kind?, hk]

private theorem bodyTypes_eq (outer : String) (t : ParseTree) :
    bodyTypes rows outer t.children =
      t.memberTrees.flatMap fun e => typeDecls rows (some outer) e.2 := by
  unfold memberTrees child?
  generalize t.children = ts
  induction ts with
  | nil => simp [bodyTypes]
  | cons t ts ih =>
    cases t with
    | leaf token => simpa [bodyTypes, role?] using ih
    | node k r cs =>
      rw [bodyTypes]
      by_cases hr : r = some .body
      · have h := memberTypes_eq rows outer (node k r cs)
        simpa [hr, role?, children] using h
      · simpa [hr, role?] using ih

private theorem typeDecls_eq_nil {outer : Option String} {t : ParseTree}
    (h : t.declaredKind? = none) : typeDecls rows outer t = [] := by
  cases t with
  | leaf token => rw [typeDecls]
  | node k r cs =>
    have hk : typeKind? k = none := h
    rw [typeDecls, hk]

theorem typeDecls_eq_cons {outer : Option String} {t : ParseTree} {kind : TypeKind} (h : t.Sound)
    (hkind : t.declaredKind? = some kind) :
    typeDecls rows outer t = t.typeDecl rows kind (nestedName outer t.ownName) ::
      t.memberTrees.flatMap fun e => typeDecls rows (some (nestedName outer t.ownName)) e.2 := by
  obtain ⟨k, hk, hisKind⟩ := exists_isKind_of_declaredKind? (Option.isSome_iff_exists.2 ⟨_, hkind⟩)
  obtain ⟨name, hname⟩ := h.exists_name hk hisKind
  have hown : t.ownName = name.text := by rw [ownName, hname]; rfl
  cases t with
  | leaf token => cases hkind
  | node k r cs =>
    have hdeclared : declaredName? cs = some name.text := by
      rw [declaredName?]
      exact congrArg (Option.map text) hname
    have hk : typeKind? k = some kind := hkind
    rw [typeDecls, hk, hdeclared, hown]
    exact congrArg _ (bodyTypes_eq rows _ (node k r cs))

/-- A name in front of joined names. -/
private theorem joinWith_nestedName (outer : Option String) (name : String) (names : List String) :
    joinWith "." ((some (nestedName outer name)).toList ++ names) =
      joinWith "." (outer.toList ++ name :: names) := by
  cases outer with
  | none => rfl
  | some outer =>
    cases names with
    | nil => simp [nestedName, joinWith]
    | cons first names => simp [nestedName, joinWith, String.append_assoc]

/-- The types of a tree are listed at the places of their declarations, the names outside the tree
in front of those inside. -/
theorem listed_typeDecls (outer : Option String) (t : ParseTree) (h : t.Sound) :
    Listed (· < ·)
      (fun p type => ∃ names d, TypeAt t p names d ∧
        type? rows (outer.toList ++ names, d) = some type)
      (typeDecls rows outer t) := by
  induction hsize : sizeOf t using Nat.strongRecOn generalizing t outer with
  | ind n ih =>
  subst hsize
  cases hkind : t.declaredKind? with
  | none =>
    rw [typeDecls_eq_nil rows hkind]
    refine .nil fun p type => ?_
    rintro ⟨names, d, hd, -⟩
    have hsome := (typeAt_iff.1 hd).1
    rw [hkind] at hsome
    cases hsome
  | some kind =>
    have hsome : t.declaredKind?.isSome = true := by rw [hkind]; rfl
    rw [typeDecls_eq_cons rows h hkind]
    have hflat := t.listed_memberTrees.flatMap
      (f := fun e => typeDecls rows (some (nestedName outer t.ownName)) e.2)
      (B := fun p q type => ∃ e names d, t.MemberAt p e ∧ TypeAt e.2 q names d ∧
        type? rows (outer.toList ++ t.ownName :: names, d) = some type)
      ?_ (fun p q q' hlt => List.append_left_lt hlt)
      (fun p e p' e' he he' hlt q _ q' _ _ _ => he.append_lt he' hlt q q')
    · refine (hflat.cons (a := t.typeDecl rows kind (nestedName outer t.ownName)) ?_).congr ?_
      · rintro _ d ⟨p, e, q, he, -, rfl⟩ hnil
        exact he.ne_nil (List.append_eq_nil_iff.1 hnil).1
      · intro p type
        have hhere : type? rows (outer.toList ++ [t.ownName], t) =
            some (t.typeDecl rows kind (nestedName outer t.ownName)) := by
          rw [type?, hkind, ← joinWith_nestedName]
          rfl
        simp only [typeAt_iff (t := t)]
        constructor
        · rintro (⟨rfl, rfl⟩ | ⟨q, -, q', -, ⟨e, names, d, he, hd, htype⟩, rfl⟩)
          · exact ⟨_, t, ⟨hsome, .inl ⟨rfl, rfl, rfl⟩⟩, hhere⟩
          · exact ⟨_, d, ⟨hsome, .inr ⟨q, e, q', names, he, hd, rfl, rfl⟩⟩, htype⟩
        · rintro ⟨_, d, ⟨-, ⟨rfl, rfl, rfl⟩ | ⟨q, e, q', names, he, hd, rfl, rfl⟩⟩, htype⟩
          · exact .inl ⟨rfl, Option.some.inj (htype.symm.trans hhere)⟩
          · exact .inr ⟨q, e, q', he, ⟨e, names, d, he, hd, htype⟩, rfl⟩
    · -- below a member, by induction on the size of the tree
      intro p e he
      have hlisted := ih _ (sizeOf_lt_of_at? he.at? he.ne_nil) (some (nestedName outer t.ownName))
        e.2 (h.of_at? he.at?) rfl
      refine hlisted.congr fun q type => ?_
      simp only [type?, joinWith_nestedName]
      constructor
      · rintro ⟨names, d, hd, htype⟩
        exact ⟨e, names, d, he, hd, htype⟩
      · rintro ⟨e', names, d, he', hd, htype⟩
        obtain ⟨-, rfl⟩ := he.eq_of_isPrefix he' (List.prefix_refl p)
        exact ⟨names, d, hd, htype⟩

end ParseTree

end CallPaths
