import CallPaths.Proofs.MemberPlaces
import CallPaths.Proofs.Targets
import CallPaths.Proofs.TokenPlaces
import CallPaths.Source.Reader

/-!
# Where the declarations of a compilation unit stand

A compilation unit lists types, each type lists methods, and each method lists calls.  Types are
listed in pre-order, and so are the calls of a method; all methods and all calls together are listed
once each, although not in pre-order, since the methods of a type come before those of the types
nested in it.  That nothing is listed twice rests on `TypeAt.eq_of_append`: the place of a method
tells the type that it is a member of, and no such method stands below another one.

## Key results

- `CompilationUnit.listing_types`, `listing_methods`, `listing_calls`: what is listed, and where
- `CompilationUnit.exists_enclosing_earlier`: an outer type comes before the types nested in it
- `CompilationUnit.enumerates_ofTree`: all this for every sound tree
- `CompilationUnit.read?_enumerates`: and so for every source text that is derived
-/

namespace CallPaths

open Text

/-! ### Names of nested types -/

/-- The outer name of a nested type. -/
private theorem outerName?_of_dotted (outer : String) {inner : String} (h : '.' ∉ inner.toList) :
    outerName? (outer ++ "." ++ inner) = some outer := by
  have hsplit : splitOn '.' (outer ++ "." ++ inner) = splitOn '.' outer ++ [inner] := by
    simp [splitOn, splitChars_append_cons, splitChars_of_not_mem h]
  have hne : (splitOn '.' outer).reverse ≠ [] := by
    simpa [splitOn] using splitChars_ne_nil '.' outer.toList
  obtain ⟨piece, pieces, hpieces⟩ := List.exists_cons_of_ne_nil hne
  have houter : joinWith "." (splitOn '.' outer) = outer := by
    apply String.toList_inj.1
    rw [toList_joinWith, splitOn, List.map_map]
    simpa [Function.comp_def] using intercalate_splitChars '.' outer.toList
  rw [outerName?, hsplit, List.reverse_append, hpieces]
  show some (joinWith "." (piece :: pieces).reverse) = some outer
  rw [← hpieces, List.reverse_reverse, houter]

namespace ParseTree

variable (rows : List String)

/-! ### Methods and calls -/

/-- A method among the members of a type declaration. -/
def MethodAt (t : ParseTree) (p : Place) (e : Sibling) : Prop :=
  t.MemberAt p e ∧ e.2.isKind .methodDeclaration = true

/-- A method that is a member of a listed type, with its preceding siblings. -/
def MethodPlace (root : ParseTree) (p : Place) (e : Sibling) : Prop :=
  ∃ q x q', root.TypePlace q x ∧ x.2.MethodAt q' e ∧ p = q ++ q'

/-- An invocation under the body of a method. -/
def InvocationAt (t : ParseTree) (p : Place) (c : ParseTree) : Prop :=
  ∃ b body q, t.RoleAt .body b body ∧ body.at? q = some c ∧ c.isKind .methodInvocation = true ∧
    p = b :: q

/-- An invocation under the body of a method that is a member of a listed type. -/
def CallPlace (root : ParseTree) (p : Place) (c : ParseTree) : Prop :=
  ∃ q e q', root.MethodPlace q e ∧ e.2.InvocationAt q' c ∧ p = q ++ q'

theorem TypeAt.at? {t d : ParseTree} {p : Place} {names : List String} (h : TypeAt t p names d) :
    t.at? p = some d := by
  induction h with
  | here kind => exact at?_nil _
  | member kind member rest ih => exact at?_append.2 ⟨_, member.at?, ih⟩

theorem TypeAt.isSome_declaredKind? {t d : ParseTree} {p : Place} {names : List String}
    (h : TypeAt t p names d) : d.declaredKind?.isSome = true := by
  induction h with
  | here kind => exact kind
  | member kind member rest ih => exact ih

theorem TypePlace.isSome_declaredKind? {root : ParseTree} {p : Place}
    {x : List String × ParseTree} (h : root.TypePlace p x) : x.2.declaredKind?.isSome = true := by
  obtain ⟨i, c, q, -, hx, -⟩ := h
  exact hx.isSome_declaredKind?

theorem TypePlace.at? {root : ParseTree} {p : Place} {x : List String × ParseTree}
    (h : root.TypePlace p x) : root.at? p = some x.2 := by
  obtain ⟨i, c, q, hc, hx, rfl⟩ := h
  exact at?_cons.2 ⟨c, hc, hx.at?⟩

theorem MethodPlace.at? {root : ParseTree} {p : Place} {e : Sibling} (h : root.MethodPlace p e) :
    root.at? p = some e.2 := by
  obtain ⟨q, x, q', hx, he, rfl⟩ := h
  exact at?_append.2 ⟨x.2, hx.at?, he.1.at?⟩

theorem MethodPlace.isKind {root : ParseTree} {p : Place} {e : Sibling} (h : root.MethodPlace p e) :
    e.2.isKind .methodDeclaration = true := by
  obtain ⟨q, x, q', -, he, -⟩ := h
  exact he.2

theorem InvocationAt.at? {t c : ParseTree} {p : Place} (h : t.InvocationAt p c) :
    t.at? p = some c := by
  obtain ⟨b, body, q, ⟨hbody, -⟩, hc, -, rfl⟩ := h
  exact at?_cons.2 ⟨body, hbody, hc⟩

/-- A method declares no type. -/
private theorem declaredKind?_of_isKind_methodDeclaration {t : ParseTree}
    (h : t.isKind .methodDeclaration = true) : t.declaredKind? = none := by
  have hk : t.kind? = some .methodDeclaration := by simpa [isKind] using h
  rw [declaredKind?, hk]
  rfl

private theorem TypeAt.not_isKind_methodDeclaration {t d : ParseTree} {p : Place}
    {names : List String} (h : TypeAt t p names d) : t.isKind .methodDeclaration = false := by
  rw [Bool.eq_false_iff]
  intro hkind
  have hsome := (typeAt_iff.1 h).1
  rw [declaredKind?_of_isKind_methodDeclaration hkind] at hsome
  cases hsome

/-- A method is a member of one type only, and no method of a type stands below another one. -/
theorem TypeAt.eq_of_append {t d d' : ParseTree} {p p' q q' r s : Place}
    {names names' : List String} {e e' : Sibling} (h : TypeAt t p names d)
    (h' : TypeAt t p' names' d') (he : d.MethodAt q e) (he' : d'.MethodAt q' e')
    (heq : p ++ q ++ r = p' ++ q' ++ s) : p = p' ∧ q = q' := by
  induction h generalizing p' names' with
  | here kind =>
    cases h' with
    | here kind' =>
      obtain ⟨rfl, -⟩ := he.1.eq_of_append he'.1 (by simpa using heq)
      exact ⟨rfl, rfl⟩
    | member kind' member' rest' =>
      -- a method would be the start of a way through types
      obtain ⟨-, rfl⟩ := he.1.eq_of_append member' (by simpa using heq)
      exact absurd he.2 (by simp [rest'.not_isKind_methodDeclaration])
  | member kind member rest ih =>
    cases h' with
    | here kind' =>
      obtain ⟨-, rfl⟩ := member.eq_of_append he'.1 (by simpa using heq)
      exact absurd he'.2 (by simp [rest.not_isKind_methodDeclaration])
    | member kind' member' rest' =>
      obtain ⟨rfl, rfl⟩ := member.eq_of_append member' (by simpa using heq)
      obtain ⟨rfl, rfl⟩ := ih rest' he (by simpa using heq)
      exact ⟨rfl, rfl⟩

theorem TypePlace.eq_of_append {root : ParseTree} {p p' q q' r s : Place}
    {x x' : List String × ParseTree} {e e' : Sibling} (h : root.TypePlace p x)
    (h' : root.TypePlace p' x') (he : x.2.MethodAt q e) (he' : x'.2.MethodAt q' e')
    (heq : p ++ q ++ r = p' ++ q' ++ s) : p = p' ∧ q = q' := by
  obtain ⟨i, c, u, hc, hx, rfl⟩ := h
  obtain ⟨i', c', u', hc', hx', rfl⟩ := h'
  obtain ⟨rfl, hrest⟩ : i = i' ∧ u ++ q ++ r = u' ++ q' ++ s := by simpa using heq
  obtain rfl := Option.some.inj (hc.symm.trans hc')
  obtain ⟨rfl, rfl⟩ := hx.eq_of_append hx' he he' hrest
  exact ⟨rfl, rfl⟩

theorem MethodPlace.eq_of_append {root : ParseTree} {p p' r s : Place} {e e' : Sibling}
    (h : root.MethodPlace p e) (h' : root.MethodPlace p' e') (heq : p ++ r = p' ++ s) :
    p = p' := by
  obtain ⟨q, x, u, hx, he, rfl⟩ := h
  obtain ⟨q', x', u', hx', he', rfl⟩ := h'
  obtain ⟨rfl, rfl⟩ := hx.eq_of_append hx' he he' heq
  rfl

/-- The place of a method determines its siblings. -/
theorem MethodPlace.unique {root : ParseTree} {p : Place} {e e' : Sibling}
    (h : root.MethodPlace p e) (h' : root.MethodPlace p e') : e = e' := by
  obtain ⟨q, x, u, hx, he, rfl⟩ := h
  obtain ⟨q', x', u', hx', he', heq⟩ := h'
  obtain ⟨rfl, rfl⟩ := hx.eq_of_append hx' he he' (congrArg (· ++ []) heq)
  have hsame : x.2 = x'.2 := Option.some.inj (hx.at?.symm.trans hx'.at?)
  rw [← hsame] at he'
  exact (he.1.eq_of_isPrefix he'.1 (List.prefix_refl u)).2

private theorem isKind_of_callSite? {t : ParseTree} {call : CallSite}
    (h : t.callSite? = some call) : t.isKind .methodInvocation = true := by
  unfold callSite? at h
  split at h
  · assumption
  · cases h

private theorem isNode_of_isKind {t : ParseTree} {k : NodeKind} (h : t.isKind k = true) :
    t.isNode = true := by
  cases t with
  | leaf token => cases h
  | node k' r cs => rfl

/-- A type below another one is a member of the one that its names without the last one lead to. -/
private theorem TypeAt.exists_outer {t d : ParseTree} {p : Place} {names : List String}
    (h : TypeAt t p names d) :
    names = [d.ownName] ∨ ∃ q names' d' q', TypeAt t q names' d' ∧ q' ≠ [] ∧ p = q ++ q' ∧
      names' ≠ [] ∧ names = names' ++ [d.ownName] := by
  induction h with
  | here kind => exact .inl rfl
  | @member t d p q e names kind member rest ih =>
    right
    rcases ih with rfl | ⟨r, names', d', r', hd', hne, rfl, hnames, rfl⟩
    · exact ⟨[], [t.ownName], t, p ++ q, .here kind, by simp [member.ne_nil], rfl, by simp, rfl⟩
    · exact ⟨p ++ r, t.ownName :: names', d', r', .member kind member hd', hne, by simp, by simp,
        rfl⟩

/-- The name of a declaration is the text of a single word. -/
private theorem Sound.exists_word {t : ParseTree} (h : t.Sound)
    (hkind : t.declaredKind?.isSome = true) :
    ∃ token ∈ t.tokens, token.kind = .word ∧ t.ownName = token.text := by
  obtain ⟨k, hk, hisKind⟩ := exists_isKind_of_declaredKind? hkind
  obtain ⟨name, hname⟩ := h.exists_name hk hisKind
  obtain ⟨i, hi, hrole, -⟩ := child?_eq_some_iff.1 hname
  have hat : t.at? [i] = some name := at?_cons.2 ⟨name, hi, at?_nil name⟩
  cases name with
  | leaf token => cases hrole
  | node k' r cs =>
    obtain ⟨-, token, hcs, hword⟩ := (sound_node.1 (h.of_at? hat)).1.name hrole
    obtain rfl : cs = [leaf token] := hcs
    refine ⟨token, tokens_subset_of_at? hat (by simp [tokens, tokensAll]), hword, ?_⟩
    rw [ownName, hname]
    simp [text, tokens, tokensAll]

/-- The calls of a method are listed at the places of the invocations. -/
private theorem listed_calls {before : List ParseTree} {t : ParseTree} {m : MethodDecl}
    (h : t.method? rows before = some m) :
    Listed (· < ·) (fun p call => ∃ c, t.InvocationAt p c ∧ c.callSite? = some call) m.calls := by
  obtain ⟨name, -, rfl⟩ := Option.map_eq_some_iff.1 h
  dsimp only
  cases hbody : t.child? .body with
  | none =>
    refine .nil fun p call => ?_
    rintro ⟨c, ⟨b, body, q, hrole, -⟩, -⟩
    rw [child?_eq_some_iff.2 ⟨b, hrole⟩] at hbody
    cases hbody
  | some body =>
    obtain ⟨b, hrole⟩ := child?_eq_some_iff.1 hbody
    refine ((body.listed_preorder.filterMap callSite?).under b).congr fun p call => ?_
    constructor
    · rintro ⟨q, rfl, c, ⟨hc, -⟩, hcall⟩
      exact ⟨c, ⟨b, body, q, hrole, hc, isKind_of_callSite? hcall, rfl⟩, hcall⟩
    · rintro ⟨c, ⟨b', body', q, hrole', hc, hkind, rfl⟩, hcall⟩
      obtain ⟨rfl, rfl⟩ := hrole.unique hrole'
      exact ⟨q, rfl, c, ⟨hc, isNode_of_isKind hkind⟩, hcall⟩

/-- The methods of a type are listed at the places of their declarations. -/
theorem listed_methods {x : List String × ParseTree} {type : TypeDecl}
    (h : type? rows x = some type) :
    Listed (· < ·) (fun p m => ∃ e, x.2.MethodAt p e ∧ e.2.method? rows e.1 = some m)
      type.methods := by
  obtain ⟨kind, -, rfl⟩ := Option.map_eq_some_iff.1 h
  exact (x.2.listed_memberTrees.filter _).filterMap _

end ParseTree

/-- A sound tree whose tokens are cut out of a source. -/
structure ParseTree.IsTreeOf (source : String) (root : ParseTree) : Prop where
  sound : root.Sound
  tokens : Token.OfSource source root.tokens

/-- Such are the trees of the sources that the grammar derives. -/
theorem ParseTree.isTreeOf_of_parseTree? {source : String} {root : ParseTree}
    (h : parseTree? source = some root) : root.IsTreeOf source := by
  obtain ⟨tokens, hscan, hparse⟩ := Option.bind_eq_some_iff.1 h
  refine ⟨Grammar.sound_of_parse? hparse, ?_⟩
  rw [Grammar.tokens_of_parse? hparse]
  exact Token.ofSource_of_scan? hscan

namespace CompilationUnit

open ParseTree

variable (rows : List String) {root : ParseTree}

private theorem types_ofTree (root : ParseTree) :
    (ofTree rows root).types = root.children.flatMap (typeDecls rows none) := by
  show (root.children.filter isNode).flatMap (typeDecls rows none) = _
  induction root.children with
  | nil => rfl
  | cons c cs ih =>
    cases c with
    | leaf token => simpa [isNode, kind?, typeDecls] using ih
    | node k r cs' =>
      have hnode : isNode (node k r cs') = true := rfl
      rw [List.filter_cons_of_pos hnode, List.flatMap_cons, List.flatMap_cons, ih]

theorem listing_types (h : root.Sound) :
    Listing (· < ·) root.TypePlace (type? rows) (ofTree rows root).types := by
  constructor
  · rw [types_ofTree]
    have hchildren : Listed (· < ·) _ (root.children.flatMap (typeDecls rows none)) :=
      .children fun c hc => listed_typeDecls rows none c (h.of_mem hc)
    refine hchildren.congr fun p type => ?_
    constructor
    · rintro ⟨i, c, q, hc, ⟨names, d, hd, htype⟩, rfl⟩
      exact ⟨(names, d), ⟨i, c, q, hc, hd, rfl⟩, htype⟩
    · rintro ⟨⟨names, d⟩, ⟨i, c, q, hc, hd, rfl⟩, htype⟩
      exact ⟨i, c, q, hc, ⟨names, d, hd, htype⟩, rfl⟩
  · intro p x hx
    rw [type?, Option.isSome_map]
    exact hx.isSome_declaredKind?

theorem listing_methods (h : root.Sound) :
    Listing (· ≠ ·) root.MethodPlace (fun e => e.2.method? rows e.1)
      ((ofTree rows root).types.flatMap (·.methods)) := by
  constructor
  · have hflat := ((listing_types rows h).mono fun p q => Place.ne_of_lt).flatMap_ne
      (f := (·.methods))
      (B := fun x p m => ∃ e, x.2.MethodAt p e ∧ e.2.method? rows e.1 = some m) ?_ ?_ ?_
    · refine hflat.congr fun s m => ?_
      constructor
      · rintro ⟨p, x, q, hx, ⟨e, he, hm⟩, rfl⟩
        exact ⟨e, ⟨p, x, q, hx, he, rfl⟩, hm⟩
      · rintro ⟨e, ⟨p, x, q, hx, he, rfl⟩, hm⟩
        exact ⟨p, x, q, hx, ⟨e, he, hm⟩, rfl⟩
    · intro p x x' hx hx' q m
      have hsame : x.2 = x'.2 := Option.some.inj (hx.at?.symm.trans hx'.at?)
      rw [hsame]
      exact id
    · exact fun x type htype => (listed_methods rows htype).mono fun p q => Place.ne_of_lt
    · rintro p x p' x' q m q' m' hx hx' ⟨e, he, -⟩ ⟨e', he', -⟩ heq
      exact (hx.eq_of_append hx' he he' (congrArg (· ++ []) heq)).1
  · intro p e he
    obtain ⟨name, hname⟩ := (h.of_at? he.at?).exists_name (by simp [namedKinds]) he.isKind
    rw [method?, hname]
    rfl

private theorem isSome_callSite? {t c : ParseTree} {p : Place} (h : t.Sound)
    (hc : t.InvocationAt p c) : c.callSite?.isSome = true := by
  have hsound := h.of_at? hc.at?
  obtain ⟨_, _, _, _, _, hkind, _⟩ := hc
  obtain ⟨name, hname⟩ := hsound.exists_name (by simp [namedKinds]) hkind
  rw [callSite?, if_pos hkind, hname]
  rfl

theorem listing_calls (h : root.Sound) :
    Listing (· ≠ ·) root.CallPlace callSite?
      ((ofTree rows root).types.flatMap fun type => type.methods.flatMap (·.calls)) := by
  constructor
  · rw [← List.flatMap_assoc]
    have hflat := (listing_methods rows h).flatMap_ne (f := (·.calls))
      (B := fun e p call => ∃ c, e.2.InvocationAt p c ∧ c.callSite? = some call) ?_ ?_ ?_
    · refine hflat.congr fun s call => ?_
      constructor
      · rintro ⟨p, e, q, he, ⟨c, hc, hcall⟩, rfl⟩
        exact ⟨c, ⟨p, e, q, he, hc, rfl⟩, hcall⟩
      · rintro ⟨c, ⟨p, e, q, he, hc, rfl⟩, hcall⟩
        exact ⟨p, e, q, he, ⟨c, hc, hcall⟩, rfl⟩
    · intro p e e' he he' q call
      rw [he.unique he']
      exact id
    · exact fun e m hm => (listed_calls rows hm).mono fun p q => Place.ne_of_lt
    · exact fun p e p' e' q _ q' _ he he' _ _ heq => he.eq_of_append he' heq
  · rintro p c ⟨q, e, q', he, hc, rfl⟩
    exact isSome_callSite? (h.of_at? he.at?) hc

variable {rows} in
private theorem name_of_type? {x : List String × ParseTree} {type : TypeDecl}
    (h : type? rows x = some type) : type.name = joinWith "." x.1 := by
  obtain ⟨kind, -, rfl⟩ := Option.map_eq_some_iff.1 h
  rfl

/-- One type is declared around another one. -/
def Encloses (root : ParseTree) (outer inner : TypeDecl) : Prop :=
  ∃ p x q y, root.TypePlace p x ∧ type? rows x = some outer ∧ root.TypePlace (p ++ q) y ∧
    type? rows y = some inner

/-- The type that is declared around a nested type comes before it. -/
theorem exists_enclosing_earlier (h : root.Sound)
    (hword : ∀ token ∈ root.tokens, token.kind = .word → '.' ∉ token.text.toList)
    {i : Nat} {type : TypeDecl} {outer : String} (hi : (ofTree rows root).types[i]? = some type)
    (houter : outerName? type.name = some outer) :
    ∃ j type', j < i ∧ (ofTree rows root).types[j]? = some type' ∧ type'.name = outer ∧
      Encloses rows root type' type := by
  have htypes := listing_types rows h
  obtain ⟨p, ⟨x, ⟨k, c, q, hc, hx, rfl⟩, htype⟩, hearlier⟩ := htypes.listed.exists_earlier hi
  have hplace : root.TypePlace (k :: q) x := ⟨k, c, q, hc, hx, rfl⟩
  have hname := name_of_type? htype
  -- the own name is a single word, so the last dot of the name stands in front of it
  have hdot : '.' ∉ x.2.ownName.toList := by
    obtain ⟨token, htoken, hkind, hown⟩ :=
      (h.of_at? hplace.at?).exists_word hplace.isSome_declaredKind?
    rw [hown]
    exact hword token (tokens_subset_of_at? hplace.at? htoken) hkind
  rw [hname] at houter
  rcases hx.exists_outer with hnames | ⟨q', names, d, r, hd, hr, rfl, hne, hnames⟩
  · -- a type directly in the unit has no outer name
    rw [hnames, joinWith, outerName?_of_not_mem hdot] at houter
    cases houter
  · have hplace' : root.TypePlace (k :: q') (names, d) := ⟨k, c, q', hc, hd, rfl⟩
    obtain ⟨type', htype'⟩ := Option.isSome_iff_exists.1 (htypes.total _ _ hplace')
    obtain ⟨a, r, rfl⟩ := List.exists_cons_of_ne_nil hr
    have hlt : k :: q' ++ [] < k :: q' ++ a :: r := List.append_left_lt (List.nil_lt_cons a r)
    rw [List.append_nil] at hlt
    obtain ⟨j, hj, hmem⟩ := hearlier _ type' ⟨_, hplace', htype'⟩ hlt
    refine ⟨j, type', hj, hmem, ?_, k :: q', _, a :: r, x, hplace', htype', hplace, htype⟩
    rw [hnames, joinWith_append_singleton hne, outerName?_of_dotted _ hdot] at houter
    rw [name_of_type? htype']
    exact Option.some.inj houter

private theorem exists_outer_earlier (h : root.Sound)
    (hword : ∀ token ∈ root.tokens, token.kind = .word → '.' ∉ token.text.toList)
    {i : Nat} {type : TypeDecl} {outer : String} (hi : (ofTree rows root).types[i]? = some type)
    (houter : outerName? type.name = some outer) :
    ∃ j type', j < i ∧ (ofTree rows root).types[j]? = some type' ∧ type'.name = outer := by
  obtain ⟨j, type', hj, hmem, hname, -⟩ := exists_enclosing_earlier rows h hword hi houter
  exact ⟨j, type', hj, hmem, hname⟩

/-- A compilation unit lists what a tree declares. -/
structure Enumerates (rows : List String) (root : ParseTree) (unit : CompilationUnit) : Prop where
  /-- The types that are reached through members, in pre-order. -/
  types : Listing (· < ·) root.TypePlace (type? rows) unit.types
  /-- A type is named by the names of the declarations that lead to it, with dots between them. -/
  names : ∀ p x type, root.TypePlace p x → type? rows x = some type →
    type.name = joinWith "." x.1
  /-- An outer type comes before the types nested in it. -/
  outer : ∀ (i : Nat) (type : TypeDecl) (name : String), unit.types[i]? = some type →
    outerName? type.name = some name →
      ∃ j type', j < i ∧ unit.types[j]? = some type' ∧ type'.name = name
  /-- The methods of the listed types, once each. -/
  methods : Listing (· ≠ ·) root.MethodPlace (fun e => e.2.method? rows e.1)
    (unit.types.flatMap (·.methods))
  /-- The invocations under the body of a method, in pre-order. -/
  calls : ∀ p e m, root.MethodPlace p e → e.2.method? rows e.1 = some m →
    Listing (· < ·) e.2.InvocationAt callSite? m.calls
  /-- The invocations under all methods, once each. -/
  allCalls : Listing (· ≠ ·) root.CallPlace callSite?
    (unit.types.flatMap fun type => type.methods.flatMap (·.calls))
  /-- No invocation stands under two methods. -/
  oneMethod : ∀ p e q c p' e' q' c', root.MethodPlace p e → e.2.InvocationAt q c →
    root.MethodPlace p' e' → e'.2.InvocationAt q' c' → p ++ q = p' ++ q' → p = p'

/-- The compilation unit of a sound tree lists what the tree declares, if no word holds a dot. -/
theorem enumerates_ofTree (rows : List String) (h : root.Sound)
    (hword : ∀ token ∈ root.tokens, token.kind = .word → '.' ∉ token.text.toList) :
    (ofTree rows root).Enumerates rows root where
  types := listing_types rows h
  names _ _ _ _ htype := name_of_type? htype
  outer _ _ _ hi hname := exists_outer_earlier rows h hword hi hname
  methods := listing_methods rows h
  calls _ _ _ he hm :=
    ⟨listed_calls rows hm, fun _ _ hc => isSome_callSite? (h.of_at? he.at?) hc⟩
  allCalls := listing_calls rows h
  oneMethod _ _ _ _ _ _ _ _ he _ he' _ heq := he.eq_of_append he' heq

/-- Every source text with a parse tree is read, and its compilation unit lists what the tree
declares: the types in pre-order with their nested names, the methods of these types once each, and
the calls under each method in pre-order. -/
theorem read?_enumerates {source : String} {root : ParseTree} (h : parseTree? source = some root) :
    ∃ unit, read? source = some unit ∧ unit.Enumerates (lines source) root := by
  have htree := isTreeOf_of_parseTree? h
  refine ⟨ofTree (lines source) root, by rw [read?, h]; rfl, ?_⟩
  exact enumerates_ofTree (lines source) htree.sound htree.tokens.word

/-- A class with an enum in it; a method of the enum passes the result of a call to another one. -/
def nestedSource : String :=
  "class A \x7b enum E \x7b X; void f() \x7b g(h()); \x7d \x7d void k() \x7b m(); \x7d \x7d"

set_option maxRecDepth 100000 in
theorem read?_enumerates_nested :
    ∃ root unit, parseTree? nestedSource = some root ∧ read? nestedSource = some unit ∧
      unit.Enumerates (lines nestedSource) root ∧ unit.types.map (·.name) = ["A", "A.E"] ∧
      (unit.types.flatMap (·.methods)).map (fun m => m.calls.map (·.name)) =
        [["m"], ["g", "h"]] := by
  have heval : (read? nestedSource).map (fun unit => (unit.types.map (·.name),
      (unit.types.flatMap (·.methods)).map fun m => m.calls.map (·.name))) =
        some (["A", "A.E"], [["m"], ["g", "h"]]) := by
    decide +kernel
  obtain ⟨unit, hread, hunit⟩ := Option.map_eq_some_iff.1 heval
  obtain ⟨root, hroot, -⟩ := Option.map_eq_some_iff.1 hread
  obtain ⟨unit', hread', hall⟩ := read?_enumerates hroot
  obtain rfl := Option.some.inj (hread.symm.trans hread')
  obtain ⟨hnames, hcalls⟩ := Prod.mk.inj hunit
  exact ⟨root, unit, hroot, hread, hall, hnames, hcalls⟩

end CompilationUnit

end CallPaths
