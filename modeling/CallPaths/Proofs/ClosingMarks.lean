import CallPaths.Proofs.TreePlaces

/-!
# How declarations end

The declaration of a type or of a method ends with a closing brace or a semicolon, and a body does
so too.  Both stand on one row and are no blanks, so the row on which a declaration ends is never
empty.

As for names, this is read off the rules by a check that is evaluated on the Java grammar
(`Grammar.endChecked_production`).  Comments belong to the token behind them, so no reading ends
with a comment, and the last of the trees that are read has the last token.

## Key results

- `Rule.Reads.endsClosed`: rules that close end with a closing mark
- `Rule.Reads.closed`: rules that pass the check build closed declarations and bodies
- `Grammar.closed_of_parse?`: the same, for the trees of sources
-/

namespace CallPaths

namespace ParseTree

/-- The marks that declarations end with. -/
def closingMarks : List String := ["\x7d", ";"]

/-- The last token is a closing mark. -/
def IsClosed (t : ParseTree) : Prop :=
  ∃ token, t.tokens.getLast? = some token ∧ token.text ∈ closingMarks

/-- The last one of some trees is closed, and it is no comment. -/
def EndsClosed (ts : List ParseTree) : Prop :=
  ∃ t, ts.getLast? = some t ∧ t.isComment = false ∧ t.IsClosed

/-- The kinds of nodes that end with a closing mark. -/
def closedKinds : List NodeKind :=
  [.classDeclaration, .interfaceDeclaration, .enumDeclaration, .recordDeclaration,
    .methodDeclaration]

/-- A node declares a type or a method, or it is a body. -/
def NeedsClosing (n : ParseTree) : Prop :=
  (∃ k ∈ closedKinds, n.isKind k = true) ∨ n.role? = some .body

/-- All declarations and bodies in a tree end with closing marks. -/
def Closed (t : ParseTree) : Prop :=
  ∀ n ∈ t.preorder, n.NeedsClosing → n.IsClosed

/-! ### Closed trees -/

private theorem closed_leaf (t : Token) : (leaf t).Closed := by
  intro n hn
  simp [preorder] at hn

private theorem closed_node {k : NodeKind} {r : Option Role} {cs : List ParseTree} :
    (node k r cs).Closed ↔
      ((node k r cs).NeedsClosing → (node k r cs).IsClosed) ∧ ∀ c ∈ cs, c.Closed :=
  forall_mem_preorder_node

private theorem closed_ofComment (t : Token) : (ofComment t).Closed := by
  refine closed_node.2 ⟨?_, by simpa using closed_leaf t⟩
  rintro (⟨k, hk, hkind⟩ | hrole)
  · obtain rfl : NodeKind.comment = k := by simpa [isKind, kind?] using hkind
    simp [closedKinds] at hk
  · cases hrole

private theorem withRole_node {k : NodeKind} (hk : k ≠ .comment) (r : Role) (old : Option Role)
    (cs : List ParseTree) : (node k old cs).withRole r = node k (some r) cs := by
  simp only [withRole]

/-- Only the role of a body asks for a closing mark. -/
private theorem closed_withRole {r : Role} {t : ParseTree} (h : t.Closed)
    (hr : r = .body → t.IsClosed) : (t.withRole r).Closed := by
  cases t with
  | leaf t => exact closed_leaf t
  | node k old cs =>
    by_cases hk : k = .comment
    · subst hk; exact h
    · obtain ⟨hroot, hcs⟩ := closed_node.1 h
      rw [withRole_node hk]
      refine closed_node.2 ⟨?_, hcs⟩
      rintro (hkind | hrole)
      · exact hroot (.inl hkind)
      · exact hr (Option.some.inj hrole)

private theorem isComment_withRole (r : Role) (t : ParseTree) :
    (t.withRole r).isComment = t.isComment := by
  cases t with
  | leaf t => rfl
  | node k old cs =>
    by_cases hk : k = .comment
    · subst hk; rfl
    · rw [withRole_node hk]; rfl

private theorem withRole_of_isComment {r : Role} {t : ParseTree} (h : t.isComment = true) :
    t.withRole r = t := by
  cases t with
  | leaf t => rfl
  | node k old cs =>
    obtain rfl : k = .comment := by simpa [isComment, isKind, kind?] using h
    rfl

namespace EndsClosed

variable {ts : List ParseTree}

theorem append_left (us : List ParseTree) (h : EndsClosed ts) : EndsClosed (us ++ ts) := by
  obtain ⟨t, ht, hcomment, hclosed⟩ := h
  exact ⟨t, by rw [List.getLast?_append, ht]; rfl, hcomment, hclosed⟩

private theorem map_withRole (r : Role) (h : EndsClosed ts) :
    EndsClosed (ts.map (·.withRole r)) := by
  obtain ⟨t, ht, hcomment, token, htoken, hmark⟩ := h
  refine ⟨t.withRole r, by rw [List.getLast?_map, ht]; rfl, ?_, token, ?_, hmark⟩
  · rw [isComment_withRole, hcomment]
  · rw [tokens_withRole, htoken]

/-- The last tree is no comment, so it goes into the node. -/
private theorem isClosed_node (k : NodeKind) (r : Option Role) (h : EndsClosed ts) :
    (node k r (ts.dropWhile isComment)).IsClosed := by
  obtain ⟨t, ht, hcomment, token, htoken, hmark⟩ := h
  obtain ⟨front, rfl⟩ := List.getLast?_eq_some_iff.1 ht
  refine ⟨token, ?_, hmark⟩
  -- only trees before the last one may stay outside
  have hdrop : ∃ front', (front ++ [t]).dropWhile isComment = front' ++ [t] := by
    rw [List.dropWhile_append]
    split
    · exact ⟨[], by simp [hcomment]⟩
    · exact ⟨_, rfl⟩
  obtain ⟨front', hfront'⟩ := hdrop
  simp [hfront', tokens, tokensAll_eq_flatMap, htoken]

theorem enclose {k : NodeKind} (hk : k ≠ .comment) (h : EndsClosed ts) :
    EndsClosed (enclose k ts) := by
  refine ⟨node k none (ts.dropWhile isComment), by simp [ParseTree.enclose], ?_,
    h.isClosed_node k none⟩
  simpa [isComment, isKind, kind?] using hk

end EndsClosed

private theorem closed_enclose {k : NodeKind} {items : List ParseTree}
    (hitems : ∀ t ∈ items, t.Closed)
    (hends : k ∈ closedKinds → EndsClosed items) : ∀ t ∈ enclose k items, t.Closed := by
  intro t ht
  rcases List.mem_append.1 ht with ht | ht
  · exact hitems t (List.takeWhile_subset _ ht)
  · obtain rfl := List.mem_singleton.1 ht
    refine closed_node.2 ⟨?_, fun c hc => hitems c (List.dropWhile_subset _ hc)⟩
    rintro (⟨k', hk', hkind⟩ | hrole)
    · obtain rfl : k = k' := by simpa [isKind, kind?] using hkind
      exact (hends hk').isClosed_node k none
    · cases hrole

theorem Closed.isClosed_of_at? {t n : ParseTree} {p : Place} (h : t.Closed) (hn : t.at? p = some n)
    (hneeds : n.NeedsClosing) : n.IsClosed := by
  have hnode : n.isNode = true := by
    cases n with
    | leaf token => rcases hneeds with ⟨k, -, hkind⟩ | hrole <;> contradiction
    | node k r cs => rfl
  obtain ⟨entries, -, hmem, hentries⟩ := t.listed_preorder
  apply h n _ hneeds
  rw [← hentries]
  exact List.mem_map_of_mem ((hmem p n).2 ⟨hn, hnode⟩)

end ParseTree

/-! ### What rules promise -/

namespace Rule

open ParseTree

variable {σ : Type} {production : σ → Rule σ}

/-- Whether every reading ends with a closing mark, if the readings of closing symbols do. -/
def closes (closing : σ → Bool) : Rule σ → Bool
  | fail => true
  | terminal (.mark s) => closingMarks.contains s
  | seq _ r | role _ r | branch _ r | only _ r => closes closing r
  | alt r s | guard _ r s => closes closing r && closes closing s
  | node k r | grow k _ _ r => k != .comment && closes closing r
  | call s => closing s
  | _ => false

/-- Whether a rule puts all that it reads under one node. -/
def makesNode : Rule σ → Bool
  | node _ _ => true
  | _ => false

/-- Whether a rule reads one node that ends with a closing mark. -/
def isBody (closing : σ → Bool) : Rule σ → Bool
  | call s => closing s
  | r => r.makesNode && closes closing r

/-- Whether the declarations and bodies that a rule makes itself end with closing marks. -/
def endChecked (closing : σ → Bool) : Rule σ → Bool
  | empty | fail | terminal _ | call _ => true
  | seq r s | alt r s | guard _ r s | branch r s => endChecked closing r && endChecked closing s
  | many r | only _ r => endChecked closing r
  | node k r => (!closedKinds.contains k || closes closing r) && endChecked closing r
  | role part r => (part != .body || isBody closing r) && endChecked closing r
  | grow k base _ r =>
    (!closedKinds.contains k || closes closing r) && base != some .body && endChecked closing r

variable {closing : σ → Bool}

/-- Rules that close end with a closing mark. -/
theorem Reads.endsClosed
    (hclosing : ∀ s, closing s = true → closes closing (production s) = true) {r : Rule σ}
    {before trees : List ParseTree} {tokens rest : List Token}
    (h : Reads production r before tokens trees rest) (hr : closes closing r = true) :
    EndsClosed trees := by
  induction h with
  | @terminal t comments token before rest hcomments htoken =>
    cases t with
    | mark s =>
      simp only [Terminal.accepts, Bool.and_eq_true, decide_eq_true_eq] at htoken
      simp only [closes, List.contains_iff_mem] at hr
      exact ⟨.leaf token, by simp, rfl, token, rfl, htoken.2 ▸ hr⟩
    | _ => cases hr
  | seq first second ih ih' => exact ih' hr
  | altLeft _ ih => exact ih ((Bool.and_eq_true _ _).mp hr).1
  | altRight _ ih => exact ih ((Bool.and_eq_true _ _).mp hr).2
  | node before inside ih =>
    simp only [closes, Bool.and_eq_true, bne_iff_ne] at hr
    exact ((ih hr.2).enclose hr.1).append_left before
  | @role part r trees tokens rest before inside ih =>
    exact ((ih hr).map_withRole part).append_left before
  | call _ ih => exact ih (hclosing _ hr)
  | guardYes _ ih => exact ih ((Bool.and_eq_true _ _).mp hr).1
  | guardNo _ ih => exact ih ((Bool.and_eq_true _ _).mp hr).2
  | branch before start further ih ih' => exact (ih' hr).append_left before
  | grow before inside ih =>
    simp only [closes, Bool.and_eq_true, bne_iff_ne] at hr
    exact ((ih hr.2).append_left _).enclose hr.1
  | only before inside ih => exact (ih hr).append_left before
  | _ => cases hr

/-- What is read under one node is this node, behind comments. -/
private theorem Reads.eq_of_makesNode {r : Rule σ} {trees : List ParseTree}
    {tokens rest : List Token}
    (h : Reads production r [] tokens trees rest) (hr : r.makesNode = true) :
    ∃ comments n, trees = comments ++ [n] ∧ ∀ c ∈ comments, c.isComment = true := by
  cases r with
  | node k r =>
    cases h with
    | node before inside => exact ⟨_, _, rfl, fun c hc => List.mem_takeWhile_imp hc⟩
  | _ => cases hr

/-- A body is a closed node, behind comments. -/
private theorem Reads.eq_of_isBody
    (hclosing : ∀ s, closing s = true → (production s).makesNode = true ∧
      closes closing (production s) = true) {r : Rule σ} {trees : List ParseTree}
    {tokens rest : List Token} (h : Reads production r [] tokens trees rest)
    (hr : isBody closing r = true) :
    ∃ comments n, trees = comments ++ [n] ∧ (∀ c ∈ comments, c.isComment = true) ∧
      n.IsClosed := by
  have hnode : ∀ {r : Rule σ}, Reads production r [] tokens trees rest → r.makesNode = true →
      closes closing r = true → ∃ comments n, trees = comments ++ [n] ∧
        (∀ c ∈ comments, c.isComment = true) ∧ n.IsClosed := by
    intro r h hmakes hcloses
    obtain ⟨comments, n, rfl, hcomments⟩ := h.eq_of_makesNode hmakes
    obtain ⟨t, ht, -, hclosed⟩ := h.endsClosed (fun s hs => (hclosing s hs).2) hcloses
    obtain rfl : n = t := by simpa using ht
    exact ⟨comments, n, rfl, hcomments, hclosed⟩
  cases r with
  | call s =>
    cases h with
    | call reading => exact hnode reading (hclosing s hr).1 (hclosing s hr).2
  | node k r => exact hnode h rfl hr
  | _ => cases hr

private theorem closed_withRole? {base : Option Role} {trees : List ParseTree}
    (hbase : base ≠ some .body)
    (h : ∀ t ∈ trees, t.Closed) : ∀ t ∈ withRole? base trees, t.Closed := by
  cases base with
  | none => exact h
  | some part =>
    intro t ht
    obtain ⟨u, hu, rfl⟩ := List.mem_map.1 ht
    exact closed_withRole (h u hu) fun hpart => absurd (congrArg some hpart) hbase

/-- Rules that pass the check add closed trees to closed trees. -/
theorem Reads.closed
    (hclosing : ∀ s, closing s = true → (production s).makesNode = true ∧
      closes closing (production s) = true)
    (hchecked : ∀ s, endChecked closing (production s) = true) {r : Rule σ}
    {before trees : List ParseTree} {tokens rest : List Token}
    (h : Reads production r before tokens trees rest) (hr : endChecked closing r = true)
    (hbefore : ∀ t ∈ before, t.Closed) : ∀ t ∈ trees, t.Closed := by
  have hnil : ∀ t ∈ ([] : List ParseTree), t.Closed := by simp
  have hcloses := fun s hs => (hclosing s hs).2
  induction h with
  | empty before tokens => exact hbefore
  | terminal before rest hcomments htoken =>
    intro t ht
    simp only [List.mem_append, List.mem_map, List.mem_singleton] at ht
    rcases ht with (ht | ⟨c, -, rfl⟩) | rfl
    · exact hbefore t ht
    · exact closed_ofComment c
    · exact closed_leaf _
  | seq first second ih ih' =>
    obtain ⟨hfirst, hsecond⟩ := (Bool.and_eq_true _ _).mp hr
    exact ih' hsecond (ih hfirst hbefore)
  | altLeft _ ih => exact ih ((Bool.and_eq_true _ _).mp hr).1 hbefore
  | altRight _ ih => exact ih ((Bool.and_eq_true _ _).mp hr).2 hbefore
  | manyEnd r before tokens => exact hbefore
  | manyMore first more ih ih' => exact ih' hr (ih hr hbefore)
  | @node k r trees tokens rest before inside ih =>
    obtain ⟨hends, hinside⟩ := (Bool.and_eq_true _ _).mp hr
    refine List.forall_mem_append.2 ⟨hbefore, closed_enclose (ih hinside hnil) fun hmem => ?_⟩
    exact inside.endsClosed hcloses (by simpa [hmem] using hends)
  | @role part r trees tokens rest before inside ih =>
    obtain ⟨hpart, hinside⟩ := (Bool.and_eq_true _ _).mp hr
    refine List.forall_mem_append.2 ⟨hbefore, ?_⟩
    intro t ht
    obtain ⟨u, hu, rfl⟩ := List.mem_map.1 ht
    have hclosed := ih hinside hnil u hu
    by_cases hbody : part = .body
    · -- all that a body may have beside the closed node is comments
      subst hbody
      obtain ⟨comments, n, rfl, hcomments, hn⟩ :=
        inside.eq_of_isBody hclosing (by simpa using hpart)
      rcases List.mem_append.1 hu with hu | hu
      · rwa [withRole_of_isComment (hcomments u hu)]
      · obtain rfl := List.mem_singleton.1 hu
        exact closed_withRole hclosed fun _ => hn
    · exact closed_withRole hclosed fun hpart => absurd hpart hbody
  | call _ ih => exact ih (hchecked _) hbefore
  | guardYes _ ih => exact ih ((Bool.and_eq_true _ _).mp hr).1 hbefore
  | guardNo _ ih => exact ih ((Bool.and_eq_true _ _).mp hr).2 hbefore
  | branch before start further ih ih' =>
    obtain ⟨hstart, hfurther⟩ := (Bool.and_eq_true _ _).mp hr
    exact List.forall_mem_append.2 ⟨hbefore, ih' hfurther (ih hstart hnil)⟩
  | @grow k base bases r trees tokens rest before inside ih =>
    simp only [endChecked, Bool.and_eq_true, bne_iff_ne] at hr
    obtain ⟨⟨hends, hbase⟩, hinside⟩ := hr
    refine closed_enclose ?_ fun hmem => ?_
    · exact List.forall_mem_append.2 ⟨closed_withRole? hbase hbefore, ih hinside hnil⟩
    · exact (inside.endsClosed hcloses (by simpa [hmem] using hends)).append_left _
  | only before inside ih => exact List.forall_mem_append.2 ⟨hbefore, ih hr hnil⟩

end Rule

/-! ### The Java grammar -/

namespace Grammar

open Rule

/-- The symbols of bodies. -/
def isClosing (s : Symbol) : Bool :=
  [Symbol.block, .classBody, .interfaceBody, .annotationTypeBody].contains s

private theorem closes_production (s : Symbol) (h : isClosing s = true) :
    (production s).makesNode = true ∧ closes isClosing (production s) = true := by
  simp only [isClosing, List.contains_iff_mem, List.mem_cons, List.not_mem_nil, or_false] at h
  rcases h with rfl | rfl | rfl | rfl <;> decide

private theorem endChecked_binaryOperator (level : Nat) :
    endChecked isClosing (binaryOperator level) = true := by
  unfold binaryOperator
  split <;> decide

/-- All rules of the grammar pass the check. -/
theorem endChecked_production (s : Symbol) : endChecked isClosing (production s) = true := by
  cases s with
  | operation inLabel level =>
    -- there is a rule for every level, and they differ in their operators only
    simp only [production, operation]
    split
    · next hlevel =>
      subst hlevel
      cases inLabel <;> decide
    · split
      · simp [binaryTail, extend, all, endChecked, endChecked_binaryOperator,
          ParseTree.closedKinds]
      · rfl
  | expression inLabel => cases inLabel <;> decide
  | operand inLabel => cases inLabel <;> decide
  | prefixed inLabel => cases inLabel <;> decide
  | _ => decide

/-- The declarations and bodies of a parse tree are closed. -/
theorem closed_of_parse? {tokens : List Token} {root : ParseTree} (h : parse? tokens = some root) :
    root.Closed := by
  obtain ⟨trees, rfl, hreads⟩ := reads_of_parse? h
  have htrees := hreads.closed closes_production endChecked_production (by decide) (by simp)
  refine ParseTree.closed_node.2 ⟨?_, htrees⟩
  rintro (⟨k, hk, hkind⟩ | hrole)
  · obtain rfl : NodeKind.compilationUnit = k := by
      simpa [ParseTree.isKind, ParseTree.kind?] using hkind
    simp [ParseTree.closedKinds] at hk
  · cases hrole

end Grammar

end CallPaths
