import CallPaths.Grammar.Declarations
import CallPaths.Proofs.Lists

/-!
# Trees that a grammar builds

`Rule.read` is an interpreter with a bound on its depth, and it looks ahead to choose between rules.
For what its trees look like neither matters.  `Rule.Reads` says what a reading can do, one case for
each form of a rule, and every successful run of the interpreter is such a reading
(`reads_of_read`).  What all trees of a grammar have in common is then proved by induction over
readings.

Two things are proved here.  The tokens of the trees are the tokens that were read, in their order.
And the nodes are as the rules say: a comment is a single comment token, a name is a single word,
and the declarations of types and methods and the invocations of methods have names.  The last point
is read off the rules by a check that is evaluated on the Java grammar (`checked_production`).

## Key results

- `Rule.Reads.tokens`: no token is lost or made up
- `Rule.Reads.sound`: rules that pass the check build sound nodes
- `Grammar.tokens_of_parse?`, `Grammar.sound_of_parse?`: both, for the trees of sources
-/

namespace CallPaths

namespace ParseTree

/-! ### Nodes of trees -/

theorem preorderAll_eq_flatMap (ts : List ParseTree) : preorderAll ts = ts.flatMap preorder := by
  induction ts with
  | nil => rfl
  | cons t ts ih => rw [preorderAll, ih, List.flatMap_cons]

theorem tokensAll_eq_flatMap (ts : List ParseTree) : tokensAll ts = ts.flatMap tokens := by
  induction ts with
  | nil => rfl
  | cons t ts ih => rw [tokensAll, ih, List.flatMap_cons]

private theorem mem_preorder_node {n : ParseTree} {k : NodeKind} {r : Option Role}
    {cs : List ParseTree} :
    n ∈ (node k r cs).preorder ↔ n = node k r cs ∨ ∃ c ∈ cs, n ∈ c.preorder := by
  rw [preorder, preorderAll_eq_flatMap, List.mem_cons, List.mem_flatMap]

/-- What holds of all nodes of a tree. -/
theorem forall_mem_preorder_node {P : ParseTree → Prop} {k : NodeKind} {r : Option Role}
    {cs : List ParseTree} :
    (∀ n ∈ (node k r cs).preorder, P n) ↔
      P (node k r cs) ∧ ∀ c ∈ cs, ∀ n ∈ c.preorder, P n := by
  simp only [mem_preorder_node]
  constructor
  · intro h
    exact ⟨h _ (.inl rfl), fun c hc n hn => h n (.inr ⟨c, hc, hn⟩)⟩
  · rintro ⟨hroot, hcs⟩ n (rfl | ⟨c, hc, hn⟩)
    · exact hroot
    · exact hcs c hc n hn

theorem tokens_withRole (r : Role) (t : ParseTree) : (t.withRole r).tokens = t.tokens := by
  cases t with
  | leaf t => rfl
  | node k old cs =>
    by_cases hk : k = .comment
    · subst hk; rfl
    · simp only [withRole, tokens]

private theorem tokensAll_enclose (k : NodeKind) (items : List ParseTree) :
    tokensAll (enclose k items) = tokensAll items := by
  simp only [enclose, tokensAll_eq_flatMap, List.flatMap_append, List.flatMap_cons, tokens,
    List.flatMap_nil, List.append_nil]
  rw [← List.flatMap_append, List.takeWhile_append_dropWhile]

private theorem tokensAll_comments (comments : List Token) :
    tokensAll (comments.map ofComment) = comments := by
  induction comments with
  | nil => rfl
  | cons c cs ih => rw [List.map_cons, tokensAll, ih]; rfl

/-- The kinds of nodes that always have a name. -/
def namedKinds : List NodeKind :=
  [.classDeclaration, .interfaceDeclaration, .enumDeclaration, .recordDeclaration,
    .methodDeclaration, .methodInvocation]

/-- A node is as the grammar makes it, as far as its own children tell. -/
structure IsSound (n : ParseTree) : Prop where
  comment : n.isComment = true → ∃ t : Token, n.children = [leaf t] ∧ t.isComment = true
  name : n.role? = some .name →
    n.isKind .identifier = true ∧ ∃ t : Token, n.children = [leaf t] ∧ t.kind = .word
  named : ∀ k ∈ namedKinds, n.isKind k = true → ∃ c ∈ n.children, c.role? = some .name

/-- All nodes of a tree are as the grammar makes them. -/
def Sound (t : ParseTree) : Prop :=
  ∀ n ∈ t.preorder, n.IsSound

private theorem sound_leaf (t : Token) : (leaf t).Sound := by
  intro n hn
  simp [preorder] at hn

theorem sound_node {k : NodeKind} {r : Option Role} {cs : List ParseTree} :
    (node k r cs).Sound ↔ (node k r cs).IsSound ∧ ∀ c ∈ cs, c.Sound :=
  forall_mem_preorder_node

private theorem sound_ofComment {t : Token} (h : t.isComment = true) : (ofComment t).Sound := by
  refine sound_node.2 ⟨⟨fun _ => ⟨t, rfl, h⟩, fun hname => ?_, fun k hk hkind => ?_⟩, ?_⟩
  · cases hname
  · -- no comment is of a kind that has a name
    obtain rfl : NodeKind.comment = k := by simpa [isKind, kind?, ofComment] using hkind
    simp [namedKinds] at hk
  · simpa using sound_leaf t

/-- A node without a role is sound if it is no comment and has a name where it needs one. -/
private theorem isSound_node {k : NodeKind} {cs : List ParseTree} (hk : k ≠ .comment)
    (hnamed : k ∈ namedKinds → ∃ c ∈ cs, c.role? = some .name) : (node k none cs).IsSound := by
  refine ⟨fun h => ?_, fun h => ?_, fun k' hk' h => ?_⟩
  · exact absurd (by simpa [isComment, isKind, kind?] using h) hk
  · cases h
  · obtain rfl : k = k' := by simpa [isKind, kind?] using h
    exact hnamed hk'

private theorem sound_withRole {r : Role} {t : ParseTree} (h : t.Sound) (hr : r ≠ .name) :
    (t.withRole r).Sound := by
  cases t with
  | leaf t => exact sound_leaf t
  | node k old cs =>
    by_cases hk : k = .comment
    · subst hk; exact h
    · obtain ⟨hroot, hcs⟩ := sound_node.1 h
      have heq : (node k old cs).withRole r = node k (some r) cs := by simp only [withRole]
      rw [heq]
      refine sound_node.2 ⟨⟨fun hcomment => ?_, fun hname => ?_, hroot.named⟩, hcs⟩
      · exact absurd (by simpa [isComment, isKind, kind?] using hcomment) hk
      · exact absurd (Option.some.inj hname) hr

private theorem not_isComment_of_role {t : ParseTree} (h : t.IsSound)
    (hname : t.role? = some .name) : t.isComment = false := by
  obtain ⟨hkind, -⟩ := h.name hname
  cases t with
  | leaf t => rfl
  | node k r cs =>
    obtain rfl : k = .identifier := by simpa [isKind, kind?] using hkind
    rfl

private theorem isSound_of_role {t : ParseTree} (h : t.Sound) (hname : t.role? = some .name) :
    t.IsSound := by
  cases t with
  | leaf t => cases hname
  | node k r cs => exact (sound_node.1 h).1

private theorem sound_enclose {k : NodeKind} {items : List ParseTree} (hk : k ≠ .comment)
    (hitems : ∀ t ∈ items, t.Sound)
    (hnamed : k ∈ namedKinds → ∃ t ∈ items, t.role? = some .name) :
    ∀ t ∈ enclose k items, t.Sound := by
  intro t ht
  rcases List.mem_append.1 ht with ht | ht
  · exact hitems t (List.takeWhile_subset _ ht)
  · obtain rfl := List.mem_singleton.1 ht
    refine sound_node.2 ⟨isSound_node hk fun hmem => ?_,
      fun c hc => hitems c (List.dropWhile_subset _ hc)⟩
    -- the name is no comment, so it does not stay outside of the node
    obtain ⟨c, hc, hname⟩ := hnamed hmem
    have hnot := not_isComment_of_role (isSound_of_role (hitems c hc) hname) hname
    exact ⟨c, mem_dropWhile_of_not hc hnot, hname⟩

end ParseTree

/-! ### Readings -/

namespace Rule

open ParseTree

variable {σ : Type} {production : σ → Rule σ}

/-- What a reading by a rule can do: from the trees that are there and the tokens that are ahead to
the trees after it and the tokens that are left.  Conditions on what is ahead are left out. -/
inductive Reads (production : σ → Rule σ) :
    Rule σ → List ParseTree → List Token → List ParseTree → List Token → Prop
  | empty (before : List ParseTree) (tokens : List Token) :
      Reads production .empty before tokens before tokens
  | terminal {t : Terminal} {comments : List Token} {token : Token} (before : List ParseTree)
      (rest : List Token) (hcomments : ∀ c ∈ comments, c.isComment = true)
      (htoken : t.accepts token = true) :
      Reads production (.terminal t) before (comments ++ token :: rest)
        (before ++ comments.map ofComment ++ [.leaf token]) rest
  | seq {r s : Rule σ} {before trees trees' : List ParseTree} {tokens rest rest' : List Token}
      (first : Reads production r before tokens trees rest)
      (second : Reads production s trees rest trees' rest') :
      Reads production (.seq r s) before tokens trees' rest'
  | altLeft {r s : Rule σ} {before trees : List ParseTree} {tokens rest : List Token}
      (reading : Reads production r before tokens trees rest) :
      Reads production (.alt r s) before tokens trees rest
  | altRight {r s : Rule σ} {before trees : List ParseTree} {tokens rest : List Token}
      (reading : Reads production s before tokens trees rest) :
      Reads production (.alt r s) before tokens trees rest
  | manyEnd (r : Rule σ) (before : List ParseTree) (tokens : List Token) :
      Reads production (.many r) before tokens before tokens
  | manyMore {r : Rule σ} {before trees trees' : List ParseTree} {tokens rest rest' : List Token}
      (first : Reads production r before tokens trees rest)
      (more : Reads production (.many r) trees rest trees' rest') :
      Reads production (.many r) before tokens trees' rest'
  | node {k : NodeKind} {r : Rule σ} {trees : List ParseTree} {tokens rest : List Token}
      (before : List ParseTree) (inside : Reads production r [] tokens trees rest) :
      Reads production (.node k r) before tokens (before ++ enclose k trees) rest
  | role {part : Role} {r : Rule σ} {trees : List ParseTree} {tokens rest : List Token}
      (before : List ParseTree) (inside : Reads production r [] tokens trees rest) :
      Reads production (.role part r) before tokens (before ++ trees.map (·.withRole part)) rest
  | call {s : σ} {before trees : List ParseTree} {tokens rest : List Token}
      (reading : Reads production (production s) before tokens trees rest) :
      Reads production (.call s) before tokens trees rest
  | guardYes {condition yes no : Rule σ} {before trees : List ParseTree}
      {tokens rest : List Token} (reading : Reads production yes before tokens trees rest) :
      Reads production (.guard condition yes no) before tokens trees rest
  | guardNo {condition yes no : Rule σ} {before trees : List ParseTree} {tokens rest : List Token}
      (reading : Reads production no before tokens trees rest) :
      Reads production (.guard condition yes no) before tokens trees rest
  | branch {base tail : Rule σ} {trees trees' : List ParseTree} {tokens rest rest' : List Token}
      (before : List ParseTree) (start : Reads production base [] tokens trees rest)
      (further : Reads production tail trees rest trees' rest') :
      Reads production (.branch base tail) before tokens (before ++ trees') rest'
  | grow {k : NodeKind} {base : Option Role} {bases : List NodeKind} {r : Rule σ}
      {trees : List ParseTree} {tokens rest : List Token} (before : List ParseTree)
      (inside : Reads production r [] tokens trees rest) :
      Reads production (.grow k base bases r) before tokens
        (enclose k (withRole? base before ++ trees)) rest
  | only {kinds : List NodeKind} {r : Rule σ} {trees : List ParseTree} {tokens rest : List Token}
      (before : List ParseTree) (inside : Reads production r [] tokens trees rest) :
      Reads production (.only kinds r) before tokens (before ++ trees) rest

/-- Every successful run of the interpreter is a reading. -/
theorem reads_of_read {n : Nat} {r : Rule σ} {before trees : List ParseTree}
    {tokens rest : List Token} (h : read production n r before tokens = some (trees, rest)) :
    Reads production r before tokens trees rest := by
  induction n generalizing r before trees tokens rest with
  | zero => cases h
  | succ n ih =>
    cases r with
    | empty =>
      cases h
      exact .empty _ _
    | fail => cases h
    | terminal t =>
      simp only [read] at h
      split at h
      · next token rest' hdrop =>
        split at h
        · next haccepts =>
          cases h
          have hcomments : ∀ c ∈ tokens.takeWhile Token.isComment, c.isComment = true :=
            fun c hc => List.mem_takeWhile_imp hc
          have hreading : Reads production (.terminal t) before _ _ rest :=
            .terminal before rest hcomments haccepts
          rwa [← hdrop, List.takeWhile_append_dropWhile] at hreading
        · cases h
      · cases h
    | seq r s =>
      simp only [read] at h
      split at h
      · next first => exact .seq (ih first) (ih h)
      · cases h
    | alt r s =>
      simp only [read] at h
      split at h
      · next first =>
        cases h
        exact .altLeft (ih first)
      · exact .altRight (ih h)
    | many r =>
      simp only [read] at h
      split at h
      · next first => exact .manyMore (ih first) (ih h)
      · cases h
        exact .manyEnd _ _ _
    | node k r =>
      simp only [read] at h
      split at h
      · next inside =>
        cases h
        exact .node _ (ih inside)
      · cases h
    | role part r =>
      simp only [read] at h
      split at h
      · next inside =>
        cases h
        exact .role _ (ih inside)
      · cases h
    | call s => exact .call (ih h)
    | guard condition yes no =>
      simp only [read] at h
      split at h
      · exact .guardYes (ih h)
      · exact .guardNo (ih h)
    | branch base tail =>
      simp only [read] at h
      split at h
      · next start =>
        split at h
        · next further =>
          cases h
          exact .branch _ (ih start) (ih further)
        · cases h
      · cases h
    | grow k base bases r =>
      simp only [read] at h
      split at h
      · split at h
        · next inside =>
          cases h
          exact .grow _ (ih inside)
        · cases h
      · cases h
    | only kinds r =>
      simp only [read] at h
      split at h
      · next inside =>
        split at h
        · cases h
          exact .only _ (ih inside)
        · cases h
      · cases h

private theorem tokensAll_append (ts us : List ParseTree) :
    tokensAll (ts ++ us) = tokensAll ts ++ tokensAll us := by
  simp [tokensAll_eq_flatMap]

private theorem tokensAll_withRole? (r : Option Role) (trees : List ParseTree) :
    tokensAll (withRole? r trees) = tokensAll trees := by
  cases r with
  | none => rfl
  | some r => simp [withRole?, tokensAll_eq_flatMap, List.flatMap_map, tokens_withRole]

/-- The tokens that a reading takes become the tokens of the trees that it adds. -/
theorem Reads.tokens {r : Rule σ} {before trees : List ParseTree} {tokens rest : List Token}
    (h : Reads production r before tokens trees rest) :
    ∃ taken, tokens = taken ++ rest ∧ tokensAll trees = tokensAll before ++ taken := by
  induction h with
  | empty before tokens => exact ⟨[], by simp, by simp⟩
  | @terminal t comments token before rest hcomments htoken =>
    refine ⟨comments ++ [token], by simp, ?_⟩
    simp only [tokensAll_append, tokensAll_comments, List.append_assoc]
    rfl
  | seq first second ih ih' =>
    obtain ⟨taken, rfl, htrees⟩ := ih
    obtain ⟨taken', rfl, htrees'⟩ := ih'
    exact ⟨taken ++ taken', by simp, by rw [htrees', htrees, List.append_assoc]⟩
  | altLeft _ ih => exact ih
  | altRight _ ih => exact ih
  | manyEnd r before tokens => exact ⟨[], by simp, by simp⟩
  | manyMore first more ih ih' =>
    obtain ⟨taken, rfl, htrees⟩ := ih
    obtain ⟨taken', rfl, htrees'⟩ := ih'
    exact ⟨taken ++ taken', by simp, by rw [htrees', htrees, List.append_assoc]⟩
  | node before inside ih =>
    obtain ⟨taken, htokens, htrees⟩ := ih
    exact ⟨taken, htokens, by rw [tokensAll_append, tokensAll_enclose, htrees]; rfl⟩
  | role before inside ih =>
    obtain ⟨taken, htokens, htrees⟩ := ih
    refine ⟨taken, htokens, ?_⟩
    rw [tokensAll_append, ← withRole?, tokensAll_withRole?, htrees]
    rfl
  | call _ ih => exact ih
  | guardYes _ ih => exact ih
  | guardNo _ ih => exact ih
  | branch before start further ih ih' =>
    obtain ⟨taken, rfl, htrees⟩ := ih
    obtain ⟨taken', rfl, htrees'⟩ := ih'
    refine ⟨taken ++ taken', by simp, ?_⟩
    rw [tokensAll_append, htrees', htrees]
    rfl
  | grow before inside ih =>
    obtain ⟨taken, htokens, htrees⟩ := ih
    refine ⟨taken, htokens, ?_⟩
    rw [tokensAll_enclose, tokensAll_append, tokensAll_withRole?, htrees]
    rfl
  | only before inside ih =>
    obtain ⟨taken, htokens, htrees⟩ := ih
    exact ⟨taken, htokens, by rw [tokensAll_append, htrees]; rfl⟩

/-! ### What rules promise -/

/-- Whether a reading leaves the trees that are there as they are, if the readings of safe symbols
do. -/
def keeps (safe : σ → Bool) : Rule σ → Bool
  | grow _ _ _ _ => false
  | seq r s | alt r s | guard _ r s => keeps safe r && keeps safe s
  | many r => keeps safe r
  | call s => safe s
  | _ => true

/-- Whether a rule reads a name and nothing else. -/
def isName : Rule σ → Bool
  | node .identifier (terminal (.name _)) => true
  | _ => false

/-- Whether every reading adds a name. -/
def givesName (safe : σ → Bool) : Rule σ → Bool
  | role .name r => r.isName
  | seq r s => givesName safe s || (givesName safe r && keeps safe s)
  | alt r s | guard _ r s => givesName safe r && givesName safe s
  | _ => false

/-- Whether a rule under a node of a kind gives the node a name if it needs one. -/
def namesNode (safe : σ → Bool) (k : NodeKind) (r : Rule σ) : Bool :=
  !namedKinds.contains k || givesName safe r

/-- Whether the nodes that a rule makes itself are sound. -/
def checked (safe : σ → Bool) : Rule σ → Bool
  | empty | fail | terminal _ | call _ => true
  | seq r s | alt r s | guard _ r s | branch r s => checked safe r && checked safe s
  | many r | only _ r => checked safe r
  | node k r => k != .comment && namesNode safe k r && checked safe r
  | role part r => (part != .name || r.isName) && checked safe r
  | grow k base _ r =>
    k != .comment && base != some .name && namesNode safe k r && checked safe r

variable {safe : σ → Bool}

private theorem Reads.exists_append_of_keeps
    (hsafe : ∀ s, safe s = true → keeps safe (production s) = true)
    {r : Rule σ} {before trees : List ParseTree} {tokens rest : List Token}
    (h : Reads production r before tokens trees rest) (hr : keeps safe r = true) :
    ∃ more, trees = before ++ more := by
  induction h with
  | empty before tokens => exact ⟨[], by simp⟩
  | terminal before rest hcomments htoken => exact ⟨_, List.append_assoc _ _ _⟩
  | seq first second ih ih' =>
    obtain ⟨hfirst, hsecond⟩ := (Bool.and_eq_true _ _).mp hr
    obtain ⟨added, rfl⟩ := ih hfirst
    obtain ⟨added', rfl⟩ := ih' hsecond
    exact ⟨added ++ added', List.append_assoc _ _ _⟩
  | altLeft _ ih => exact ih ((Bool.and_eq_true _ _).mp hr).1
  | altRight _ ih => exact ih ((Bool.and_eq_true _ _).mp hr).2
  | manyEnd r before tokens => exact ⟨[], by simp⟩
  | manyMore first more ih ih' =>
    obtain ⟨added, rfl⟩ := ih hr
    obtain ⟨added', rfl⟩ := ih' hr
    exact ⟨added ++ added', List.append_assoc _ _ _⟩
  | node before inside ih => exact ⟨_, rfl⟩
  | role before inside ih => exact ⟨_, rfl⟩
  | call _ ih => exact ih (hsafe _ hr)
  | guardYes _ ih => exact ih ((Bool.and_eq_true _ _).mp hr).1
  | guardNo _ ih => exact ih ((Bool.and_eq_true _ _).mp hr).2
  | branch before start further ih ih' => exact ⟨_, rfl⟩
  | grow before inside ih => cases hr
  | only before inside ih => exact ⟨_, rfl⟩

/-- A rule for a name reads comments and then a single word. -/
private theorem Reads.eq_of_isName {r : Rule σ} {trees : List ParseTree} {tokens rest : List Token}
    (h : Reads production r [] tokens trees rest) (hr : r.isName = true) :
    ∃ (comments : List Token) (token : Token), (∀ c ∈ comments, c.isComment = true) ∧
      token.kind = .word ∧
      trees = comments.map ofComment ++ [ParseTree.node .identifier none [.leaf token]] := by
  unfold isName at hr
  split at hr
  · next reserved =>
    cases h with
    | node before inside =>
      cases inside with
      | @terminal t comments token before rest hcomments htoken =>
        refine ⟨comments, token, hcomments, ?_, ?_⟩
        · simp only [Terminal.accepts, Bool.and_eq_true, decide_eq_true_eq] at htoken
          exact htoken.1
        · -- the comments before the word stay outside of the node
          have htake : (comments.map ofComment ++ [leaf token]).takeWhile isComment =
              comments.map ofComment := by
            rw [List.takeWhile_append_of_pos (by simp [ofComment, isComment, isKind, kind?])]
            simp [isComment, isKind, kind?]
          have hdrop : (comments.map ofComment ++ [leaf token]).dropWhile isComment =
              [leaf token] := by
            rw [List.dropWhile_append_of_pos (by simp [ofComment, isComment, isKind, kind?])]
            simp [isComment, isKind, kind?]
          simp [enclose, htake, hdrop]
  · cases hr

theorem Reads.exists_name (hsafe : ∀ s, safe s = true → keeps safe (production s) = true)
    {r : Rule σ} {before trees : List ParseTree} {tokens rest : List Token}
    (h : Reads production r before tokens trees rest) (hr : givesName safe r = true) :
    ∃ t ∈ trees, t.role? = some .name := by
  induction h with
  | seq first second ih ih' =>
    rcases (Bool.or_eq_true _ _).mp hr with hsecond | hboth
    · exact ih' hsecond
    · -- what the first rule adds is still there after the second one
      obtain ⟨hfirst, hkeeps⟩ := (Bool.and_eq_true _ _).mp hboth
      obtain ⟨t, ht, hname⟩ := ih hfirst
      obtain ⟨added, rfl⟩ := second.exists_append_of_keeps hsafe hkeeps
      exact ⟨t, List.mem_append_left _ ht, hname⟩
  | altLeft _ ih => exact ih ((Bool.and_eq_true _ _).mp hr).1
  | altRight _ ih => exact ih ((Bool.and_eq_true _ _).mp hr).2
  | guardYes _ ih => exact ih ((Bool.and_eq_true _ _).mp hr).1
  | guardNo _ ih => exact ih ((Bool.and_eq_true _ _).mp hr).2
  | @role part r trees tokens rest before inside ih =>
    cases part with
    | name =>
      obtain ⟨comments, token, -, -, rfl⟩ := inside.eq_of_isName hr
      refine ⟨ParseTree.node .identifier (some .name) [.leaf token], ?_, rfl⟩
      simp [withRole]
    | _ => cases hr
  | _ => cases hr

private theorem sound_withRole? {base : Option Role} {trees : List ParseTree}
    (hbase : base ≠ some .name)
    (h : ∀ t ∈ trees, t.Sound) : ∀ t ∈ withRole? base trees, t.Sound := by
  cases base with
  | none => exact h
  | some part =>
    intro t ht
    obtain ⟨u, hu, rfl⟩ := List.mem_map.1 ht
    exact sound_withRole (h u hu) fun hpart => hbase (congrArg some hpart)

/-- A name in its role is sound. -/
private theorem sound_name {token : Token} (h : token.kind = .word) :
    (ParseTree.node .identifier (some .name) [.leaf token]).Sound := by
  refine sound_node.2
    ⟨⟨fun hcomment => ?_, fun _ => ⟨rfl, token, rfl, h⟩, fun k hk hkind => ?_⟩, ?_⟩
  · cases hcomment
  · obtain rfl : NodeKind.identifier = k := by simpa [isKind, kind?] using hkind
    simp [namedKinds] at hk
  · simpa using sound_leaf token

/-- Rules that pass the check add sound trees to sound trees. -/
theorem Reads.sound (hsafe : ∀ s, safe s = true → keeps safe (production s) = true)
    (hchecked : ∀ s, checked safe (production s) = true) {r : Rule σ}
    {before trees : List ParseTree} {tokens rest : List Token}
    (h : Reads production r before tokens trees rest) (hr : checked safe r = true)
    (hbefore : ∀ t ∈ before, t.Sound) : ∀ t ∈ trees, t.Sound := by
  have hnil : ∀ t ∈ ([] : List ParseTree), t.Sound := by simp
  induction h with
  | empty before tokens => exact hbefore
  | terminal before rest hcomments htoken =>
    intro t ht
    simp only [List.mem_append, List.mem_map, List.mem_singleton] at ht
    rcases ht with (ht | ⟨c, hc, rfl⟩) | rfl
    · exact hbefore t ht
    · exact sound_ofComment (hcomments c hc)
    · exact sound_leaf _
  | seq first second ih ih' =>
    obtain ⟨hfirst, hsecond⟩ := (Bool.and_eq_true _ _).mp hr
    exact ih' hsecond (ih hfirst hbefore)
  | altLeft _ ih => exact ih ((Bool.and_eq_true _ _).mp hr).1 hbefore
  | altRight _ ih => exact ih ((Bool.and_eq_true _ _).mp hr).2 hbefore
  | manyEnd r before tokens => exact hbefore
  | manyMore first more ih ih' => exact ih' hr (ih hr hbefore)
  | @node k r trees tokens rest before inside ih =>
    simp only [checked, Bool.and_eq_true, bne_iff_ne] at hr
    obtain ⟨⟨hk, hnames⟩, hinside⟩ := hr
    refine List.forall_mem_append.2 ⟨hbefore, sound_enclose hk (ih hinside hnil) fun hmem => ?_⟩
    have hgives : givesName safe r = true := by simpa [namesNode, hmem] using hnames
    exact inside.exists_name hsafe hgives
  | @role part r trees tokens rest before inside ih =>
    simp only [checked, Bool.and_eq_true, Bool.or_eq_true, bne_iff_ne] at hr
    obtain ⟨hpart, hinside⟩ := hr
    refine List.forall_mem_append.2 ⟨hbefore, ?_⟩
    intro t ht
    obtain ⟨u, hu, rfl⟩ := List.mem_map.1 ht
    by_cases hname : part = .name
    · -- only a rule for a name gives this role
      subst hname
      obtain ⟨comments, token, hcomments, hword, rfl⟩ :=
        inside.eq_of_isName (hpart.resolve_left (by simp))
      rcases List.mem_append.1 hu with hu | hu
      · obtain ⟨c, hc, rfl⟩ := List.mem_map.1 hu
        exact sound_ofComment (hcomments c hc)
      · obtain rfl := List.mem_singleton.1 hu
        exact sound_name hword
    · exact sound_withRole (ih hinside hnil u hu) hname
  | call _ ih => exact ih (hchecked _) hbefore
  | guardYes _ ih => exact ih ((Bool.and_eq_true _ _).mp hr).1 hbefore
  | guardNo _ ih => exact ih ((Bool.and_eq_true _ _).mp hr).2 hbefore
  | branch before start further ih ih' =>
    obtain ⟨hstart, hfurther⟩ := (Bool.and_eq_true _ _).mp hr
    exact List.forall_mem_append.2 ⟨hbefore, ih' hfurther (ih hstart hnil)⟩
  | @grow k base bases r trees tokens rest before inside ih =>
    simp only [checked, Bool.and_eq_true, bne_iff_ne] at hr
    obtain ⟨⟨⟨hk, hbase⟩, hnames⟩, hinside⟩ := hr
    refine sound_enclose hk ?_ fun hmem => ?_
    · exact List.forall_mem_append.2 ⟨sound_withRole? hbase hbefore, ih hinside hnil⟩
    · have hgives : givesName safe r = true := by simpa [namesNode, hmem] using hnames
      obtain ⟨t, ht, hname⟩ := inside.exists_name hsafe hgives
      exact ⟨t, List.mem_append_right _ ht, hname⟩
  | only before inside ih => exact List.forall_mem_append.2 ⟨hbefore, ih hr hnil⟩

end Rule

/-! ### The Java grammar -/

namespace Grammar

open Rule

/-- The one symbol that rules for declarations refer to after a name, but for nodes with roles. -/
def isSafe (s : Symbol) : Bool :=
  s = .dimensions

private theorem keeps_production (s : Symbol) (h : isSafe s = true) :
    keeps isSafe (production s) = true := by
  obtain rfl : s = .dimensions := by simpa [isSafe] using h
  decide

private theorem checked_binaryOperator (level : Nat) :
    checked isSafe (binaryOperator level) = true := by
  unfold binaryOperator
  split <;> decide

/-- All rules of the grammar pass the check. -/
theorem checked_production (s : Symbol) : checked isSafe (production s) = true := by
  cases s with
  | operation inLabel level =>
    -- there is a rule for every level, and they differ in their operators only
    simp only [production, operation]
    split
    · next hlevel =>
      subst hlevel
      cases inLabel <;> decide
    · split
      · simp [binaryTail, extend, all, checked, checked_binaryOperator, namesNode,
          ParseTree.namedKinds]
      · rfl
  | expression inLabel => cases inLabel <;> decide
  | operand inLabel => cases inLabel <;> decide
  | prefixed inLabel => cases inLabel <;> decide
  | _ => decide

/-- The parse tree of some tokens is a reading of all of them. -/
theorem reads_of_parse? {tokens : List Token} {root : ParseTree} (h : parse? tokens = some root) :
    ∃ trees, root = .node .compilationUnit none trees ∧
      Reads production compilationUnit [] tokens trees [] := by
  unfold parse? at h
  split at h
  · next trees hread =>
    cases h
    exact ⟨trees, rfl, reads_of_read hread⟩
  · cases h

/-- The leaves of the parse tree of some tokens are these tokens. -/
theorem tokens_of_parse? {tokens : List Token} {root : ParseTree} (h : parse? tokens = some root) :
    root.tokens = tokens := by
  obtain ⟨trees, rfl, hreads⟩ := reads_of_parse? h
  obtain ⟨taken, rfl, htrees⟩ := hreads.tokens
  rw [ParseTree.tokens, htrees, List.append_nil]
  rfl

/-- The nodes of a parse tree are sound. -/
theorem sound_of_parse? {tokens : List Token} {root : ParseTree} (h : parse? tokens = some root) :
    root.Sound := by
  obtain ⟨trees, rfl, hreads⟩ := reads_of_parse? h
  have htrees := hreads.sound keeps_production checked_production (by decide) (by simp)
  refine ParseTree.sound_node.2 ⟨ParseTree.isSound_node (by decide) fun hmem => ?_, htrees⟩
  exact absurd hmem (by decide)

end Grammar

end CallPaths
