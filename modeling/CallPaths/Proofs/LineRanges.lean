import CallPaths.Proofs.ClosingMarks
import CallPaths.Proofs.LeadingComments
import CallPaths.Proofs.SourceLines

/-!
# The lines of declarations

Types and methods have ranges of lines, and methods have the text of their lines.  The rows of a
tree are those of its first and its last token, and the tokens of a source stand one after another,
so the range of a tree lies within that of any tree around it.  A declaration ends with a mark,
which stands on a line of the source, so the last row of a declaration is one of the lines although
`Text.lines` may have fewer lines than there are rows.

## Key results

- `ParseTree.lineRange_within`: ranges lie within each other as trees do
- `ParseTree.IsPart.hasLines_lineText`: the text of the lines of a declaration or body
- `CompilationUnit.onLines_ofTree`: the lines of all types and methods of a tree
- `CompilationUnit.read?_onLines`: and so of a source
-/

namespace CallPaths

open Text

namespace LineRange

/-- One range lies within another. -/
def Within (r s : LineRange) : Prop :=
  s.first ≤ r.first ∧ r.last ≤ s.last

/-- A range of lines of a source. -/
structure IsRange (source : String) (r : LineRange) : Prop where
  positive : 1 ≤ r.first
  ordered : r.first ≤ r.last
  within : r.last ≤ (lines source).length

end LineRange

namespace ParseTree

open Token

/-! ### Rows of trees -/

private theorem firstRow_le_of_mem {t : ParseTree} {token : Token} (h : InRows t.tokens)
    (ht : token ∈ t.tokens) : t.firstRow ≤ token.firstRow := by
  unfold firstRow
  cases htokens : t.tokens with
  | nil => simp
  | cons first tokens =>
    rw [htokens] at h ht
    rcases List.mem_cons.1 ht with rfl | ht
    · simp
    · have hspan := h.span first (by simp)
      have horder := (List.pairwise_cons.1 h.order).1 token ht
      simp only [List.head?_cons, Option.map_some, Option.getD_some]
      omega

private theorem le_lastRow_of_mem {t : ParseTree} {token : Token} (h : InRows t.tokens)
    (ht : token ∈ t.tokens) : token.lastRow ≤ t.lastRow := by
  unfold lastRow
  rcases List.eq_nil_or_concat' t.tokens with htokens | ⟨tokens, last, htokens⟩
  · simp [htokens] at ht
  · rw [htokens] at h ht ⊢
    rcases List.mem_append.1 ht with ht | ht
    · have hspan := h.span last (by simp)
      have horder := (List.pairwise_append.1 h.order).2.2 token ht last (by simp)
      simp only [List.getLast?_concat, Option.map_some, Option.getD_some]
      omega
    · simp [List.mem_singleton.1 ht]

private theorem firstRow_le_lastRow {t : ParseTree} (h : InRows t.tokens) :
    t.firstRow ≤ t.lastRow := by
  cases htokens : t.tokens with
  | nil => simp [firstRow, htokens]
  | cons token tokens =>
    have hmem : token ∈ t.tokens := by simp [htokens]
    exact Nat.le_trans (firstRow_le_of_mem h hmem)
      (Nat.le_trans (h.span token hmem) (le_lastRow_of_mem h hmem))

/-- The range of a tree with tokens lies within those of the trees around it. -/
theorem lineRange_within {t c : ParseTree} {p : Place} (h : InRows t.tokens)
    (hc : t.at? p = some c) (hne : c.tokens ≠ []) : c.lineRange.Within t.lineRange := by
  have hsub := tokens_sublist_of_at? hc
  constructor
  · obtain ⟨token, htoken⟩ := Option.isSome_iff_exists.1 (List.isSome_head?.2 hne)
    have hle := firstRow_le_of_mem h (hsub.subset (List.mem_of_head? htoken))
    have hfirst : c.firstRow = token.firstRow := by simp [firstRow, htoken]
    simp only [lineRange]
    omega
  · obtain ⟨token, htoken⟩ := Option.isSome_iff_exists.1 (List.getLast?_isSome.2 hne)
    have hle := le_lastRow_of_mem h (hsub.subset (List.mem_of_getLast? htoken))
    have hlast : c.lastRow = token.lastRow := by simp [lastRow, htoken]
    simp only [lineRange]
    omega

/-! ### Lines of trees -/

/-- The rows of a tree are lines of a source.  They are counted by the line feeds before the first
token, and before the last token and in it. -/
structure OnLines (source : String) (t : ParseTree) : Prop where
  first : ∃ token before after, t.tokens.head? = some token ∧
    source.toList = before ++ token.text.toList ++ after ∧ t.firstRow = rowsIn before
  last : ∃ token before after, t.tokens.getLast? = some token ∧
    source.toList = before ++ token.text.toList ++ after ∧
      t.lastRow = rowsIn before + rowsIn token.text.toList
  ordered : t.firstRow ≤ t.lastRow
  within : t.lastRow < (lines source).length

/-- A text has the lines of a source from the first to the last row of a tree. -/
structure HasLines (source : String) (t : ParseTree) (text : String) : Prop
    extends OnLines source t where
  joined : ∃ ls, text = joinWith "\n" ls ∧ ls.length = t.lastRow - t.firstRow + 1 ∧
    ∀ i l, ls[i]? = some l → IsLine source.toList (t.firstRow + i) l.toList
  count : (lines text).length = t.lastRow - t.firstRow + 1

/-- The rows from the first row of a tree to its last one, or to the last one that there is, can be
cut out of all rows. -/
def CanSlice (rows : List String) (t : ParseTree) : Prop :=
  t.firstRow ≤ min t.lastRow (rows.length - 1) + 1 ∧
    min t.lastRow (rows.length - 1) + 1 ≤ rows.length

/-- What is known of a tree in the parse tree of a source. -/
structure IsPart (source : String) (t : ParseTree) : Prop where
  inRows : InRows t.tokens
  place : ∀ token ∈ t.tokens, ∃ before after,
    source.toList = before ++ token.text.toList ++ after ∧ token.firstRow = rowsIn before ∧
      token.lastRow = rowsIn before + rowsIn token.text.toList
  closed : t.NeedsClosing → t.IsClosed

private theorem IsTreeOf.isPart {source : String} {root t : ParseTree} {p : Place}
    (h : root.IsTreeOf source) (hclosed : root.Closed) (ht : root.at? p = some t) :
    IsPart source t where
  inRows := h.tokens.inRows.sublist (tokens_sublist_of_at? ht)
  place token htoken := h.tokens.place token (tokens_subset_of_at? ht htoken)
  closed hneeds := hclosed.isClosed_of_at? ht hneeds

namespace IsPart

variable {source : String} {t : ParseTree}

private theorem tokens_ne_nil (h : IsPart source t) (hneeds : t.NeedsClosing) : t.tokens ≠ [] := by
  obtain ⟨token, htoken, -⟩ := h.closed hneeds
  intro hnil
  rw [hnil] at htoken
  cases htoken

/-- The closing mark of a declaration or body stands on the last line of it. -/
private theorem exists_last_line (h : IsPart source t) (hneeds : t.NeedsClosing) :
    ∃ line, (lines source)[t.lastRow]? = some line ∧ line ≠ "" := by
  obtain ⟨token, htoken, hmark⟩ := h.closed hneeds
  obtain ⟨before, after, hsource, -, hlast⟩ := h.place token (List.mem_of_getLast? htoken)
  -- a mark has no line feed in it, so the last row is that on which it starts
  have hrow : rowsIn token.text.toList = 0 ∧ visible token.text.toList ≠ [] := by
    simp only [closingMarks, List.mem_cons, List.not_mem_nil, or_false] at hmark
    rcases hmark with hmark | hmark <;> rw [hmark] <;> decide
  have htree : t.lastRow = rowsIn before := by
    simp only [lastRow, htoken, Option.map_some, Option.getD_some]
    omega
  rw [htree]
  exact exists_line_of_visible hsource hrow.1 hrow.2

private theorem onLines (h : IsPart source t) (hneeds : t.NeedsClosing) : OnLines source t := by
  have hne := h.tokens_ne_nil hneeds
  obtain ⟨first, hfirst⟩ := Option.isSome_iff_exists.1 (List.isSome_head?.2 hne)
  obtain ⟨last, hlast⟩ := Option.isSome_iff_exists.1 (List.getLast?_isSome.2 hne)
  obtain ⟨before, after, hsource, hrow, -⟩ := h.place first (List.mem_of_head? hfirst)
  obtain ⟨before', after', hsource', -, hrow'⟩ := h.place last (List.mem_of_getLast? hlast)
  obtain ⟨line, hline, -⟩ := h.exists_last_line hneeds
  exact {
    first := ⟨first, before, after, hfirst, hsource, by simpa [firstRow, hfirst] using hrow⟩
    last := ⟨last, before', after', hlast, hsource', by simpa [lastRow, hlast] using hrow'⟩
    ordered := firstRow_le_lastRow h.inRows
    within := (List.getElem?_eq_some_iff.1 hline).1 }

/-- The text of the lines of a declaration or body. -/
theorem hasLines_lineText (h : IsPart source t) (hneeds : t.NeedsClosing) :
    HasLines source t (t.lineText (lines source)) := by
  have hon := h.onLines hneeds
  obtain ⟨line, hline, hne⟩ := h.exists_last_line hneeds
  have hordered := hon.ordered
  have hwithin := hon.within
  have htext : t.lineText (lines source) = joinWith "\n" _ := rowsText_eq hordered hwithin
  -- the entries of the slice are lines of the source, by their rows
  have hentry : ∀ i l, (((lines source).drop t.firstRow).take (t.lastRow + 1 - t.firstRow))[i]? =
      some l → (lines source)[t.firstRow + i]? = some l := by
    intro i l hl
    rw [List.getElem?_take] at hl
    split at hl
    · rwa [List.getElem?_drop] at hl
    · cases hl
  have hlength : (((lines source).drop t.firstRow).take (t.lastRow + 1 - t.firstRow)).length =
      t.lastRow - t.firstRow + 1 := by
    rw [List.length_take, List.length_drop]
    omega
  refine ⟨hon, ⟨_, htext, hlength, fun i l hl => getElem?_lines.1 (hentry i l hl)⟩, ?_⟩
  rw [htext, length_lines_joinWith _ _ hne, hlength]
  · intro l hl
    obtain ⟨i, hi⟩ := List.getElem?_of_mem hl
    exact not_mem_line (List.mem_of_getElem? (hentry i l hi))
  · -- the last of them holds the closing mark, so it is counted although no line feed ends it
    rw [List.getLast?_eq_getElem?, hlength, List.getElem?_take, if_pos (by omega),
      List.getElem?_drop, ← hline]
    congr 1
    omega

/-- The rows of any tree can be cut out of a text with lines. -/
private theorem canSlice (h : IsPart source t) (hlines : 0 < (lines source).length) :
    CanSlice (lines source) t := by
  have hordered := firstRow_le_lastRow h.inRows
  -- there are at least as many lines as line feeds before the tree
  have hrows : t.firstRow ≤ (lines source).length := by
    unfold firstRow
    cases htokens : t.tokens with
    | nil => simp
    | cons token tokens =>
      obtain ⟨before, after, hsource, hfirst, -⟩ := h.place token (by simp [htokens])
      have hle : rowsIn source.toList ≤ (lines source).length := rowsIn_le_length_linesFrom [] _
      rw [hsource, rowsIn_append, rowsIn_append] at hle
      simp only [List.head?_cons, Option.map_some, Option.getD_some]
      omega
  constructor <;> omega

end IsPart

/-! ### Methods and types -/

private theorem needsClosing_of_isKind {t : ParseTree} {k : NodeKind} (h : t.isKind k = true)
    (hk : k ∈ closedKinds) : t.NeedsClosing :=
  .inl ⟨k, hk, h⟩

private theorem needsClosing_of_declaredKind? {t : ParseTree} (h : t.declaredKind?.isSome = true) :
    t.NeedsClosing := by
  cases t with
  | leaf token => cases h
  | node k r cs =>
    refine needsClosing_of_isKind (k := k) (by simp [isKind, kind?]) ?_
    have hk : (typeKind? k).isSome = true := h
    unfold typeKind? at hk
    split at hk <;> simp_all [closedKinds]

private theorem OnLines.isRange {source : String} {t : ParseTree} (h : OnLines source t) :
    t.lineRange.IsRange source := by
  have hordered := h.ordered
  have hwithin := h.within
  constructor <;> simp only [lineRange] <;> omega

/-- The lines of a method that is declared in a type, with its preceding siblings. -/
structure MethodOnLines (source : String) (type : TypeDecl) (e : Sibling) (m : MethodDecl) :
    Prop where
  range : m.lineRange = e.2.lineRange
  isRange : m.lineRange.IsRange source
  inType : m.lineRange.Within type.lineRange
  /-- The source of the method has all its lines. -/
  lines : HasLines source e.2 m.source
  count : (Text.lines m.source).length = m.lineRange.last - m.lineRange.first + 1
  /-- So has the body, if there is one. -/
  body : m.body.isSome = (e.2.child? .body).isSome
  bodyLines : ∀ body text, e.2.child? .body = some body → m.body = some text →
    HasLines source body text
  /-- All rows that are asked for can be cut out, also those of comments before the method. -/
  slices : CanSlice (Text.lines source) e.2 ∧
    (∀ body, e.2.child? .body = some body → CanSlice (Text.lines source) body) ∧
      ∀ c ∈ e.1, CanSlice (Text.lines source) c

private theorem methodOnLines {source : String} {root : ParseTree} {p q : Place}
    {x : List String × ParseTree} {e : Sibling} {type : TypeDecl} {m : MethodDecl}
    (h : root.IsTreeOf source) (hclosed : root.Closed) (hx : root.TypePlace p x)
    (he : x.2.MethodAt q e)
    (htype : type? (lines source) x = some type) (hm : e.2.method? (lines source) e.1 = some m) :
    MethodOnLines source type e m := by
  have hplace : root.MethodPlace (p ++ q) e := ⟨p, x, q, hx, he, rfl⟩
  have hpart := h.isPart hclosed hplace.at?
  have hneeds : e.2.NeedsClosing := needsClosing_of_isKind he.2 (by simp [closedKinds])
  have hlines := hpart.hasLines_lineText hneeds
  have hpositive : 0 < (lines source).length := by
    have hwithin := hlines.within
    omega
  -- a body is a tree of the source as well
  have hbody : ∀ body, e.2.child? .body = some body →
      IsPart source body ∧ body.NeedsClosing := by
    intro body hchild
    obtain ⟨i, hi, hrole, -⟩ := child?_eq_some_iff.1 hchild
    obtain ⟨r, hr⟩ := exists_at?_of_mem hplace.at? (List.mem_of_getElem? hi)
    exact ⟨h.isPart hclosed hr, .inr hrole⟩
  obtain ⟨kind, -, rfl⟩ := Option.map_eq_some_iff.1 htype
  obtain ⟨name, -, rfl⟩ := Option.map_eq_some_iff.1 hm
  exact {
    range := rfl
    isRange := hlines.isRange
    inType := lineRange_within (h.isPart hclosed hx.at?).inRows he.1.at?
      (hpart.tokens_ne_nil hneeds)
    lines := hlines
    count := by
      rw [hlines.count]
      simp only [lineRange]
      omega
    body := Option.isSome_map
    bodyLines := by
      intro body text hchild htext
      rw [hchild] at htext
      cases htext
      exact (hbody body hchild).1.hasLines_lineText (hbody body hchild).2
    slices := by
      refine ⟨hpart.canSlice hpositive, fun body hchild => ?_, fun c hc => ?_⟩
      · exact (hbody body hchild).1.canSlice hpositive
      · obtain ⟨r, hr⟩ := hplace.exists_at? hc
        exact (h.isPart hclosed hr).canSlice hpositive }

end ParseTree

namespace CompilationUnit

open ParseTree

/-- The lines of the types and methods of a compilation unit. -/
structure OnLines (source : String) (root : ParseTree) (unit : CompilationUnit) : Prop where
  /-- Lines and rows agree, whatever the line ends are. -/
  lines : ∀ row line, (lines source)[row]? = some line ↔ IsLine source.toList row line.toList
  types : ∀ type ∈ unit.types, ∃ p x, root.TypePlace p x ∧
    type? (Text.lines source) x = some type ∧ type.lineRange = x.2.lineRange ∧
      ParseTree.OnLines source x.2 ∧ type.lineRange.IsRange source ∧
        ∀ m ∈ type.methods, ∃ q e, x.2.MethodAt q e ∧
          e.2.method? (Text.lines source) e.1 = some m ∧ MethodOnLines source type e m
  /-- A nested type lies within its outer type. -/
  nested : ∀ (i : Nat) (type : TypeDecl) (outer : String), unit.types[i]? = some type →
    outerName? type.name = some outer → ∃ j type', j < i ∧ unit.types[j]? = some type' ∧
      type'.name = outer ∧ Encloses (Text.lines source) root type' type ∧
        type.lineRange.Within type'.lineRange

private theorem Encloses.within {source : String} {root : ParseTree} {outer inner : TypeDecl}
    (h : root.IsTreeOf source) (hclosed : root.Closed)
    (henc : Encloses (lines source) root outer inner) :
    inner.lineRange.Within outer.lineRange := by
  obtain ⟨p, x, q, y, hx, houter, hy, hinner⟩ := henc
  obtain ⟨t, ht, hbelow⟩ := at?_append.1 hy.at?
  obtain rfl := Option.some.inj (hx.at?.symm.trans ht)
  obtain ⟨kind, -, rfl⟩ := Option.map_eq_some_iff.1 houter
  obtain ⟨kind', -, rfl⟩ := Option.map_eq_some_iff.1 hinner
  have hne := (h.isPart hclosed hy.at?).tokens_ne_nil
    (needsClosing_of_declaredKind? hy.isSome_declaredKind?)
  exact lineRange_within (h.isPart hclosed hx.at?).inRows hbelow hne

/-- The lines of all types and methods of a tree. -/
theorem onLines_ofTree {source : String} {root : ParseTree} (h : root.IsTreeOf source)
    (hclosed : root.Closed) : (ofTree (lines source) root).OnLines source root where
  lines row line := getElem?_lines
  types type htype := by
    obtain ⟨i, hi⟩ := List.getElem?_of_mem htype
    obtain ⟨p, ⟨x, hx, hread⟩, -⟩ := (listing_types _ h.sound).listed.exists_earlier hi
    have hon := (h.isPart hclosed hx.at?).onLines
      (needsClosing_of_declaredKind? hx.isSome_declaredKind?)
    have hrange : type.lineRange = x.2.lineRange := by
      obtain ⟨kind, -, rfl⟩ := Option.map_eq_some_iff.1 hread
      rfl
    refine ⟨p, x, hx, hread, hrange, hon, hrange ▸ hon.isRange, fun m hm => ?_⟩
    obtain ⟨j, hj⟩ := List.getElem?_of_mem hm
    obtain ⟨q, ⟨e, he, hmethod⟩, -⟩ := (listed_methods _ hread).exists_earlier hj
    exact ⟨q, e, he, hmethod, methodOnLines h hclosed hx he hread hmethod⟩
  nested i type outer hi houter := by
    obtain ⟨j, type', hj, htype', hname, henc⟩ :=
      exists_enclosing_earlier _ h.sound h.tokens.word hi houter
    exact ⟨j, type', hj, htype', hname, henc, henc.within h hclosed⟩

/-- The lines of all types and methods of a source that is accepted, whatever its line ends are: the
ranges are ranges of its lines, methods lie within their types and nested types within their outer
ones, no row outside of the source is asked for, and the texts of methods and bodies are the lines
of the source that they stand on. -/
theorem read?_onLines {source : String} {unit : CompilationUnit} (h : read? source = some unit) :
    ∃ root, parseTree? source = some root ∧ unit.OnLines source root := by
  obtain ⟨root, hroot, rfl⟩ := Option.map_eq_some_iff.1 h
  obtain ⟨tokens, -, hparse⟩ := Option.bind_eq_some_iff.1 hroot
  have hclosed := Grammar.closed_of_parse? hparse
  exact ⟨root, hroot, onLines_ofTree (isTreeOf_of_parseTree? hroot) hclosed⟩

/-- A source with both kinds of line ends and none at its end. -/
def mixedSource : String :=
  "class A \x7b\r\n  void f() \x7b\n  \x7d\r\n  enum E \x7b\x7d \x7d"

set_option maxRecDepth 100000 in
theorem read?_onLines_mixed :
    ∃ unit root, read? mixedSource = some unit ∧ unit.OnLines mixedSource root ∧
      unit.types.map (fun type => (type.name, type.lineRange)) =
        [("A", ⟨1, 4⟩), ("A.E", ⟨4, 4⟩)] ∧
      (unit.types.flatMap (·.methods)).map (fun m => (m.lineRange, m.source, m.body)) =
        [(⟨2, 3⟩, "  void f() \x7b\n  \x7d", some "  void f() \x7b\n  \x7d")] := by
  have heval : (read? mixedSource).map (fun unit =>
      (unit.types.map (fun type => (type.name, type.lineRange)),
        (unit.types.flatMap (·.methods)).map fun m => (m.lineRange, m.source, m.body))) =
        some ([("A", ⟨1, 4⟩), ("A.E", ⟨4, 4⟩)],
          [(⟨2, 3⟩, "  void f() \x7b\n  \x7d", some "  void f() \x7b\n  \x7d")]) := by
    decide +kernel
  obtain ⟨unit, hread, hunit⟩ := Option.map_eq_some_iff.1 heval
  obtain ⟨root, -, hlines⟩ := read?_onLines hread
  obtain ⟨htypes, hmethods⟩ := Prod.mk.inj hunit
  exact ⟨unit, root, hread, hlines, htypes, hmethods⟩

end CompilationUnit

end CallPaths
