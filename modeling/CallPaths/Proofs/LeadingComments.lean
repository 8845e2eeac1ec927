import CallPaths.Proofs.DeclaredPlaces
import CallPaths.Proofs.Lists
import CallPaths.Proofs.RowTexts
import Mathlib.Data.List.Chain

/-!
# Comments in front of methods

The comments of a method are the longest run of comments right before its declaration in which each
one ends near the start of the next.  A method has a text of comments if and only if this run is not
empty.  The text is made of the whole lines of the comments, so it holds what else stands on these
lines: it is the text of the comments, blanks aside, if and only if each comment has its lines for
itself.

## Key results

- `ParseTree.exists_longestRun`: the comments that are collected form the longest run
- `ParseTree.visible_lineText_eq_iff`: whether the lines of a comment hold anything else
- `CompilationUnit.commentsOf_method`: the comments of the methods of every sound tree
- `CompilationUnit.read?_comments`: the text of the comments of every method of a source
-/

namespace CallPaths

open Text Token

namespace ParseTree

/-- Comments at the end of the trees before a declaration, each near the start of the next one and
the last one near the start of the declaration. -/
structure IsCommentRun (before : List ParseTree) (t : ParseTree) (run : List ParseTree) : Prop where
  last : run <:+ before
  comments : ∀ c ∈ run, c.isComment = true
  near : (run ++ [t]).IsChain fun c d => d.firstRow ≤ c.lastRow + commentWindow

/-- The longest such comments. -/
structure IsLongestRun (before : List ParseTree) (t : ParseTree) (run : List ParseTree) : Prop
    extends IsCommentRun before t run where
  longest : ∀ run', IsCommentRun before t run' → run'.length ≤ run.length

private theorem isCommentRun_nil (before : List ParseTree) (t : ParseTree) :
    IsCommentRun before t [] :=
  ⟨List.nil_suffix, by simp, by simp⟩

/-- A run is empty or ends with the tree right before the declaration. -/
private theorem isCommentRun_append_singleton {before run : List ParseTree} {c t : ParseTree} :
    IsCommentRun (before ++ [c]) t run ↔ run = [] ∨ ∃ run', run = run' ++ [c] ∧
      c.isComment = true ∧ t.firstRow ≤ c.lastRow + commentWindow ∧ IsCommentRun before c run' := by
  constructor
  · intro h
    rcases List.eq_nil_or_concat' run with rfl | ⟨run', d, rfl⟩
    · exact .inl rfl
    · right
      obtain ⟨front, hfront⟩ := h.last
      rw [← List.append_assoc] at hfront
      obtain ⟨hbefore, hd⟩ := List.append_inj' hfront rfl
      obtain rfl := List.singleton_inj.1 hd
      have hnear := h.near
      rw [List.isChain_append] at hnear
      refine ⟨run', rfl, h.comments d (by simp), ?_, ⟨front, hbefore⟩, fun c hc => ?_, hnear.1⟩
      · exact hnear.2.2 d (by simp) t (by simp)
      · exact h.comments c (List.mem_append_left [d] hc)
  · rintro (rfl | ⟨run', rfl, hcomment, hnear, h⟩)
    · exact isCommentRun_nil _ t
    · obtain ⟨front, rfl⟩ := h.last
      refine ⟨⟨front, (List.append_assoc ..).symm⟩, fun d hd => ?_, ?_⟩
      · rcases List.mem_append.1 hd with hd | hd
        · exact h.comments d hd
        · rwa [List.mem_singleton.1 hd]
      · rw [List.isChain_append]
        refine ⟨h.near, by simp, ?_⟩
        simpa using hnear

private theorem commentsBefore_cons (rows : List String) (row : Nat) (c : ParseTree)
    (before : List ParseTree) :
    commentsBefore rows row (c :: before) =
      if c.isComment = true ∧ row ≤ c.lastRow + commentWindow then
        trim (c.lineText rows) :: commentsBefore rows c.firstRow before
      else [] := by
  have hnear : row - c.lastRow ≤ commentWindow ↔ row ≤ c.lastRow + commentWindow := by omega
  simp only [commentsBefore, Bool.and_eq_true, decide_eq_true_eq, hnear]

/-- The comments that are collected form the longest run. -/
theorem exists_longestRun (rows : List String) (before : List ParseTree) (t : ParseTree) :
    ∃ run, IsLongestRun before.reverse t run ∧
      (commentsBefore rows t.firstRow before).reverse =
        run.map fun c => trim (c.lineText rows) := by
  induction before generalizing t with
  | nil =>
    refine ⟨[], ⟨isCommentRun_nil _ t, fun run' h => ?_⟩, rfl⟩
    have hlength := h.last.length_le
    simpa using hlength
  | cons c before ih =>
    rw [List.reverse_cons, commentsBefore_cons]
    split
    · next hc =>
      -- the run goes on with the longest one before the comment
      obtain ⟨run, hrun, hlines⟩ := ih c
      refine ⟨run ++ [c], ⟨?_, fun run' h => ?_⟩, ?_⟩
      · exact isCommentRun_append_singleton.2 (.inr ⟨run, rfl, hc.1, hc.2, hrun.toIsCommentRun⟩)
      · rcases isCommentRun_append_singleton.1 h with rfl | ⟨run'', rfl, -, -, h⟩
        · simp
        · have hlength := hrun.longest run'' h
          simpa using hlength
      · rw [List.reverse_cons, hlines, List.map_append]
        rfl
    · next hc =>
      refine ⟨[], ⟨isCommentRun_nil _ t, fun run' h => ?_⟩, rfl⟩
      rcases isCommentRun_append_singleton.1 h with rfl | ⟨run'', -, hcomment, hnear, -⟩
      · exact Nat.le_refl 0
      · exact absurd ⟨hcomment, hnear⟩ hc

/-! ### Lines of comments -/

/-- A tree is a part of a source, and its rows are counted by the line ends before it and in it. -/
def PlacedBetween (source : String) (before after : List Char) (t : ParseTree) : Prop :=
  source.toList = before ++ t.text.toList ++ after ∧ t.firstRow = rowsIn before ∧
    t.lastRow = rowsIn before + rowsIn t.text.toList

/-- A tree has the rows that it stands on for itself: nothing but blanks stands on them before it
and after it. -/
def StandsAlone (source : String) (t : ParseTree) : Prop :=
  ∃ before after, PlacedBetween source before after t ∧ (∀ c ∈ rowTail before, isBlank c = true) ∧
    ∀ c ∈ rowHead after, isBlank c = true

/-- The comments of a tree are parts of its source. -/
private theorem IsTreeOf.exists_placedBetween {source : String} {root c : ParseTree} {p : Place}
    (h : root.IsTreeOf source) (hc : root.at? p = some c) (hcomment : c.isComment = true) :
    ∃ before after, PlacedBetween source before after c := by
  have hsubset := tokens_subset_of_at? hc
  cases c with
  | leaf token => cases hcomment
  | node k r cs =>
    -- a comment is a single token
    obtain ⟨token, hcs, -⟩ := (sound_node.1 (h.sound.of_at? hc)).1.comment hcomment
    obtain rfl : cs = [leaf token] := hcs
    have htokens : (node k r [leaf token]).tokens = [token] := rfl
    obtain ⟨before, after, hsource, hfirst, hlast⟩ :=
      h.tokens.place token (hsubset (by rw [htokens]; exact List.mem_singleton_self token))
    refine ⟨before, after, ?_, ?_, ?_⟩
    · simpa [text, htokens] using hsource
    · simpa [firstRow, htokens] using hfirst
    · simpa [lastRow, text, htokens] using hlast

private theorem PlacedBetween.visible_lineText {source : String} {before after : List Char}
    {t : ParseTree} (h : PlacedBetween source before after t) :
    visible (t.lineText (lines source)).toList =
      visible (rowTail before) ++ visible t.text.toList ++ visible (rowHead after) := by
  obtain ⟨hsource, hfirst, hlast⟩ := h
  rw [lineText, hfirst, hlast, visible_rowsText hsource]

/-- The rows of a tree hold nothing else if and only if it has them for itself. -/
theorem visible_lineText_eq_iff {source : String} {t : ParseTree}
    (h : ∃ before after, PlacedBetween source before after t) :
    visible (t.lineText (lines source)).toList = visible t.text.toList ↔ StandsAlone source t := by
  constructor
  · intro heq
    obtain ⟨before, after, hplace⟩ := h
    have hlength := congrArg List.length heq
    rw [hplace.visible_lineText] at hlength
    simp only [List.length_append] at hlength
    refine ⟨before, after, hplace, ?_, ?_⟩
    · exact visible_eq_nil_iff.1 (List.length_eq_zero_iff.1 (by omega))
    · exact visible_eq_nil_iff.1 (List.length_eq_zero_iff.1 (by omega))
  · rintro ⟨before, after, hplace, hbefore, hafter⟩
    rw [hplace.visible_lineText, visible_eq_nil_iff.2 hbefore, visible_eq_nil_iff.2 hafter]
    simp

/-- The comments of a declaration with its preceding siblings: there are none if and only if the
longest run is empty.  Otherwise they are the lines of the comments of the run, and these hold the
text of the comments and nothing else if and only if each comment has its lines for itself. -/
def CommentsOf (source : String) (e : Sibling) (comments : Option String) :
    Prop :=
  ∃ run, IsLongestRun e.1.reverse e.2 run ∧ (comments = none ↔ run = []) ∧
    ∀ text, comments = some text →
      text = joinWith "\n" (run.map fun c => trim (c.lineText (lines source))) ∧
        (removeBlanks text = String.join (run.map fun c => removeBlanks c.text) ↔
          ∀ c ∈ run, c.StandsAlone source)

/-- The lines of comments hold the texts of the comments and nothing else. -/
private theorem removeBlanks_lines_eq_iff {source : String} {run : List ParseTree}
    (h : ∀ c ∈ run, ∃ before after, PlacedBetween source before after c) :
    removeBlanks (joinWith "\n" (run.map fun c => trim (c.lineText (lines source)))) =
        String.join (run.map fun c => removeBlanks c.text) ↔
      ∀ c ∈ run, c.StandsAlone source := by
  have hleft : (removeBlanks
      (joinWith "\n" (run.map fun c => trim (c.lineText (lines source))))).toList =
      run.flatMap fun c => visible (c.lineText (lines source)).toList := by
    rw [removeBlanks_eq, String.toList_ofList, visible_joinWith, List.flatMap_map]
    simp only [trim, String.toList_ofList, visible_trimChars]
  have hright : (String.join (run.map fun c => removeBlanks c.text)).toList =
      run.flatMap fun c => visible c.text.toList := by
    rw [String.toList_join, List.flatMap_map]
    simp only [removeBlanks_eq, String.toList_ofList]
  rw [← String.toList_inj, hleft, hright, flatMap_eq_flatMap_iff]
  · exact forall₂_congr fun c hc => visible_lineText_eq_iff (h c hc)
  · intro c hc
    obtain ⟨before, after, hplace⟩ := h c hc
    rw [hplace.visible_lineText]
    simp only [List.length_append]
    omega

private theorem commentsOf_leadingComments {source : String} {e : Sibling}
    (h : ∀ c ∈ e.1, c.isComment = true →
      ∃ before after, PlacedBetween source before after c) :
    CommentsOf source e (e.2.leadingComments (lines source) e.1) := by
  obtain ⟨run, hrun, hlines⟩ := exists_longestRun (lines source) e.1 e.2
  have hcomments : e.2.leadingComments (lines source) e.1 =
      if run = [] then none
      else some (joinWith "\n" (run.map fun c => trim (c.lineText (lines source)))) := by
    rw [leadingComments, hlines]
    cases run with
    | nil => rfl
    | cons c run => rfl
  refine ⟨run, hrun, by simp [hcomments], fun text htext => ?_⟩
  obtain ⟨-, rfl⟩ : run ≠ [] ∧ joinWith "\n" _ = text := by simpa [hcomments] using htext
  refine ⟨rfl, removeBlanks_lines_eq_iff fun c hc => ?_⟩
  exact h c (List.mem_reverse.1 (hrun.last.subset hc)) (hrun.comments c hc)

theorem exists_at?_of_mem {root t c : ParseTree} {p : Place} (h : root.at? p = some t)
    (hc : c ∈ t.children) : ∃ q, root.at? q = some c := by
  obtain ⟨i, hi⟩ := List.getElem?_of_mem hc
  exact ⟨p ++ [i], at?_append.2 ⟨t, h, at?_cons.2 ⟨c, hi, at?_nil c⟩⟩⟩

private theorem SiblingAt.mem_of_mem {ts : List ParseTree} {i : Nat} {e : Sibling}
    {c : ParseTree} (h : SiblingAt ts i e) (hc : c ∈ e.1) : c ∈ ts := by
  rw [h.2, List.mem_reverse] at hc
  exact List.mem_of_mem_take hc

/-- The preceding siblings of a method stand in the tree. -/
theorem MethodPlace.exists_at? {root c : ParseTree} {p : Place} {e : Sibling}
    (h : root.MethodPlace p e) (hc : c ∈ e.1) : ∃ q, root.at? q = some c := by
  obtain ⟨q, x, _, hx, ⟨⟨b, body, i, y, r, ⟨hbody, -⟩, hy, he, rfl⟩, -⟩, rfl⟩ := h
  obtain ⟨_, hbodyAt⟩ := exists_at?_of_mem hx.at? (List.mem_of_getElem? hbody)
  unfold EntryAt at he
  split at he
  · -- behind the constants of an enum
    obtain ⟨j, rfl, he⟩ := he
    obtain ⟨_, hyAt⟩ := exists_at?_of_mem hbodyAt (List.mem_of_getElem? hy.1)
    exact exists_at?_of_mem hyAt (he.mem_of_mem hc)
  · obtain ⟨-, rfl⟩ := he
    exact exists_at?_of_mem hbodyAt (hy.mem_of_mem hc)

end ParseTree

namespace CompilationUnit

open ParseTree

/-- The comments of the methods of a tree. -/
theorem commentsOf_method {source : String} {root : ParseTree} (h : root.IsTreeOf source)
    {p : Place} {e : Sibling} {m : MethodDecl} (he : root.MethodPlace p e)
    (hm : e.2.method? (lines source) e.1 = some m) : CommentsOf source e m.comments := by
  obtain ⟨name, -, rfl⟩ := Option.map_eq_some_iff.1 hm
  refine commentsOf_leadingComments fun c hc hcomment => ?_
  obtain ⟨q, hq⟩ := he.exists_at? hc
  exact h.exists_placedBetween hq hcomment

/-- Every source text with a parse tree is read, and its methods have the comments of the longest
run right before their declarations, or none if there is no such comment.  The text of the comments
is that of their lines, and it holds anything else if and only if some comment shares a line. -/
theorem read?_comments {source : String} {root : ParseTree} (h : parseTree? source = some root) :
    ∃ unit, read? source = some unit ∧
      Listing (· ≠ ·) root.MethodPlace (fun e => e.2.method? (lines source) e.1)
        (unit.types.flatMap (·.methods)) ∧
      ∀ p e m, root.MethodPlace p e → e.2.method? (lines source) e.1 = some m →
        CommentsOf source e m.comments := by
  have htree := isTreeOf_of_parseTree? h
  exact ⟨ofTree (lines source) root, by rw [read?, h]; rfl, listing_methods _ htree.sound,
    fun p e m => commentsOf_method htree⟩

/-- A method with two comments that have their lines for themselves. -/
def documentedSource : String :=
  "class A \x7b\n  /** One. */\n  // Two.\n  void f() \x7b \x7d\n\x7d"

set_option maxRecDepth 100000 in
theorem read?_comments_documented :
    ∃ root unit, parseTree? documentedSource = some root ∧ read? documentedSource = some unit ∧
      (∀ p e m, root.MethodPlace p e → e.2.method? (lines documentedSource) e.1 = some m →
        CommentsOf documentedSource e m.comments) ∧
      (unit.types.flatMap (·.methods)).map (·.comments) = [some "/** One. */\n// Two."] := by
  have heval : (read? documentedSource).map
      (fun unit => (unit.types.flatMap (·.methods)).map (·.comments)) =
        some [some "/** One. */\n// Two."] := by
    decide +kernel
  obtain ⟨unit, hread, hcomments⟩ := Option.map_eq_some_iff.1 heval
  obtain ⟨root, hroot, -⟩ := Option.map_eq_some_iff.1 hread
  obtain ⟨unit', hread', -, hall⟩ := read?_comments hroot
  exact ⟨root, unit, hroot, hread, hall, hcomments⟩

/-- A method after a field with a comment on its line. -/
def trailingSource : String :=
  "class A \x7b\n    int x = 1; // the x\n    void f() \x7b \x7d\n\x7d\n"

set_option maxRecDepth 100000 in
/-- The declaration of the field gets into the comments of the method: the only comment of the
source is shorter. -/
theorem comments_hold_code :
    (read? trailingSource).map (fun unit => (unit.types.flatMap (·.methods)).map (·.comments)) =
        some [some "int x = 1; // the x"] ∧
      (parseTree? trailingSource).map
        (fun root => (root.preorder.filter (·.isComment)).map (·.text)) =
        some ["// the x"] := by
  decide +kernel

end CompilationUnit

end CallPaths
