import CallPaths.Proofs.Branches
import CallPaths.Proofs.TreeRows
import CallPaths.Report.Basic
import Mathlib.Data.List.Basic
import Mathlib.Data.List.Forall2

/-!
# Reported trees of calls

The report of a tree of calls shows the tree itself and, beside it, every method of the tree once.
Both are made by loops over stacks, since a tree may be deeper than a recursion should go.  Here
they are compared with what recursion over the tree gives: `Assembly.treeNode` is the image of the
tree node by node, and `CallTree.preorder` lists the methods of the nodes as a recursive walk meets
them.  What is shown of a method beside the tree is said by `Assembly.Summarizes`.

## Key results

- `Assembly.shownTree_eq`: the tree of a report is the image of the tree of calls
- `CallTree.isFirstOccurrences_signatures`: the methods of a report in order of first occurrence
- `Assembly.summarizes_summary`: what the report shows of a method
- `Assembly.treeReport_exact`: all of this, for the report as a whole
-/

namespace CallPaths

/-! ### First occurrences -/

/-- A list has the members of another one, each once, in the order of their first occurrences
there. -/
structure IsFirstOccurrences {α : Type} [BEq α] (order l : List α) : Prop where
  nodup : order.Nodup
  mem_iff (a : α) : a ∈ order ↔ a ∈ l
  increasing : order.Pairwise fun a b => l.idxOf a < l.idxOf b

namespace IsFirstOccurrences

variable {α : Type} [BEq α] [LawfulBEq α] {order l : List α} {m : α}

/-- The first occurrences do not change where a list grows. -/
private theorem increasing_append (h : IsFirstOccurrences order l) (more : List α) :
    order.Pairwise fun a b => (l ++ more).idxOf a < (l ++ more).idxOf b := by
  refine h.increasing.imp_of_mem fun {a b} ha hb hab => ?_
  rwa [List.idxOf_append_of_mem ((h.mem_iff a).1 ha), List.idxOf_append_of_mem ((h.mem_iff b).1 hb)]

/-- A member that occurs again changes nothing. -/
private theorem again (h : IsFirstOccurrences order l) (hm : m ∈ l) :
    IsFirstOccurrences order (l ++ [m]) := by
  refine ⟨h.nodup, fun a => ?_, h.increasing_append [m]⟩
  rw [h.mem_iff, List.mem_append, List.mem_singleton]
  constructor
  · exact .inl
  · rintro (ha | rfl)
    · exact ha
    · exact hm

/-- A new member comes last. -/
theorem fresh (h : IsFirstOccurrences order l) (hm : m ∉ l) :
    IsFirstOccurrences (order ++ [m]) (l ++ [m]) := by
  have hnew : m ∉ order := fun hmem => hm ((h.mem_iff m).1 hmem)
  refine ⟨?_, fun a => ?_, ?_⟩
  · refine List.nodup_append.2 ⟨h.nodup, by simp, fun a ha b hb => ?_⟩
    rw [List.mem_singleton.1 hb]
    exact ne_of_mem_of_not_mem ha hnew
  · rw [List.mem_append, List.mem_append, h.mem_iff]
  · refine List.pairwise_append.2 ⟨h.increasing_append [m], by simp, fun a ha b hb => ?_⟩
    -- the new member occurs first behind all the others
    obtain rfl := List.mem_singleton.1 hb
    have ha' := (h.mem_iff a).1 ha
    rw [List.idxOf_append_of_mem ha', List.idxOf_append_of_notMem hm]
    have := List.idxOf_lt_length_of_mem ha'
    omega

omit [LawfulBEq α] in
/-- There is one list of first occurrences. -/
theorem unique {order' : List α} (h : IsFirstOccurrences order l)
    (h' : IsFirstOccurrences order' l) : order = order' := by
  have hperm : order.Perm order' :=
    (List.perm_ext_iff_of_nodup h.nodup h'.nodup).2 fun a => (h.mem_iff a).trans (h'.mem_iff a).symm
  refine hperm.eq_of_pairwise (fun a b _ _ hab hba => ?_) h.increasing h'.increasing
  omega

end IsFirstOccurrences

namespace CallTree

/-! ### Methods -/

private theorem preorderAll_append (ts us : List CallTree) :
    preorderAll (ts ++ us) = preorderAll ts ++ preorderAll us := by
  simp [preorderAll_eq_flatMap]

/-- What the loop collects are the first occurrences in what it has passed and what is pending. -/
private theorem isFirstOccurrences_collect {seen : SortedSet Signature} {ordered : Array Signature}
    {pending : List CallTree} {passed : List Signature}
    (hordered : IsFirstOccurrences ordered.toList passed) (hseen : ∀ m, m ∈ seen ↔ m ∈ passed) :
    IsFirstOccurrences (collect seen ordered pending).toList (passed ++ preorderAll pending) := by
  -- the loop has passed a part of the pre-order, and what it has collected fits that part
  fun_induction collect seen ordered pending generalizing passed with
  | case1 seen ordered => simpa [preorderAll] using hordered
  | case2 seen ordered cs rest ih =>
    simpa [preorderAll, preorder, preorderAll_append] using ih hordered hseen
  | case3 seen ordered m cs rest hm ih =>
    have hpassed : m ∈ passed := (hseen m).1 (SortedSet.contains_iff.1 hm)
    have hstep : ∀ m', m' ∈ seen ↔ m' ∈ passed ++ [m] := by
      intro m'
      rw [hseen, List.mem_append, List.mem_singleton]
      constructor
      · exact .inl
      · rintro (h | rfl)
        · exact h
        · exact hpassed
    simpa [preorderAll, preorder, preorderAll_append] using ih (hordered.again hpassed) hstep
  | case4 seen ordered m cs rest hm ih =>
    have hpassed : m ∉ passed := fun h => hm (SortedSet.contains_iff.2 ((hseen m).2 h))
    have hstep : ∀ m', m' ∈ seen.insert m ↔ m' ∈ passed ++ [m] := by
      intro m'
      rw [SortedSet.mem_insert, hseen, List.mem_append, List.mem_singleton, or_comm]
    have hpush := hordered.fresh hpassed
    rw [← Array.toList_push] at hpush
    simpa [preorderAll, preorder, preorderAll_append] using ih hpush hstep

/-- The methods of a tree are listed once each, as a walk in pre-order first meets them. -/
theorem isFirstOccurrences_signatures (t : CallTree) :
    IsFirstOccurrences t.signatures t.preorder := by
  have hstart : IsFirstOccurrences (#[] : Array Signature).toList ([] : List Signature) :=
    ⟨by simp, by simp, by simp⟩
  have h : IsFirstOccurrences t.signatures ([] ++ preorderAll [t]) :=
    isFirstOccurrences_collect hstart fun m =>
      iff_of_false (SortedSet.not_mem_empty m) (by simp)
  simpa [preorderAll] using h

end CallTree

/-! ### Trees -/

namespace Assembly

mutual

/-- The image of a tree of calls, node by node: each is shown with what is recorded of its
method. -/
def treeNode (a : Assembly) : CallTree → TreeNode
  | .node none children => .node commonRoot "" 0 (treeNodes a children)
  | .node (some m) children =>
    let record := a.snapshot.record? m
    .node m.text ((record.map (·.file)).getD unavailable)
      ((record.map (·.lineRange.first)).getD 0) (treeNodes a children)

/-- The images of several trees of calls. -/
def treeNodes (a : Assembly) : List CallTree → List TreeNode
  | [] => []
  | t :: ts => treeNode a t :: treeNodes a ts

end

mutual

private theorem fold_shownNode (a : Assembly) (t : CallTree) :
    t.fold a.shownNode = a.treeNode t := by
  cases t with
  | node m cs =>
    rw [CallTree.fold, foldAll_shownNode a cs]
    cases m <;> simp only [shownNode, treeNode]

private theorem foldAll_shownNode (a : Assembly) (ts : List CallTree) :
    CallTree.foldAll a.shownNode ts = a.treeNodes ts := by
  cases ts with
  | nil => simp only [CallTree.foldAll, treeNodes]
  | cons t ts => rw [CallTree.foldAll, treeNodes, fold_shownNode a t, foldAll_shownNode a ts]

end

/-- The tree of a report is the image of the tree of calls. -/
theorem shownTree_eq (a : Assembly) (t : CallTree) : a.shownTree t = a.treeNode t := by
  rw [shownTree, CallTree.build_eq_fold, fold_shownNode]

/-! ### Summaries -/

/-- The text that is shown for the source of a method. -/
inductive ShowsBody (a : Assembly) (m : Signature) : String → Prop
  | source {r : MethodRecord} (hrecord : a.snapshot.record? m = some r)
      (hbody : r.body.isSome = true) : ShowsBody a m r.source
  /-- A method without a body. -/
  | abstract {r : MethodRecord} (hrecord : a.snapshot.record? m = some r) (hbody : r.body = none) :
      ShowsBody a m abstractBody
  | missing (hrecord : a.snapshot.record? m = none) : ShowsBody a m missingBody

/-- A summary shows a method: its signature, its name behind that of its type, and its source and
comments as far as the settings ask for them. -/
structure Summarizes (a : Assembly) (m : Signature) (s : MethodSummary) : Prop where
  signature : s.signature = m.text
  name : s.name = m.typeName ++ "." ++ m.method
  body_iff (text : String) :
    s.body = some text ↔ a.output.includeSource = true ∧ a.ShowsBody m text
  comments_iff (text : String) : s.comments = some text ↔
    a.output.includeComments = true ∧
      ∃ r, a.snapshot.record? m = some r ∧ r.comments = some text

section Body

variable {a : Assembly} {m : Signature} {text : String}

private theorem showsBody_of_record {r : MethodRecord} (h : a.snapshot.record? m = some r) :
    a.ShowsBody m text ↔ (if r.body.isSome then r.source else abstractBody) = text := by
  constructor
  · intro hshows
    cases hshows with
    | source h' hbody =>
      cases h.symm.trans h'
      rw [if_pos hbody]
    | abstract h' hbody =>
      cases h.symm.trans h'
      simp [hbody]
    | missing h' => cases h.symm.trans h'
  · rintro rfl
    split
    · next hbody => exact .source h hbody
    · next hbody => exact .abstract h (by simpa using hbody)

private theorem showsBody_of_missing (h : a.snapshot.record? m = none) :
    a.ShowsBody m text ↔ missingBody = text := by
  constructor
  · intro hshows
    cases hshows with
    | source h' | abstract h' => cases h.symm.trans h'
    | missing => rfl
  · rintro rfl
    exact .missing h

/-- The source is shown if the settings ask for it. -/
private theorem body_eq_some_iff :
    a.body m = some text ↔ a.output.includeSource = true ∧ a.ShowsBody m text := by
  rw [body]
  cases a.output.includeSource with
  | false => simp
  | true =>
    cases hrecord : a.snapshot.record? m with
    | none => simp [showsBody_of_missing hrecord]
    | some r => simp [showsBody_of_record hrecord]

end Body

/-- What a report shows of a method. -/
theorem summarizes_summary (a : Assembly) (m : Signature) : a.Summarizes m (a.summary m) where
  signature := rfl
  name := rfl
  body_iff _ := body_eq_some_iff
  comments_iff text := by
    show a.comments m = some text ↔ _
    rw [comments]
    cases a.output.includeComments <;> simp [Option.bind_eq_some_iff]

/-- A method has one summary. -/
theorem Summarizes.unique {a : Assembly} {m : Signature} {s s' : MethodSummary}
    (h : a.Summarizes m s) (h' : a.Summarizes m s') : s = s' := by
  have hname : s.name = s'.name := h.name.trans h'.name.symm
  have hsignature : s.signature = s'.signature := h.signature.trans h'.signature.symm
  have hbody : s.body = s'.body :=
    Option.ext fun text => (h.body_iff text).trans (h'.body_iff text).symm
  have hcomments : s.comments = s'.comments :=
    Option.ext fun text => (h.comments_iff text).trans (h'.comments_iff text).symm
  cases s
  cases s'
  simp_all

/-- The report of a tree of calls, whatever its shape and depth: the reported tree is the image of
the tree by recursion, and beside it stands one summary for each method that occurs in the tree,
which shows this method, in the order in which a recursive walk in pre-order meets them first. -/
theorem treeReport_exact (a : Assembly) (time : String) (target : Signature) (t : EntryTree) :
    let report := a.treeReport time target t
    report.tree = a.treeNode t.root ∧
      ∃ order : List Signature, IsFirstOccurrences order t.root.preorder ∧
        List.Forall₂ a.Summarizes order report.methods := by
  intro report
  refine ⟨a.shownTree_eq t.root, t.root.signatures, t.root.isFirstOccurrences_signatures, ?_⟩
  exact List.forall₂_map_right_iff.2 (List.forall₂_same.2 fun m _ => a.summarizes_summary m)

/-- A root without a method, and a method that occurs at two places and has no record. -/
theorem treeReport_exact_repeated :
    let m : Signature := ⟨"p", "A", "m", []⟩
    let n : Signature := ⟨"p", "A", "n", ["int"]⟩
    let record : MethodRecord := ⟨"A.java", ⟨3, 4⟩, "void m() ...", some "...", some "// m"⟩
    let records := (∅ : SortedMap Signature MethodRecord).insert m record
    let a : Assembly := { snapshot := { records }, implementations := ∅, output := {} }
    let t : EntryTree :=
      { root := .node none [.node (some m) [.node (some n) []], .node (some n) []] }
    let report := a.treeReport "" n t
    report.tree = .node "ROOT" "" 0
        [.node "p.A.m()" "A.java" 3 [.node "p.A.n(int)" "unavailable" 0 []],
          .node "p.A.n(int)" "unavailable" 0 []] ∧
      report.methods = [⟨"A.m", "p.A.m()", some "void m() ...", some "// m"⟩,
        ⟨"A.n", "p.A.n(int)", some missingBody, none⟩] := by
  intro m n record records a t report
  obtain ⟨htree, order, horder, hmethods⟩ := treeReport_exact a "" n t
  have hm : a.snapshot.record? m = some record := by decide +zetaReduce
  have hn : a.snapshot.record? n = none := by decide +zetaReduce
  refine ⟨htree.trans ?_, ?_⟩
  · have htexts : m.text = "p.A.m()" ∧ n.text = "p.A.n(int)" := by decide +zetaReduce
    simp only [t, treeNode, treeNodes, hm, hn, htexts]
    rfl
  · have hfirst : IsFirstOccurrences [m, n] t.root.preorder := by
      refine ⟨by decide +zetaReduce, fun x => ?_, ?_⟩
      · simp [t, CallTree.preorder, CallTree.preorderAll]
      · simp only [t, CallTree.preorder, CallTree.preorderAll]
        decide +zetaReduce
    rw [horder.unique hfirst] at hmethods
    have hsummaries : a.summary m = ⟨"A.m", "p.A.m()", some "void m() ...", some "// m"⟩ ∧
        a.summary n = ⟨"A.n", "p.A.n(int)", some missingBody, none⟩ := by
      decide +zetaReduce
    rw [← hsummaries.1, ← hsummaries.2]
    -- two methods have two summaries, and each method has one only
    show (a.treeReport "" n t).methods = _
    generalize (a.treeReport "" n t).methods = methods at hmethods
    cases hmethods with
    | cons hs hmethods =>
      cases hmethods with
      | cons hs' hmethods =>
        cases hmethods
        rw [hs.unique (a.summarizes_summary m), hs'.unique (a.summarizes_summary n)]

end Assembly

end CallPaths
