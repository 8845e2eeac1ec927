import CallPaths.Proofs.Lists
import CallPaths.Proofs.Reachability
import CallPaths.Proofs.Records
import CallPaths.Proofs.Scans
import CallPaths.Proofs.ShownMethods
import CallPaths.Proofs.ShownTrees
import CallPaths.Query

/-!
# Reports from records alone

Reports show a mark where a method has no record.  Here the same reports are assembled a second time
from records alone: a method without a record makes the whole report fail, and the marks do not
occur.  `Settings.recordedAnswer` is a run of a request with this assembly.

The assembly from records alone never fails and gives the same answers, since all methods that a
query comes to are nodes of the graph of a snapshot, and these have records.

## Key results

- `Assembly.recordedChainReport_eq`, `Assembly.recordedTreeReport_eq`,
  `Assembly.recordedListReport_eq`: a report on recorded methods is the one from records alone
- `Snapshot.records_cover_reports`: nodes and targets have records, and every answer comes from
  records alone
-/

namespace CallPaths

namespace Assembly

/-! ### Assembly from records alone -/

/-- The comments shown for a record. -/
def recordedComments (a : Assembly) (r : MethodRecord) : Option String :=
  if a.output.includeComments then r.comments else none

/-- A method with a record, as it is shown in a chain. -/
def recordedEntry (a : Assembly) (m : Signature) : Option MethodEntry :=
  (a.snapshot.record? m).map fun r =>
    { signature := m.text
      name := m.displayName
      location := r.location
      file := some r.file
      lineRange := some r.lineRange
      source := if a.output.includeSource then some r.source else none
      comments := a.recordedComments r
      probableImplementations :=
        (((a.implementations.siblings m).filter (· ≠ m)).toList).map (·.text) }

/-- The report of caller chains, if all their methods have records. -/
def recordedChainReport (a : Assembly) (target : Signature) (set : ChainSet) : Option ChainReport :=
  let entries (chain : List Signature) : Option (List MethodEntry) :=
    chain.reverse.mapM a.recordedEntry
  (set.chains.mapM entries).map fun chains =>
    { target := target.text, truncated := set.truncated, chains }

mutual

/-- A tree of calls as it is shown, if all its methods have records. -/
def recordedTreeNode (a : Assembly) : CallTree → Option TreeNode
  | .node none children => (recordedTreeNodes a children).map (.node commonRoot "" 0)
  | .node (some m) children =>
    match a.snapshot.record? m with
    | some r => (recordedTreeNodes a children).map (.node m.text r.file r.lineRange.first)
    | none => none

/-- Several trees of calls as they are shown, if all their methods have records. -/
def recordedTreeNodes (a : Assembly) : List CallTree → Option (List TreeNode)
  | [] => some []
  | t :: ts =>
    match recordedTreeNode a t, recordedTreeNodes a ts with
    | some n, some ns => some (n :: ns)
    | _, _ => none

end

/-- A method with a record, as it is shown beside a tree. -/
def recordedSummary (a : Assembly) (m : Signature) : Option MethodSummary :=
  (a.snapshot.record? m).map fun r =>
    { name := m.displayName
      signature := m.text
      body :=
        if a.output.includeSource then some (if r.body.isSome then r.source else abstractBody)
        else none
      comments := a.recordedComments r }

/-- The report of a tree of calls, if all its methods have records. -/
def recordedTreeReport (a : Assembly) (time : String) (target : Signature) (t : EntryTree) :
    Option TreeReport :=
  match a.recordedTreeNode t.root, t.root.signatures.mapM a.recordedSummary with
  | some tree, some methods =>
    some { target := target.text, generatedAt := time, truncated := t.truncated, tree, methods }
  | _, _ => none

/-- A method with a record, as it is shown in a list. -/
def recordedListEntry (a : Assembly) (m : Signature) : Option ListEntry :=
  (a.snapshot.record? m).map fun r =>
    { signature := m.text, file := some r.file, line := some r.lineRange.first }

/-- The report of a set of methods, if all of them have records. -/
def recordedListReport (a : Assembly) (target : Signature) (methods : SortedSet Signature) :
    Option ListReport :=
  (methods.toList.mapM a.recordedListEntry).map fun methods => { target := target.text, methods }

end Assembly

namespace Settings

/-- The report on a target in a snapshot, from records alone; none if a record is missing. -/
def recordedReport (settings : Settings) (fs : FileSystem) (time : String) (snapshot : Snapshot)
    (scope : Scope) (target : Signature) (query : Query) : Option (Except Failure String) :=
  let policy := settings.policy
  let implementations := Implementations.build snapshot.types scope
  let graph := CallGraph.build snapshot.edges implementations scope policy.fanOut
  let assembly : Assembly := ⟨snapshot, implementations, settings.output⟩
  let list (methods : SortedSet Signature) : Option (Except Failure String) :=
    (assembly.recordedListReport target methods).map fun r => .ok (r.textAs policy.outputFormat)
  match query with
  | .chains =>
    (assembly.recordedChainReport target (graph.callerChains policy target)).map fun r => do
      r.render (← settings.chainTemplate fs)
  | .tree =>
    (assembly.recordedTreeReport time target
      (graph.entryTree settings.entryNames policy target)).map fun r => .ok r.text
  | .ancestors => list (graph.ancestors target)
  | .callers => list (graph.callers target)

/-- The report that answers a request, from records alone; none if a record is missing. -/
def recordedAnswer (settings : Settings) (fs : FileSystem) (time : String) (request : Request) :
    Option (Except Failure String) :=
  let scope := Scope.ofText request.scope
  match Snapshot.ofDirectory fs settings.sources request.root scope with
  | .error failure => some (.error failure)
  | .ok snapshot =>
    match snapshot.locate request.className request.line with
    | .error failure => some (.error failure)
    | .ok target =>
      if (snapshot.record? target.signature).isSome then
        settings.recordedReport fs time snapshot scope target.signature request.query
      else none

end Settings

namespace Assembly

/-! ### Reports on recorded methods -/

variable {a : Assembly}

/-- A recorded method in a chain. -/
private theorem recordedEntry_eq {m : Signature} (h : (a.snapshot.record? m).isSome) :
    a.recordedEntry m = some (a.entry m) := by
  obtain ⟨r, hr⟩ := Option.isSome_iff_exists.1 h
  simp [recordedEntry, entry, source, comments, recordedComments, hr]

/-- Chains of recorded methods. -/
theorem recordedChainReport_eq {target : Signature} {set : ChainSet}
    (h : ∀ chain ∈ set.chains, ∀ m ∈ chain, (a.snapshot.record? m).isSome) :
    a.recordedChainReport target set = some (a.chainReport target set) := by
  have hchains : set.chains.mapM (fun chain => chain.reverse.mapM a.recordedEntry) =
      some (set.chains.map fun chain => chain.reverse.map a.entry) :=
    mapM_eq_some_of_forall fun chain hchain =>
      mapM_eq_some_of_forall fun m hm => recordedEntry_eq (h chain hchain m (List.mem_reverse.1 hm))
  rw [recordedChainReport, hchains]
  rfl

mutual

/-- A tree of recorded methods. -/
private theorem recordedTreeNode_eq (t : CallTree)
    (h : ∀ m ∈ t.preorder, (a.snapshot.record? m).isSome) :
    a.recordedTreeNode t = some (a.treeNode t) := by
  cases t with
  | node m cs =>
    rw [CallTree.preorder] at h
    have hcs := recordedTreeNodes_eq cs fun b hb => h b (List.mem_append.2 (.inr hb))
    cases m with
    | none => simp [recordedTreeNode, treeNode, hcs]
    | some m =>
      obtain ⟨r, hr⟩ := Option.isSome_iff_exists.1 (h m (by simp))
      simp [recordedTreeNode, treeNode, hcs, hr]

/-- Several trees of recorded methods. -/
private theorem recordedTreeNodes_eq (ts : List CallTree)
    (h : ∀ m ∈ CallTree.preorderAll ts, (a.snapshot.record? m).isSome) :
    a.recordedTreeNodes ts = some (a.treeNodes ts) := by
  cases ts with
  | nil => rfl
  | cons t ts =>
    rw [CallTree.preorderAll] at h
    have ht := recordedTreeNode_eq t fun b hb => h b (List.mem_append.2 (.inl hb))
    have hts := recordedTreeNodes_eq ts fun b hb => h b (List.mem_append.2 (.inr hb))
    simp [recordedTreeNodes, treeNodes, ht, hts]

end

/-- A recorded method beside a tree. -/
private theorem recordedSummary_eq {m : Signature} (h : (a.snapshot.record? m).isSome) :
    a.recordedSummary m = some (a.summary m) := by
  obtain ⟨r, hr⟩ := Option.isSome_iff_exists.1 h
  simp [recordedSummary, summary, body, comments, recordedComments, hr]

/-- An entry tree of recorded methods. -/
theorem recordedTreeReport_eq {time : String} {target : Signature} {t : EntryTree}
    (h : ∀ m ∈ t.root.preorder, (a.snapshot.record? m).isSome) :
    a.recordedTreeReport time target t = some (a.treeReport time target t) := by
  have hmethods : t.root.signatures.mapM a.recordedSummary =
      some (t.root.signatures.map a.summary) :=
    mapM_eq_some_of_forall fun m hm =>
      recordedSummary_eq (h m ((t.root.isFirstOccurrences_signatures.mem_iff m).1 hm))
  simp [recordedTreeReport, treeReport, shownTree_eq, recordedTreeNode_eq t.root h, hmethods]

/-- A recorded method in a list. -/
private theorem recordedListEntry_eq {m : Signature} (h : (a.snapshot.record? m).isSome) :
    a.recordedListEntry m = some (a.listEntry m) := by
  obtain ⟨r, hr⟩ := Option.isSome_iff_exists.1 h
  simp [recordedListEntry, listEntry, hr]

/-- A list of recorded methods. -/
theorem recordedListReport_eq {target : Signature} {methods : SortedSet Signature}
    (h : ∀ m ∈ methods, (a.snapshot.record? m).isSome) :
    a.recordedListReport target methods = some (a.listReport target methods) := by
  have hmethods : methods.toList.mapM a.recordedListEntry = some (methods.toList.map a.listEntry) :=
    mapM_eq_some_of_forall fun m hm => recordedListEntry_eq (h m hm)
  simp [recordedListReport, listReport, hmethods]

end Assembly

namespace Settings

/-- Where all nodes of the graph of a snapshot have records, a report is one from records alone. -/
private theorem recordedReport_eq {settings : Settings} {snapshot : Snapshot} {scope : Scope}
    (hnodes : ∀ m ∈ (CallGraph.build snapshot.edges (Implementations.build snapshot.types scope)
      scope settings.policy.fanOut).nodes, (snapshot.record? m).isSome)
    (fs : FileSystem) (time : String) (target : Signature) (query : Query) :
    settings.recordedReport fs time snapshot scope target query =
      some (settings.reportWith Template.engine fs time snapshot scope target query) := by
  have hg := CallGraph.mirrored_build snapshot.edges (Implementations.build snapshot.types scope)
    scope settings.policy.fanOut
  cases query with
  | chains =>
    simp only [recordedReport, reportWith]
    rw [Assembly.recordedChainReport_eq fun chain hchain m hm =>
      hnodes m (hg.mem_nodes_of_mem_chains hchain hm)]
    rfl
  | tree =>
    simp only [recordedReport, reportWith]
    rw [Assembly.recordedTreeReport_eq fun m hm => hnodes m (hg.mem_nodes_of_mem_entryTree hm)]
    rfl
  | ancestors =>
    simp only [recordedReport, reportWith]
    rw [Assembly.recordedListReport_eq fun m hm => hnodes m (hg.mem_nodes_of_mem_ancestors hm)]
    rfl
  | callers =>
    simp only [recordedReport, reportWith]
    rw [Assembly.recordedListReport_eq fun m hm => hnodes m (hg.mem_nodes_of_mem_callers hm)]
    rfl

end Settings

namespace Snapshot

/-- The answer to a request is one from records alone. -/
private theorem recordedAnswer_eq (settings : Settings) (fs : FileSystem) (time : String)
    (request : Request) :
    settings.recordedAnswer fs time request = some (settings.answer fs time request) := by
  rw [Settings.recordedAnswer, Settings.answer, Settings.answerWith]
  cases hsnapshot : ofDirectory fs settings.sources request.root (Scope.ofText request.scope) with
  | error failure => rfl
  | ok snapshot =>
    obtain ⟨files, stats, hfiles⟩ := exists_files_of_ofDirectory hsnapshot
    -- the figures of a snapshot do not enter what follows
    have hlocate : snapshot.locate = (build files (Scope.ofText request.scope)).locate := by
      rw [hfiles]
      rfl
    have hrecord : ∀ m, snapshot.record? m =
        (build files (Scope.ofText request.scope)).record? m := by
      rw [hfiles]
      exact fun m => rfl
    have hnodes : ∀ m ∈ (CallGraph.build snapshot.edges
        (Implementations.build snapshot.types (Scope.ofText request.scope))
        (Scope.ofText request.scope) settings.policy.fanOut).nodes,
        (snapshot.record? m).isSome := by
      intro m hm
      rw [hrecord, isSome_record?_build]
      rw [hfiles] at hm
      exact (declaredIn_of_mem_nodes files _ _ hm).1
    cases htarget : snapshot.locate request.className request.line with
    | error failure => simp [htarget, bind, Except.bind]
    | ok target =>
      have htargetRecord : (snapshot.record? target.signature).isSome := by
        rw [hlocate] at htarget
        rw [hrecord, isSome_record?_build]
        exact declaredIn_of_locate htarget
      simp only [htarget, htargetRecord, if_true, Settings.recordedReport_eq hnodes]
      simp [htarget, bind, Except.bind]

/-- All nodes of the graph of a snapshot lie inside the scope and have records, and so have located
targets.  So every answer to a request comes from records alone. -/
theorem records_cover_reports (files : List SourceFile) (scope : Scope) (fanOut : FanOut) :
    let snapshot := build files scope
    let implementations := Implementations.build snapshot.types scope
    let graph := CallGraph.build snapshot.edges implementations scope fanOut
    (∀ m ∈ graph.nodes,
        scope.containsType m.qualifiedType = true ∧ (snapshot.record? m).isSome = true) ∧
      (∀ className line target, snapshot.locate className line = .ok target →
        (snapshot.record? target.signature).isSome = true) ∧
      ∀ (settings : Settings) (fs : FileSystem) (time : String) (request : Request),
        settings.recordedAnswer fs time request = some (settings.answer fs time request) := by
  intro snapshot implementations graph
  refine ⟨fun m hm => ?_, fun className line target h => ?_, recordedAnswer_eq⟩
  · obtain ⟨hdeclared, hscope⟩ := declaredIn_of_mem_nodes files scope fanOut hm
    exact ⟨hscope, isSome_record?_build.2 hdeclared⟩
  · exact isSome_record?_build.2 (declaredIn_of_locate h)

/-- A class that calls a method of an interface: the class that implements the interface gets into
the graph without a call of its own, and has a record. -/
theorem records_cover_reports_implementation :
    let method := fun name line calls =>
      (⟨name, [], ⟨line, line⟩, name, none, none, [], calls⟩ : MethodDecl)
    let types : List TypeDecl :=
      [⟨"Api", .interfaceDecl, none, [], [], [method "run" 1 []], ⟨1, 1⟩⟩,
        ⟨"Impl", .classDecl, none, ["Api"], [], [method "run" 2 []], ⟨2, 2⟩⟩,
        ⟨"App", .classDecl, none, [], [⟨"api", "Api"⟩],
          [method "main" 3 [⟨.path ["api"], "run", [], 3⟩]], ⟨3, 3⟩⟩]
    let files : List SourceFile := [{ package := some "p", types, path := "App.java", text := "" }]
    let scope : Scope := ⟨"p"⟩
    let snapshot := build files scope
    let implementations := Implementations.build snapshot.types scope
    let graph := CallGraph.build snapshot.edges implementations scope .all
    let run : Signature := ⟨"p", "Impl", "run", []⟩
    let main : Signature := ⟨"p", "App", "main", []⟩
    (run ∈ graph.nodes ∧ snapshot.locate "p.App" 3 = .ok ⟨main, "App.java", ⟨3, 3⟩⟩) ∧
      (scope.containsType run.qualifiedType = true ∧ (snapshot.record? run).isSome = true) ∧
      (snapshot.record? main).isSome = true ∧
      ∀ (settings : Settings) (fs : FileSystem) (time : String) (request : Request),
        settings.recordedAnswer fs time request = some (settings.answer fs time request) := by
  intro method types files scope snapshot implementations graph run main
  have hnode : run ∈ graph.nodes := by decide +zetaReduce
  have htarget : snapshot.locate "p.App" 3 = .ok ⟨main, "App.java", ⟨3, 3⟩⟩ := by
    simp only [snapshot, files, types, method, scope, main]
    rfl
  obtain ⟨hnodes, htargets, hanswers⟩ := records_cover_reports files scope .all
  exact ⟨⟨hnode, htarget⟩, hnodes run hnode, htargets _ _ _ htarget, hanswers⟩

end Snapshot

end CallPaths
