import CallPaths.Graph.Chains
import CallPaths.Graph.Layout
import CallPaths.Settings
import CallPaths.Snapshot

/-!
# Reports

The results of a query together with what the snapshot knows of the methods in them.  A method
without a record is shown as unavailable.
-/

namespace CallPaths

/-- A method of a chain. -/
structure MethodEntry where
  signature : String
  name : String
  /-- File and lines, or a mark that they are not known. -/
  location : String
  file : Option String
  lineRange : Option LineRange
  source : Option String
  comments : Option String
  /-- The methods related to it by an interface, without itself. -/
  probableImplementations : List String
deriving DecidableEq, Repr, Inhabited

/-- Caller chains, each from the furthest caller to the target. -/
structure ChainReport where
  target : String
  truncated : Bool
  chains : List (List MethodEntry)
deriving DecidableEq, Repr, Inhabited

/-- A node of a reported tree of calls. -/
inductive TreeNode where
  | node (method file : String) (line : Nat) (children : List TreeNode)
deriving Repr, Inhabited

/-- A method of a reported tree. -/
structure MethodSummary where
  name : String
  signature : String
  body : Option String
  comments : Option String
deriving DecidableEq, Repr, Inhabited

/-- A tree of calls from the entry points to a target. -/
structure TreeReport where
  target : String
  /-- The time of the report, as it is shown. -/
  generatedAt : String
  truncated : Bool
  tree : TreeNode
  /-- Every method of the tree once, in order of first occurrence. -/
  methods : List MethodSummary
deriving Repr, Inhabited

/-- A method of a list, with the place of its declaration. -/
structure ListEntry where
  signature : String
  file : Option String
  line : Option Nat
deriving DecidableEq, Repr, Inhabited

/-- A list of methods. -/
structure ListReport where
  target : String
  methods : List ListEntry
deriving DecidableEq, Repr, Inhabited

/-- Shown where a method has no record. -/
def unavailable : String := "unavailable"

/-- Shown in place of the source of a method without a record. -/
def missingBody : String := "// Method body not available (external or unresolved)"

/-- Shown in place of the source of a method without a body. -/
def abstractBody : String := "// Abstract method or interface method - no body"

/-- The name of a tree's root over several entry points. -/
def commonRoot : String := "ROOT"

namespace MethodRecord

/-- File and lines. -/
def location (r : MethodRecord) : String :=
  r.file ++ ":" ++ toString r.lineRange.first ++ "-" ++ toString r.lineRange.last

end MethodRecord

/-- What reports are assembled from. -/
structure Assembly where
  snapshot : Snapshot
  implementations : Implementations
  output : OutputSettings

namespace Assembly

/-- The comments shown for a method. -/
def comments (a : Assembly) (m : Signature) : Option String :=
  if a.output.includeComments then (a.snapshot.record? m).bind (·.comments) else none

/-- The source text shown for a method of a chain. -/
def source (a : Assembly) (m : Signature) : Option String :=
  if a.output.includeSource then
    some (((a.snapshot.record? m).map (·.source)).getD missingBody)
  else none

/-- The source text shown for a method of a tree. -/
def body (a : Assembly) (m : Signature) : Option String :=
  if a.output.includeSource then
    match a.snapshot.record? m with
    | some r => some (if r.body.isSome then r.source else abstractBody)
    | none => some missingBody
  else none

/-- A method as it is shown in a chain. -/
def entry (a : Assembly) (m : Signature) : MethodEntry :=
  let record := a.snapshot.record? m
  { signature := m.text
    name := m.displayName
    location := (record.map (·.location)).getD unavailable
    file := record.map (·.file)
    lineRange := record.map (·.lineRange)
    source := a.source m
    comments := a.comments m
    probableImplementations :=
      (((a.implementations.siblings m).filter (· ≠ m)).toList).map (·.text) }

/-- The report of caller chains. -/
def chainReport (a : Assembly) (target : Signature) (set : ChainSet) : ChainReport where
  target := target.text
  truncated := set.truncated
  chains := set.chains.map fun chain => chain.reverse.map a.entry

/-- A node of a tree of calls as it is shown. -/
def shownNode (a : Assembly) (m : Option Signature) (children : List TreeNode) : TreeNode :=
  match m with
  | none => .node commonRoot "" 0 children
  | some m =>
    let record := a.snapshot.record? m
    .node m.text ((record.map (·.file)).getD unavailable)
      ((record.map (·.lineRange.first)).getD 0) children

/-- A tree of calls as it is shown. -/
def shownTree (a : Assembly) (t : CallTree) : TreeNode :=
  t.build a.shownNode

/-- A method as it is shown beside a tree. -/
def summary (a : Assembly) (m : Signature) : MethodSummary where
  name := m.displayName
  signature := m.text
  body := a.body m
  comments := a.comments m

/-- The report of a tree of calls. -/
def treeReport (a : Assembly) (time : String) (target : Signature) (t : EntryTree) :
    TreeReport where
  target := target.text
  generatedAt := time
  truncated := t.truncated
  tree := a.shownTree t.root
  methods := t.root.signatures.map a.summary

/-- A method as it is shown in a list. -/
def listEntry (a : Assembly) (m : Signature) : ListEntry :=
  let record := a.snapshot.record? m
  { signature := m.text
    file := record.map (·.file)
    line := record.map (·.lineRange.first) }

/-- The report of a set of methods. -/
def listReport (a : Assembly) (target : Signature) (methods : SortedSet Signature) :
    ListReport where
  target := target.text
  methods := methods.toList.map a.listEntry

end Assembly

end CallPaths
