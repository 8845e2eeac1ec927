import CallPaths.Graph.Ancestors
import CallPaths.Graph.Chains
import CallPaths.Locate
import CallPaths.Report.Text
import CallPaths.Source.Scan

/-!
# Questions about a method

A request names a method by class and line, a directory of sources, a scope and a query.  The answer
is the text of a report.
-/

namespace CallPaths

/-- What is asked of a method. -/
inductive Query where
  /-- The chains of calls that lead to it. -/
  | chains
  /-- The tree of calls from the entry points to it. -/
  | tree
  /-- All methods from which it can be reached. -/
  | ancestors
  /-- The methods that call it. -/
  | callers
deriving DecidableEq, Repr, Inhabited

namespace Query

/-- The name of a query. -/
def word : Query → String
  | chains => "chains"
  | tree => "tree"
  | ancestors => "ancestors"
  | callers => "callers"

/-- The query that a name stands for. -/
def ofWord? (s : String) : Option Query :=
  [chains, tree, ancestors, callers].find? (·.word = s)

/-- The query that two flags and a format ask for.  Flags come before the format. -/
def ofFlags (wantsAncestors wantsCallers : Bool) (format : OutputFormat) : Query :=
  if wantsAncestors then ancestors
  else if wantsCallers then callers
  else
    match format with
    | .tree => tree
    | .text => chains

end Query

/-- A question about the method at a line of a class. -/
structure Request where
  /-- The qualified name of the class. -/
  className : String
  line : Nat
  /-- The path of the directory with the sources. -/
  root : String
  /-- The package that bounds the graph. -/
  scope : String
  query : Query
deriving DecidableEq, Repr, Inhabited

/-- The text of a list of methods in a format. -/
def ListReport.textAs (r : ListReport) : OutputFormat → String
  | .text => r.text
  | .tree => r.toJson.pretty

namespace Settings

/-- The template of chain reports. -/
def chainTemplate (settings : Settings) (fs : FileSystem) : Except Failure String :=
  match settings.output.template with
  | none => .ok CallPaths.chainTemplate
  | some path =>
    match fs.readText path with
    | .ok text => .ok text
    | .error fault => .error (.unreadableFile fault)

/-- The report on a target in a snapshot, with an engine for the template of chain reports.  `time`
is shown in the report of a tree. -/
def reportWith (engine : Template.Engine) (settings : Settings) (fs : FileSystem) (time : String)
    (snapshot : Snapshot) (scope : Scope) (target : Signature) (query : Query) :
    Except Failure String :=
  let policy := settings.policy
  let implementations := Implementations.build snapshot.types scope
  let graph := CallGraph.build snapshot.edges implementations scope policy.fanOut
  let assembly : Assembly := ⟨snapshot, implementations, settings.output⟩
  let list (methods : SortedSet Signature) : String :=
    (assembly.listReport target methods).textAs policy.outputFormat
  match query with
  | .chains => do
    let template ← settings.chainTemplate fs
    (assembly.chainReport target (graph.callerChains policy target)).renderWith engine template
  | .tree =>
    .ok (assembly.treeReport time target (graph.entryTree settings.entryNames policy target)).text
  | .ancestors => .ok (list (graph.ancestors target))
  | .callers => .ok (list (graph.callers target))

/-- The report that answers a request, with an engine for the template of chain reports. -/
def answerWith (engine : Template.Engine) (settings : Settings) (fs : FileSystem) (time : String)
    (request : Request) : Except Failure String := do
  let scope := Scope.ofText request.scope
  let snapshot ← Snapshot.ofDirectory fs settings.sources request.root scope
  let target ← snapshot.locate request.className request.line
  settings.reportWith engine fs time snapshot scope target.signature request.query

/-- The report that answers a request. -/
def answer (settings : Settings) (fs : FileSystem) (time : String) (request : Request) :
    Except Failure String :=
  settings.answerWith Template.engine fs time request

end Settings

end CallPaths
