import CallPaths.Graph.Basic
import CallPaths.Resolve

/-!
# Snapshots of a source tree

Everything that later steps need of a list of source files: the methods with their declarations, the
resolved calls and the resolved types.  `Snapshot.build` makes it; it is not changed afterwards.
-/

namespace CallPaths

/-- What reports show of a method declaration. -/
structure MethodRecord where
  /-- The path of the file. -/
  file : String
  lineRange : LineRange
  source : String
  /-- None for methods without a body. -/
  body : Option String
  comments : Option String
deriving DecidableEq, Repr, Inhabited

/-- Figures on an analysis. -/
structure SnapshotStats where
  filesDiscovered : Nat := 0
  filesParsed : Nat := 0
  filesSkipped : Nat := 0
  types : Nat := 0
  methods : Nat := 0
  callsSeen : Nat := 0
  callsResolved : Nat := 0
deriving DecidableEq, Repr, Inhabited

/-- The analysed sources. -/
structure Snapshot where
  records : SortedMap Signature MethodRecord := ∅
  /-- The resolved calls in order of their places, repetitions included. -/
  edges : List Edge := []
  types : SortedMap String ResolvedType := ∅
  files : List SourceFile := []
  declarations : Declarations := {}
  stats : SnapshotStats := {}

/-- A declared method whose parameters all have types. -/
structure DeclaredMethod where
  owner : Declared
  method : MethodDecl
  signature : Signature

namespace Declarations

/-- The methods of a type whose parameters all have types, in order. -/
def methodsOf (d : Declarations) (owner : Declared) : List DeclaredMethod :=
  owner.type.methods.filterMap fun m =>
    (d.signatureOf? owner m).map fun s => ⟨owner, m, s⟩

/-- A type with its names resolved. -/
def resolveType (d : Declarations) (owner : Declared) : ResolvedType where
  qualifiedName := owner.qualifiedName
  kind := owner.type.kind
  interfaces := owner.type.interfaces.map (d.qualifyIn owner)
  superclass := owner.type.superclass.map (d.qualifyIn owner)
  methods := (d.methodsOf owner).map (·.signature)

end Declarations

namespace DeclaredMethod

/-- What reports show of the method. -/
def record (m : DeclaredMethod) : MethodRecord where
  file := m.owner.file.path
  lineRange := m.method.lineRange
  source := m.method.source
  body := m.method.body
  comments := m.method.comments

end DeclaredMethod

/-- The calls that were looked at. -/
structure CallTally where
  /-- The resolved calls in order of their places. -/
  edges : Array Edge := #[]
  seen : Nat := 0
  resolved : Nat := 0

namespace CallTally

/-- Counts a call of a method, and keeps it if it can be resolved. -/
def add (d : Declarations) (m : DeclaredMethod) (t : CallTally) (call : CallSite) : CallTally :=
  match d.resolve? ⟨m.owner, m.method⟩ call with
  | some callee =>
    { edges := t.edges.push ⟨m.signature, callee⟩
      seen := t.seen + 1
      resolved := t.resolved + 1 }
  | none => { t with seen := t.seen + 1 }

/-- Looks at the calls of some methods. -/
def ofCallers (d : Declarations) (callers : List DeclaredMethod) : CallTally :=
  callers.foldl (fun t m => m.method.calls.foldl (add d m) t) {}

end CallTally

namespace Snapshot

instance : Inhabited Snapshot := ⟨{}⟩

/-- The snapshot of a list of files.  Records and types cover all files; only calls by methods
inside the scope are resolved.  Of several declarations with one name or one signature the first
counts. -/
def build (files : List SourceFile) (scope : Scope) : Snapshot :=
  let d := Declarations.ofFiles files
  let owners := declaredTypes files
  let methods := owners.flatMap d.methodsOf
  let callers := methods.filter fun m => scope.containsType m.owner.qualifiedName
  let calls := CallTally.ofCallers d callers
  let records := methods.foldl (fun r m => r.insertIfNew m.signature m.record)
    (∅ : SortedMap Signature MethodRecord)
  let types := owners.foldl (fun t o => t.insertIfNew o.qualifiedName (d.resolveType o))
    (∅ : SortedMap String ResolvedType)
  { records, types, files
    edges := calls.edges.toList
    declarations := d
    stats :=
      { filesDiscovered := files.length
        filesParsed := files.length
        types := types.size
        methods := records.size
        callsSeen := calls.seen
        callsResolved := calls.resolved } }

/-- The record of a method. -/
def record? (s : Snapshot) (m : Signature) : Option MethodRecord :=
  s.records.get? m

end Snapshot

end CallPaths
