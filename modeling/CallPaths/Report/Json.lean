import CallPaths.Json
import CallPaths.Report.Basic

/-!
# Reports as JSON

The members of each object stand in a fixed order, which the written form shows.
-/

namespace CallPaths

/-- The two ends of a line range. -/
def LineRange.toJson (r : LineRange) : Json :=
  .arr [.num r.first, .num r.last]

namespace MethodEntry

/-- A method of a chain as JSON. -/
def toJson (e : MethodEntry) : Json :=
  .obj
    [("signature", .str e.signature),
      ("name", .str e.name),
      ("location", .str e.location),
      ("file", .ofOption .str e.file),
      ("line_range", .ofOption LineRange.toJson e.lineRange),
      ("source", .ofOption .str e.source),
      ("comments", .ofOption .str e.comments),
      ("probable_implementations", .strings e.probableImplementations)]

end MethodEntry

namespace ChainReport

/-- A report of chains as JSON. -/
def toJson (r : ChainReport) : Json :=
  .obj
    [("target", .str r.target),
      ("truncated", .bool r.truncated),
      ("chains", .arr (r.chains.map fun chain =>
        .obj [("methods", .arr (chain.map MethodEntry.toJson))]))]

end ChainReport

namespace TreeNode

mutual

/-- A node with all below it as JSON. -/
def toJson : TreeNode → Json
  | node method file line children =>
    .obj
      [("method", .str method),
        ("file", .str file),
        ("line", .num line),
        ("children", .arr (toJsonAll children))]

/-- Several nodes as JSON. -/
def toJsonAll : List TreeNode → List Json
  | [] => []
  | t :: ts => toJson t :: toJsonAll ts

end

end TreeNode

namespace MethodSummary

/-- A method of a tree as JSON. -/
def toJson (s : MethodSummary) : Json :=
  .obj
    [("name", .str s.name),
      ("signature", .str s.signature),
      ("body", .ofOption .str s.body),
      ("comments", .ofOption .str s.comments)]

end MethodSummary

namespace TreeReport

/-- A report of a tree as JSON. -/
def toJson (r : TreeReport) : Json :=
  .obj
    [("target", .str r.target),
      ("generated_at", .str r.generatedAt),
      ("truncated", .bool r.truncated),
      ("dag_tree", r.tree.toJson),
      ("methods", .arr (r.methods.map MethodSummary.toJson))]

/-- The written form. -/
def text (r : TreeReport) : String :=
  r.toJson.pretty

end TreeReport

namespace ListEntry

/-- A method of a list as JSON. -/
def toJson (e : ListEntry) : Json :=
  .obj
    [("signature", .str e.signature),
      ("file", .ofOption .str e.file),
      ("line", .ofOption .num e.line)]

end ListEntry

namespace ListReport

/-- The methods of a list as a JSON array. -/
def toJson (r : ListReport) : Json :=
  .arr (r.methods.map ListEntry.toJson)

/-- A line for a method: its signature, and the place of its declaration if that is known. -/
def line (e : ListEntry) : String :=
  match e.file, e.line with
  | some file, some line => e.signature ++ " (" ++ file ++ ":" ++ toString line ++ ")\n"
  | _, _ => e.signature ++ "\n"

/-- One line for each method. -/
def text (r : ListReport) : String :=
  String.join (r.methods.map line)

end ListReport

end CallPaths
