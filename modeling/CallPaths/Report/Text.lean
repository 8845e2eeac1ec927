import CallPaths.Report.Json
import CallPaths.Template.Render

/-!
# Chain reports as text

A chain report is written by a template: one that the settings name, or the one here.
-/

namespace CallPaths

/-- The template of chain reports unless the settings name another one. -/
def chainTemplate : String :=
  "Caller chains for \x7b\x7b target \x7d\x7d (\x7b\x7b chains | length \x7d\x7d found)
\x7b% for chain in chains %\x7d
=== Complete Caller Chain ===
\x7b% for method in chain.methods -%\x7d
--- \x7b\x7b method.signature \x7d\x7d ---
\x7b% if method.probable_implementations -%\x7d
// PROBABLE IMPLEMENTATION CALLS:
\x7b% for related in method.probable_implementations -%\x7d
//   \x7b\x7b related \x7d\x7d
\x7b% endfor -%\x7d
\x7b% endif -%\x7d
// \x7b\x7b method.location \x7d\x7d
\x7b% if method.comments -%\x7d
\x7b\x7b method.comments \x7d\x7d
\x7b% endif -%\x7d
\x7b% if method.source -%\x7d
\x7b\x7b method.source \x7d\x7d
\x7b% endif %\x7d
\x7b% endfor -%\x7d
\x7b% endfor -%\x7d
\x7b% if truncated %\x7d
// WARNING: visit budget exhausted, the chains above are incomplete
\x7b% endif -%\x7d
"

namespace ChainReport

/-- The variables that a template of a chain report knows. -/
def members (r : ChainReport) : List (String × Json) :=
  match r.toJson with
  | .obj members => members
  | _ => []

/-- The text that an engine makes of a template for a report. -/
def renderWith (engine : Template.Engine) (r : ChainReport) (template : String) :
    Except Failure String :=
  match engine template r.members with
  | .ok s => .ok s
  | .error reason => .error (.badTemplate reason)

/-- The text that a template gives for a report. -/
def render (r : ChainReport) (template : String) : Except Failure String :=
  r.renderWith Template.engine template

end ChainReport

end CallPaths
