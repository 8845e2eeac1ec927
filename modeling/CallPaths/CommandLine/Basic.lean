import CallPaths.Query
import CallPaths.Text.Decimal

/-!
# Command lines

What a command line asks for: a class, a line, a directory, a scope, and choices that come before
those of a configuration file.
-/

namespace CallPaths

/-- A command line. -/
structure CommandLine where
  className : String
  /-- The line number as written. -/
  line : String
  root : String
  scope : String
  configPath : Option String := none
  verbose : Bool := false
  format : Option OutputFormat := none
  fanOut : Option FanOut := none
  cycleScope : Option CycleScope := none
  ancestors : Bool := false
  callers : Bool := false
  maxVisits : Option Nat := none
  noSource : Bool := false
deriving DecidableEq, Repr, Inhabited

namespace CommandLine

/-- The line number, which is positive.  Blanks around it do not matter. -/
def lineNumber (c : CommandLine) : Except Failure Nat :=
  match Text.unsigned? (Text.trim c.line) with
  | some n => if 0 < n then .ok n else .error (.malformedLine c.line)
  | none => .error (.malformedLine c.line)

/-- The settings with what the command line chooses. -/
def adjust (c : CommandLine) (s : Settings) : Settings :=
  { s with
    policy :=
      { fanOut := c.fanOut.getD s.policy.fanOut
        cycleScope := c.cycleScope.getD s.policy.cycleScope
        outputFormat := c.format.getD s.policy.outputFormat
        maxVisits := c.maxVisits.getD s.policy.maxVisits }
    output := { s.output with includeSource := s.output.includeSource && !c.noSource } }

/-- The request under settings. -/
def request (c : CommandLine) (s : Settings) : Except Failure Request := do
  return {
    className := Text.trim c.className
    line := ← c.lineNumber
    root := c.root
    scope := c.scope
    query := Query.ofFlags c.ancestors c.callers s.policy.outputFormat }

end CommandLine

end CallPaths
