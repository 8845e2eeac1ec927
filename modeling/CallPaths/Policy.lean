/-!
# Traversal policies

The choices that shape a call graph and the walks over it.
-/

namespace CallPaths

/-- How a call of an interface method is expanded onto its implementations. -/
inductive FanOut where
  /-- An edge to every implementation. -/
  | all
  /-- An edge to the first implementation only. -/
  | firstOnly
deriving DecidableEq, Repr, Inhabited

/-- Where a method counts as visited. -/
inductive CycleScope where
  /-- On the current path; a method may stand on several paths. -/
  | pathLocal
  /-- In the whole walk; a method is expanded at most once. -/
  | global
deriving DecidableEq, Repr, Inhabited

/-- The shape of a report. -/
inductive OutputFormat where
  /-- Plain text. -/
  | text
  /-- A tree, or a list of methods, as JSON. -/
  | tree
deriving DecidableEq, Repr, Inhabited

namespace FanOut

/-- The word for a policy in configuration files and on the command line. -/
def word : FanOut → String
  | all => "all"
  | firstOnly => "first-only"

/-- The policy that a word names. -/
def ofWord? (s : String) : Option FanOut :=
  [all, firstOnly].find? (·.word = s)

end FanOut

namespace CycleScope

/-- The word for a cycle scope in configuration files and on the command line. -/
def word : CycleScope → String
  | pathLocal => "path-local"
  | global => "global"

/-- The cycle scope that a word names. -/
def ofWord? (s : String) : Option CycleScope :=
  [pathLocal, global].find? (·.word = s)

end CycleScope

namespace OutputFormat

/-- The word for a format in configuration files and on the command line. -/
def word : OutputFormat → String
  | text => "text"
  | tree => "tree"

/-- The format that a word names. -/
def ofWord? (s : String) : Option OutputFormat :=
  [text, tree].find? (·.word = s)

end OutputFormat

/-- The settings of a traversal. -/
structure Policy where
  /-- Expansion of interface calls. -/
  fanOut : FanOut := .all
  /-- Where a method counts as visited. -/
  cycleScope : CycleScope := .pathLocal
  /-- Shape of the report. -/
  outputFormat : OutputFormat := .text
  /-- Limit on the number of visited nodes; zero is no limit. -/
  maxVisits : Nat := 1000000
deriving DecidableEq, Repr, Inhabited

/-- The limit on the number of visits, if there is one. -/
def Policy.visitLimit (p : Policy) : Option Nat :=
  if p.maxVisits = 0 then none else some p.maxVisits

end CallPaths
