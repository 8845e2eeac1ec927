import CallPaths.Files.Tree
import CallPaths.Settings
import CallPaths.Toml.Reader

/-!
# Settings from configuration files

A configuration file is a TOML document with the tables `parsing`, `policy`, `entry_points` and
`output`.  Keys that are not there keep the values that hold without a file, and keys that are not
known do not count.
-/

namespace CallPaths

namespace Toml.Value

/-- The values of named fields.  Besides a table, a list gives them in order, and a date gives
none. -/
def fields? (names : List String) : Value → Option (List (Option Value))
  | .table members => some (names.map fun n => (members.find? (·.1 = n)).map (·.2))
  | .array items => some (names.zipIdx.map fun (_, i) => items[i]?)
  | .date => some (names.map fun _ => none)
  | _ => none

/-- The value at a place of a list of fields, decoded, or what holds without it. -/
def field? (fields : List (Option Value)) (i : Nat) (decode : Value → Option α) (fallback : α) :
    Option α :=
  match (fields[i]?).join with
  | some v => decode v
  | none => some fallback

/-- A text. -/
def text? : Value → Option String
  | .text s => some s
  | _ => none

/-- A truth value. -/
def boolean? : Value → Option Bool
  | .boolean b => some b
  | _ => none

/-- A number that is not negative. -/
def natural? : Value → Option Nat
  | .integer n => if 0 ≤ n then some n.toNat else none
  | _ => none

/-- A list of texts. -/
def texts? : Value → Option (List String)
  | .array items => items.mapM text?
  | _ => none

/-- Whether a value is a list or a table without items. -/
def isEmptyGroup : Value → Bool
  | .array [] => true
  | .table [] => true
  | _ => false

/-- One of several words, as a text or as the only key of a table, with an empty value. -/
def word? (ofWord? : String → Option α) : Value → Option α
  | .text s => ofWord? s
  | .table [(key, v)] => if v.isEmptyGroup then ofWord? key else none
  | _ => none

end Toml.Value

open Toml.Value

/-- The settings on source files. -/
def SourceSettings.ofToml? (v : Toml.Value) : Option SourceSettings :=
  (fields? ["file_extensions", "max_file_size", "respect_gitignore"] v).bind fun fs => do
    let base : SourceSettings := {}
    return {
      extensions := ← field? fs 0 texts? base.extensions
      maxFileSize := ← field? fs 1 natural? base.maxFileSize
      respectGitignore := ← field? fs 2 boolean? base.respectGitignore }

/-- The settings of traversals. -/
def Policy.ofToml? (v : Toml.Value) : Option Policy :=
  (fields? ["fan_out", "cycle_scope", "output_format", "max_visits"] v).bind fun fs => do
    let base : Policy := {}
    return {
      fanOut := ← field? fs 0 (word? FanOut.ofWord?) base.fanOut
      cycleScope := ← field? fs 1 (word? CycleScope.ofWord?) base.cycleScope
      outputFormat := ← field? fs 2 (word? OutputFormat.ofWord?) base.outputFormat
      maxVisits := ← field? fs 3 natural? base.maxVisits }

/-- The names of entry points. -/
def entryNamesOfToml? (v : Toml.Value) : Option (List String) :=
  (fields? ["names"] v).bind fun fs => field? fs 0 texts? CallGraph.defaultEntryNames

/-- The settings on reports. -/
def OutputSettings.ofToml? (v : Toml.Value) : Option OutputSettings :=
  (fields? ["include_source", "include_comments", "text_template"] v).bind fun fs => do
    let base : OutputSettings := {}
    return {
      includeSource := ← field? fs 0 boolean? base.includeSource
      includeComments := ← field? fs 1 boolean? base.includeComments
      template := ← field? fs 2 (fun v => (text? v).map some) base.template }

namespace Settings

/-- The settings of a document. -/
def ofToml? (v : Toml.Value) : Option Settings :=
  (fields? ["parsing", "policy", "entry_points", "output"] v).bind fun fs => do
    return {
      sources := ← field? fs 0 SourceSettings.ofToml? {}
      policy := ← field? fs 1 Policy.ofToml? {}
      entryNames := ← field? fs 2 entryNamesOfToml? CallGraph.defaultEntryNames
      output := ← field? fs 3 OutputSettings.ofToml? {} }

/-- The settings of the text of a configuration file. -/
def ofText (s : String) : Except Failure Settings :=
  match Toml.read? s with
  | none => .error (.badConfig "the file is no TOML document")
  | some v =>
    match ofToml? v with
    | some settings => .ok settings
    | none => .error (.badConfig "a value does not fit its setting")

/-- The settings in the configuration file at a path. -/
def ofFile (fs : FileSystem) (path : String) : Except Failure Settings :=
  match fs.readText path with
  | .ok content => ofText content
  | .error fault => .error (.unreadableFile fault)

/-- The paths where a configuration file is looked for. -/
def usualPaths : List String :=
  ["Callertrace.toml", "callertrace.toml", ".callertrace.toml"]

/-- The settings of a run.  A path that is given has to exist; otherwise the first of the usual
paths that exists counts, and without any the settings are those that hold without a file. -/
def load (fs : FileSystem) (path : Option String) : Except Failure Settings :=
  match path with
  | some p => if fs.pathExists p then ofFile fs p else .error (.missingConfig p)
  | none =>
    match usualPaths.find? fs.pathExists with
    | some p => ofFile fs p
    | none => .ok {}

end Settings

end CallPaths
