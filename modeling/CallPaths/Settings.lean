import CallPaths.Graph.EntryPoints

/-!
# Settings

What a configuration file can set, with the values that hold without one.
-/

namespace CallPaths

/-- Which files are read. -/
structure SourceSettings where
  /-- The file extensions of sources. -/
  extensions : List String := ["java"]
  /-- The largest size of a file in bytes. -/
  maxFileSize : Nat := 1048576
  /-- Whether `.gitignore` files count. -/
  respectGitignore : Bool := true
deriving DecidableEq, Repr, Inhabited

/-- What reports contain. -/
structure OutputSettings where
  includeSource : Bool := true
  includeComments : Bool := true
  /-- The path of a template for chain reports. -/
  template : Option String := none
deriving DecidableEq, Repr, Inhabited

/-- All settings of a run. -/
structure Settings where
  sources : SourceSettings := {}
  policy : Policy := {}
  /-- The method names that mark entry points. -/
  entryNames : List String := CallGraph.defaultEntryNames
  output : OutputSettings := {}
deriving DecidableEq, Repr, Inhabited

end CallPaths
