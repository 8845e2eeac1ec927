import CallPaths.Files.Glob
import CallPaths.Files.Tree

/-!
# Ignore rules

A directory can hold files with rules on what is not to be looked at below it: `.ignore`, and inside
a repository `.gitignore` and `.git/info/exclude`.  A repository reaches from a directory that holds
`.git` down.

* A rule is a glob pattern.  Without a separator it applies at any depth, otherwise from the
  directory of its file on.  With a separator at its end it applies to directories only.
* `!` in front of a rule takes back what other rules say.
* Of the rules in one file the last that fits decides, of several files that of the innermost
  directory, and `.ignore` comes before `.gitignore` before `exclude`.
-/

namespace CallPaths

/-- A line of an ignore file. -/
structure IgnoreRule where
  glob : Glob
  /-- Whether what fits is kept. -/
  keeps : Bool
  directoriesOnly : Bool

namespace IgnoreRule

/-- A text without a character at its start, and whether it stood there. -/
def takeMark (mark : Char) : List Char → Bool × List Char
  | c :: cs => if c = mark then (true, cs) else (false, c :: cs)
  | [] => (false, [])

/-- A line without the blanks at its end; a blank behind a backslash keeps the line as it is. -/
def dropBlankEnd (line : List Char) : List Char :=
  if ['\\', ' '].isSuffixOf line then line else Text.trimRight line

/-- A pattern without the separator at its end and a backslash before that, and whether one stood
there. -/
def takeDirectoryMark (pattern : List Char) : Bool × List Char :=
  match pattern.reverse with
  | '/' :: '\\' :: before => (true, before.reverse)
  | '/' :: before => (true, before.reverse)
  | _ => (false, pattern)

/-- The pattern in full: one without a separator applies at any depth, and one that ends with two
stars to what stands below. -/
def spellOut (anchored : Bool) (pattern : List Char) : List Char :=
  let deep := !anchored && !pattern.contains '/' && pattern ≠ ['*', '*']
  let pattern := if deep then ['*', '*', '/'] ++ pattern else pattern
  if ['/', '*', '*'].isSuffixOf pattern then pattern ++ ['/', '*'] else pattern

/-- The rule on a line; none if it is blank, a comment or no pattern. -/
def ofLine? (line : String) : Option IgnoreRule := do
  let text := dropBlankEnd line.toList
  guard (!text.isEmpty && line.toList.head? ≠ some '#')
  let escaped := ['\\', '!'].isPrefixOf text || ['\\', '#'].isPrefixOf text
  let (keeps, text) := if escaped then (false, text.tail) else takeMark '!' text
  let (anchored, text) := if escaped then (false, text) else takeMark '/' text
  let (directoriesOnly, text) := takeDirectoryMark text
  return { glob := ← Glob.read? (spellOut anchored text), keeps, directoriesOnly }

/-- Whether a rule applies to a path below its directory. -/
def applies (r : IgnoreRule) (path : List UInt8) (isDirectory : Bool) : Bool :=
  (isDirectory || !r.directoriesOnly) && r.glob.isMatch path

end IgnoreRule

/-! ### Files of rules -/

/-- The rules of an ignore file, the last one first. -/
abbrev IgnoreRules := List IgnoreRule

namespace IgnoreRules

/-- The pieces of a sequence of bytes between line feeds. -/
def byteLines : List UInt8 → List (List UInt8)
  | [] => [[]]
  | b :: bs =>
    match byteLines bs with
    | [] => [[b]]
    | line :: lines => if b = 10 then [] :: line :: lines else (b :: line) :: lines

/-- A line without the carriage return that belongs to its end. -/
def dropReturnByte (line : List UInt8) : List UInt8 :=
  if line.getLast? = some 13 then line.dropLast else line

/-- The lines of a file up to the first that is no text. -/
def textLines (content : ByteArray) : List String :=
  let lines := byteLines content.toList
  let lines := lines.dropLast.map dropReturnByte ++ lines.getLast?.toList
  ((lines.map fun l => String.fromUTF8? ⟨l.toArray⟩).takeWhile Option.isSome).filterMap id

/-- The rules of a file; a byte order mark at its start does not count. -/
def ofBytes (content : ByteArray) : IgnoreRules :=
  let lines := match textLines content with
    | [] => []
    | first :: rest =>
      String.ofList (first.toList.dropWhile (· = Text.byteOrderMark)) :: rest
  (lines.filterMap IgnoreRule.ofLine?).reverse

/-- Whether rules keep a path; none if no rule applies. -/
def keeps? (rules : IgnoreRules) (path : List UInt8) (isDirectory : Bool) : Option Bool :=
  (rules.find? (·.applies path isDirectory)).map (·.keeps)

end IgnoreRules

/-! ### Directories with rules -/

/-- The rules that a directory holds. -/
structure IgnoreLevel where
  /-- The number of names that lead to the directory. -/
  depth : Nat
  /-- Whether the directory is the top of a repository. -/
  isRepository : Bool := false
  ignore : IgnoreRules := []
  gitignore : IgnoreRules := []
  exclude : IgnoreRules := []

namespace IgnoreLevel

/-- The rules in a directory at a depth.  `useGitignore` says whether `.gitignore` counts. -/
def ofDirectory (useGitignore : Bool) (depth : Nat) (directory : FileTree) : IgnoreLevel :=
  let rules (place : List String) : IgnoreRules :=
    ((directory.bytesAt? place).map IgnoreRules.ofBytes).getD []
  { depth
    isRepository := (directory.entry? ".git").isSome
    ignore := rules [".ignore"]
    gitignore := if useGitignore then rules [".gitignore"] else []
    exclude := rules [".git", "info", "exclude"] }

/-- The path below a level of what stands at a place. -/
def relativePath (level : IgnoreLevel) (place : List String) : List UInt8 :=
  (Text.joinWith "/" (place.drop level.depth)).toUTF8.toList

/-- What the first level whose rules apply says of a place. -/
def firstVerdict? (rules : IgnoreLevel → IgnoreRules) (levels : List IgnoreLevel)
    (place : List String) (isDirectory : Bool) : Option Bool :=
  levels.findSome? fun l => (rules l).keeps? (l.relativePath place) isDirectory

/-- The levels of the innermost repository, given all levels from inside out. -/
def ofRepository : List IgnoreLevel → List IgnoreLevel
  | [] => []
  | l :: rest =>
    if l.isRepository then [l]
    else if rest.any (·.isRepository) then l :: ofRepository rest
    else []

/-- Whether what stands at a place is not to be looked at, given the levels above it from inside
out. -/
def ignores (levels : List IgnoreLevel) (place : List String) (isDirectory : Bool) : Bool :=
  let inside := ofRepository levels
  let verdict := (firstVerdict? (·.ignore) levels place isDirectory)
    |>.or (firstVerdict? (·.gitignore) inside place isDirectory)
    |>.or (firstVerdict? (·.exclude) inside place isDirectory)
  verdict = some false

end IgnoreLevel

end CallPaths
