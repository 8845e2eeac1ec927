import CallPaths.Files.IgnoreRules

/-!
# Walking a directory

The files below a path, without those that ignore rules leave out.  The entries of a directory come
in the order of their names, and what is in a directory comes at its place.  A directory that is
left out is not entered, so nothing below it can be kept.  Where the walk starts is never left out.
-/

namespace CallPaths

/-- A file that a walk comes to. -/
structure WalkedFile where
  /-- Its path, which starts with the path that the walk starts from. -/
  path : String
  content : ByteArray

namespace FileTree

mutual

/-- The files of a tree at a place, shown under a path. -/
def walk (useGitignore : Bool) (levels : List IgnoreLevel) (place : List String) (path : String) :
    FileTree → List WalkedFile
  | .file content => [⟨path, content⟩]
  | .directory entries =>
    let level := IgnoreLevel.ofDirectory useGitignore place.length (.directory entries)
    walkEntries useGitignore (level :: levels) place path entries

/-- The files of the entries of a directory. -/
def walkEntries (useGitignore : Bool) (levels : List IgnoreLevel) (place : List String)
    (path : String) : List (String × FileTree) → List WalkedFile
  | [] => []
  | (name, t) :: rest =>
    let inner := place ++ [name]
    let files :=
      if IgnoreLevel.ignores levels inner t.isDirectory then []
      else walk useGitignore levels inner (joinPath path name) t
    files ++ walkEntries useGitignore levels place path rest

end

end FileTree

namespace FileSystem

/-- The levels of the directories above a place, from inside out.  Without `useGitignore` they are
not looked at for repositories. -/
def outerLevels (fs : FileSystem) (useGitignore : Bool) (place : List String) :
    List IgnoreLevel :=
  let outer := ((List.range place.length).map place.take).reverse
  (outer.filterMap fs.tree.at?).zip outer |>.map fun (t, p) =>
    let level := IgnoreLevel.ofDirectory useGitignore p.length t
    { level with isRepository := useGitignore && level.isRepository }

/-- The files below a path. -/
def walk (fs : FileSystem) (useGitignore : Bool) (path : String) : Access (List WalkedFile) := do
  let (place, t) ← fs.find path
  return t.walk useGitignore (fs.outerLevels useGitignore place) place path

end FileSystem

end CallPaths
