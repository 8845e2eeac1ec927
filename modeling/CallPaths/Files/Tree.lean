import CallPaths.Failure
import CallPaths.Text.Blank

/-!
# Files and directories

A file tree is a value: a file with its bytes, or a directory with named trees in it.  A file system
is a tree with a place in it from which relative paths start.

* `FileSystem.find`: what stands at a path, and where;
* `FileSystem.readText`: the text of the file at a path;
* `FileSystem.mount`: a file system with one more tree in it.

A place is the list of names that lead to it from the top of the tree.
-/

namespace CallPaths

/-- A file or a directory.  The entries of a directory stand in increasing order of their names,
which `FileTree.put` keeps. -/
inductive FileTree where
  | file (content : ByteArray)
  | directory (entries : List (String × FileTree))
deriving Inhabited

namespace FileTree

/-- A directory with nothing in it. -/
instance : EmptyCollection FileTree := ⟨.directory []⟩

/-- Whether a tree is a directory. -/
def isDirectory : FileTree → Bool
  | file _ => false
  | directory _ => true

/-- The entries of a directory; a file has none. -/
def entries : FileTree → List (String × FileTree)
  | file _ => []
  | directory es => es

/-- The entry of a directory with a name. -/
def entry? (t : FileTree) (name : String) : Option FileTree :=
  (t.entries.find? (·.1 = name)).map (·.2)

/-- What stands at a place. -/
def at? (t : FileTree) : List String → Option FileTree
  | [] => some t
  | name :: rest => (t.entry? name).bind (at? · rest)

/-- The bytes of the file at a place, if one stands there. -/
def bytesAt? (t : FileTree) (place : List String) : Option ByteArray :=
  match t.at? place with
  | some (file content) => some content
  | _ => none

/-- Replaces the entry with a name by a change of it, or adds one at its place in the order. -/
def alterEntry (name : String) (change : Option FileTree → FileTree) :
    List (String × FileTree) → List (String × FileTree)
  | [] => [(name, change none)]
  | (n, t) :: rest =>
    if n = name then (n, change (some t)) :: rest
    else if name < n then (name, change none) :: (n, t) :: rest
    else (n, t) :: alterEntry name change rest

/-- Puts a tree at a place; directories on the way are made where they are missing. -/
def put (leaf : FileTree) : List String → Option FileTree → FileTree
  | [], _ => leaf
  | name :: rest, t => directory (alterEntry name (put leaf rest) ((t.map entries).getD []))

end FileTree

/-- The fault of a step that a file system refuses, or what the step gives. -/
abbrev Access := Except FileFault

/-- A tree of files, and the place from which relative paths start. -/
structure FileSystem where
  tree : FileTree := ∅
  workingPlace : List String := []
deriving Inhabited

namespace FileSystem

/-- Follows the components of a path from a place.  Every component, also an empty one, needs a
directory to stand in; `.` and an empty one stay there, and `..` goes up. -/
def follow (tree : FileTree) : List String → List String → Access (List String × FileTree)
  | place, [] =>
    match tree.at? place with
    | some t => .ok (place, t)
    | none => .error .notFound
  | place, c :: rest =>
    match tree.at? place with
    | none => .error .notFound
    | some (.file _) => .error .notDirectory
    | some (.directory _) =>
      if c = "" || c = "." then follow tree place rest
      else if c = ".." then follow tree place.dropLast rest
      else follow tree (place ++ [c]) rest

/-- What stands at a path, with its place.  The empty path names nothing. -/
def find (fs : FileSystem) (path : String) : Access (List String × FileTree) :=
  if path.isEmpty then .error .notFound
  else
    let start := if path.startsWith "/" then [] else fs.workingPlace
    follow fs.tree start (Text.splitOn '/' path)

/-- Whether something stands at a path. -/
def pathExists (fs : FileSystem) (path : String) : Bool :=
  (fs.find path).toOption.isSome

/-- Whether a directory stands at a path. -/
def isDirectory (fs : FileSystem) (path : String) : Bool :=
  match fs.find path with
  | .ok (_, t) => t.isDirectory
  | .error _ => false

/-- The bytes of the file at a path. -/
def readBytes (fs : FileSystem) (path : String) : Access ByteArray :=
  match fs.find path with
  | .error fault => .error fault
  | .ok (_, .directory _) => .error .isDirectory
  | .ok (_, .file content) => .ok content

/-- The text that bytes encode. -/
def decodeText (content : ByteArray) : Access String :=
  match String.fromUTF8? content with
  | some s => .ok s
  | none => .error .notUnicode

/-- The text of the file at a path. -/
def readText (fs : FileSystem) (path : String) : Access String :=
  fs.readBytes path >>= decodeText

/-- The place that a path names, whether something stands there or not. -/
def placeOf (fs : FileSystem) (path : String) : List String :=
  let start := if path.startsWith "/" then [] else fs.workingPlace
  (Text.splitOn '/' path).foldl (fun place c =>
    if c = "" || c = "." then place
    else if c = ".." then place.dropLast
    else place ++ [c]) start

/-- Puts a tree at a path, in place of what stands there. -/
def mount (fs : FileSystem) (path : String) (t : FileTree) : FileSystem :=
  { fs with tree := t.put (fs.placeOf path) (some fs.tree) }

end FileSystem

/-! ### Names in paths -/

/-- The last component of a path that is neither empty nor `.`. -/
def lastComponent? (path : String) : Option String :=
  ((Text.splitOn '/' path).filter fun c => c ≠ "" && c ≠ ".").getLast?

/-- The part of a path's last component after its last dot.  A component that starts with its only
dot has none, and neither has `..`. -/
def extension? (path : String) : Option String := do
  let name ← lastComponent? path
  guard (name ≠ "..")
  let after := name.toList.reverse.takeWhile (· ≠ '.')
  let before := name.toList.reverse.drop (after.length + 1)
  guard (!before.isEmpty)
  return String.ofList after.reverse

/-- The path of an entry of the directory at a path. -/
def joinPath (path name : String) : String :=
  if path.endsWith "/" then path ++ name else path ++ "/" ++ name

end CallPaths
