import CallPaths.Program
import CallPaths.Text.Timestamp
import Std.Time.DateTime.Timestamp

/-!
# The program

The outer layer: it reads from the disk what a run may look at, lets the run decide, and prints.
-/

namespace CallPaths.Main

/-- The names of files that a walk reads besides sources. -/
def ruleFiles : List String := [".ignore", ".gitignore", "exclude"]

/-- What stands at a path of the disk, without what is in it. -/
def kindAt? (path : String) : IO (Option IO.FS.FileType) := do
  try
    let real ← IO.FS.realPath path
    return some (← real.metadata).type
  catch _ => return none

/-- The file at a path of the disk; an empty directory for a directory. -/
def shallow? (path : String) : IO (Option FileTree) := do
  match ← kindAt? path with
  | some .dir => return some ∅
  | some _ =>
    try return some (.file (← IO.FS.readBinFile path))
    catch _ => return none
  | none => return none

/-- The directory at a path of the disk, with the files below it that a walk reads.  Links to
directories are not followed. -/
partial def deep (path : String) : IO FileTree := do
  let real ← IO.FS.realPath path
  let mut tree : FileTree := ∅
  for entry in ← real.readDir do
    let name := entry.fileName
    let inner := joinPath path name
    match (← entry.path.symlinkMetadata).type with
    | .dir => tree := (← deep inner).put [name] (some tree)
    | _ =>
      if extension? name = some sourceExtension || ruleFiles.contains name || name = ".git" then
        if let some (.file content) ← shallow? inner then
          tree := (FileTree.file content).put [name] (some tree)
  return tree

/-- Adds what stands along a path of the disk and is not there yet. -/
def mountAlong (fs : FileSystem) (path : String) : IO FileSystem := do
  let parts := Text.splitOn '/' path
  let mut fs := fs
  for n in List.range parts.length do
    let part := Text.joinWith "/" (parts.take (n + 1))
    if part ≠ "" && !fs.pathExists part then
      if let some t ← shallow? part then fs := fs.mount part t
  return fs

/-- Adds the directory of the sources, and the rules in the directories above it. -/
def mountSources (fs : FileSystem) (root : String) : IO FileSystem := do
  let mut fs := fs
  match ← kindAt? root with
  | some .dir => fs := fs.mount root (← deep root)
  | _ => fs ← mountAlong fs root
  let place := fs.placeOf root
  for n in List.range place.length do
    let outer := "/" ++ Text.joinWith "/" (place.take n)
    for file in [".ignore", ".gitignore", ".git/info/exclude"] do
      fs ← mountAlong fs (joinPath outer file)
  return fs

/-- Everything that a command line makes a run look at. -/
def filesFor (c : CommandLine) : IO FileSystem := do
  let here ← IO.currentDir
  let place := (Text.splitOn '/' here.toString).filter (· ≠ "")
  let mut fs : FileSystem := { tree := FileTree.put ∅ place none, workingPlace := place }
  fs ← mountSources fs c.root
  for path in c.configPaths do
    fs ← mountAlong fs path
  if let .ok settings := Settings.load fs c.configPath then
    if let some path := settings.output.template then
      fs ← mountAlong fs path
  return fs

/-- The current time as text. -/
def now : IO String := do
  let t ← Std.Time.Timestamp.now
  return Text.timestamp t.val.second.val.toNat t.val.nano.val.toNat

/-- Runs the program. -/
def run (words : List String) : IO UInt32 := do
  let fs ← match CommandLine.read words with
    | .ok c => filesFor c
    | .error _ => pure {}
  let outcome := Outcome.ofWords fs (← now) words
  IO.print outcome.output
  if let some text := outcome.diagnosis? then IO.eprintln text
  return outcome.exitCode.toUInt32

end CallPaths.Main

/-- The entry point of the program. -/
def main (words : List String) : IO UInt32 :=
  CallPaths.Main.run words
