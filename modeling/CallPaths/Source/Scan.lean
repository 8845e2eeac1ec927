import CallPaths.Files.Walk
import CallPaths.Settings
import CallPaths.Snapshot
import CallPaths.Source.Reader

/-!
# Reading the sources below a directory

A scan reads every source file that a walk comes to.  Files that cannot be read are counted and
otherwise do not matter; there is no analysis without any file that can.
-/

namespace CallPaths

/-- The file extension of source texts. -/
def sourceExtension : String := "java"

namespace SourceFile

/-- The source file with a path and bytes. -/
def ofBytes (settings : SourceSettings) (path : String) (content : ByteArray) :
    Except Failure SourceFile :=
  if settings.maxFileSize < content.size then .error (.oversizedFile path)
  else
    match FileSystem.decodeText content with
    | .ok text => read path text
    | .error fault => .error (.unreadableFile fault)

/-- Reads the source file at a path. -/
def load (fs : FileSystem) (settings : SourceSettings) (path : String) :
    Except Failure SourceFile :=
  if extension? path ≠ some sourceExtension then .error (.unknownLanguage path)
  else
    match fs.readBytes path with
    | .ok content => ofBytes settings path content
    | .error fault => .error (.unreadableFile fault)

end SourceFile

/-- Whether the settings ask for the file at a path. -/
def SourceSettings.wants (settings : SourceSettings) (path : String) : Bool :=
  match extension? path with
  | some e => settings.extensions.contains e && e = sourceExtension
  | none => false

/-- The sources below a directory. -/
structure SourceScan where
  /-- The files that could be read. -/
  files : List SourceFile := []
  /-- The number of files that the settings ask for. -/
  discovered : Nat := 0
  /-- The number of those that could not be read. -/
  skipped : Nat := 0

namespace SourceScan

/-- The scan of the files of a walk. -/
def ofFiles (settings : SourceSettings) (walked : List WalkedFile) : SourceScan :=
  let wanted := walked.filter fun w => settings.wants w.path
  let files := wanted.filterMap fun w =>
    (SourceFile.ofBytes settings w.path w.content).toOption
  { files, discovered := wanted.length, skipped := wanted.length - files.length }

/-- Scans what is below a path. -/
def ofPath (fs : FileSystem) (settings : SourceSettings) (path : String) :
    Except Failure SourceScan :=
  match fs.walk settings.respectGitignore path with
  | .ok walked => .ok (ofFiles settings walked)
  | .error _ => .error (.missingRoot path)

end SourceScan

namespace Snapshot

/-- The snapshot of the sources below a directory. -/
def ofDirectory (fs : FileSystem) (settings : SourceSettings) (root : String) (scope : Scope) :
    Except Failure Snapshot :=
  if !fs.isDirectory root then .error (.noSources root 0 0)
  else do
    let scan ← SourceScan.ofPath fs settings root
    if scan.files.isEmpty then .error (.noSources root scan.discovered scan.skipped)
    else
      let s := build scan.files scope
      return { s with
        stats := { s.stats with filesDiscovered := scan.discovered, filesSkipped := scan.skipped } }

end Snapshot

end CallPaths
