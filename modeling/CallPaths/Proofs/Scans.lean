import CallPaths.Source.Scan

/-!
# Scans of directories

A scan reads the files below a directory that the settings ask for and keeps those that are source
files.  There is a snapshot exactly of the directories that have such a file; it is the snapshot of
these files, with the figures of the scan.

## Key results

- `SourceScan.ofPath_of_isDirectory`: what a scan finds
- `Snapshot.ofDirectory_of_parsed_eq_nil`, `Snapshot.ofDirectory_of_parsed_ne_nil`: directories
  without and with source files
-/

namespace CallPaths

namespace SourceSettings

/-- The files below a directory that the settings ask for, in the order of the walk. -/
def discovered (settings : SourceSettings) (fs : FileSystem) (root : String) : List WalkedFile :=
  ((fs.walk settings.respectGitignore root).toOption.getD []).filter fun w => settings.wants w.path

/-- The source files among some files. -/
def parsed (settings : SourceSettings) (found : List WalkedFile) : List SourceFile :=
  found.filterMap fun w => (SourceFile.ofBytes settings w.path w.content).toOption

end SourceSettings

/-- A directory can be walked. -/
private theorem FileSystem.exists_walk_of_isDirectory {fs : FileSystem} {root : String}
    (h : fs.isDirectory root = true) (useGitignore : Bool) :
    ∃ walked, fs.walk useGitignore root = .ok walked := by
  rw [isDirectory] at h
  rw [walk]
  cases hfind : fs.find root with
  | error fault => simp [hfind] at h
  | ok found => exact ⟨_, rfl⟩

section Directory

variable {fs : FileSystem} {settings : SourceSettings} {root : String}

/-- The scan of a directory finds the files that the settings ask for. -/
theorem SourceScan.ofPath_of_isDirectory (h : fs.isDirectory root = true) :
    let found := settings.discovered fs root
    let files := settings.parsed found
    ofPath fs settings root = .ok ⟨files, found.length, found.length - files.length⟩ := by
  obtain ⟨walked, hwalked⟩ := FileSystem.exists_walk_of_isDirectory h settings.respectGitignore
  rw [ofPath, SourceSettings.discovered, hwalked]
  rfl

namespace Snapshot

/-- There is no snapshot of what is no directory. -/
theorem ofDirectory_of_not_isDirectory (h : fs.isDirectory root = false) (scope : Scope) :
    ofDirectory fs settings root scope = .error (.noSources root 0 0) := by
  simp [ofDirectory, h]

/-- There is no snapshot of a directory without source files, and all files in it that the settings
ask for count as skipped. -/
theorem ofDirectory_of_parsed_eq_nil (h : fs.isDirectory root = true) (scope : Scope)
    (hnil : settings.parsed (settings.discovered fs root) = []) :
    let found := settings.discovered fs root
    ofDirectory fs settings root scope =
      .error (.noSources root found.length found.length) := by
  simp [ofDirectory, h, SourceScan.ofPath_of_isDirectory h, hnil, bind, Except.bind]

/-- The snapshot of a directory is that of the source files in it, up to its figures. -/
theorem ofDirectory_of_parsed_ne_nil (h : fs.isDirectory root = true) (scope : Scope)
    (hne : settings.parsed (settings.discovered fs root) ≠ []) :
    ∃ stats, ofDirectory fs settings root scope =
      .ok { build (settings.parsed (settings.discovered fs root)) scope with stats } := by
  rw [ofDirectory, h, SourceScan.ofPath_of_isDirectory h]
  exact ⟨_, if_neg (mt List.isEmpty_iff.1 hne)⟩

/-- Every snapshot of a directory is that of some files, up to its figures. -/
theorem exists_files_of_ofDirectory {scope : Scope} {snapshot : Snapshot}
    (h : ofDirectory fs settings root scope = .ok snapshot) :
    ∃ files stats, snapshot = { build files scope with stats } := by
  by_cases hroot : fs.isDirectory root = true
  · by_cases hnil : settings.parsed (settings.discovered fs root) = []
    · rw [ofDirectory_of_parsed_eq_nil hroot scope hnil] at h
      cases h
    · obtain ⟨stats, hsnapshot⟩ := ofDirectory_of_parsed_ne_nil hroot scope hnil
      rw [hsnapshot] at h
      cases h
      exact ⟨_, stats, rfl⟩
  · rw [ofDirectory_of_not_isDirectory (by simpa using hroot)] at h
    cases h

end Snapshot

end Directory

end CallPaths
