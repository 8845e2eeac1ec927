/-!
# Failures

Everything that can stop a run, with the text that is shown for it and the exit status it gives.
A failure says what went wrong; the wording is in `Failure.message` alone.
-/

namespace CallPaths

/-- Why a file could not be read. -/
inductive FileFault where
  /-- Nothing stands at the path. -/
  | notFound
  /-- A component of the path before the last one is a file. -/
  | notDirectory
  /-- A directory stands at the path. -/
  | isDirectory
  /-- The bytes are not well-formed UTF-8. -/
  | notUnicode
deriving DecidableEq, Repr

/-- The text shown for a file fault. -/
def FileFault.message : FileFault → String
  | .notFound => "No such file or directory (os error 2)"
  | .notDirectory => "Not a directory (os error 20)"
  | .isDirectory => "Is a directory (os error 21)"
  | .notUnicode => "stream did not contain valid UTF-8"

/-- Everything that can stop a run. -/
inductive Failure where
  /-- The configuration file that was asked for does not exist. -/
  | missingConfig (path : String)
  /-- The configuration file is no document or does not fit the settings. -/
  | badConfig (reason : String)
  /-- The file name belongs to no known language. -/
  | unknownLanguage (path : String)
  /-- The file is larger than the configured limit. -/
  | oversizedFile (path : String)
  /-- The text of the file is not derived by the grammar. -/
  | malformedSource (path : String)
  /-- A file could not be read. -/
  | unreadableFile (fault : FileFault)
  /-- The report template is malformed or asks for something that is not there. -/
  | badTemplate (reason : String)
  /-- The root of the sources does not exist. -/
  | missingRoot (path : String)
  /-- The text is no method signature. -/
  | malformedSignature (text : String)
  /-- The line argument is no positive number. -/
  | malformedLine (text : String)
  /-- No file under the root could be read as source text. -/
  | noSources (root : String) (found skipped : Nat)
  /-- No method of the class spans the line. -/
  | noMethodAt (className : String) (line : Nat)
  /-- The method at the line has a parameter without a type. -/
  | unresolvedMethod (typeName method path : String) (line : Nat)
deriving DecidableEq, Repr

namespace Failure

/-- The text shown for a failure. -/
def message : Failure → String
  | missingConfig path => s!"Configuration error: configuration file {path} does not exist"
  | badConfig reason => s!"Configuration error: {reason}"
  | unknownLanguage path => s!"Parser error: Could not detect language for file: {path}"
  | oversizedFile path => s!"Parser error: File {path} exceeds maximum size limit"
  | malformedSource path => s!"Parser error: Syntax errors in {path}"
  | unreadableFile fault => "IO error: " ++ fault.message
  | badTemplate reason => s!"Template error: {reason}"
  | missingRoot path => s!"File system error: source root {path} does not exist"
  | malformedSignature text => s!"Invalid argument: malformed method signature: {text}"
  | malformedLine text => s!"Invalid argument: LINE must be a positive integer, got '{text}'"
  | noSources root found skipped =>
    s!"No parsable source files under {root} ({found} found, {skipped} skipped)"
  | noMethodAt className line => s!"No method found in class {className} containing line {line}"
  | unresolvedMethod typeName method path line =>
    s!"Unable to resolve target method: {typeName}.{method} declared at {path}:{line}"

/-- The message followed by the message of the cause, where there is one. -/
def messageWithCause : Failure → String
  | unreadableFile fault => (unreadableFile fault).message ++ ": " ++ fault.message
  | f => f.message

/-- The exit status of a run that a failure stops. -/
def exitCode : Failure → Nat
  | malformedSignature _ | malformedLine _ => 1
  | noSources .. => 2
  | noMethodAt .. => 3
  | unresolvedMethod .. => 4
  | _ => 100

end Failure

end CallPaths
