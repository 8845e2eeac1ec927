import CallPaths.CommandLine.Help
import CallPaths.CommandLine.Reader
import CallPaths.Config

/-!
# Runs of the program

From the words of a command line to what is printed and the exit status.  A run reads a file system
that is given as a value; it changes nothing.
-/

namespace CallPaths

/-- How a run ends. -/
inductive Outcome where
  /-- With a report. -/
  | report (text : String)
  /-- With a refusal of the command line, which may be a wish for help. -/
  | refused (reason : Refusal)
  /-- With a failure. -/
  | failed (failure : Failure)

/-- The text shown for a refusal; none if it is a wish for help. -/
def Refusal.message? : Refusal → Option String
  | .help _ => none
  | .version => none
  | .unknownArgument => some "unexpected argument found"
  | .invalidValue => some "a value is missing or not one that is taken"
  | .notNumber => some "a number was expected"
  | .surplusValue => some "a value for an option that takes none"
  | .conflict => some "an option is repeated or excluded by another one"
  | .missingArgument => some "required arguments were not provided"

namespace CommandLine

/-- The paths where a run looks for a configuration file. -/
def configPaths (c : CommandLine) : List String :=
  match c.configPath with
  | some path => [path]
  | none => Settings.usualPaths

/-- The report that a command line asks for.  The line number is looked at before any file. -/
def carryOut (c : CommandLine) (fs : FileSystem) (time : String) : Except Failure String := do
  let _ ← c.lineNumber
  let settings := c.adjust (← Settings.load fs c.configPath)
  let request ← c.request settings
  settings.answer fs time request

end CommandLine

namespace Outcome

/-- The end of the run with some words.  `time` is shown in the report of a tree. -/
def ofWords (fs : FileSystem) (time : String) (words : List String) : Outcome :=
  match CommandLine.read words with
  | .error reason => refused reason
  | .ok c =>
    match c.carryOut fs time with
    | .ok text => report text
    | .error failure => failed failure

/-- The text with a line feed at its end. -/
def closeLine (s : String) : String :=
  if s.endsWith "\n" then s else s ++ "\n"

/-- What is printed. -/
def output : Outcome → String
  | report text => closeLine text
  | refused (.help full) => Help.text full
  | refused .version => versionText
  | _ => ""

/-- What is printed beside the output, if anything. -/
def diagnosis? : Outcome → Option String
  | failed failure => some ("Error: " ++ failure.messageWithCause)
  | refused reason => reason.message?.map fun m => "error: " ++ m ++ "\n\n" ++ Help.usage
  | report _ => none

/-- The exit status. -/
def exitCode : Outcome → Nat
  | report _ => 0
  | refused (.help _) => 0
  | refused .version => 0
  | refused _ => 1
  | failed failure => failure.exitCode

end Outcome

end CallPaths
