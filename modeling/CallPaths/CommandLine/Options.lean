import CallPaths.Policy

/-!
# The options of the command line

A table of the arguments and options, with the words for them and what the help says of each.
-/

namespace CallPaths

/-- An option of the command line. -/
inductive OptionName where
  | config
  | verbose
  | format
  | fanOut
  | cycleScope
  | ancestors
  | callers
  | maxVisits
  | noSource
  | help
  | version
deriving DecidableEq, Repr, Inhabited

namespace OptionName

/-- All options in the order of the help. -/
def all : List OptionName :=
  [config, verbose, format, fanOut, cycleScope, ancestors, callers, maxVisits, noSource, help,
    version]

/-- The word for an option after two hyphens. -/
def long : OptionName → String
  | config => "config"
  | verbose => "verbose"
  | format => "format"
  | fanOut => "fan-out"
  | cycleScope => "cycle-scope"
  | ancestors => "ancestors"
  | callers => "callers"
  | maxVisits => "max-visits"
  | noSource => "no-source"
  | help => "help"
  | version => "version"

/-- The letter for an option after one hyphen. -/
def short? : OptionName → Option Char
  | config => some 'c'
  | verbose => some 'v'
  | help => some 'h'
  | version => some 'V'
  | _ => none

/-- The name that the help gives to the value of an option; none for an option without one. -/
def valueName? : OptionName → Option String
  | config => some "CONFIG"
  | format => some "FORMAT"
  | fanOut => some "FAN_OUT"
  | cycleScope => some "CYCLE_SCOPE"
  | maxVisits => some "MAX_VISITS"
  | _ => none

/-- Whether an option takes a value. -/
def takesValue (o : OptionName) : Bool :=
  o.valueName?.isSome

/-- The option that a word after two hyphens names. -/
def ofLong? (word : String) : Option OptionName :=
  all.find? (·.long = word)

/-- The option that a letter after one hyphen names. -/
def ofShort? (letter : Char) : Option OptionName :=
  all.find? (·.short? = some letter)

/-- The words that an option takes, with what the help says of each. -/
def choices : OptionName → List (String × String)
  | format =>
    [(OutputFormat.text.word, "Caller chains as plain text"),
      (OutputFormat.tree.word, "Descendant tree as JSON")]
  | fanOut =>
    [(FanOut.all.word, "Edge to every known implementation (sound over-approximation)"),
      (FanOut.firstOnly.word, "Edge to the first implementation only")]
  | cycleScope =>
    [(CycleScope.pathLocal.word,
        "Per traversal branch; a signature may reappear in sibling branches"),
      (CycleScope.global.word, "Across the whole traversal; a signature is expanded at most once")]
  | _ => []

/-- What the help says of an option.  `full` chooses the longer one of two helps. -/
def about (full : Bool) : OptionName → String
  | config => "Path to configuration file"
  | verbose => "Enable verbose logging"
  | format => "Report format: caller chains as text, or the descendant tree as JSON"
  | fanOut => "How interface calls expand onto implementations"
  | cycleScope => "Track visited methods per branch or across the whole traversal"
  | ancestors => "Print the transitive-ancestor set instead of chains"
  | callers => "Print only the direct callers of the target"
  | maxVisits => "Node-visit budget for chain and tree enumeration (0 = unlimited)"
  | noSource => "Omit method source text from reports"
  | help => if full then "Print help (see a summary with '-h')"
    else "Print help (see more with '--help')"
  | version => "Print version"

end OptionName

/-- The arguments in order, with what the help says of each. -/
def argumentTable : List (String × String) :=
  [("CLASS", "Fully-qualified name of the class declaring the target method"),
    ("LINE", "Line number inside the target method (1-based)"),
    ("SOURCE_ROOT", "Root directory of the Java sources"),
    ("SCOPE", "Package prefix; only methods under it become graph nodes")]

end CallPaths
