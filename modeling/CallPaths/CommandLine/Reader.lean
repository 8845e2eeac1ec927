import CallPaths.CommandLine.Basic
import CallPaths.CommandLine.Options

/-!
# Reading command lines

The words of a command line are read from left to right:

* `--name`, `--name=value` and `--name value` give an option, `-n`, `-nvalue`, `-n=value` and
  `-n value` do so by a letter, and letters of options without values can be put together;
* everything else is an argument, and after `--` every word is;
* a single hyphen is no option.

The first word that is not understood ends the reading.  What an option or an argument says is
checked when the next one that is understood begins, or at the end.
-/

namespace CallPaths

/-- Why a command line is not carried out. -/
inductive Refusal where
  /-- The help is asked for, the full one or the short one. -/
  | help (full : Bool)
  /-- The version is asked for. -/
  | version
  /-- There is no such option, or one argument too many. -/
  | unknownArgument
  /-- A value is missing, empty or not one of the words that are taken. -/
  | invalidValue
  /-- A value is no number. -/
  | notNumber
  /-- An option without a value has one. -/
  | surplusValue
  /-- An option is given twice, or with another one that excludes it. -/
  | conflict
  /-- An argument is missing. -/
  | missingArgument
deriving DecidableEq, Repr

namespace CommandLine

/-- What was read and checked so far. -/
structure Draft where
  /-- The arguments, the newest first. -/
  arguments : List String := []
  configPath : Option String := none
  verbose : Bool := false
  format : Option OutputFormat := none
  fanOut : Option FanOut := none
  cycleScope : Option CycleScope := none
  ancestors : Bool := false
  callers : Bool := false
  maxVisits : Option Nat := none
  noSource : Bool := false

/-- A path, which is not empty. -/
def readPath (word : String) : Except Refusal String :=
  if word.isEmpty then .error .invalidValue else .ok word

/-- One of several words. -/
def readChoice (ofWord? : String → Option α) (word : String) : Except Refusal α :=
  match ofWord? word with
  | some a => .ok a
  | none => .error .invalidValue

/-- A number. -/
def readNumber (word : String) : Except Refusal Nat :=
  match Text.unsigned? word with
  | some n => .ok n
  | none => .error .notNumber

/-- The value of an option that has to have one and is given once. -/
def readOnce (before : Option α) (read : String → Except Refusal α) (word : Option String) :
    Except Refusal (Option α) :=
  match word with
  | none => .error .invalidValue
  | some w => if before.isSome then .error .conflict else some <$> read w

/-- The truth of a flag that is given once. -/
def raiseOnce (before : Bool) : Except Refusal Bool :=
  if before then .error .conflict else .ok true

namespace Draft

/-- Adds an option with its value.  `full` chooses the full help. -/
def setOption (d : Draft) (full : Bool) (o : OptionName) (word : Option String) :
    Except Refusal Draft := do
  match o with
  | .config => return { d with configPath := ← readOnce d.configPath readPath word }
  | .verbose => return { d with verbose := ← raiseOnce d.verbose }
  | .format =>
    return { d with format := ← readOnce d.format (readChoice OutputFormat.ofWord?) word }
  | .fanOut => return { d with fanOut := ← readOnce d.fanOut (readChoice FanOut.ofWord?) word }
  | .cycleScope =>
    return { d with
      cycleScope := ← readOnce d.cycleScope (readChoice CycleScope.ofWord?) word }
  | .ancestors => return { d with ancestors := ← raiseOnce d.ancestors }
  | .callers => return { d with callers := ← raiseOnce d.callers }
  | .maxVisits => return { d with maxVisits := ← readOnce d.maxVisits readNumber word }
  | .noSource => return { d with noSource := ← raiseOnce d.noSource }
  | .help => throw (.help full)
  | .version => throw .version

/-- The place of the argument that is a path. -/
def rootIndex : Nat := 2

/-- Adds an argument. -/
def addArgument (d : Draft) (word : String) : Except Refusal Draft := do
  let word ← if d.arguments.length = rootIndex then readPath word else pure word
  return { d with arguments := word :: d.arguments }

/-- The command line, if nothing excludes anything else and nothing is missing. -/
def finish (d : Draft) : Except Refusal CommandLine :=
  if d.ancestors && d.callers then .error .conflict
  else
    match d.arguments with
    | [scope, root, line, className] =>
      .ok
        { className, line, root, scope
          configPath := d.configPath
          verbose := d.verbose
          format := d.format
          fanOut := d.fanOut
          cycleScope := d.cycleScope
          ancestors := d.ancestors
          callers := d.callers
          maxVisits := d.maxVisits
          noSource := d.noSource }
    | _ => .error .missingArgument

end Draft

/-- What was read and not yet checked. -/
inductive Pending where
  | nothing
  | argument (word : String)
  | option (name : OptionName) (word : Option String)

/-- A reading up to some word. -/
structure Reading where
  draft : Draft := {}
  pending : Pending := .nothing
  /-- The number of arguments. -/
  count : Nat := 0
  /-- Whether every word is an argument. -/
  plain : Bool := false

/-- A word that begins with a hyphen. -/
inductive Dashed where
  /-- `--` alone. -/
  | rest
  /-- A name after two hyphens, with what stands after `=`. -/
  | long (name : String) (value : Option String)
  /-- Letters after one hyphen. -/
  | letters (cs : List Char)

/-- The text before and after the first `=`. -/
def splitEquals (cs : List Char) : String × Option String :=
  match cs.span (· ≠ '=') with
  | (before, []) => (String.ofList before, none)
  | (before, _ :: after) => (String.ofList before, some (String.ofList after))

/-- How a word that begins with a hyphen reads; none for any other and for a single hyphen. -/
def dashed? (word : String) : Option Dashed :=
  match word.toList with
  | ['-', '-'] => some .rest
  | '-' :: '-' :: cs =>
    let (name, value) := splitEquals cs
    some (.long name value)
  | '-' :: c :: cs => some (.letters (c :: cs))
  | _ => none

namespace Reading

/-- Checks what is pending. -/
def settle (r : Reading) : Except Refusal Reading := do
  let draft ← match r.pending with
    | .nothing => .ok r.draft
    | .argument word => r.draft.addArgument word
    | .option name word => r.draft.setOption false name word
  return { r with draft, pending := .nothing }

/-- Adds an option with its value at once. -/
def add (r : Reading) (full : Bool) (o : OptionName) (word : Option String) :
    Except Refusal Reading := do
  let r ← r.settle
  return { r with draft := ← r.draft.setOption full o word }

/-- Adds an option that takes a value, which may be the next word. -/
def addValued (r : Reading) (full : Bool) (o : OptionName) (word : Option String) :
    Except Refusal Reading :=
  match word with
  | some _ => r.add full o word
  | none => do
    let r ← r.settle
    return { r with pending := .option o none }

/-- Adds an option by its name. -/
def long (r : Reading) (name : String) (value : Option String) : Except Refusal Reading :=
  match OptionName.ofLong? name with
  | none => .error .unknownArgument
  | some o =>
    if o.takesValue then r.addValued true o value
    else if value.isSome then .error .surplusValue
    else r.add true o none

/-- The value that stands right behind a letter. -/
def attached (cs : List Char) : Option String :=
  match cs with
  | [] => none
  | '=' :: rest => some (String.ofList rest)
  | cs => some (String.ofList cs)

/-- Adds options by their letters. -/
def letters (r : Reading) : List Char → Except Refusal Reading
  | [] => .ok r
  | c :: cs =>
    match OptionName.ofShort? c with
    | none => .error .unknownArgument
    | some o =>
      if o.takesValue then r.addValued false o (attached cs)
      else r.add false o none >>= fun r => r.letters cs

/-- Adds an argument. -/
def argument (r : Reading) (word : String) : Except Refusal Reading :=
  if argumentTable.length ≤ r.count then .error .unknownArgument
  else do
    let r ← r.settle
    return { r with pending := .argument word, count := r.count + 1 }

/-- Adds the value of the option before, or else an argument. -/
def valueOrArgument (r : Reading) (word : String) : Except Refusal Reading :=
  match r.pending with
  | .option name none => .ok { r with pending := .option name (some word) }
  | _ => r.argument word

/-- Adds a word. -/
def next (r : Reading) (word : String) : Except Refusal Reading :=
  if r.plain then r.argument word
  else
    match dashed? word with
    | some .rest => .ok { r with plain := true }
    | some (.long name value) => r.long name value
    | some (.letters cs) => r.letters cs
    | none => r.valueOrArgument word

end Reading

/-- Reads the words of a command line. -/
def read (words : List String) : Except Refusal CommandLine := do
  let r ← words.foldlM Reading.next {}
  (← r.settle).draft.finish

end CommandLine

end CallPaths
