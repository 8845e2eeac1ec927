import CallPaths.CommandLine.Options
import CallPaths.Text.Blank

/-!
# Help and version texts

There are two helps.  The short one has a line for each argument and option, the full one a
paragraph, with the words that an option takes explained.
-/

namespace CallPaths

/-- The name of the program. -/
def programName : String := "callertrace"

/-- What the program prints as its version. -/
def versionText : String := programName ++ " 0.1.0\n"

namespace Help

/-- A text filled up with spaces to a width. -/
def pad (width : Nat) (s : String) : String :=
  s ++ String.ofList (List.replicate (width - s.length) ' ')

/-- The length of the longest text. -/
def widest (l : List String) : Nat :=
  l.foldl (fun n s => max n s.length) 0

/-- An argument or option as the help shows it. -/
structure Item where
  /-- The words for it. -/
  label : String
  about : String
  choices : List (String × String) := []

/-- An argument. -/
def ofArgument (a : String × String) : Item :=
  { label := "<" ++ a.1 ++ ">", about := a.2 }

/-- An option. -/
def ofOption (full : Bool) (o : OptionName) : Item :=
  let short := match o.short? with
    | some c => String.ofList ['-', c, ',', ' ']
    | none => "    "
  let value := match o.valueName? with
    | some v => " <" ++ v ++ ">"
    | none => ""
  { label := short ++ "--" ++ o.long ++ value, about := o.about full, choices := o.choices }

/-- An item on one line, with its label filled up to a width. -/
def Item.line (width : Nat) (i : Item) : String :=
  let choices :=
    if i.choices.isEmpty then ""
    else " [possible values: " ++ Text.joinWith ", " (i.choices.map (·.1)) ++ "]"
  "  " ++ pad width i.label ++ "  " ++ i.about ++ choices ++ "\n"

/-- The beginning of the lines of a paragraph. -/
def indent : String := "          "

/-- The words that an option takes, one on a line. -/
def choiceLines (choices : List (String × String)) : String :=
  let width := widest (choices.map (·.1)) + 1
  let lines := choices.map fun c => indent ++ "- " ++ pad width (c.1 ++ ":") ++ " " ++ c.2 ++ "\n"
  if choices.isEmpty then "" else "\n" ++ indent ++ "Possible values:\n" ++ String.join lines

/-- An item as a paragraph. -/
def Item.paragraph (i : Item) : String :=
  "  " ++ i.label ++ "\n" ++ indent ++ i.about ++ "\n" ++ choiceLines i.choices

/-- Items one below the other. -/
def listing (full : Bool) (items : List Item) : String :=
  if full then Text.joinWith "\n" (items.map Item.paragraph)
  else String.join (items.map (Item.line (widest (items.map (·.label)))))

/-- The line that shows how the program is called. -/
def usage : String :=
  "Usage: " ++ programName ++ " [OPTIONS] " ++
    Text.joinWith " " (argumentTable.map fun a => (ofArgument a).label) ++ "\n"

/-- The short or the full help. -/
def text (full : Bool) : String :=
  "Find every call chain that leads to a Java method\n\n" ++ usage ++
    "\nArguments:\n" ++ listing full (argumentTable.map ofArgument) ++
    "\nOptions:\n" ++ listing full (OptionName.all.map (ofOption full))

end Help

end CallPaths
