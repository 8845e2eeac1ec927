import CallPaths.Text.Blank

/-!
# JSON values and their indented form

Reports are turned into JSON values, which are written in an indented form (`Json.pretty`) or handed
to a template.  Numbers are natural numbers, since no other kind occurs in a report.

Written form: two blanks of indentation a level, one item a line, `": "` after a key, `[]` and an
empty pair of braces on one line.  In strings the quote, the backslash and the characters below
U+0020 are escaped, all others stand as they are.
-/

namespace CallPaths

/-- A JSON value whose numbers are natural numbers. -/
inductive Json where
  | null
  | bool (b : Bool)
  | num (n : Nat)
  | str (s : String)
  | arr (items : List Json)
  | obj (members : List (String × Json))
deriving Inhabited

namespace Json

/-- An optional value, `null` if there is none. -/
def ofOption (f : α → Json) : Option α → Json
  | none => null
  | some a => f a

/-- A list of strings. -/
def strings (l : List String) : Json :=
  arr (l.map str)

/-- The digit with value `n`, which is below sixteen. -/
def hexDigit (n : Nat) : Char :=
  if n < 10 then Char.ofNat ('0'.toNat + n) else Char.ofNat ('a'.toNat + (n - 10))

/-- One character inside a string. -/
def escape (c : Char) : List Char :=
  match c with
  | '"' => ['\\', '"']
  | '\\' => ['\\', '\\']
  | '\n' => ['\\', 'n']
  | '\r' => ['\\', 'r']
  | '\t' => ['\\', 't']
  | '\x08' => ['\\', 'b']
  | '\x0c' => ['\\', 'f']
  | c =>
    if c.toNat < 0x20 then
      ['\\', 'u', '0', '0', hexDigit (c.toNat / 16), hexDigit (c.toNat % 16)]
    else [c]

/-- A string in quotes. -/
def quote (s : String) : String :=
  String.ofList ('"' :: s.toList.flatMap escape ++ ['"'])

/-- `n` levels of indentation. -/
def indentation (n : Nat) : String :=
  String.ofList (List.replicate (2 * n) ' ')

/-- Items on lines of their own between an opening and a closing bracket. -/
def bracketed (level : Nat) (opening closing : String) : List String → String
  | [] => opening ++ closing
  | items =>
    let margin := "\n" ++ indentation (level + 1)
    opening ++ margin ++ Text.joinWith ("," ++ margin) items ++ "\n" ++ indentation level ++ closing

mutual

/-- The indented form of a value that stands on a line with `level` levels of indentation. -/
def prettyAt (level : Nat) : Json → String
  | null => "null"
  | bool true => "true"
  | bool false => "false"
  | num n => toString n
  | str s => quote s
  | arr items => bracketed level "[" "]" (prettyItems (level + 1) items)
  | obj members => bracketed level "\x7b" "\x7d" (prettyMembers (level + 1) members)

/-- The indented forms of the items of an array. -/
def prettyItems (level : Nat) : List Json → List String
  | [] => []
  | v :: rest => prettyAt level v :: prettyItems level rest

/-- The indented forms of the members of an object. -/
def prettyMembers (level : Nat) : List (String × Json) → List String
  | [] => []
  | (k, v) :: rest => (quote k ++ ": " ++ prettyAt level v) :: prettyMembers level rest

end

/-- The indented form of a value. -/
def pretty (v : Json) : String :=
  prettyAt 0 v

end Json

end CallPaths
