/-!
# Blank characters, trimming and lines

Text is handled as a list of characters.  This file says which characters are blank, how text is
trimmed, and how a text falls into lines.  A line ends at a line feed; a carriage return directly
before the line feed belongs to the line end, one anywhere else belongs to the line.
-/

namespace CallPaths.Text

/-- The characters with the Unicode property `White_Space`. -/
def isBlank (c : Char) : Bool :=
  let n := c.toNat
  (9 ≤ n && n ≤ 13) || n == 0x20 || n == 0x85 || n == 0xA0 || n == 0x1680 ||
    (0x2000 ≤ n && n ≤ 0x200A) || n == 0x2028 || n == 0x2029 || n == 0x202F || n == 0x205F ||
    n == 0x3000

/-- Drops the blanks at the start. -/
def trimLeft (cs : List Char) : List Char :=
  cs.dropWhile isBlank

/-- Drops the blanks at the end. -/
def trimRight (cs : List Char) : List Char :=
  (cs.reverse.dropWhile isBlank).reverse

/-- Drops the blanks at both ends. -/
def trimChars (cs : List Char) : List Char :=
  trimRight (trimLeft cs)

/-- `trimChars` on strings. -/
def trim (s : String) : String :=
  String.ofList (trimChars s.toList)

/-- Removes every blank. -/
def removeBlanks (s : String) : String :=
  String.ofList (s.toList.filter fun c => !isBlank c)

/-- The mark that may stand at the very start of a text and is no part of it. -/
def byteOrderMark : Char := '\uFEFF'

/-- The text after a byte order mark at its start. -/
def skipByteOrderMark : List Char → List Char
  | c :: cs => if c = byteOrderMark then cs else c :: cs
  | [] => []

/-- The characters of a reversed line without the carriage return that belongs to its line end. -/
def dropReturn : List Char → List Char
  | '\r' :: cs => cs
  | cs => cs

/-- Splits into lines, with the reversed beginning of the current line as first argument. -/
def linesFrom : List Char → List Char → List String
  | [], [] => []
  | c :: acc, [] => [String.ofList (c :: acc).reverse]
  | acc, '\n' :: cs => String.ofList (dropReturn acc).reverse :: linesFrom [] cs
  | acc, c :: cs => linesFrom (c :: acc) cs

/-- The lines of a text, without their line ends. -/
def lines (s : String) : List String :=
  linesFrom [] s.toList

/-- The pieces of a text between the places where `sep` stands; one piece if it stands nowhere. -/
def splitChars (sep : Char) : List Char → List (List Char)
  | [] => [[]]
  | c :: cs =>
    if c = sep then [] :: splitChars sep cs
    else
      match splitChars sep cs with
      | [] => [[c]]
      | piece :: pieces => (c :: piece) :: pieces

/-- `splitChars` on strings. -/
def splitOn (sep : Char) (s : String) : List String :=
  (splitChars sep s.toList).map String.ofList

/-- The pieces joined with `sep` between neighbours. -/
def joinWith (sep : String) : List String → String
  | [] => ""
  | [s] => s
  | s :: rest => s ++ sep ++ joinWith sep rest

end CallPaths.Text
