import CallPaths.Text.NameChars
import CallPaths.Token.Basic

/-!
# Number literals

The length of the longest integer literal and of the longest floating-point literal at the start of
a text.  Underscores may stand between digits.
-/

namespace CallPaths.Token

open Text

/-- Octal digits. -/
def isOctalDigit (c : Char) : Bool :=
  '0' ≤ c && c ≤ '7'

/-- Binary digits. -/
def isBinaryDigit (c : Char) : Bool :=
  c = '0' || c = '1'

/-- Hexadecimal digits. -/
def isHexDigit (c : Char) : Bool :=
  isAsciiDigit c || ('a' ≤ c && c ≤ 'f') || ('A' ≤ c && c ≤ 'F')

/-- The length of the longest text of digits with single underscores between them. -/
def groupedLength (isDigit : Char → Bool) : List Char → Nat
  | c :: '_' :: d :: cs =>
    if isDigit c then if isDigit d then 2 + groupedLength isDigit (d :: cs) else 1 else 0
  | c :: cs => if isDigit c then 1 + groupedLength isDigit cs else 0
  | [] => 0

/-- The length of the longest text of digits and underscores that ends with a digit. -/
def spacedLength (cs : List Char) : Nat :=
  ((cs.takeWhile fun c => isAsciiDigit c || c = '_').reverse.dropWhile (· = '_')).length

/-- The length of a plain decimal number, which starts with zero only if it is zero; zero if there
is none. -/
def plainLength : List Char → Nat
  | '0' :: _ => 1
  | c :: '_' :: d :: cs =>
    if !isAsciiDigit c then 0 else if isAsciiDigit d then 2 + spacedLength (d :: cs) else 1
  | c :: d :: cs =>
    if !isAsciiDigit c then 0 else if isAsciiDigit d then 1 + spacedLength (d :: cs) else 1
  | [c] => if isAsciiDigit c then 1 else 0
  | [] => 0

/-- The length of one of the given characters at the start of a text. -/
def oneOf (chars : List Char) : List Char → Nat
  | c :: _ => if chars.contains c then 1 else 0
  | [] => 0

/-- The length of an exponent, zero if there is none: a mark, a sign or none, and a number. -/
def exponentLength (marks : List Char) (numberLength : List Char → Nat) (cs : List Char) : Nat :=
  if oneOf marks cs = 0 then 0
  else
    let sign := oneOf ['-', '+'] (cs.drop 1)
    let digits := numberLength (cs.drop (1 + sign))
    if digits = 0 then 0 else 1 + sign + digits

/-- The length of a decimal exponent. -/
def decimalExponent (cs : List Char) : Nat :=
  exponentLength ['e', 'E'] (groupedLength isAsciiDigit) cs

/-- The marks of floating-point types. -/
def floatMarks : List Char := ['f', 'F', 'd', 'D']

/-- The length of an integer literal with a mark before its digits and maybe one after them. -/
def markedInteger (start : Nat) (isDigit : Char → Bool) (cs : List Char) : Nat :=
  let digits := groupedLength isDigit (cs.drop start)
  if digits = 0 then 0 else start + digits + oneOf ['l', 'L'] (cs.drop (start + digits))

/-- The length of the longest integer literal, zero if there is none. -/
def integerLength (cs : List Char) : Nat :=
  let plain := plainLength cs
  let decimal := if plain = 0 then 0 else plain + oneOf ['l', 'L'] (cs.drop plain)
  let marked :=
    match cs with
    | '0' :: c :: _ =>
      if c = 'x' || c = 'X' then markedInteger 2 isHexDigit cs
      else if c = 'b' || c = 'B' then markedInteger 2 isBinaryDigit cs
      else if c = 'o' || c = 'O' then markedInteger 2 isOctalDigit cs
      else markedInteger 1 isOctalDigit cs
    | _ => 0
  max decimal marked

/-- The length of a fraction with its exponent and type mark, after `whole` digits. -/
def fractionLength (whole : Nat) (cs : List Char) : Nat :=
  match cs.drop whole with
  | '.' :: rest =>
    let digits := groupedLength isAsciiDigit rest
    if whole = 0 && digits = 0 then 0
    else
      let exponent := decimalExponent (rest.drop digits)
      whole + 1 + digits + exponent + oneOf floatMarks (rest.drop (digits + exponent))
  | _ => 0

/-- The length of a decimal floating-point literal, zero if there is none. -/
def decimalFloatLength (cs : List Char) : Nat :=
  let fraction := fractionLength (groupedLength isAsciiDigit cs) cs
  let plain := plainLength cs
  if plain = 0 then fraction
  else
    let rest := cs.drop plain
    let power := exponentLength ['e', 'E', 'p', 'P'] (groupedLength isAsciiDigit) rest
    let withPower :=
      if power = 0 then 0 else plain + power + oneOf floatMarks (rest.drop power)
    let exponent := decimalExponent rest
    let mark := oneOf floatMarks (rest.drop exponent)
    let withMark := if mark = 0 then 0 else plain + exponent + mark
    max fraction (max withPower withMark)

/-- The length of an exponent with its type mark that starts after `n` characters of a hexadecimal
literal, together with these; zero if there is none. -/
def hexExponentFrom (n : Nat) (cs : List Char) : Nat :=
  let exponent := exponentLength ['e', 'E', 'p', 'P'] plainLength (cs.drop n)
  if exponent = 0 then 0 else n + exponent + oneOf floatMarks (cs.drop (n + exponent))

/-- The length of a hexadecimal literal whose digits end after `n` characters.  The last digit may
be an `e` that is the mark of a signed exponent, if there are digits before it. -/
def hexFloatEnd (hasDigitsBefore : Bool) (n : Nat) (cs : List Char) : Nat :=
  let signed := hasDigitsBefore && oneOf ['-', '+'] (cs.drop n) = 1
  max n (max (hexExponentFrom n cs) (if signed then hexExponentFrom (n - 1) cs else 0))

/-- The length of a hexadecimal floating-point literal, zero if there is none. -/
def hexFloatLength (cs : List Char) : Nat :=
  match cs with
  | '0' :: x :: rest =>
    if x = 'x' || x = 'X' then
      let whole := groupedLength isHexDigit rest
      match rest.drop whole with
      | '.' :: tail =>
        let fraction := groupedLength isHexDigit tail
        if whole + fraction = 0 then 0
        else hexFloatEnd (0 < fraction && 1 < whole + fraction) (2 + whole + 1 + fraction) cs
      | _ => if whole = 0 then 0 else hexFloatEnd (1 < whole) (2 + whole) cs
    else 0
  | _ => 0

/-- The longest number literal at the start of a text: its class and its length.  A text that is
both is an integer. -/
def number? (cs : List Char) : Option (TokenKind × Nat) :=
  let integer := integerLength cs
  let floating := max (decimalFloatLength cs) (hexFloatLength cs)
  if integer = 0 && floating = 0 then none
  else if integer < floating then some (.floating, floating)
  else some (.integer, integer)

end CallPaths.Token
