import CallPaths.Text.Decimal
import CallPaths.Text.NameChars
import CallPaths.Toml.Basic

/-!
# Strings, numbers and dates of TOML

Each reader takes the longest text of its form from the start and gives the value with the rest of
the text; none if the text does not start with such a form.
-/

namespace CallPaths.Toml

open Text

/-! ### Strings -/

/-- The characters that strings and comments may hold as they are. -/
def isTextChar (c : Char) : Bool :=
  c = '\t' || (0x20 ≤ c.toNat && c.toNat ≠ 0x7F)

/-- The rest of a text after a line end at its start. -/
def newline? : List Char → Option (List Char)
  | '\n' :: cs => some cs
  | '\r' :: '\n' :: cs => some cs
  | _ => none

/-- The value of a hexadecimal digit. -/
def hexDigit? (c : Char) : Option Nat :=
  if '0' ≤ c && c ≤ '9' then some (c.toNat - '0'.toNat)
  else if 'a' ≤ c && c ≤ 'f' then some (c.toNat - 'a'.toNat + 10)
  else if 'A' ≤ c && c ≤ 'F' then some (c.toNat - 'A'.toNat + 10)
  else none

/-- The value of the digits of a list in a base, after `acc`; none if one is no digit of it. -/
def digitsIn? (base : Nat) (acc : Nat) : List Char → Option Nat
  | [] => some acc
  | c :: cs =>
    match hexDigit? c with
    | some d => if d < base then digitsIn? base (acc * base + d) cs else none
    | none => none

/-- The character of a code point with `n` hexadecimal digits. -/
def codePoint? (n : Nat) (cs : List Char) : Option (Char × List Char) :=
  if cs.length < n then none
  else
    match digitsIn? 16 0 (cs.take n) with
    | some v => if v.isValidChar then some (Char.ofNat v, cs.drop n) else none
    | none => none

/-- The character of an escape sequence, after the backslash. -/
def escape? : List Char → Option (Char × List Char)
  | 'b' :: cs => some ('\x08', cs)
  | 't' :: cs => some ('\t', cs)
  | 'n' :: cs => some ('\n', cs)
  | 'f' :: cs => some ('\x0c', cs)
  | 'r' :: cs => some ('\r', cs)
  | '"' :: cs => some ('"', cs)
  | '\\' :: cs => some ('\\', cs)
  | 'u' :: cs => codePoint? 4 cs
  | 'U' :: cs => codePoint? 8 cs
  | _ => none

/-- Reads a string with escape sequences after its opening quote. -/
def basicString? : Nat → List Char → Option (List Char × List Char)
  | 0, _ => none
  | _, '"' :: cs => some ([], cs)
  | n + 1, '\\' :: cs =>
    match escape? cs with
    | some (c, cs) => (basicString? n cs).map fun (s, rest) => (c :: s, rest)
    | none => none
  | n + 1, c :: cs =>
    if isTextChar c then (basicString? n cs).map fun (s, rest) => (c :: s, rest) else none
  | _, [] => none

/-- Reads a string without escape sequences after its opening quote. -/
def literalString? (cs : List Char) : Option (List Char × List Char) :=
  let s := cs.takeWhile fun c => isTextChar c && c != '\''
  match cs.drop s.length with
  | '\'' :: rest => some (s, rest)
  | _ => none

/-- Drops blanks and line ends. -/
def skipBlankLines : List Char → List Char
  | '\r' :: '\n' :: cs => skipBlankLines cs
  | c :: cs => if c = ' ' || c = '\t' || c = '\n' then skipBlankLines cs else c :: cs
  | [] => []

/-- The text after a backslash at the end of a line: the next line that is not blank. -/
def lineJoin? (cs : List Char) : Option (List Char) :=
  (newline? (cs.dropWhile fun c => c = ' ' || c = '\t')).map skipBlankLines

/-- Closing quotes at the start of a text: the quotes that still belong to the string, and the rest.
None if there are fewer than three quotes. -/
def closingQuotes? (quote : Char) (cs : List Char) : Option (List Char × List Char) :=
  let count := min 5 (cs.takeWhile (· = quote)).length
  if count < 3 then none else some (List.replicate (count - 3) quote, cs.drop count)

/-- Reads a string over several lines after its opening quotes; with escape sequences if the quotes
are double ones. -/
def longString? (quote : Char) : Nat → List Char → Option (List Char × List Char)
  | 0, _ => none
  | n + 1, cs =>
    match closingQuotes? quote cs with
    | some r => some r
    | none =>
      match newline? cs with
      | some rest => (longString? quote n rest).map fun (s, rest) => ('\n' :: s, rest)
      | none =>
        match cs with
        | [] => none
        | c :: rest =>
          if c = '\\' && quote = '"' then
            match lineJoin? rest with
            | some rest => longString? quote n rest
            | none =>
              match escape? rest with
              | some (c, rest) => (longString? quote n rest).map fun (s, rest) => (c :: s, rest)
              | none => none
          else if isTextChar c then
            (longString? quote n rest).map fun (s, rest) => (c :: s, rest)
          else none

/-- Reads a string over several lines; a line end right after the opening quotes does not count. -/
def longStringFrom? (quote : Char) (cs : List Char) : Option (List Char × List Char) :=
  longString? quote (cs.length + 1) ((newline? cs).getD cs)

/-- Reads a string of any form. -/
def string? : List Char → Option (String × List Char)
  | '"' :: '"' :: '"' :: cs =>
    (longStringFrom? '"' cs).map fun (s, rest) => (String.ofList s, rest)
  | '\'' :: '\'' :: '\'' :: cs =>
    (longStringFrom? '\'' cs).map fun (s, rest) => (String.ofList s, rest)
  | '"' :: cs => (basicString? (cs.length + 1) cs).map fun (s, rest) => (String.ofList s, rest)
  | '\'' :: cs => (literalString? cs).map fun (s, rest) => (String.ofList s, rest)
  | _ => none

/-! ### Numbers -/

/-- Reads digits of a class, single underscores between them. -/
def grouped? (isDigit : Char → Bool) : List Char → Option (List Char × List Char)
  | [] => none
  | c :: cs => if isDigit c then some (more c cs) else none
where
  /-- The digits after a first one. -/
  more (first : Char) : List Char → List Char × List Char
    | '_' :: c :: cs =>
      if isDigit c then
        let (ds, rest) := more c cs
        (first :: ds, rest)
      else ([first], '_' :: c :: cs)
    | c :: cs =>
      if isDigit c then
        let (ds, rest) := more c cs
        (first :: ds, rest)
      else ([first], c :: cs)
    | [] => ([first], [])

/-- Whether a character is a digit of a base. -/
def isDigitIn (base : Nat) (c : Char) : Bool :=
  match hexDigit? c with
  | some d => d < base
  | none => false

/-- Reads a sign; the flag says whether it is a minus sign. -/
def sign : List Char → Bool × List Char
  | '-' :: cs => (true, cs)
  | '+' :: cs => (false, cs)
  | cs => (false, cs)

/-- Reads decimal digits that start with zero only if they are a single zero. -/
def wholeDigits? : List Char → Option (List Char × List Char)
  | '0' :: cs => some (['0'], cs)
  | cs => grouped? isAsciiDigit cs

/-- The integer with a sign and digits, if it fits into 64 bits. -/
def integer64? (negative : Bool) (base : Nat) (digits : List Char) : Option Value :=
  match digitsIn? base 0 digits with
  | none => none
  | some n =>
    let v : Int := if negative then -n else n
    if -0x8000000000000000 ≤ v && v < 0x8000000000000000 then some (.integer v) else none

/-- Reads an integer. -/
def integer? (cs : List Char) : Option (Value × List Char) :=
  let marked (base : Nat) (cs : List Char) : Option (Value × List Char) :=
    match grouped? (isDigitIn base) cs with
    | some (ds, rest) => (integer64? false base ds).map fun v => (v, rest)
    | none => none
  match cs with
  | '0' :: 'x' :: rest => marked 16 rest
  | '0' :: 'o' :: rest => marked 8 rest
  | '0' :: 'b' :: rest => marked 2 rest
  | _ =>
    let (negative, rest) := sign cs
    match wholeDigits? rest with
    | some (ds, rest) => (integer64? negative 10 ds).map fun v => (v, rest)
    | none => none

/-- Skips an exponent. -/
def exponent? : List Char → Option (List Char)
  | c :: cs =>
    if c = 'e' || c = 'E' then (grouped? isAsciiDigit (sign cs).2).map (·.2) else none
  | [] => none

/-- Skips a number with a fraction or an exponent, or one of the special numbers. -/
def float? (cs : List Char) : Option (List Char) :=
  match (sign cs).2 with
  | 'i' :: 'n' :: 'f' :: rest => some rest
  | 'n' :: 'a' :: 'n' :: rest => some rest
  | unsigned =>
    match wholeDigits? unsigned with
    | none => none
    | some (_, '.' :: rest) =>
      (grouped? isAsciiDigit rest).map fun (_, rest) => (exponent? rest).getD rest
    | some (_, rest) => exponent? rest

/-! ### Dates -/

/-- Reads a number of exactly `n` digits. -/
def fixed? (n : Nat) (cs : List Char) : Option (Nat × List Char) :=
  if cs.length < n then none
  else (digits? (cs.take n)).map fun v => (v, cs.drop n)

/-- The number of days of a month. -/
def daysIn (year month : Nat) : Nat :=
  if month = 2 then
    if year % 4 = 0 && (year % 100 ≠ 0 || year % 400 = 0) then 29 else 28
  else if [4, 6, 9, 11].contains month then 30
  else 31

/-- Skips a day of a year. -/
def day? (cs : List Char) : Option (List Char) :=
  match fixed? 4 cs with
  | some (year, '-' :: cs) =>
    match fixed? 2 cs with
    | some (month, '-' :: cs) =>
      match fixed? 2 cs with
      | some (day, rest) =>
        if 1 ≤ month && month ≤ 12 && 1 ≤ day && day ≤ daysIn year month then some rest else none
      | none => none
    | _ => none
  | _ => none

/-- Skips hours and minutes. -/
def hourMinute? (cs : List Char) : Option (List Char) :=
  match fixed? 2 cs with
  | some (hour, ':' :: cs) =>
    match fixed? 2 cs with
    | some (minute, rest) => if hour ≤ 23 && minute ≤ 59 then some rest else none
    | none => none
  | _ => none

/-- Skips a time of a day. -/
def time? (cs : List Char) : Option (List Char) :=
  match hourMinute? cs with
  | some (':' :: cs) =>
    match fixed? 2 cs with
    | some (second, rest) =>
      if second ≤ 60 then
        match rest with
        | '.' :: c :: more =>
          if isAsciiDigit c then some (more.dropWhile isAsciiDigit) else some rest
        | _ => some rest
      else none
    | none => none
  | _ => none

/-- Skips a difference to universal time, if there is one. -/
def offset (cs : List Char) : List Char :=
  match cs with
  | 'Z' :: rest => rest
  | 'z' :: rest => rest
  | '+' :: rest => (hourMinute? rest).getD cs
  | '-' :: rest => (hourMinute? rest).getD cs
  | _ => cs

/-- Skips a date, a time or both. -/
def date? (cs : List Char) : Option (List Char) :=
  match day? cs with
  | none => time? cs
  | some rest =>
    match rest with
    | c :: more =>
      if c = 'T' || c = 't' || c = ' ' then
        match time? more with
        | some rest => some (offset rest)
        | none => some rest
      else some rest
    | [] => some []

/-- Reads a value that is no list, table or string. -/
def plain? (cs : List Char) : Option (Value × List Char) :=
  match cs with
  | 't' :: 'r' :: 'u' :: 'e' :: rest => some (.boolean true, rest)
  | 'f' :: 'a' :: 'l' :: 's' :: 'e' :: rest => some (.boolean false, rest)
  | _ =>
    match date? cs with
    | some rest => some (.date, rest)
    | none =>
      match float? cs with
      | some rest => some (.float, rest)
      | none => integer? cs

end CallPaths.Toml
