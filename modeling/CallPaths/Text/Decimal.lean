/-!
# Unsigned numbers of 64 bits in decimal

The number texts that a command line and a signature of sizes accept: an optional plus sign and
one or more digits, whose value fits into 64 bits.
-/

namespace CallPaths.Text

/-- One more than the largest number of 64 bits. -/
def wordLimit : Nat := 0x10000000000000000

/-- The value of a digit. -/
def digit? (c : Char) : Option Nat :=
  if '0' ≤ c && c ≤ '9' then some (c.toNat - '0'.toNat) else none

/-- The value of a list of digits after the value `acc` of the digits read before. -/
def digitsFrom? (acc : Nat) : List Char → Option Nat
  | [] => some acc
  | c :: cs =>
    match digit? c with
    | some d => digitsFrom? (acc * 10 + d) cs
    | none => none

/-- Reads one or more digits. -/
def digits? : List Char → Option Nat
  | [] => none
  | cs => digitsFrom? 0 cs

/-- Reads an unsigned number: an optional plus sign, then digits, below `wordLimit`. -/
def unsigned? (s : String) : Option Nat :=
  let ds := match s.toList with
    | '+' :: cs => cs
    | cs => cs
  match digits? ds with
  | some n => if n < wordLimit then some n else none
  | none => none

end CallPaths.Text
