/-!
# Points in time as text

A point in time is a number of seconds since the beginning of 1970, without leap seconds, and a
number of nanoseconds.  It is written as date and time of day in UTC, with as many places after the
seconds as it needs of none, three, six and nine.
-/

namespace CallPaths.Text

/-- A number with at least so many digits. -/
def digitsOfWidth (width n : Nat) : String :=
  let ds := Nat.toDigits 10 n
  String.ofList (List.replicate (width - ds.length) '0' ++ ds)

/-- Year, month and day after a number of days.  Years are counted from March on, in cycles of 400
years, which have 146097 days. -/
def dateOfDays (days : Nat) : Nat × Nat × Nat :=
  let shifted := days + 719468
  let cycle := shifted / 146097
  let inCycle := shifted % 146097
  let year := (inCycle - inCycle / 1460 + inCycle / 36524 - inCycle / 146096) / 365
  let inYear := inCycle - (365 * year + year / 4 - year / 100)
  let month := (5 * inYear + 2) / 153
  let day := inYear - (153 * month + 2) / 5 + 1
  let (month, late) := if month < 10 then (month + 3, 0) else (month - 9, 1)
  (400 * cycle + year + late, month, day)

/-- The places after the seconds. -/
def fraction (nanos : Nat) : String :=
  if nanos = 0 then ""
  else if nanos % 1000000 = 0 then "." ++ digitsOfWidth 3 (nanos / 1000000)
  else if nanos % 1000 = 0 then "." ++ digitsOfWidth 6 (nanos / 1000)
  else "." ++ digitsOfWidth 9 nanos

/-- A point in time as text. -/
def timestamp (seconds nanos : Nat) : String :=
  let (year, month, day) := dateOfDays (seconds / 86400)
  let ofDay := seconds % 86400
  let two := digitsOfWidth 2
  digitsOfWidth 4 year ++ "-" ++ two month ++ "-" ++ two day ++ "T" ++
    two (ofDay / 3600) ++ ":" ++ two (ofDay / 60 % 60) ++ ":" ++ two (ofDay % 60) ++
    fraction nanos ++ "+00:00"

end CallPaths.Text
