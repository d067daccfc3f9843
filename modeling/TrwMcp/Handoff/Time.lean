import TrwMcp.Handoff.Json

/-!
# Timestamps of the R-TIME-1 profile

`instant` reads `YYYY-MM-DDTHH:MM:SS[.f{1,6}]Z` and refuses an impossible calendar date. The value is
the number of microseconds since the first instant of year 1, which orders and separates the
timestamps as `datetime` does.
-/

namespace TrwMcp.Handoff

/-- A point in time, in microseconds. -/
abbrev Instant := Nat

def isLeap (year : Nat) : Bool := year % 4 == 0 && (year % 100 != 0 || year % 400 == 0)

def daysInMonth (year month : Nat) : Nat :=
  if month = 2 then if isLeap year then 29 else 28
  else if month ∈ [4, 6, 9, 11] then 30
  else 31

/-- Days before the first of `month`. -/
def daysBeforeMonth (year month : Nat) : Nat :=
  ((List.range (month - 1)).map fun m => daysInMonth year (m + 1)).sum

/-- Days before the first day of `year`. -/
def daysBeforeYear (year : Nat) : Nat :=
  (year - 1) * 365 + (year - 1) / 4 - (year - 1) / 100 + (year - 1) / 400

/-- The number a run of exactly `n` digits at the head of the text denotes, and the text left. -/
def digits (n : Nat) (cs : List Char) : Option (Nat × List Char) :=
  let ds := cs.take n
  if ds.length = n ∧ ds.all Char.isDigit then some (Nat.ofDigitChars 10 ds 0, cs.drop n) else none

def expect (c : Char) : List Char → Option (List Char)
  | d :: cs => if d = c then some cs else none
  | [] => none

/-- `YYYY-MM-DDTHH:MM:SS`, and the text left. -/
def civil (cs : List Char) : Option (Nat × List Char) := do
  let (year, cs) ← digits 4 cs
  let cs ← expect '-' cs
  let (month, cs) ← digits 2 cs
  let cs ← expect '-' cs
  let (day, cs) ← digits 2 cs
  let cs ← expect 'T' cs
  let (hour, cs) ← digits 2 cs
  let cs ← expect ':' cs
  let (minute, cs) ← digits 2 cs
  let cs ← expect ':' cs
  let (second, cs) ← digits 2 cs
  guard (1 ≤ year ∧ 1 ≤ month ∧ month ≤ 12 ∧ 1 ≤ day ∧ day ≤ daysInMonth year month)
  guard (hour < 24 ∧ minute < 60 ∧ second < 60)
  let days := daysBeforeYear year + daysBeforeMonth year month + (day - 1)
  return (((days * 24 + hour) * 60 + minute) * 60 + second, cs)

/-- The first six digits of a fraction, padded. -/
def micros (frac : List Char) : Option Nat :=
  let ds := (frac ++ "000000".toList).take 6
  if ds.all Char.isDigit then some (Nat.ofDigitChars 10 ds 0) else none

/-- `instant`: the text without its last character, split at the first point. -/
def instant (value : String) : Py Instant :=
  let cs := value.toList.dropLast
  let base := cs.takeWhile (· != '.')
  let frac := (cs.dropWhile (· != '.')).drop 1
  match civil base, micros frac with
  | some (seconds, []), some us => pure (seconds * 1000000 + us)
  | _, _ => throw .valueError

example : instant "0001-01-02T00:00:01.5Z" = .ok 86401500000 := by decide

example : instant "2025-02-29T00:00:00Z" = .error .valueError := by decide

end TrwMcp.Handoff
