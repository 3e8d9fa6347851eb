import MultiDispatch.Toml.Blank

/-!
# TOML dates and times

A date, a time of day, or a date and a time with an optional offset. Only their form and the ranges
of their parts are checked, February against the year; their value is the text itself.

## Main definitions

* `dateAt`, `timeAt`, `offsetAt`: the parts.
* `dateTimeAt`: any combination of them that is a value.
-/

namespace MultiDispatch.Toml

/-- A number of exactly `n` digits. -/
def fixedDigits (n : Nat) (s : List Char) : Option (Nat × List Char) :=
  let digits := s.take n
  if digits.length = n ∧ digits.all Char.isDigit then
    some (digits.foldl (fun a c => 10 * a + (c.toNat - 0x30)) 0, s.drop n)
  else none

/-- A number of exactly two digits between two bounds. -/
def twoDigits (low high : Nat) (s : List Char) : Option (Nat × List Char) :=
  match fixedDigits 2 s with
  | some (n, rest) => if low ≤ n ∧ n ≤ high then some (n, rest) else none
  | none => none

/-- The number of days of a month. -/
def daysIn (year month : Nat) : Nat :=
  if month = 2 then
    if year % 4 = 0 ∧ (year % 100 ≠ 0 ∨ year % 400 = 0) then 29 else 28
  else if month = 4 ∨ month = 6 ∨ month = 9 ∨ month = 11 then 30
  else 31

/-- A date. -/
def dateAt (s : List Char) : Option (List Char) := do
  let (year, s) ← fixedDigits 4 s
  let s ← expect '-' s
  let (month, s) ← twoDigits 1 12 s
  let s ← expect '-' s
  let (_, s) ← twoDigits 1 (daysIn year month) s
  pure s

/-- The text after the digits of a second's fraction, if there are any. -/
def skipFraction : List Char → List Char
  | '.' :: c :: rest => if c.isDigit then rest.dropWhile Char.isDigit else '.' :: c :: rest
  | s => s

/-- A time of day; a leap second is allowed. -/
def timeAt (s : List Char) : Option (List Char) := do
  let (_, s) ← twoDigits 0 23 s
  let s ← expect ':' s
  let (_, s) ← twoDigits 0 59 s
  let s ← expect ':' s
  let (_, s) ← twoDigits 0 60 s
  pure (skipFraction s)

/-- An offset from universal time. -/
def offsetAt : List Char → Option (List Char)
  | c :: rest =>
    if c = 'Z' ∨ c = 'z' then some rest
    else if c = '+' ∨ c = '-' then do
      let (_, s) ← twoDigits 0 23 rest
      let s ← expect ':' s
      let (_, s) ← twoDigits 0 59 s
      pure s
    else none
  | [] => none

/-- The mark between a date and a time. -/
def isTimeMark (c : Char) : Bool :=
  c == 'T' || c == 't' || c == ' '

/-- The text after the time and offset that may follow a date. -/
def skipTime : List Char → List Char
  | c :: rest =>
    match isTimeMark c, timeAt rest with
    | true, some after => (offsetAt after).getD after
    | _, _ => c :: rest
  | [] => []

/-- A date, a time, or both; the result is the text read. -/
def dateTimeAt : Reader String := fun s =>
  let after := ((dateAt s).map skipTime).or (timeAt s)
  after.map fun rest => (String.ofList (s.take (s.length - rest.length)), rest)

end MultiDispatch.Toml
