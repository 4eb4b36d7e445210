import DiagnosticReport.Toml.Number

/-!
# Points in time in TOML

A date, a time of day, or both with a `T` or a blank between them and possibly an offset behind
them. Every part lies in its range, the day in the length of its month.
-/

namespace DiagnosticReport

namespace Toml

/-- A number of just so many digits. -/
def fixedDigits : Nat → Reader (List Char)
  | 0 => pure []
  | n + 1 => do return (← Reader.char Char.isDigit) :: (← fixedDigits n)

/-- A number of two digits in a range. -/
def twoDigits (least greatest : Nat) : Reader Nat :=
  Reader.satisfying (ofDigits 10 <$> fixedDigits 2) fun n => least ≤ n && n ≤ greatest

/-- Whether a year has a leap day. -/
def isLeapYear (year : Nat) : Bool :=
  year % 4 == 0 && (year % 100 != 0 || year % 400 == 0)

/-- The number of days of a month. -/
def monthLength (year month : Nat) : Nat :=
  if month = 2 then (if isLeapYear year then 29 else 28)
  else if month = 4 ∨ month = 6 ∨ month = 9 ∨ month = 11 then 30
  else 31

/-- A date. -/
def date : Reader Unit := do
  let year ← ofDigits 10 <$> fixedDigits 4
  let _ ← Reader.exactly '-'
  let month ← twoDigits 1 12
  let _ ← Reader.exactly '-'
  let day ← twoDigits 1 31
  guard (day ≤ monthLength year month)

/-- A time of day; the minute may have a leap second. -/
def timeOfDay : Reader Unit := do
  let _ ← twoDigits 0 23
  let _ ← Reader.exactly ':'
  let _ ← twoDigits 0 59
  let _ ← Reader.exactly ':'
  let _ ← twoDigits 0 60
  let _ ← Reader.optional (Reader.exactly '.' *> Reader.span1 Char.isDigit)

/-- An offset from universal time. -/
def offset : Reader Unit :=
  ((fun _ => ()) <$> Reader.char fun c => c == 'Z' || c == 'z') <|>
    (do
      let _ ← sign
      let _ ← twoDigits 0 23
      let _ ← Reader.exactly ':'
      let _ ← twoDigits 0 59)

/-- The time of day behind a date. -/
def timeBehindDate : Reader Unit := do
  let _ ← Reader.char fun c => c == 'T' || c == 't' || c == ' '
  timeOfDay
  let _ ← Reader.optional offset

/-- A point in time. -/
def dateTime : Reader Value :=
  Value.dateTime <$> Reader.lexeme
    ((do date; let _ ← Reader.optional timeBehindDate) <|> timeOfDay)

end Toml

end DiagnosticReport
