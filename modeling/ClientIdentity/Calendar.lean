namespace ClientIdentity

/-- A day of the calendar. -/
structure CalendarDay where
  year : Nat
  month : Nat
  day : Nat
  deriving DecidableEq, Repr

/-- The day that lies `days` days behind the first of January 1970. Years are counted from March,
in cycles of four hundred. -/
def CalendarDay.ofDays (days : Nat) : CalendarDay :=
  let shifted := days + 719468
  let cycle := shifted / 146097
  let dayOfCycle := shifted % 146097
  let yearOfCycle :=
    (dayOfCycle - dayOfCycle / 1460 + dayOfCycle / 36524 - dayOfCycle / 146096) / 365
  let dayOfYear := dayOfCycle - (365 * yearOfCycle + yearOfCycle / 4 - yearOfCycle / 100)
  let shiftedMonth := (5 * dayOfYear + 2) / 153
  let month := if shiftedMonth < 10 then shiftedMonth + 3 else shiftedMonth - 9
  let year := cycle * 400 + yearOfCycle
  { year := if month ≤ 2 then year + 1 else year
    month
    day := dayOfYear - (153 * shiftedMonth + 2) / 5 + 1 }

/-- The days from the first of January 1970 to a day that is not before it. -/
def CalendarDay.toDays (day : CalendarDay) : Nat :=
  let year := if day.month ≤ 2 then day.year - 1 else day.year
  let shiftedMonth := if day.month ≤ 2 then day.month + 9 else day.month - 3
  let dayOfYear := (153 * shiftedMonth + 2) / 5 + day.day - 1
  year * 365 + year / 4 - year / 100 + year / 400 + dayOfYear - 719468

/-- Whether a year has a day more than others. -/
def isLeapYear (year : Nat) : Bool :=
  year % 4 == 0 && (year % 100 != 0 || year % 400 == 0)

/-- The days of a month. -/
def daysInMonth (year month : Nat) : Nat :=
  if month = 2 then if isLeapYear year then 29 else 28
  else if month = 4 ∨ month = 6 ∨ month = 9 ∨ month = 11 then 30
  else 31

/-- A number of at least `width` decimal digits. -/
def paddedDecimal (width n : Nat) : String :=
  let digits := Nat.toDigits 10 n
  String.ofList (List.replicate (width - digits.length) '0' ++ digits)

/-- The hours, minutes and seconds of a time. -/
def timeOfDay (time : Nat) : List Nat :=
  let second := time % 86400
  [second / 3600, second / 60 % 60, second % 60]

/-- A moment to the microsecond, given in microseconds: the date and the time of day. -/
def writeMoment (microseconds : Nat) : String :=
  let time := microseconds / 1000000
  let day := CalendarDay.ofDays (time / 86400)
  let date := [paddedDecimal 4 day.year, paddedDecimal 2 day.month, paddedDecimal 2 day.day]
  "-".intercalate date ++ "T" ++ ":".intercalate ((timeOfDay time).map (paddedDecimal 2)) ++ "." ++
    paddedDecimal 6 (microseconds % 1000000) ++ "Z"

end ClientIdentity
