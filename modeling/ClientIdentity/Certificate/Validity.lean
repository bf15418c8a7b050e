import ClientIdentity.Calendar
import ClientIdentity.Certificate.Parsing
import ClientIdentity.Der.Value
import ClientIdentity.Text.Utf8

namespace ClientIdentity

/-- The encoding of a time: years from 1950 to 2049 are written with two digits. -/
def encodeTime (time : Nat) : Bytes :=
  let day := CalendarDay.ofDays (time / 86400)
  let rest := String.join
    (([day.month, day.day] ++ timeOfDay time).map (paddedDecimal 2)) ++ "Z"
  if day.year < 2050 then
    Der.encode .utcTime (Utf8.encode (paddedDecimal 2 (day.year % 100) ++ rest))
  else
    Der.encode .generalizedTime (Utf8.encode (paddedDecimal 4 day.year ++ rest))

/-- The first and the last second at which a certificate is valid. -/
structure Validity where
  notBefore : Nat
  notAfter : Nat
  deriving DecidableEq, Repr

namespace Validity

def encode (validity : Validity) : Bytes :=
  Der.sequence [encodeTime validity.notBefore, encodeTime validity.notAfter]

end Validity

namespace Certificate

/-- Reads two decimal digits of a number between two others. -/
def readTwoDigits (low high : Nat) : Reader Nat := do
  let tens ← Reader.byte?
  let ones ← Reader.byte?
  match tens.bind digit?, ones.bind digit? with
  | some tens, some ones =>
    let number := 10 * tens + ones
    if low ≤ number ∧ number ≤ high then return number else Reader.refuse .badEncoding
  | _, _ => Reader.refuse .badEncoding
where
  digit? (b : UInt8) : Option Nat :=
    if 0x30 ≤ b ∧ b ≤ 0x39 then some (b.toNat - 0x30) else none

/-- Reads a year: of two digits, those from 50 on belong to the twentieth century. -/
def readYear (twoDigits : Bool) : Reader Nat := do
  let first ← readTwoDigits 0 99
  if twoDigits then
    return if 50 ≤ first then 1900 + first else 2000 + first
  else
    return 100 * first + (← readTwoDigits 0 99)

/-- Reads a moment to the second, not before 1970. -/
def readMoment (twoDigits : Bool) : Reader Nat := do
  let year ← readYear twoDigits
  let month ← readTwoDigits 1 12
  let day ← readTwoDigits 1 (daysInMonth year month)
  let hour ← readTwoDigits 0 23
  let minute ← readTwoDigits 0 59
  let second ← readTwoDigits 0 59
  if (← Reader.byte?) ≠ some 0x5A ∨ year < 1970 then Reader.refuse .badEncoding
  return (CalendarDay.toDays ⟨year, month, day⟩ * 24 + hour) * 3600 + minute * 60 + second

/-- Reads a time in either of its forms. -/
def readTime : Reader Nat := do
  if ← Reader.beginsWith .utcTime then
    Reader.within .utcTime (readMoment true)
  else
    Reader.within .generalizedTime (readMoment false)

/-- Reads the time for which a certificate is valid. -/
def readValidity : Reader Validity := do
  let notBefore ← readTime
  let notAfter ← readTime
  return ⟨notBefore, notAfter⟩

end Certificate

end ClientIdentity
