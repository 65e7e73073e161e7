import Remapping.Text.Basic

/-!
# Moments

A moment is a number of microseconds since the start of 1970 in universal time, written down
with its date in the Gregorian calendar.
-/

namespace Remapping

/-- A moment in universal time. -/
structure Moment where
  microseconds : Int := 0

namespace Moment

/-- The year, month and day of a number of days since the start of 1970. The years are counted
from March, so that the leap day is the last of its year. -/
def dateOfDay (day : Int) : Int × Nat × Nat :=
  let shifted := day + 719468
  let era := shifted.fdiv 146097
  let dayOfEra := (shifted - era * 146097).toNat
  let yearOfEra :=
    (dayOfEra - dayOfEra / 1460 + dayOfEra / 36524 - dayOfEra / 146096) / 365
  let dayOfYear := dayOfEra - (365 * yearOfEra + yearOfEra / 4 - yearOfEra / 100)
  let fromMarch := (5 * dayOfYear + 2) / 153
  let month := if fromMarch < 10 then fromMarch + 3 else fromMarch - 9
  let year : Int := yearOfEra + era * 400 + (if month ≤ 2 then 1 else 0)
  (year, month, dayOfYear - (153 * fromMarch + 2) / 5 + 1)

/-- The second since the start of 1970. -/
def second (m : Moment) : Int := m.microseconds.fdiv 1000000

/-- A number with zeros in front up to two digits. -/
def twoDigits (n : Nat) : Text := Text.padLeft 2 '0' (Text.ofNat n)

/-- Date and time up to the second. -/
def dateAndTime (m : Moment) : Text :=
  let (year, month, day) := dateOfDay (m.second.fdiv 86400)
  let time := (m.second.fmod 86400).toNat
  Text.padLeft 4 '0' (Text.ofInt year) ++ .char '-' :: twoDigits month ++
    .char '-' :: twoDigits day ++
    .char 'T' :: twoDigits (time / 3600) ++ .char ':' :: twoDigits (time / 60 % 60) ++
    .char ':' :: twoDigits (time % 60)

/-- A moment with its fraction of a second, if it has one, and the offset of universal time. -/
def precise (m : Moment) : Text :=
  let fraction := (m.microseconds.fmod 1000000).toNat
  m.dateAndTime ++
    (if fraction = 0 then [] else .char '.' :: Text.padLeft 6 '0' (Text.ofNat fraction)) ++ "+00:00"

/-- A moment up to the second with the offset of universal time. -/
def plain (m : Moment) : Text := m.dateAndTime ++ "+0000"

end Moment
end Remapping
