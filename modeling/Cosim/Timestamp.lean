import Cosim.Number.Notation

/-!
# Timestamps

The date and the time of day of a number of seconds since the start of the year 1970, as they are
written in model descriptions: `2024-05-01T12:00:00Z`.
-/

namespace Cosim.Timestamp

/-- Whole seconds since the start of the year 1970. -/
abbrev Seconds := Int

structure Date where
  year : Int
  month : Nat
  day : Nat
deriving DecidableEq

/-- The date of a number of days since the start of 1970.  Years are counted from March, so that
the leap day comes last; an era of 400 years has 146097 days. -/
def dateOfDays (days : Int) : Date :=
  let shifted := days + 719468
  let era := shifted / 146097
  let dayOfEra := (shifted % 146097).toNat
  let yearOfEra := (dayOfEra - dayOfEra / 1460 + dayOfEra / 36524 - dayOfEra / 146096) / 365
  let dayOfYear := dayOfEra - (365 * yearOfEra + yearOfEra / 4 - yearOfEra / 100)
  let shiftedMonth := (5 * dayOfYear + 2) / 153
  let day := dayOfYear - (153 * shiftedMonth + 2) / 5 + 1
  let month := if shiftedMonth < 10 then shiftedMonth + 3 else shiftedMonth - 9
  ⟨(yearOfEra : Int) + era * 400 + (if month ≤ 2 then 1 else 0), month, day⟩

/-- A number filled up with zeros to a number of digits. -/
def padded (size n : Nat) : String :=
  let ds := Nat.toDigits 10 n
  String.ofList (List.replicate (size - ds.length) '0' ++ ds)

/-- A year of at least four digits; years outside 0 to 9999 have a sign. -/
def yearText (year : Int) : String :=
  if year < 0 then "-" ++ padded 4 year.natAbs
  else if 9999 < year then "+" ++ padded 4 year.natAbs
  else padded 4 year.natAbs

/-- The written form of a timestamp. -/
def text (seconds : Seconds) : String :=
  let date := dateOfDays (seconds / 86400)
  let clock := (seconds % 86400).toNat
  s!"{yearText date.year}-{padded 2 date.month}-{padded 2 date.day}" ++
    s!"T{padded 2 (clock / 3600)}:{padded 2 (clock / 60 % 60)}:{padded 2 (clock % 60)}Z"

end Cosim.Timestamp
