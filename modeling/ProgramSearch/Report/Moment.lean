import ProgramSearch.Decimal.Basic

/-!
# Moments

Points in time, in universal time, and their written forms. Days count from the first of March of
the year 0, so that the leap day comes last in a year.
-/
namespace ProgramSearch.Report

/-- Seconds since the start of 1970, and the nanoseconds beyond them. -/
structure Moment where
  seconds : Int
  nanoseconds : Nat := 0
deriving Repr, DecidableEq, Inhabited

structure Date where
  year : Int
  month : Nat
  day : Nat
deriving Repr, DecidableEq

namespace Date

/-- The date of a day, counted from the first of March of the year 0. -/
def ofMarchDay (n : Int) : Date :=
  let era := n.fdiv 146097
  let dayOfEra := (n.fmod 146097).toNat
  let yearOfEra :=
    (dayOfEra - dayOfEra / 1460 + dayOfEra / 36524 - dayOfEra / 146096) / 365
  let dayOfYear := dayOfEra - (365 * yearOfEra + yearOfEra / 4 - yearOfEra / 100)
  let marchMonth := (5 * dayOfYear + 2) / 153
  let day := dayOfYear - (153 * marchMonth + 2) / 5 + 1
  let month := if marchMonth < 10 then marchMonth + 3 else marchMonth - 9
  ⟨(if month ≤ 2 then 1 else 0) + (yearOfEra : Int) + era * 400, month, day⟩

/-- The days from the first of March of the year 0 to the start of 1970. -/
def marchDayOf1970 : Int := 719468

end Date

namespace Moment

def secondsPerDay : Int := 86400

def date (m : Moment) : Date :=
  Date.ofMarchDay (m.seconds.fdiv secondsPerDay + Date.marchDayOf1970)

/-- A number with at least `n` digits. -/
def padded (n k : Nat) : String :=
  let ds := Decimal.digits k
  String.ofList (List.replicate (n - ds.length) '0' ++ ds)

/-- Years have four digits; those beyond, and those before the year 0, have a sign too. -/
def yearText (year : Int) : String :=
  if year < 0 then "-" ++ padded 4 year.natAbs
  else if year ≤ 9999 then padded 4 year.toNat
  else "+" ++ padded 4 year.toNat

def dateText (m : Moment) : String :=
  let d := m.date
  yearText d.year ++ "-" ++ padded 2 d.month ++ "-" ++ padded 2 d.day

/-- Hours, minutes and seconds. -/
def clockText (m : Moment) : String :=
  let s := (m.seconds.fmod secondsPerDay).toNat
  padded 2 (s / 3600) ++ ":" ++ padded 2 (s / 60 % 60) ++ ":" ++ padded 2 (s % 60)

/-- The fraction of a second, in thousandths, millionths or billionths, as many as it takes. -/
def fractionText (m : Moment) : String :=
  if m.nanoseconds == 0 then ""
  else if m.nanoseconds % 1000000 == 0 then "." ++ padded 3 (m.nanoseconds / 1000000)
  else if m.nanoseconds % 1000 == 0 then "." ++ padded 6 (m.nanoseconds / 1000)
  else "." ++ padded 9 m.nanoseconds

/-- The form for reading on. -/
def stamp (m : Moment) : String := m.dateText ++ "T" ++ m.clockText ++ m.fractionText ++ "Z"

/-- The form for people. -/
def text (m : Moment) : String := m.dateText ++ " " ++ m.clockText ++ " UTC"

end Moment

end ProgramSearch.Report
