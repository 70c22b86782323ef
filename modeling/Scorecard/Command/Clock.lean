import Scorecard.Number.Decimal

set_option autoImplicit false

/-! # Clock

The time at which a report is made, in universal time.
-/

namespace Scorecard.Command

/-- A day of the calendar. -/
structure Date where
  year : Int
  month : Nat
  day : Nat
deriving DecidableEq, Repr

/-- The date of a day, counted from the first of January 1970. Years are taken to begin in March, so
that a leap day comes last, and are counted in spans of 400 years, which all have the same
length. -/
def dateOfDay (day : Int) : Date :=
  let fromMarch := day + 719468
  let span := Int.fdiv fromMarch 146097
  let dayOfSpan := (Int.fmod fromMarch 146097).toNat
  let yearOfSpan := (dayOfSpan - dayOfSpan / 1460 + dayOfSpan / 36524 - dayOfSpan / 146096) / 365
  let dayOfYear := dayOfSpan - (365 * yearOfSpan + yearOfSpan / 4 - yearOfSpan / 100)
  let monthFromMarch := (5 * dayOfYear + 2) / 153
  let month := if monthFromMarch < 10 then monthFromMarch + 3 else monthFromMarch - 9
  let year : Int := yearOfSpan + 400 * span
  { year := if month ≤ 2 then year + 1 else year, month,
    day := dayOfYear - (153 * monthFromMarch + 2) / 5 + 1 }

/-- The time a number of seconds after the beginning of 1970, such as `2024-02-29T23:59:59Z`. -/
def timeText (seconds : Int) : String :=
  let date := dateOfDay (Int.fdiv seconds 86400)
  let second := (Int.fmod seconds 86400).toNat
  Decimal.padded 4 date.year.toNat ++ "-" ++ Decimal.padded 2 date.month ++ "-" ++
    Decimal.padded 2 date.day ++ "T" ++
    Decimal.padded 2 (second / 3600) ++ ":" ++ Decimal.padded 2 (second / 60 % 60) ++ ":" ++
    Decimal.padded 2 (second % 60) ++ "Z"

end Scorecard.Command
