/-!
# Instants on the calendar

An instant is a number of milliseconds since the start of 1970. `Calendar.text?` writes it in
universal time on the proleptic Gregorian calendar: the hour without padding, at least one digit
of fraction, years from ten thousand on with a sign. Years beyond six digits have no text.
-/

namespace DocQuery.Calendar

/-- A day of the calendar. -/
structure Day where
  year : Int
  month : Nat
  day : Nat
deriving DecidableEq

/-- The day that many days after the start of 1970. Years are counted from March, so that the day
added in leap years is the last of its year; four hundred of them make an era of 146097 days. -/
def Day.ofNumber (n : Int) : Day :=
  let shifted := n + 719468
  let era := Int.fdiv shifted 146097
  let dayOfEra := (Int.fmod shifted 146097).toNat
  let yearOfEra := (dayOfEra - dayOfEra / 1460 + dayOfEra / 36524 - dayOfEra / 146096) / 365
  let dayOfYear := dayOfEra - (365 * yearOfEra + yearOfEra / 4 - yearOfEra / 100)
  let fromMarch := (5 * dayOfYear + 2) / 153
  let day := dayOfYear - (153 * fromMarch + 2) / 5 + 1
  let month := if fromMarch < 10 then fromMarch + 3 else fromMarch - 9
  ⟨yearOfEra + era * 400 + (if month ≤ 2 then 1 else 0), month, day⟩

/-- Digits of a number, padded with zeros to a width. -/
def padded (width n : Nat) : String :=
  let ds := Nat.toDigits 10 n
  String.ofList (List.replicate (width - ds.length) '0' ++ ds)

/-- The year with at least four digits, signed when negative or longer. -/
def yearText (year : Int) : String :=
  if year < 0 then "-" ++ padded 4 year.natAbs
  else if 10000 ≤ year then "+" ++ padded 4 year.natAbs
  else padded 4 year.natAbs

/-- Thousandths without trailing zeros, but with at least one digit. -/
def fractionText (millis : Nat) : String :=
  if millis % 10 ≠ 0 then padded 3 millis
  else if millis / 10 % 10 ≠ 0 then padded 2 (millis / 10)
  else padded 1 (millis / 100)

/-- The text of an instant whose year has at most six digits. -/
def text? (millis : Int) : Option String :=
  let day := Day.ofNumber (Int.fdiv millis 86400000)
  let rest := (Int.fmod millis 86400000).toNat
  if day.year < -999999 ∨ 999999 < day.year then none
  else
    some (yearText day.year ++ "-" ++ padded 2 day.month ++ "-" ++ padded 2 day.day ++ " " ++
      padded 1 (rest / 3600000) ++ ":" ++ padded 2 (rest / 60000 % 60) ++ ":" ++
      padded 2 (rest / 1000 % 60) ++ "." ++ fractionText (rest % 1000) ++ " +00:00:00")

/-- The text of an instant; one too far away is written as its number of milliseconds. -/
def text (millis : Int) : String := (text? millis).getD (toString millis)

end DocQuery.Calendar
