/-!
Moments in time, to the millisecond, and their calendar dates in the Gregorian calendar as
continued to all years. The time zone is that of Greenwich.
-/

namespace ImapDialogue

structure Instant where
  milliseconds : Int
deriving DecidableEq, Repr

namespace Instant

/-- Days from the start of 1970 to the start of a month, counted from one, of a year. The
year is taken to begin in March, so that the day of a leap year comes last. -/
def monthStart (year : Int) (month : Int) : Int :=
  let shifted := if month ≤ 2 then year - 1 else year
  let place := (month + 9) % 12
  365 * shifted + shifted / 4 - shifted / 100 + shifted / 400 + (153 * place + 2) / 5 - 719468

/-- The moment that a calendar date and a time of day name. Days past the end of the month run
on into the next one. -/
def ofCalendar (year month day hour minute second millisecond : Int) : Instant :=
  ⟨(((monthStart year month + day - 1) * 24 + hour) * 60 + minute) * 60000 +
    second * 1000 + millisecond⟩

/-- Year, month and day, months and days counted from one, of a day since the start of 1970. -/
def calendar (days : Int) : Int × Int × Int :=
  let shifted := days + 719468
  let era := shifted / 146097
  let ofEra := shifted % 146097
  let yearOfEra := (ofEra - ofEra / 1460 + ofEra / 36524 - ofEra / 146096) / 365
  let ofYear := ofEra - (365 * yearOfEra + yearOfEra / 4 - yearOfEra / 100)
  let place := (5 * ofYear + 2) / 153
  let day := ofYear - (153 * place + 2) / 5 + 1
  let month := if place < 10 then place + 3 else place - 9
  let year := yearOfEra + era * 400
  (if month ≤ 2 then year + 1 else year, month, day)

def padded (width : Nat) (value : Int) : String :=
  let digits := toString value.natAbs
  String.ofList (List.replicate (width - digits.length) '0') ++ digits

def yearText (year : Int) : String :=
  if 0 ≤ year && year ≤ 9999 then padded 4 year
  else (if year < 0 then "-" else "+") ++ padded 6 year

/-- The date and time with a letter between them and a final letter for the zone. -/
def text (instant : Instant) : String :=
  let days := instant.milliseconds / 86400000
  let ofDay := instant.milliseconds % 86400000
  let (year, month, day) := calendar days
  yearText year ++ "-" ++ padded 2 month ++ "-" ++ padded 2 day ++ "T" ++
    padded 2 (ofDay / 3600000) ++ ":" ++ padded 2 (ofDay / 60000 % 60) ++ ":" ++
    padded 2 (ofDay / 1000 % 60) ++ "." ++ padded 3 (ofDay % 1000) ++ "Z"

end Instant

end ImapDialogue
