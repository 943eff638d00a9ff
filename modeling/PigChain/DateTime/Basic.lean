/-!
# Calendar date-times

A date-time is a day of the proleptic Gregorian calendar, a second of that day and nanoseconds; it belongs to
no time zone. A leap second is the last second of a minute with a thousand million nanoseconds or more.
-/

namespace PigChain

/-- A date and time of day: days since 1970-01-01, seconds since midnight, nanoseconds. -/
structure DateTime where
  day : Int
  second : Nat
  nano : Nat
  deriving DecidableEq, Repr, Inhabited

namespace DateTime

/-- Days since 1970-01-01 of a date. Years are counted from March, so that a leap day ends its year. -/
def dayOfDate (year month day : Int) : Int :=
  let y := if month ≤ 2 then year - 1 else year
  let era := y / 400
  let yoe := y - era * 400
  let doy := (153 * (if 2 < month then month - 3 else month + 9) + 2) / 5 + day - 1
  let doe := yoe * 365 + yoe / 4 - yoe / 100 + doy
  era * 146097 + doe - 719468

/-- Year, month and day of month. -/
def dateOfDay (day : Int) : Int × Int × Int :=
  let z := day + 719468
  let era := z / 146097
  let doe := z - era * 146097
  let yoe := (doe - doe / 1460 + doe / 36524 - doe / 146096) / 365
  let doy := doe - (365 * yoe + yoe / 4 - yoe / 100)
  let mp := (5 * doy + 2) / 153
  let d := doy - (153 * mp + 2) / 5 + 1
  let m := if mp < 10 then mp + 3 else mp - 9
  let y := yoe + era * 400
  (if m ≤ 2 then y + 1 else y, m, d)

def isLeapYear (year : Int) : Bool := year % 4 = 0 && (year % 100 ≠ 0 || year % 400 = 0)

def monthLength (year month : Int) : Int :=
  if month = 2 then (if isLeapYear year then 29 else 28)
  else if month = 4 ∨ month = 6 ∨ month = 9 ∨ month = 11 then 30
  else 31

/-- The first and the last day that a date-time can have. -/
def firstDay : Int := dayOfDate (-262143) 1 1

def lastDay : Int := dayOfDate 262142 12 31

def inRange (day : Int) : Bool := firstDay ≤ day && day ≤ lastDay

/-- The date-time of calendar fields, if they are one; second 60 is a leap second. -/
def ofFields? (year month day hour minute second nano : Int) : Option DateTime :=
  let date := dayOfDate year month day
  if 1 ≤ month ∧ month ≤ 12 ∧ 1 ≤ day ∧ day ≤ monthLength year month ∧ inRange date ∧
      0 ≤ hour ∧ hour < 24 ∧ 0 ≤ minute ∧ minute < 60 ∧ 0 ≤ second ∧ second ≤ 60 ∧
      0 ≤ nano ∧ nano < 1000000000 then
    let s := if second = 60 then 59 else second
    let extra := if second = 60 then 1000000000 else 0
    some ⟨date, (hour * 3600 + minute * 60 + s).toNat, (nano + extra).toNat⟩
  else none

/-- Milliseconds since the start of 1970. -/
def ofEpochMillis? (millis : Int) : Option DateTime :=
  let seconds := millis / 1000
  let day := seconds / 86400
  if inRange day then some ⟨day, (seconds % 86400).toNat, (millis % 1000 * 1000000).toNat⟩ else none

/-- The date-time a number of seconds earlier. -/
def minusSeconds (t : DateTime) (seconds : Int) : DateTime :=
  let total := (t.second : Int) - seconds
  { t with day := t.day + total / 86400, second := (total % 86400).toNat }

/-! ### Text -/

/-- Decimal digits of `n`, zeros in front up to a width. -/
def padded (width n : Nat) : String :=
  let digits := Nat.toDigits 10 n
  String.ofList (List.replicate (width - digits.length) '0' ++ digits)

/-- Four digits, with a sign for years that need more or are before year zero. -/
def yearText (year : Int) : String :=
  if 0 ≤ year ∧ year ≤ 9999 then padded 4 year.toNat
  else (if year < 0 then "-" else "+") ++ padded 4 year.natAbs

/-- Date and time to the second. -/
def secondsText (t : DateTime) : String :=
  let (y, m, d) := dateOfDay t.day
  let leap := if t.nano < 1000000000 then 0 else 1
  yearText y ++ "-" ++ padded 2 m.toNat ++ "-" ++ padded 2 d.toNat ++ "T" ++
    padded 2 (t.second / 3600) ++ ":" ++ padded 2 (t.second / 60 % 60) ++ ":" ++ padded 2 (t.second % 60 + leap)

/-- The text of a date-time; the fraction has no digits, three, six or nine, the fewest that are exact. -/
def text (t : DateTime) : String :=
  let nano := t.nano % 1000000000
  t.secondsText ++
    if nano = 0 then ""
    else if nano % 1000000 = 0 then "." ++ padded 3 (nano / 1000000)
    else if nano % 1000 = 0 then "." ++ padded 6 (nano / 1000)
    else "." ++ padded 9 nano

/-- The text with exactly three digits of fraction, the others dropped. -/
def millisText (t : DateTime) : String :=
  t.secondsText ++ "." ++ padded 3 (t.nano % 1000000000 / 1000000)

end DateTime

end PigChain
