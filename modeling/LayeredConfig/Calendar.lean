import LayeredConfig.Text.Classes

/-!
# Points in time

Days of the Gregorian calendar and times of the day, with the form in which they are written: the
larger unit first, each with its full number of digits.
-/

namespace LayeredConfig

structure Date where
  year : Nat
  month : Nat
  day : Nat
  deriving DecidableEq, Repr

structure Clock where
  hour : Nat
  minute : Nat
  second : Nat
  microsecond : Nat := 0
  deriving DecidableEq, Repr

/-- The digits of a number, at least `width` of them. -/
def paddedText (width value : Nat) : String := String.ofList (Text.digitsInBase 10 width value)

namespace Date

def isLeapYear (year : Nat) : Bool := year % 4 == 0 && (year % 100 != 0 || year % 400 == 0)

def daysInMonth (year month : Nat) : Nat :=
  if month == 2 then if isLeapYear year then 29 else 28
  else if [4, 6, 9, 11].contains month then 30
  else 31

/-- Whether the calendar has the day. -/
def isValid (date : Date) : Bool :=
  1 ≤ date.year && date.year ≤ 9999 && 1 ≤ date.month && date.month ≤ 12 && 1 ≤ date.day
    && date.day ≤ daysInMonth date.year date.month

def toText (date : Date) : String :=
  paddedText 4 date.year ++ "-" ++ paddedText 2 date.month ++ "-" ++ paddedText 2 date.day

instance : ToString Date := ⟨toText⟩

end Date

namespace Clock

/-- Whether a day has the time; there are no leap seconds. -/
def isValid (clock : Clock) : Bool :=
  clock.hour < 24 && clock.minute < 60 && clock.second < 60 && clock.microsecond < 1000000

/-- The microseconds that the digits of a fraction stand for; further digits do not count. -/
def microseconds (fraction : List Char) : Nat :=
  Text.digitsValue ((fraction ++ List.replicate 6 '0').take 6)

def toText (clock : Clock) : String :=
  paddedText 2 clock.hour ++ ":" ++ paddedText 2 clock.minute ++ ":" ++ paddedText 2 clock.second ++
    (if clock.microsecond = 0 then "" else "." ++ paddedText 6 clock.microsecond)

instance : ToString Clock := ⟨toText⟩

end Clock

/-- The distance of a zone from universal time, in minutes. -/
abbrev ZoneOffset := Int

namespace ZoneOffset

/-- A zone is less than a day away. -/
def isValid (offset : ZoneOffset) : Bool := offset.natAbs < 24 * 60

def toText (offset : ZoneOffset) : String :=
  (if offset < 0 then "-" else "+") ++ paddedText 2 (offset.natAbs / 60) ++ ":" ++
    paddedText 2 (offset.natAbs % 60)

end ZoneOffset

/-- A point in universal time. -/
structure Moment where
  date : Date
  clock : Clock
  deriving DecidableEq, Repr

/-- The point in time from which others are counted. -/
def Moment.epoch : Moment := ⟨⟨1970, 1, 1⟩, ⟨0, 0, 0, 0⟩⟩

/-- A day and a time, with a zone if it is known. -/
def dateTimeText (date : Date) (clock : Clock) (zone : Option ZoneOffset) : String :=
  s!"{date}T{clock}" ++ (zone.map ZoneOffset.toText).getD ""

end LayeredConfig
