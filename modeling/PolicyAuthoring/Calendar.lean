import PolicyAuthoring.Number.Shortest

/-!
# Calendar dates and times

Days of the proleptic Gregorian calendar and points of time with microseconds, with or without an
offset from universal time. Two points of time with an offset are equal when they are the same
instant; a point of time without one is equal only to another without one.
-/

namespace PolicyAuthoring

/-- The decimal text of a number, padded with zeros to a width. -/
def paddedDecimal (width n : Nat) : String :=
  let digits := decimalDigits n
  String.ofList (List.replicate (width - digits.length) '0' ++ digits)

/-- A calendar day. -/
structure Date where
  /-- The year, from 1 to 9999. -/
  year : Nat
  /-- The month, from 1 to 12. -/
  month : Nat
  /-- The day of the month, from 1. -/
  day : Nat
  deriving DecidableEq

/-- A calendar day and a time of day. -/
structure DateTime where
  /-- The day. -/
  date : Date
  /-- The hour, from 0 to 23. -/
  hour : Nat
  /-- The minute, from 0 to 59. -/
  minute : Nat
  /-- The second, from 0 to 59. -/
  second : Nat
  /-- The microsecond, below one million. -/
  microsecond : Nat
  /-- The minutes by which local time is ahead of universal time, if that is known. -/
  offset : Option Int
  deriving DecidableEq

/-- What makes a day or a point of time impossible. -/
inductive CalendarFault where
  /-- The year is not in the calendar. -/
  | year (year : Nat)
  /-- There is no such month. -/
  | month
  /-- The month has no such day. -/
  | day
  /-- There is no such hour. -/
  | hour
  /-- There is no such minute. -/
  | minute
  /-- There is no such second. -/
  | second
  /-- The offset, in minutes, is a whole day or more. -/
  | offset (minutes : Int)
  deriving DecidableEq

/-- Whether a year has a 29th of February. -/
def isLeapYear (year : Nat) : Bool :=
  year % 4 = 0 && (year % 100 ≠ 0 || year % 400 = 0)

/-- The number of days in a month. -/
def daysInMonth (year month : Nat) : Nat :=
  if month = 2 then (if isLeapYear year then 29 else 28)
  else if month ∈ [4, 6, 9, 11] then 30 else 31

namespace Date

/-- The day with this year, month and day, if there is one. -/
def of (year month day : Nat) : Except CalendarFault Date :=
  if year < 1 ∨ 9999 < year then .error (.year year)
  else if month < 1 ∨ 12 < month then .error .month
  else if day < 1 ∨ daysInMonth year month < day then .error .day
  else .ok ⟨year, month, day⟩

/-- The number of days before this one. -/
def ordinal (d : Date) : Nat :=
  let past := d.year - 1
  let beforeYear := past * 365 + past / 4 - past / 100 + past / 400
  (List.range (d.month - 1)).foldl (fun days m => days + daysInMonth d.year (m + 1)) beforeYear +
    d.day

/-- Year, month and day with hyphens between them. -/
def text (d : Date) : String :=
  paddedDecimal 4 d.year ++ "-" ++ paddedDecimal 2 d.month ++ "-" ++ paddedDecimal 2 d.day

end Date

namespace DateTime

/-- The point of time with these parts, if there is one. -/
def of (date : Date) (hour minute second microsecond : Nat) (offset : Option Int) :
    Except CalendarFault DateTime :=
  if 23 < hour then .error .hour
  else if 59 < minute then .error .minute
  else if 59 < second then .error .second
  else .ok ⟨date, hour, minute, second, microsecond, offset⟩

/-- Microseconds of local time. -/
def localMicroseconds (t : DateTime) : Int :=
  (((t.date.ordinal * 24 + t.hour) * 60 + t.minute) * 60 + t.second) * 1000000 + t.microsecond

/-- Whether two points of time are equal. -/
def same (t u : DateTime) : Bool :=
  match t.offset, u.offset with
  | none, none => t.localMicroseconds = u.localMicroseconds
  | some p, some q =>
    t.localMicroseconds - p * 60000000 = u.localMicroseconds - q * 60000000
  | _, _ => false

/-- An offset as a sign, hours and minutes. -/
def offsetText (minutes : Int) : String :=
  let size := minutes.natAbs
  (if minutes < 0 then "-" else "+") ++ paddedDecimal 2 (size / 60) ++ ":" ++
    paddedDecimal 2 (size % 60)

/-- The day, the time of day with a fraction of six digits unless it is zero, and the offset if it
is known. -/
def text (separator : String) (t : DateTime) : String :=
  let fraction := if t.microsecond = 0 then "" else "." ++ paddedDecimal 6 t.microsecond
  let offset := match t.offset with
    | none => ""
    | some minutes => offsetText minutes
  t.date.text ++ separator ++ paddedDecimal 2 t.hour ++ ":" ++ paddedDecimal 2 t.minute ++ ":" ++
    paddedDecimal 2 t.second ++ fraction ++ offset

end DateTime

end PolicyAuthoring
