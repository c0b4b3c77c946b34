import ApiSnippets.Number.Text
/-!
# Days and moments

Days of the calendar and points in time, and the two ways they are put into a
message: `text` is the date as people write it, and `shown`, used inside the
text of a container, also says what kind of value it is.
-/

namespace ApiSnippets

/-- A day of the calendar. -/
structure Day where
  year : Nat
  month : Nat
  day : Nat
  deriving DecidableEq, Repr, Inhabited

namespace Day

/-- Whether a year has a 29th of February. -/
def isLeapYear (year : Nat) : Bool :=
  year % 4 == 0 && (year % 100 != 0 || year % 400 == 0)

/-- The number of days of a month. -/
def monthLength (year month : Nat) : Nat :=
  if month = 2 then (if isLeapYear year then 29 else 28)
  else if [4, 6, 9, 11].contains month then 30
  else 31

/-- Whether the calendar has the day; it begins with the year 1. -/
def isReal (d : Day) : Bool :=
  1 ≤ d.year && 1 ≤ d.month && d.month ≤ 12 && 1 ≤ d.day && d.day ≤ monthLength d.year d.month

/-- The number of days from the beginning of the calendar to a day of it. -/
def number (d : Day) : Nat :=
  let before := d.year - 1
  365 * before + before / 4 - before / 100 + before / 400 +
    (List.range' 1 (d.month - 1)).foldl (fun n month => n + monthLength d.year month) 0 + d.day

/-- A day as it is written. -/
def text (d : Day) : String :=
  Number.padded 4 d.year ++ "-" ++ Number.padded 2 d.month ++ "-" ++ Number.padded 2 d.day

/-- The numbers of a day, largest unit first. -/
def parts (d : Day) : List Nat := [d.year, d.month, d.day]

/-- A day inside the text of a container. -/
def shown (d : Day) : String :=
  "datetime.date(" ++ String.intercalate ", " (d.parts.map toString) ++ ")"

end Day

/-- A point in time, to the microsecond. -/
structure Moment where
  day : Day
  hour : Nat
  minute : Nat
  second : Nat
  micro : Nat
  /-- Minutes ahead of universal time, when a zone is given. -/
  zone : Option Int
  deriving DecidableEq, Repr, Inhabited

namespace Moment

/-- Whether there is such a moment. A zone is less than a day away from
universal time. -/
def isReal (m : Moment) : Bool :=
  m.day.isReal && m.hour < 24 && m.minute < 60 && m.second < 60 &&
    m.zone.all fun z => z.natAbs < 24 * 60

/-- Minutes from the beginning of the calendar, by the clock that shows them. -/
def minutes (m : Moment) : Int :=
  ((m.day.number * 24 + m.hour) * 60 + m.minute : Nat)

/-- Whether two moments are one: by one clock when both have no zone, at one
instant when both have one. -/
def isSame (a b : Moment) : Bool :=
  a.second == b.second && a.micro == b.micro &&
    match a.zone, b.zone with
    | none, none => a.minutes == b.minutes
    | some y, some z => a.minutes - y == b.minutes - z
    | _, _ => false

/-- A zone as it is written. -/
def zoneText (z : Int) : String :=
  (if z < 0 then "-" else "+") ++ Number.padded 2 (z.natAbs / 60) ++ ":" ++
    Number.padded 2 (z.natAbs % 60)

/-- A moment as it is written. Microseconds are left out when there are
none. -/
def text (m : Moment) : String :=
  m.day.text ++ " " ++ Number.padded 2 m.hour ++ ":" ++ Number.padded 2 m.minute ++ ":" ++
    Number.padded 2 m.second ++ (if m.micro = 0 then "" else "." ++ Number.padded 6 m.micro) ++
    (m.zone.map zoneText).getD ""

/-- A zone inside the text of a container: whole days behind and the seconds
ahead of them, each left out when it is zero. -/
def shownZone (z : Int) : String :=
  if z = 0 then "datetime.timezone.utc"
  else
    let seconds := z * 60
    let days := seconds / 86400
    let rest := seconds % 86400
    "datetime.timezone(datetime.timedelta(" ++
      String.intercalate ", "
        ((if days = 0 then [] else ["days=" ++ toString days]) ++
          (if rest = 0 then [] else ["seconds=" ++ toString rest])) ++ "))"

/-- A moment inside the text of a container. -/
def shown (m : Moment) : String :=
  let fine :=
    if m.micro ≠ 0 then [m.second, m.micro] else if m.second ≠ 0 then [m.second] else []
  "datetime.datetime(" ++
    String.intercalate ", "
      ((m.day.parts ++ [m.hour, m.minute] ++ fine).map toString ++
        (m.zone.map fun z => "tzinfo=" ++ shownZone z).toList) ++ ")"

end Moment

end ApiSnippets
