import Gubernator.Library.CivilTime

/-!
The calendar half of interval.go. `DURATION_IS_GREGORIAN` reinterprets a
request's `Duration` as one of these unit codes; `GregorianExpiration` gives the
last millisecond of the current calendar unit and `GregorianDuration` its
length. Both read the clock's `now` in UTC. Weeks are rejected, as in the source.
-/

namespace Gubernator

open CivilTime

def GregorianMinutes : Int64 := 0
def GregorianHours : Int64 := 1
def GregorianDays : Int64 := 2
def GregorianWeeks : Int64 := 3
def GregorianMonths : Int64 := 4
def GregorianYears : Int64 := 5

def gregorianWeeksError : String :=
  "`Duration = GregorianWeeks` not yet supported; consider making a PR!`"

def gregorianInvalidError : String :=
  "behavior DURATION_IS_GREGORIAN is set; but `Duration` is not a valid gregorian interval"

/-- `GregorianDuration`. The month and year cases subtract a millisecond count
from a nanosecond count, exactly as the source's operator precedence does. -/
def gregorianDuration (now : Time) (d : Int64) : Except String Int64 :=
  if d = GregorianMinutes then .ok 60000
  else if d = GregorianHours then .ok 3600000
  else if d = GregorianDays then .ok 86400000
  else if d = GregorianWeeks then .error gregorianWeeksError
  else if d = GregorianMonths then
    let (y, m, _) := now.date
    let begin := date y m 1 0 0 0 0
    let finish := (begin.addDate 0 1 0).add (-nanosecond)
    .ok (finish.unixNano - begin.unixNano / 1000000)
  else if d = GregorianYears then
    let (y, _, _) := now.date
    let begin := date y 1 1 0 0 0 0
    let finish := (begin.addDate 1 0 0).add (-nanosecond)
    .ok (finish.unixNano - begin.unixNano / 1000000)
  else .error gregorianInvalidError

/-- `GregorianExpiration`: the end of the calendar unit containing `now`, in
epoch milliseconds. -/
def gregorianExpiration (now : Time) (d : Int64) : Except String Int64 :=
  if d = GregorianMinutes then
    .ok (((now.truncate minute).add (minute - nanosecond)).unixNano / 1000000)
  else if d = GregorianHours then
    let (y, m, dd) := now.date
    .ok (((date y m dd now.clock.1 0 0 0).add (hour - nanosecond)).unixNano / 1000000)
  else if d = GregorianDays then
    let (y, m, dd) := now.date
    .ok ((date y m dd 23 59 59 (second - nanosecond)).unixNano / 1000000)
  else if d = GregorianWeeks then .error gregorianWeeksError
  else if d = GregorianMonths then
    let (y, m, _) := now.date
    .ok ((((date y m 1 0 0 0 0).addDate 0 1 0).add (-nanosecond)).unixNano / 1000000)
  else if d = GregorianYears then
    let (y, _, _) := now.date
    .ok ((((date y 1 1 0 0 0 0).addDate 1 0 0).add (-nanosecond)).unixNano / 1000000)
  else .error gregorianInvalidError

/-- `MillisecondNow` and `epochMillis`: the clock in epoch milliseconds. -/
def millisecondNow (now : Time) : Int64 := now.unixNano / 1000000

end Gubernator
