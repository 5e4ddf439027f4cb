/-!
The proleptic Gregorian calendar in UTC, with a year 0, and its translation to time since the Unix
epoch. Years begin in March while days are counted, so that the leap day ends the year; 400 years
are 146097 days.
-/

set_option autoImplicit false

namespace RunMetrics.Calendar

structure Date where
  year : Int
  month : Nat
  day : Nat
deriving DecidableEq

def isLeapYear (year : Int) : Bool :=
  decide (year % 4 = 0 ∧ (year % 100 ≠ 0 ∨ year % 400 = 0))

def daysInMonth (year : Int) (month : Nat) : Nat :=
  if month = 2 then if isLeapYear year then 29 else 28
  else if month = 4 ∨ month = 6 ∨ month = 9 ∨ month = 11 then 30
  else 31

/-- A day that the calendar has. -/
def Date.Valid (d : Date) : Prop :=
  1 ≤ d.month ∧ d.month ≤ 12 ∧ 1 ≤ d.day ∧ d.day ≤ daysInMonth d.year d.month

/-- Days from 1 March of year 0 to the epoch. -/
def epochDay : Int := 719468

/-- The day that many days after the epoch. Centuries and years are capped, because the last of
their kind is one leap day longer. -/
def Date.ofDays (days : Int) : Date :=
  let shifted := days + epochDay
  let cycle := shifted / 146097
  let inCycle := (shifted % 146097).toNat
  let century := min (inCycle / 36524) 3
  let inCentury := inCycle - 36524 * century
  let leapCycle := inCentury / 1461
  let inLeapCycle := inCentury % 1461
  let yearInLeapCycle := min (inLeapCycle / 365) 3
  let inYear := inLeapCycle - 365 * yearInLeapCycle
  let marchMonth := (5 * inYear + 2) / 153
  let day := inYear - (153 * marchMonth + 2) / 5 + 1
  let month := if marchMonth < 10 then marchMonth + 3 else marchMonth - 9
  let marchYear := 400 * cycle + (100 * century + 4 * leapCycle + yearInLeapCycle : Nat)
  ⟨if month ≤ 2 then marchYear + 1 else marchYear, month, day⟩

/-- Days from the epoch. -/
def Date.toDays (d : Date) : Int :=
  let marchYear := if d.month ≤ 2 then d.year - 1 else d.year
  let yearInCycle := marchYear % 400
  let marchMonth : Nat := (d.month + 9) % 12
  let inYear : Nat := (153 * marchMonth + 2) / 5 + d.day - 1
  marchYear / 400 * 146097 + yearInCycle * 365 + yearInCycle / 4 - yearInCycle / 100 + inYear - epochDay

/-- An instant. A leap second is written as nanoseconds beyond the full second before it. -/
structure Moment where
  date : Date
  hour : Nat
  minute : Nat
  second : Nat
  nanosecond : Nat
deriving DecidableEq

def firstDay : Int := (Date.mk (-262143) 1 1).toDays

def lastDay : Int := (Date.mk 262142 12 31).toDays

/-- The instant that many whole seconds and nanoseconds after the epoch, if it has a date from year
-262143 to year 262142. A full second of nanoseconds or more is a leap second and stands only at the
end of a minute. -/
def Moment.ofSeconds? (seconds : Int) (nanosecond : Nat) : Option Moment :=
  let days := seconds / 86400
  let inDay := (seconds % 86400).toNat
  if firstDay ≤ days ∧ days ≤ lastDay ∧
      (nanosecond < 1000000000 ∨ nanosecond < 2000000000 ∧ inDay % 60 = 59) then
    some ⟨Date.ofDays days, inDay / 3600, inDay / 60 % 60, inDay % 60, nanosecond⟩
  else none

/-- The instant that many milliseconds after the epoch, if it has a date. -/
def Moment.ofMillis? (millis : Int) : Option Moment :=
  Moment.ofSeconds? (millis / 1000) ((millis % 1000).toNat * 1000000)

def Moment.millisecond (m : Moment) : Nat := m.nanosecond / 1000000

/-- Whole milliseconds from the epoch, rounded down. -/
def Moment.toMillis (m : Moment) : Int :=
  (m.date.toDays * 86400 + m.hour * 3600 + m.minute * 60 + m.second) * 1000 + m.millisecond

end RunMetrics.Calendar
