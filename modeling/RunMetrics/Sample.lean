import RunMetrics.Calendar
import RunMetrics.Failure

/-!
Samples: one observation of a metric. Two samples are equal when their keys, times, steps and the
bits of their values are. The value is never a reason to refuse a sample.
-/

set_option autoImplicit false

namespace RunMetrics

/-- A value of a metric at a step, with the time in milliseconds since the epoch. -/
structure Sample where
  key : String
  value : Binary64
  timestamp : Int64
  step : Int64
deriving DecidableEq

namespace Sample

/-- The first rule that the sample breaks: a key that is not empty and, unless negative numbers are
allowed, a timestamp and a step that are not negative. -/
def check (allowNegative : Bool) (s : Sample) : Except Failure Unit :=
  if s.key = "" then .error (.refused .emptyKey)
  else if allowNegative then .ok ()
  else if s.timestamp < 0 then .error (.refused (.negativeTimestamp s.key s.timestamp))
  else if s.step < 0 then .error (.refused (.negativeStep s.key s.step))
  else .ok ()

/-- The sample itself if it is valid without negative numbers. -/
def checked (s : Sample) : Except Failure Sample := do
  s.check false
  .ok s

/-- The time as a calendar moment, if the calendar reaches that far. -/
def moment? (s : Sample) : Option Calendar.Moment := Calendar.Moment.ofMillis? s.timestamp.toInt

/-- Sets the time to a calendar moment, rounded down to milliseconds. -/
def withMoment (s : Sample) (m : Calendar.Moment) : Sample :=
  { s with timestamp := Int64.ofInt m.toMillis }

/-- The samples without repetitions, each at its first place. -/
def distinct (samples : List Sample) : List Sample :=
  samples.foldl (fun seen s => if s ∈ seen then seen else seen ++ [s]) []

end Sample

end RunMetrics
