import RunMetrics.Proofs.CalendarDays
import RunMetrics.Sample

/-!
Timestamps and calendar moments. Whoever asks for the moment of a timestamp gets one just if the calendar
reaches that far, and gets the timestamp back from it. A moment between two milliseconds has the timestamp
of the earlier one, also before the epoch.
-/

set_option autoImplicit false

namespace RunMetrics

namespace Calendar

/-- In a year that the calendar has. -/
def Date.InRange (d : Date) : Prop := -262143 ≤ d.year ∧ d.year ≤ 262142

theorem Date.inRange_iff {d : Date} (valid : d.Valid) :
    d.InRange ↔ firstDay ≤ d.toDays ∧ d.toDays ≤ lastDay := by
  have first : (Date.mk (-262143) 1 1).Valid := by decide
  have last : (Date.mk 262142 12 31).Valid := by decide
  have early := Date.toDays_lt_iff valid first
  have late := Date.toDays_lt_iff last valid
  obtain ⟨monthPos, monthLe, dayPos, dayLe⟩ := valid
  have short := (daysInMonth_bounds d.year d.month).2
  simp only [InRange, firstDay, lastDay, Before] at *
  omega

namespace Moment

/-- Seconds from the epoch to the second that the moment is in. -/
def toSeconds (m : Moment) : Int :=
  m.date.toDays * 86400 + m.hour * 3600 + m.minute * 60 + m.second

/-- Nanoseconds from the epoch. -/
def toNanos (m : Moment) : Int := m.toSeconds * 1000000000 + m.nanosecond

/-- A moment that can be represented: a date that the calendar has, and a time of day. Nanoseconds beyond
the full second are those of a leap second. -/
structure Valid (m : Moment) : Prop where
  date : m.date.Valid
  inRange : m.date.InRange
  hour : m.hour < 24
  minute : m.minute < 60
  second : m.second < 60
  nanosecond : m.nanosecond < 2000000000

/-- A moment that is not in a leap second. -/
structure Plain (m : Moment) : Prop extends Valid m where
  full : m.nanosecond < 1000000000

/-- Earlier: by date, then by hour, minute, second and nanosecond. -/
def Before (m n : Moment) : Prop :=
  m.date.Before n.date ∨ m.date = n.date ∧ (m.hour < n.hour ∨ m.hour = n.hour ∧
    (m.minute < n.minute ∨ m.minute = n.minute ∧
      (m.second < n.second ∨ m.second = n.second ∧ m.nanosecond < n.nanosecond)))

/-- The moment with what is below its milliseconds cut off. -/
def truncated (m : Moment) : Moment := { m with nanosecond := m.millisecond * 1000000 }

def first : Moment := ⟨⟨-262143, 1, 1⟩, 0, 0, 0, 0⟩

def last : Moment := ⟨⟨262142, 12, 31⟩, 23, 59, 59, 999000000⟩

theorem toMillis_eq (m : Moment) : m.toMillis = m.toSeconds * 1000 + m.millisecond := rfl

theorem toNanos_truncated (m : Moment) : m.truncated.toNanos = m.toMillis * 1000000 := by
  simp only [toNanos, toMillis_eq, truncated, toSeconds]
  omega

theorem toMillis_first : first.toMillis = firstDay * 86400000 := by
  simp only [toMillis, first, firstDay, millisecond]
  omega

theorem toMillis_last : last.toMillis = lastDay * 86400000 + 86399999 := by
  simp only [toMillis, last, lastDay, millisecond]
  omega

theorem toMillis_ends :
    first.toMillis = -8334601228800000 ∧ last.toMillis = 8210266876799999 := by
  decide

/-! ### The order of moments -/

variable {m n : Moment}

theorem Plain.truncated (plain : m.Plain) : m.truncated.Plain := by
  obtain ⟨⟨date, inRange, hour, minute, second, nanosecond⟩, full⟩ := plain
  have cut : m.millisecond * 1000000 < 1000000000 := by
    simp only [millisecond]
    omega
  exact ⟨⟨date, inRange, hour, minute, second, Nat.lt_trans cut (by decide)⟩, cut⟩

/-- As long as no leap second is among them, moments are in the order of their nanoseconds. -/
theorem toNanos_lt_iff (left : m.Plain) (right : n.Plain) :
    m.toNanos < n.toNanos ↔ m.Before n := by
  have before := Date.toDays_lt_iff left.date right.date
  have same : m.date = n.date ↔ m.date.toDays = n.date.toDays :=
    ⟨congrArg Date.toDays, Date.eq_of_toDays_eq left.date right.date⟩
  obtain ⟨⟨-, -, leftHour, leftMinute, leftSecond, -⟩, leftFull⟩ := left
  obtain ⟨⟨-, -, rightHour, rightMinute, rightSecond, -⟩, rightFull⟩ := right
  simp only [Before, toNanos, toSeconds, ← before, same]
  omega

theorem eq_of_toNanos_eq (left : m.Plain) (right : n.Plain) (same : m.toNanos = n.toNanos) :
    m = n := by
  have dates := Date.eq_of_toDays_eq left.date right.date
  obtain ⟨⟨-, -, leftHour, leftMinute, leftSecond, -⟩, leftFull⟩ := left
  obtain ⟨⟨-, -, rightHour, rightMinute, rightSecond, -⟩, rightFull⟩ := right
  simp only [toNanos, toSeconds] at same
  obtain ⟨mDate, mHour, mMinute, mSecond, mNanosecond⟩ := m
  obtain ⟨nDate, nHour, nMinute, nSecond, nNanosecond⟩ := n
  simp only [mk.injEq] at *
  refine ⟨dates ?_, ?_, ?_, ?_, ?_⟩ <;> omega

/-- The same time on the next day. -/
def nextDay (m : Moment) : Moment := { m with date := m.date.next }

theorem eq_nextDay (left : m.Plain) (right : n.Plain)
    (later : n.toNanos = m.toNanos + 86400000000000) : n = m.nextDay := by
  have following := Date.toDays_next left.date
  have days : n.date.toDays = m.date.next.toDays := by
    obtain ⟨⟨-, -, leftHour, leftMinute, leftSecond, -⟩, leftFull⟩ := left
    obtain ⟨⟨-, -, rightHour, rightMinute, rightSecond, -⟩, rightFull⟩ := right
    simp only [toNanos, toSeconds] at later
    omega
  have date : n.date = m.date.next := Date.eq_of_toDays_eq right.date left.date.next days
  have inRange : m.date.next.InRange := date ▸ right.inRange
  have plain : m.nextDay.Plain :=
    ⟨⟨left.date.next, inRange, left.hour, left.minute, left.second, left.nanosecond⟩, left.full⟩
  apply eq_of_toNanos_eq right plain
  rw [later]
  simp only [toNanos, toSeconds, nextDay, following]
  omega

/-- A leap second at the very end is the only one beyond the last millisecond. -/
theorem Valid.toMillis_bounds (valid : m.Valid) :
    first.toMillis ≤ m.toMillis ∧ m.toMillis ≤ last.toMillis + 1000 ∧
      (m.Plain → m.toMillis ≤ last.toMillis) := by
  obtain ⟨early, late⟩ := (Date.inRange_iff valid.date).1 valid.inRange
  obtain ⟨-, -, hour, minute, second, nanosecond⟩ := valid
  rw [toMillis_first, toMillis_last]
  simp only [toMillis, millisecond]
  refine ⟨by omega, by omega, fun plain => ?_⟩
  have full := plain.full
  omega

/-! ### The moment of a timestamp -/

theorem isSome_ofMillis?_iff (millis : Int) :
    (ofMillis? millis).isSome = true ↔ first.toMillis ≤ millis ∧ millis ≤ last.toMillis := by
  rw [toMillis_first, toMillis_last]
  simp only [ofMillis?, ofSeconds?]
  split
  · simp only [Option.isSome_some, true_iff]
    omega
  · simp only [Option.isSome_none, Bool.false_eq_true, false_iff]
    omega

/-- The moment of a timestamp has whole milliseconds, as many as the timestamp says. -/
theorem of_ofMillis?_eq_some {millis : Int} (found : ofMillis? millis = some m) :
    m.Plain ∧ m.truncated = m ∧ m.toMillis = millis := by
  simp only [ofMillis?, ofSeconds?] at found
  split at found
  · rename_i inside
    cases found
    have date := Date.valid_ofDays (millis / 1000 / 86400)
    have days := Date.toDays_ofDays (millis / 1000 / 86400)
    have inRange := (Date.inRange_iff date).2
    rw [days] at inRange
    have inDay : (millis / 1000 % 86400).toNat < 24 * 3600 := by omega
    have nanos : (millis % 1000).toNat * 1000000 < 1000000000 := by omega
    refine ⟨⟨⟨date, inRange ⟨inside.1, inside.2.1⟩, ?_, Nat.mod_lt _ (by decide),
      Nat.mod_lt _ (by decide), Nat.lt_trans nanos (by decide)⟩, nanos⟩, ?_, ?_⟩
    · exact (Nat.div_lt_iff_lt_mul (by decide)).2 inDay
    · simp only [truncated, millisecond, mk.injEq, true_and]
      omega
    · simp only [toMillis, millisecond, days]
      omega
  · cases found

theorem ofMillis?_toMillis (plain : m.Plain) : ofMillis? m.toMillis = some m.truncated := by
  obtain ⟨early, -, late⟩ := plain.toMillis_bounds
  obtain ⟨n, found⟩ := Option.isSome_iff_exists.1
    ((isSome_ofMillis?_iff m.toMillis).2 ⟨early, late plain⟩)
  obtain ⟨other, whole, same⟩ := of_ofMillis?_eq_some found
  have nanos : n.toNanos = m.truncated.toNanos := by
    rw [toNanos_truncated, ← same, ← toNanos_truncated, whole]
  rw [found, eq_of_toNanos_eq other plain.truncated nanos]

end Moment

end Calendar

namespace Sample

open Calendar

/-- The moment is that of the sample: whole milliseconds, from which the timestamp comes back. -/
structure FallsOn (s : Sample) (m : Moment) : Prop where
  valid : m.Valid
  milliseconds : m.millisecond < 1000
  whole : m.nanosecond = m.millisecond * 1000000
  back : ∀ t : Sample, t.withMoment m = { t with timestamp := s.timestamp }

theorem fallsOn_of_moment? {s : Sample} {m : Moment} (found : s.moment? = some m) : s.FallsOn m := by
  obtain ⟨plain, whole, same⟩ := Moment.of_ofMillis?_eq_some found
  exact {
    valid := plain.toValid
    milliseconds := (Nat.div_lt_iff_lt_mul (by decide)).2 plain.full
    whole := congrArg Moment.nanosecond whole.symm
    back := fun t => by rw [withMoment, same, Int64.ofInt_toInt] }

/-- The timestamp is that of the millisecond in which the moment falls, and nothing from which it is
computed leaves 64 bits. -/
structure Stamped (stamp : Int64) (m : Moment) : Prop where
  below : stamp.toInt * 1000000 ≤ m.toNanos
  above : m.toNanos < (stamp.toInt + 1) * 1000000
  seconds : (Int64.ofInt m.toSeconds).toInt = m.toSeconds
  scaled : (Int64.ofInt m.toSeconds * 1000).toInt = m.toSeconds * 1000
  computed : stamp = Int64.ofInt m.toSeconds * 1000 + Int64.ofNat m.millisecond
  millis : stamp.toInt = m.toSeconds * 1000 + m.millisecond

theorem stamped_withMoment (s : Sample) {m : Moment} (valid : m.Valid) :
    Stamped (s.withMoment m).timestamp m := by
  obtain ⟨early, late, -⟩ := valid.toMillis_bounds
  obtain ⟨low, high⟩ := Moment.toMillis_ends
  have small : m.millisecond < 2000 := by
    have nanosecond := valid.nanosecond
    simp only [Moment.millisecond]
    omega
  rw [low, Moment.toMillis_eq] at early
  rw [high, Moment.toMillis_eq] at late
  have product : Int64.ofInt m.toSeconds * 1000 = Int64.ofInt (m.toSeconds * 1000) :=
    (Int64.ofInt_mul m.toSeconds 1000).symm
  have millis : (s.withMoment m).timestamp.toInt = m.toSeconds * 1000 + m.millisecond := by
    rw [withMoment, Moment.toMillis_eq]
    exact Int64.toInt_ofInt_of_le (by omega) (by omega)
  refine ⟨?_, ?_, Int64.toInt_ofInt_of_le (by omega) (by omega), ?_, ?_, millis⟩
  · rw [millis, Moment.toNanos, Moment.millisecond]
    omega
  · rw [millis, Moment.toNanos, Moment.millisecond]
    omega
  · rw [product]
    exact Int64.toInt_ofInt_of_le (by omega) (by omega)
  · rw [product, withMoment, Moment.toMillis_eq, Int64.ofInt_add]
    rfl

/-- Timestamps and moments say the same. -/
structure MomentsAgree : Prop where
  reached : ∀ s : Sample, s.moment?.isSome = true ↔
    Moment.first.toMillis ≤ s.timestamp.toInt ∧ s.timestamp.toInt ≤ Moment.last.toMillis
  fallsOn : ∀ (s : Sample) m, s.moment? = some m → s.FallsOn m
  order : ∀ (s t : Sample) m n, s.moment? = some m → t.moment? = some n →
    (m.Before n ↔ s.timestamp < t.timestamp)
  nextDay : ∀ (s t : Sample) m n, s.moment? = some m → t.moment? = some n →
    t.timestamp.toInt = s.timestamp.toInt + 86400000 → n = m.nextDay
  epoch : ∀ s : Sample, s.timestamp = 0 → s.moment? = some ⟨⟨1970, 1, 1⟩, 0, 0, 0, 0⟩
  truncated : ∀ (s : Sample) (m : Moment), m.Plain → (s.withMoment m).moment? = some m.truncated
  stamped : ∀ (s : Sample) (m : Moment), m.Valid → Stamped (s.withMoment m).timestamp m

/-- A timestamp has a moment just if it is in the range of the calendar. The moment has a valid date and
time of day, a later timestamp has a later moment, and the moment has the same timestamp again; timestamp 0
is the start of 1970, and a day later is the same time of the next date. A moment that falls between
milliseconds, before the epoch or after, gets the timestamp rounded down, which is the one of the moment
with whole milliseconds, and 64 bits are always enough. -/
theorem moments_and_timestamps_agree : MomentsAgree := by
  have nanos {s : Sample} {m : Moment} (found : s.moment? = some m) :
      m.Plain ∧ m.toNanos = s.timestamp.toInt * 1000000 := by
    obtain ⟨plain, whole, same⟩ := Moment.of_ofMillis?_eq_some found
    exact ⟨plain, by rw [← whole, Moment.toNanos_truncated, same]⟩
  refine {
    reached := fun s => Moment.isSome_ofMillis?_iff s.timestamp.toInt
    fallsOn := fun s m => fallsOn_of_moment?
    order := ?_
    nextDay := ?_
    epoch := ?_
    truncated := ?_
    stamped := fun s m => stamped_withMoment s }
  · intro s t m n found other
    obtain ⟨left, leftNanos⟩ := nanos found
    obtain ⟨right, rightNanos⟩ := nanos other
    rw [← Moment.toNanos_lt_iff left right, leftNanos, rightNanos, Int64.lt_iff_toInt_lt]
    omega
  · intro s t m n found other later
    obtain ⟨left, leftNanos⟩ := nanos found
    obtain ⟨right, rightNanos⟩ := nanos other
    apply Moment.eq_nextDay left right
    rw [leftNanos, rightNanos, later]
    omega
  · intro s epoch
    rw [moment?, epoch]
    decide
  · intro s m plain
    rw [moment?, (stamped_withMoment s plain.toValid).millis, ← Moment.toMillis_eq]
    exact Moment.ofMillis?_toMillis plain

/-- The last millisecond of a leap day of year 0 and the midnight after it, a moment between the two, and a
leap second where the calendar ends. -/
theorem moments_about_a_leap_day :
    let evening : Sample := ⟨"loss", ⟨0⟩, -62162035200001, 0⟩
    let midnight : Sample := ⟨"loss", ⟨0⟩, -62162035200000, 0⟩
    let leapDay (nanosecond : Nat) : Moment := ⟨⟨0, 2, 29⟩, 23, 59, 59, nanosecond⟩
    let march : Moment := ⟨⟨0, 3, 1⟩, 0, 0, 0, 0⟩
    let beyond : Moment := ⟨⟨262142, 12, 31⟩, 23, 59, 59, 1999999999⟩
    evening.moment? = some (leapDay 999000000) ∧ midnight.moment? = some march ∧
      (leapDay 999000000).Before march ∧ midnight.withMoment (leapDay 999000000) = evening ∧
      (leapDay 999999999).Plain ∧
      (midnight.withMoment (leapDay 999999999)).moment? = some (leapDay 999000000) ∧
      beyond.Valid ∧ (midnight.withMoment beyond).timestamp.toInt = 8210266876800999 := by
  intro evening midnight leapDay march beyond
  have agree := moments_and_timestamps_agree
  have first : evening.moment? = some (leapDay 999000000) := by decide
  have second : midnight.moment? = some march := by decide
  have between : (leapDay 999999999).Plain :=
    ⟨⟨by decide, ⟨by decide, by decide⟩, by decide, by decide, by decide, by decide⟩, by decide⟩
  have last : beyond.Valid :=
    ⟨by decide, ⟨by decide, by decide⟩, by decide, by decide, by decide, by decide⟩
  refine ⟨first, second, ?_, ?_, between, ?_, last, ?_⟩
  · exact (agree.order evening midnight _ _ first second).2 (by decide)
  · exact (agree.fallsOn evening _ first).back midnight
  · exact (agree.truncated midnight (leapDay 999999999) between).trans (by decide)
  · exact (agree.stamped midnight beyond last).millis.trans (by decide)

end Sample

end RunMetrics
