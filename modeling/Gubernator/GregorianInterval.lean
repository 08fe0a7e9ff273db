import Gubernator.Interval
import Gubernator.Library.Int64Range
import Mathlib.Tactic.SplitIfs

/-!
What `GregorianExpiration` computes: the last millisecond of the calendar
interval that holds `now`. An interval of a unit starts where the clock reads
zero below the unit, and for a month or a year where the date is also the first
of a month or January 1; the interval that holds `now` ends one nanosecond
before the first start after `now`. Each unit's case of the source builds that
start with `Truncate`, `time.Date` or `AddDate` and takes a nanosecond off, so
its result is the start's millisecond less one while the instants fit `int64`.
`GregorianDuration` has the lengths of minutes, hours and days, and for months
and years subtracts milliseconds from nanoseconds.
-/

namespace Gubernator

open CivilTime Int64Range

/-- The instants at which an interval of the unit `d` starts. -/
def StartsInterval (d : Int64) (t : Time) : Prop :=
  if d = GregorianMinutes then t.clock.2.2 = (0, 0)
  else if d = GregorianHours then t.clock.2 = (0, 0, 0)
  else if d = GregorianDays then t.clock = (0, 0, 0, 0)
  else if d = GregorianMonths then t.date.2.2 = 1 ∧ t.clock = (0, 0, 0, 0)
  else if d = GregorianYears then t.date.2 = (1, 1) ∧ t.clock = (0, 0, 0, 0)
  else False

instance (d : Int64) (t : Time) : Decidable (StartsInterval d t) := by
  unfold StartsInterval
  infer_instance

/-- `next` starts the first `d`-interval after `now`. -/
def IsNextStart (d : Int64) (now next : Time) : Prop :=
  StartsInterval d next ∧ now.nanos < next.nanos ∧
    ∀ t, StartsInterval d t → now.nanos < t.nanos → next.nanos ≤ t.nanos

theorem startsInterval_minutes (t : Time) : StartsInterval GregorianMinutes t ↔ t.nanos % minute = 0 := by
  rw [StartsInterval, if_pos rfl, clock_minute_eq_zero_iff]

theorem startsInterval_hours (t : Time) : StartsInterval GregorianHours t ↔ t.nanos % hour = 0 := by
  rw [StartsInterval, if_neg (show GregorianHours ≠ GregorianMinutes by decide), if_pos rfl,
    clock_hour_eq_zero_iff]

theorem startsInterval_days (t : Time) : StartsInterval GregorianDays t ↔ t.nanos % nanosPerDay = 0 := by
  rw [StartsInterval, if_neg (show GregorianDays ≠ GregorianMinutes by decide),
    if_neg (show GregorianDays ≠ GregorianHours by decide), if_pos rfl, clock_eq_zero_iff]

theorem startsInterval_months (t : Time) :
    StartsInterval GregorianMonths t ↔ t.date.2.2 = 1 ∧ t.nanos % nanosPerDay = 0 := by
  rw [StartsInterval, if_neg (show GregorianMonths ≠ GregorianMinutes by decide),
    if_neg (show GregorianMonths ≠ GregorianHours by decide),
    if_neg (show GregorianMonths ≠ GregorianDays by decide), if_pos rfl, clock_eq_zero_iff]

theorem startsInterval_years (t : Time) :
    StartsInterval GregorianYears t ↔ t.date.2 = (1, 1) ∧ t.nanos % nanosPerDay = 0 := by
  rw [StartsInterval, if_neg (show GregorianYears ≠ GregorianMinutes by decide),
    if_neg (show GregorianYears ≠ GregorianHours by decide),
    if_neg (show GregorianYears ≠ GregorianDays by decide),
    if_neg (show GregorianYears ≠ GregorianMonths by decide), if_pos rfl, clock_eq_zero_iff]

theorem StartsInterval.minute_aligned {d : Int64} {t : Time} (starts : StartsInterval d t) :
    t.nanos % minute = 0 := by
  have ofDay : t.nanos % nanosPerDay = 0 → t.nanos % minute = 0 := by
    simp only [nanosPerDay, hour, minute, second]
    omega
  unfold StartsInterval at starts
  split_ifs at starts
  · exact (clock_minute_eq_zero_iff t).mp starts
  · have onHour := (clock_hour_eq_zero_iff t).mp starts
    simp only [hour, minute, second] at onHour ⊢
    omega
  · exact ofDay ((clock_eq_zero_iff t).mp starts)
  · exact ofDay ((clock_eq_zero_iff t).mp starts.2)
  · exact ofDay ((clock_eq_zero_iff t).mp starts.2)

theorem isNextStart_of_multiples {d : Int64} {u : Int} (pos : 0 < u)
    (starts : ∀ t : Time, StartsInterval d t ↔ t.nanos % u = 0) (now : Time) :
    IsNextStart d now ⟨(now.nanos / u + 1) * u⟩ := by
  refine ⟨(starts _).mpr (Int.mul_emod_left _ _), Int.lt_ediv_add_one_mul_self _ pos, ?_⟩
  intro t start after
  have whole : t.nanos / u * u = t.nanos := Int.ediv_mul_cancel (Int.dvd_of_emod_eq_zero ((starts t).mp start))
  -- `t` is a later multiple of `u` than the one at or before `now`.
  have later : now.nanos / u < t.nanos / u := (Int.ediv_lt_iff_lt_mul pos).mpr (by rw [whole]; exact after)
  calc (now.nanos / u + 1) * u ≤ t.nanos / u * u := Int.mul_le_mul_of_nonneg_right later pos.le
    _ = t.nanos := whole

/-! Each unit's case of `GregorianExpiration`, as the nanosecond before a start. -/

theorem gregorianExpiration_minutes (now : Time) :
    gregorianExpiration now GregorianMinutes =
      .ok (Int64.ofInt ((now.nanos / minute + 1) * minute - 1) / 1000000) := by
  have ends : ((now.truncate minute).add (minute - nanosecond)).nanos = (now.nanos / minute + 1) * minute - 1 := by
    simp only [Time.truncate, Time.add, minute, second, unixToZero, nanosecond]
    omega
  rw [gregorianExpiration, if_pos rfl, Time.unixNano, ends]

theorem gregorianExpiration_hours (now : Time) :
    gregorianExpiration now GregorianHours =
      .ok (Int64.ofInt ((now.nanos / hour + 1) * hour - 1) / 1000000) := by
  rw [gregorianExpiration, if_neg (show GregorianHours ≠ GregorianMinutes by decide), if_pos rfl]
  rcases dated : now.date with ⟨y, m, dd⟩
  dsimp only
  -- The hour `time.Date` rebuilds is the one the clock reads.
  have ends : ((date y m dd now.clock.1 0 0 0).add (hour - nanosecond)).nanos =
      (now.nanos / hour + 1) * hour - 1 := by
    rw [Time.add, date_of_date dated]
    simp only [Time.clock, nanosPerDay, hour, minute, second, nanosecond]
    omega
  rw [Time.unixNano, ends]

theorem gregorianExpiration_days (now : Time) :
    gregorianExpiration now GregorianDays =
      .ok (Int64.ofInt ((now.nanos / nanosPerDay + 1) * nanosPerDay - 1) / 1000000) := by
  rw [gregorianExpiration, if_neg (show GregorianDays ≠ GregorianMinutes by decide),
    if_neg (show GregorianDays ≠ GregorianHours by decide), if_pos rfl]
  rcases dated : now.date with ⟨y, m, dd⟩
  dsimp only
  have ends : (date y m dd 23 59 59 (second - nanosecond)).nanos =
      (now.nanos / nanosPerDay + 1) * nanosPerDay - 1 := by
    rw [date_of_date dated]
    simp only [nanosPerDay, hour, minute, second, nanosecond]
    omega
  rw [Time.unixNano, ends]

theorem gregorianExpiration_months {now : Time} {y m dd : Int} (dated : now.date = (y, m, dd)) :
    gregorianExpiration now GregorianMonths =
      .ok (Int64.ofInt (monthStart (12 * y + m - 1 + 1) * nanosPerDay - 1) / 1000000) := by
  rw [gregorianExpiration, if_neg (show GregorianMonths ≠ GregorianMinutes by decide),
    if_neg (show GregorianMonths ≠ GregorianHours by decide),
    if_neg (show GregorianMonths ≠ GregorianDays by decide),
    if_neg (show GregorianMonths ≠ GregorianWeeks by decide), if_pos rfl, dated]
  dsimp only
  have first : (date y m 1 0 0 0 0).nanos = monthStart (12 * y + m - 1) * nanosPerDay := by
    rw [date_nanos]
    simp
  have ends : (((date y m 1 0 0 0 0).addDate 0 1 0).add (-nanosecond)).nanos =
      monthStart (12 * y + m - 1 + 1) * nanosPerDay - 1 := by
    rw [Time.add, addDate_monthStart first]
    simp [nanosecond, Int.sub_eq_add_neg]
  rw [Time.unixNano, ends]

theorem gregorianExpiration_years {now : Time} {y m dd : Int} (dated : now.date = (y, m, dd)) :
    gregorianExpiration now GregorianYears =
      .ok (Int64.ofInt (monthStart (12 * y + 12) * nanosPerDay - 1) / 1000000) := by
  rw [gregorianExpiration, if_neg (show GregorianYears ≠ GregorianMinutes by decide),
    if_neg (show GregorianYears ≠ GregorianHours by decide),
    if_neg (show GregorianYears ≠ GregorianDays by decide),
    if_neg (show GregorianYears ≠ GregorianWeeks by decide),
    if_neg (show GregorianYears ≠ GregorianMonths by decide), if_pos rfl, dated]
  dsimp only
  have first : (date y 1 1 0 0 0 0).nanos = monthStart (12 * y) * nanosPerDay := by
    rw [date_nanos]
    simp
  have ends : (((date y 1 1 0 0 0 0).addDate 1 0 0).add (-nanosecond)).nanos =
      monthStart (12 * y + 12) * nanosPerDay - 1 := by
    rw [Time.add, addDate_monthStart first]
    simp [nanosecond, Int.sub_eq_add_neg]
  rw [Time.unixNano, ends]

/-! The start each case builds is the first one after `now`. -/

theorem isNextStart_minutes (now : Time) :
    IsNextStart GregorianMinutes now ⟨(now.nanos / minute + 1) * minute⟩ :=
  isNextStart_of_multiples (by decide) startsInterval_minutes now

theorem isNextStart_hours (now : Time) : IsNextStart GregorianHours now ⟨(now.nanos / hour + 1) * hour⟩ :=
  isNextStart_of_multiples (by decide) startsInterval_hours now

theorem isNextStart_days (now : Time) :
    IsNextStart GregorianDays now ⟨(now.nanos / nanosPerDay + 1) * nanosPerDay⟩ :=
  isNextStart_of_multiples (by decide) startsInterval_days now

theorem later_month_of_start {now t : Time} {k j : Int} (lo : monthStart k ≤ now.nanos / nanosPerDay)
    (start : t.nanos / nanosPerDay = monthStart j) (midnight : t.nanos % nanosPerDay = 0)
    (after : now.nanos < t.nanos) : k < j ∧ ∀ i, i ≤ j → monthStart i * nanosPerDay ≤ t.nanos := by
  have whole := Int.ediv_mul_cancel (Int.dvd_of_emod_eq_zero midnight)
  -- A midnight after `now` is on a later day.
  have later : now.nanos / nanosPerDay < t.nanos / nanosPerDay :=
    (Int.ediv_lt_iff_lt_mul (by decide)).mpr (by rw [whole]; exact after)
  have past : k < j := by
    apply lt_of_monthStart_lt
    rw [← start]
    exact lo.trans_lt later
  refine ⟨past, fun i le => ?_⟩
  calc monthStart i * nanosPerDay ≤ monthStart j * nanosPerDay :=
        Int.mul_le_mul_of_nonneg_right (monthStart_le_of_le le) (by decide)
    _ = t.nanos := by rw [← start, whole]

theorem lt_monthStart_of_day_lt {now : Time} {k : Int} (before : now.nanos / nanosPerDay < monthStart k) :
    now.nanos < monthStart k * nanosPerDay :=
  calc now.nanos < (now.nanos / nanosPerDay + 1) * nanosPerDay := Int.lt_ediv_add_one_mul_self _ (by decide)
    _ ≤ monthStart k * nanosPerDay := Int.mul_le_mul_of_nonneg_right before (by decide)

theorem isNextStart_months {now : Time} {y m dd : Int} (dated : now.date = (y, m, dd)) :
    IsNextStart GregorianMonths now ⟨monthStart (12 * y + m - 1 + 1) * nanosPerDay⟩ := by
  obtain ⟨-, lo, hi, -⟩ := Time.date_spec dated
  refine ⟨(startsInterval_months _).mpr ⟨?_, Int.mul_emod_left _ _⟩, lt_monthStart_of_day_lt hi, ?_⟩
  · rw [Time.date]
    dsimp only
    rw [Int.mul_ediv_cancel _ (by decide), civilFromDays_monthStart]
  · rintro t started after
    obtain ⟨first, midnight⟩ := (startsInterval_months t).mp started
    obtain ⟨j, start, -⟩ := eq_monthStart_of_first first
    -- The month that `t` starts comes after the month of `now`.
    obtain ⟨past, bound⟩ := later_month_of_start lo start midnight after
    exact bound _ (by omega)

theorem isNextStart_years {now : Time} {y m dd : Int} (dated : now.date = (y, m, dd)) :
    IsNextStart GregorianYears now ⟨monthStart (12 * y + 12) * nanosPerDay⟩ := by
  obtain ⟨⟨notBefore, december⟩, lo, hi, -⟩ := Time.date_spec dated
  refine ⟨(startsInterval_years _).mpr ⟨?_, Int.mul_emod_left _ _⟩, ?_, ?_⟩
  · have january : (12 * y + 12) % 12 = 0 := by omega
    rw [Time.date]
    dsimp only
    rw [Int.mul_ediv_cancel _ (by decide), civilFromDays_monthStart, january]
    rfl
  · -- The year of `now` ends no earlier than its month.
    apply lt_monthStart_of_day_lt
    exact hi.trans_le (monthStart_le_of_le (by omega))
  · rintro t started after
    obtain ⟨january, midnight⟩ := (startsInterval_years t).mp started
    obtain ⟨j, start, dated'⟩ := eq_monthStart_of_first (congrArg Prod.snd january)
    have firstMonth : j % 12 = 0 := by
      have month := congrArg Prod.fst january
      rw [Time.date, dated'] at month
      dsimp only at month
      omega
    -- A January after the month of `now` is in a later year.
    obtain ⟨past, bound⟩ := later_month_of_start lo start midnight after
    exact bound _ (by omega)

theorem gregorianExpiration_next (now : Time) {d : Int64}
    (supported : d ∈ [GregorianMinutes, GregorianHours, GregorianDays, GregorianMonths, GregorianYears]) :
    ∃ next, IsNextStart d now next ∧
      gregorianExpiration now d = .ok (Int64.ofInt (next.nanos - 1) / 1000000) := by
  rcases dated : now.date with ⟨y, m, dd⟩
  simp only [List.mem_cons, List.not_mem_nil, or_false] at supported
  rcases supported with rfl | rfl | rfl | rfl | rfl
  · exact ⟨_, isNextStart_minutes now, gregorianExpiration_minutes now⟩
  · exact ⟨_, isNextStart_hours now, gregorianExpiration_hours now⟩
  · exact ⟨_, isNextStart_days now, gregorianExpiration_days now⟩
  · exact ⟨_, isNextStart_months dated, gregorianExpiration_months dated⟩
  · exact ⟨_, isNextStart_years dated, gregorianExpiration_years dated⟩

theorem IsNextStart.nanos_eq {d : Int64} {now now' next next' : Time} (first : IsNextStart d now next)
    (second : IsNextStart d now' next')
    (same : ∀ t, StartsInterval d t → (now.nanos < t.nanos ↔ now'.nanos < t.nanos)) :
    next.nanos = next'.nanos :=
  le_antisymm (first.2.2 next' second.1 ((same next' second.1).mpr second.2.1))
    (second.2.2 next first.1 ((same next first.1).mp first.2.1))

theorem startsInterval_end {d : Int64}
    (supported : d ∈ [GregorianMinutes, GregorianHours, GregorianDays, GregorianMonths, GregorianYears]) :
    StartsInterval d (date 2262 1 1 0 0 0 0) := by
  simp only [List.mem_cons, List.not_mem_nil, or_false] at supported
  rcases supported with rfl | rfl | rfl | rfl | rfl <;> decide

theorem unixMillis_of_fits {x : Int} (nonneg : 0 ≤ x) (fits : x < 2 ^ 63) :
    (Int64.ofInt x / 1000000).toInt = x / 1000000 := by
  have inRange : Fits x := ⟨by omega, fits⟩
  rw [toInt_div_of_nonneg _ _ (by rw [toInt_ofInt_of_fits inRange]; exact nonneg) (by decide),
    toInt_ofInt_of_fits inRange]
  rfl

/-- `GregorianExpiration` returns the last millisecond of the calendar interval
that holds `now`: for every instant from 1970 through 2261 and every supported
unit, the result is the epoch millisecond of the next interval start less one.
It is at or after `now`'s millisecond, and every instant with the same interval
starts after it gets the same result. -/
theorem gregorianExpiration_ends_interval (now : Time) (after : 0 ≤ now.nanos)
    (before : now.nanos < (date 2262 1 1 0 0 0 0).nanos) {d : Int64}
    (supported : d ∈ [GregorianMinutes, GregorianHours, GregorianDays, GregorianMonths, GregorianYears]) :
    ∃ next e, IsNextStart d now next ∧ gregorianExpiration now d = .ok e ∧
      e.toInt = next.nanos / 1000000 - 1 ∧ (millisecondNow now).toInt ≤ e.toInt ∧
      ∀ now' : Time, (∀ t, StartsInterval d t → (now.nanos < t.nanos ↔ now'.nanos < t.nanos)) →
        gregorianExpiration now' d = .ok e := by
  obtain ⟨next, isNext, code⟩ := gregorianExpiration_next now supported
  -- The next start is no later than 2262, so every instant involved fits `int64`.
  have bounded : next.nanos ≤ (date 2262 1 1 0 0 0 0).nanos :=
    isNext.2.2 _ (startsInterval_end supported) before
  have limit : (date 2262 1 1 0 0 0 0).nanos < 2 ^ 63 := by decide
  have whole := isNext.1.minute_aligned
  have later := isNext.2.1
  have millis : (Int64.ofInt (next.nanos - 1) / 1000000).toInt = next.nanos / 1000000 - 1 := by
    rw [unixMillis_of_fits (by omega) (by omega)]
    simp only [minute, second] at whole
    omega
  refine ⟨next, _, isNext, code, millis, ?_, ?_⟩
  · rw [millisecondNow, Time.unixNano, unixMillis_of_fits after (by omega), millis]
    simp only [minute, second] at whole
    omega
  · intro now' same
    obtain ⟨next', isNext', code'⟩ := gregorianExpiration_next now' supported
    rw [code', ← isNext.nanos_eq isNext' same]

theorem gregorianExpiration_ends_interval_februaryTenth :
    0 ≤ (date 2024 2 10 0 0 0 0).nanos ∧ (date 2024 2 10 0 0 0 0).nanos < (date 2262 1 1 0 0 0 0).nanos ∧
      GregorianMonths ∈ [GregorianMinutes, GregorianHours, GregorianDays, GregorianMonths, GregorianYears] ∧
      ∃ next e, IsNextStart GregorianMonths (date 2024 2 10 0 0 0 0) next ∧
        gregorianExpiration (date 2024 2 10 0 0 0 0) GregorianMonths = .ok e ∧
        e.toInt = next.nanos / 1000000 - 1 ∧ (millisecondNow (date 2024 2 10 0 0 0 0)).toInt ≤ e.toInt ∧
        ∀ now' : Time, (∀ t, StartsInterval GregorianMonths t →
            ((date 2024 2 10 0 0 0 0).nanos < t.nanos ↔ now'.nanos < t.nanos)) →
          gregorianExpiration now' GregorianMonths = .ok e :=
  ⟨by decide, by decide, by decide, gregorianExpiration_ends_interval _ (by decide) (by decide) (by decide)⟩

/-! `GregorianDuration` in February 2024. -/

def februaryTenth : Time := date 2024 2 10 0 0 0 0

/-- The month holding 10 February 2024 starts at 1706745600000 ms and
`GregorianExpiration` ends it at 1709251199999 ms, 29 days on, but
`GregorianDuration` answers 1709249493254399999: the end's UnixNano less the
start's milliseconds. -/
theorem gregorianDuration_months_mixes_units :
    (date 2024 2 1 0 0 0 0).unixNano / 1000000 = 1706745600000 ∧
      gregorianExpiration februaryTenth GregorianMonths = .ok 1709251199999 ∧
      gregorianDuration februaryTenth GregorianMonths = .ok 1709249493254399999 ∧
      (1709251199999 + 1 - 1706745600000 : Int) = 29 * 86400000 := by
  decide

end Gubernator
