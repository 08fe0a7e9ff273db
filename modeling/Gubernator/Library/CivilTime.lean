import Mathlib.Data.Int.Init

/-!
The part of Go's `time` package that calendar arithmetic uses, for instants in
UTC. An instant is a count of nanoseconds since the Unix epoch; dates follow the
proleptic Gregorian calendar. `date` normalises out-of-range fields exactly as
`time.Date` documents ("October 32 converts to November 1"), so `addDate` is
`date` applied to shifted fields. Day counts use the days-from-civil algorithm
with floor division, valid for every year.
-/

namespace CivilTime

/-- An instant in UTC, as nanoseconds since 1970-01-01T00:00:00Z. -/
structure Time where
  nanos : Int
  deriving DecidableEq, Repr

def nanosecond : Int := 1
def second : Int := 1000000000
def minute : Int := 60 * second
def hour : Int := 60 * minute
def nanosPerDay : Int := 24 * hour

/-- Seconds from January 1 of year 1, Go's zero time, to the Unix epoch. -/
def unixToZero : Int := 62135596800

/-- Days from 1970-01-01 to the civil date `(y, m, d)` with `1 ≤ m ≤ 12`. -/
def daysFromCivil (y m d : Int) : Int :=
  let y := if m ≤ 2 then y - 1 else y
  let era := y / 400
  let yoe := y % 400
  let doy := (153 * (if m > 2 then m - 3 else m + 9) + 2) / 5 + d - 1
  let doe := yoe * 365 + yoe / 4 - yoe / 100 + doy
  era * 146097 + doe - 719468

def civilFromDays (z : Int) : Int × Int × Int :=
  let z := z + 719468
  let era := z / 146097
  let doe := z % 146097
  let yoe := (doe - doe / 1460 + doe / 36524 - doe / 146096) / 365
  let doy := doe - (365 * yoe + yoe / 4 - yoe / 100)
  let mp := (5 * doy + 2) / 153
  let d := doy - (153 * mp + 2) / 5 + 1
  let m := if mp < 10 then mp + 3 else mp - 9
  (yoe + era * 400 + (if m ≤ 2 then 1 else 0), m, d)

namespace Time

def date (t : Time) : Int × Int × Int := civilFromDays (t.nanos / nanosPerDay)

def clock (t : Time) : Int × Int × Int × Int :=
  let r := t.nanos % nanosPerDay
  (r / hour, r % hour / minute, r % minute / second, r % second)

def add (t : Time) (d : Int) : Time := ⟨t.nanos + d⟩

/-- `t.Truncate(d)` for `d > 0`: round down to a multiple of `d` since the zero time. -/
def truncate (t : Time) (d : Int) : Time :=
  ⟨t.nanos - (t.nanos + unixToZero * second) % d⟩

/-- `t.UnixNano()`. Go leaves it undefined outside the `int64` range; it wraps here. -/
def unixNano (t : Time) : Int64 := Int64.ofInt t.nanos

end Time

/-- `time.Date(year, month, day, hour, min, sec, nsec, time.UTC)`. Month overflow
moves into the year; every other field is added linearly. -/
def date (year month day hh mm ss nsec : Int) : Time :=
  let y := year + (month - 1) / 12
  let m := (month - 1) % 12 + 1
  ⟨(daysFromCivil y m 1 + (day - 1)) * nanosPerDay + hh * hour + mm * minute + ss * second + nsec⟩

def Time.addDate (t : Time) (years months days : Int) : Time :=
  let (y, m, d) := t.date
  let (hh, mm, ss, ns) := t.clock
  CivilTime.date (y + years) (m + months) (d + days) hh mm ss ns

/-! Day counts and civil dates. Months are numbered from January of year 0, so
month `n` is month `n % 12 + 1` of year `n / 12`; every date falls in the month
whose first day is at or before it and whose successor's first day is after it.
The proofs read `daysFromCivil` in the calendar that starts each year in March,
where the leap day ends the year. -/

def monthStart (n : Int) : Int := daysFromCivil (n / 12) (n % 12 + 1) 1

/-- The first day of the March-based year `Y`, and the offset of its month `mp`
(March is 0). -/
def marchYearStart (Y : Int) : Int :=
  Y / 400 * 146097 + Y % 400 * 365 + Y % 400 / 4 - Y % 400 / 100 - 719468

def marchMonthOffset (mp : Int) : Int := (153 * mp + 2) / 5

theorem monthStart_eq (n : Int) :
    monthStart n = marchYearStart ((n - 2) / 12) + marchMonthOffset ((n - 2) % 12) := by
  simp only [monthStart, daysFromCivil, marchYearStart, marchMonthOffset]
  by_cases early : n % 12 < 2
  · have year : (n - 2) / 12 = n / 12 - 1 := by omega
    have month : (n - 2) % 12 = n % 12 + 10 := by omega
    rw [year, month, if_pos (by omega), if_neg (by omega)]
    omega
  · have year : (n - 2) / 12 = n / 12 := by omega
    have month : (n - 2) % 12 = n % 12 - 2 := by omega
    rw [year, month, if_neg (by omega), if_pos (by omega)]
    omega

theorem marchYearStart_era (era yoe : Int) (lo : 0 ≤ yoe) (hi : yoe ≤ 399) :
    marchYearStart (yoe + era * 400) = era * 146097 + 365 * yoe + yoe / 4 - yoe / 100 - 719468 := by
  have eraOf : (yoe + era * 400) / 400 = era := by omega
  have yearOf : (yoe + era * 400) % 400 = yoe := by omega
  rw [marchYearStart, eraOf, yearOf]
  omega

theorem marchYearStart_era_succ (era yoe : Int) (lo : 0 ≤ yoe) (hi : yoe ≤ 399) :
    marchYearStart (yoe + era * 400 + 1) =
      era * 146097 + 365 * (yoe + 1) + (yoe + 1) / 4 - (yoe + 1) / 100 + (yoe + 1) / 400 - 719468 := by
  rcases (by omega : yoe < 399 ∨ yoe = 399) with inEra | last
  · rw [show yoe + era * 400 + 1 = (yoe + 1) + era * 400 by omega,
      marchYearStart_era era (yoe + 1) (by omega) (by omega)]
    omega
  · rw [show yoe + era * 400 + 1 = 0 + (era + 1) * 400 by omega,
      marchYearStart_era (era + 1) 0 (Int.le_refl 0) (by omega), last]
    omega

theorem marchYearStart_succ (Y : Int) : marchYearStart Y + 365 ≤ marchYearStart (Y + 1) := by
  unfold marchYearStart
  rcases (by omega : Y % 400 = 399 ∨ ((Y + 1) / 400 = Y / 400 ∧ (Y + 1) % 400 = Y % 400 + 1))
    with last | within
  · have eraOf : (Y + 1) / 400 = Y / 400 + 1 := by omega
    have yearOf : (Y + 1) % 400 = 0 := by omega
    rw [eraOf, yearOf, last]
    omega
  · rw [within.1, within.2]
    omega

theorem monthStart_lt_succ (n : Int) : monthStart n < monthStart (n + 1) := by
  rw [monthStart_eq, monthStart_eq]
  rcases (by omega : (n - 2) % 12 < 11 ∨ (n - 2) % 12 = 11) with within | february
  · have year : (n + 1 - 2) / 12 = (n - 2) / 12 := by omega
    have month : (n + 1 - 2) % 12 = (n - 2) % 12 + 1 := by omega
    rw [year, month, marchMonthOffset, marchMonthOffset]
    omega
  · -- February ends the March-based year: the next month starts the next year.
    have year : (n + 1 - 2) / 12 = (n - 2) / 12 + 1 := by omega
    have month : (n + 1 - 2) % 12 = 0 := by omega
    have longer := marchYearStart_succ ((n - 2) / 12)
    rw [year, month, february, marchMonthOffset, marchMonthOffset]
    omega

theorem monthStart_lt_of_lt {a b : Int} (lt : a < b) : monthStart a < monthStart b := by
  obtain ⟨k, rfl⟩ : ∃ k : Nat, b = a + 1 + k := ⟨(b - a - 1).toNat, by omega⟩
  induction k with
  | zero => simpa using monthStart_lt_succ a
  | succ k ih =>
    have step := monthStart_lt_succ (a + 1 + k)
    rw [show a + 1 + ((k + 1 : Nat) : Int) = a + 1 + k + 1 by omega]
    exact Int.lt_trans (ih (by omega)) step

theorem monthStart_le_of_le {a b : Int} (le : a ≤ b) : monthStart a ≤ monthStart b := by
  rcases Int.lt_or_eq_of_le le with lt | rfl
  · exact Int.le_of_lt (monthStart_lt_of_lt lt)
  · exact Int.le_refl _

theorem lt_of_monthStart_lt {a b : Int} (lt : monthStart a < monthStart b) : a < b :=
  Int.lt_of_not_ge fun ge => absurd lt (Int.not_lt.mpr (monthStart_le_of_le ge))

theorem monthStart_march (Y mp : Int) (lo : 0 ≤ mp) (hi : mp ≤ 11) :
    monthStart (12 * Y + mp + 2) = marchYearStart Y + marchMonthOffset mp := by
  have year : (12 * Y + mp + 2 - 2) / 12 = Y := by omega
  have month : (12 * Y + mp + 2 - 2) % 12 = mp := by omega
  rw [monthStart_eq, year, month]

theorem yearOfEra_bounds (doe : Int) (lo : 0 ≤ doe) (hi : doe ≤ 146096) (y : Int)
    (yoe : (doe - doe / 1460 + doe / 36524 - doe / 146096) / 365 = y) :
    0 ≤ y ∧ y ≤ 399 ∧ 365 * y + y / 4 - y / 100 ≤ doe ∧
      doe < 365 * (y + 1) + (y + 1) / 4 - (y + 1) / 100 + (y + 1) / 400 := by
  rcases (by omega : doe / 146096 = 0 ∨ doe = 146096) with inEra | last
  · -- The century of the year is the century of the day.
    have century : y / 100 = doe / 36524 := by
      rcases (by omega : doe / 36524 = 0 ∨ doe / 36524 = 1 ∨ doe / 36524 = 2 ∨ doe / 36524 = 3)
        with h | h | h | h <;> omega
    refine ⟨by omega, by omega, by omega, ?_⟩
    rcases (by omega : (y + 1) / 400 = 0 ∨ y = 399) with below | last
    · rcases (by omega : (y + 1) / 100 = y / 100 ∨ y % 100 = 99) with within | turn
      · -- The next year is a leap year exactly when it is a multiple of four.
        rcases (by omega : (y + 1) / 4 = y / 4 ∨ (y + 1) / 4 = y / 4 + 1) with common | leap
        · omega
        · omega
      · have : (y + 1) / 4 = y / 4 + 1 := by omega
        have : (y + 1) / 100 = y / 100 + 1 := by omega
        omega
    · subst last
      omega
  · subst last
    subst yoe
    decide

theorem civilFromDays_spec (z : Int) :
    ∃ k, monthStart k ≤ z ∧ z < monthStart (k + 1) ∧
      civilFromDays z = (k / 12, k % 12 + 1, z - monthStart k + 1) := by
  obtain ⟨era, doe, whole, lo, hi, eraOf, doeOf⟩ : ∃ era doe, z + 719468 = era * 146097 + doe ∧
      0 ≤ doe ∧ doe ≤ 146096 ∧ (z + 719468) / 146097 = era ∧ (z + 719468) % 146097 = doe :=
    ⟨_, _, by omega, by omega, by omega, rfl, rfl⟩
  generalize yoeOf : (doe - doe / 1460 + doe / 36524 - doe / 146096) / 365 = yoe
  obtain ⟨yLo, yHi, yStart, yEnd⟩ := yearOfEra_bounds doe lo hi yoe yoeOf
  generalize mpOf : (5 * (doe - (365 * yoe + yoe / 4 - yoe / 100)) + 2) / 153 = mp
  have mpLo : 0 ≤ mp := by omega
  have mpHi : mp ≤ 11 := by omega
  have first := monthStart_march (yoe + era * 400) mp mpLo mpHi
  rw [marchYearStart_era era yoe yLo yHi] at first
  refine ⟨12 * (yoe + era * 400) + mp + 2, ?_, ?_, ?_⟩
  · rw [first, marchMonthOffset]
    omega
  · rcases (by omega : mp < 11 ∨ mp = 11) with within | february
    · have next := monthStart_march (yoe + era * 400) (mp + 1) (by omega) (by omega)
      rw [marchYearStart_era era yoe yLo yHi, marchMonthOffset] at next
      rw [show 12 * (yoe + era * 400) + mp + 2 + 1 = 12 * (yoe + era * 400) + (mp + 1) + 2 by omega, next]
      omega
    · -- After February comes March of the next year.
      have next := monthStart_march (yoe + era * 400 + 1) 0 (Int.le_refl 0) (by omega)
      rw [marchYearStart_era_succ era yoe yLo yHi, marchMonthOffset] at next
      rw [show 12 * (yoe + era * 400) + mp + 2 + 1 = 12 * (yoe + era * 400 + 1) + 0 + 2 by omega, next]
      omega
  · simp only [civilFromDays]
    rw [eraOf, doeOf, yoeOf, mpOf, first, marchMonthOffset]
    rcases (by omega : mp < 10 ∨ 10 ≤ mp) with spring | winter
    · rw [if_pos spring, if_neg (show ¬ mp + 3 ≤ 2 by omega)]
      refine Prod.ext ?_ (Prod.ext ?_ ?_) <;> dsimp only <;> omega
    · -- January and February belong to the next calendar year.
      rw [if_neg (show ¬ mp < 10 by omega), if_pos (show mp - 9 ≤ 2 by omega)]
      refine Prod.ext ?_ (Prod.ext ?_ ?_) <;> dsimp only <;> omega

theorem civilFromDays_of_monthStart {k z : Int} (lo : monthStart k ≤ z) (hi : z < monthStart (k + 1)) :
    civilFromDays z = (k / 12, k % 12 + 1, z - monthStart k + 1) := by
  obtain ⟨j, jLo, jHi, spec⟩ := civilFromDays_spec z
  -- Months do not overlap, so the month found is `k`.
  have below : j < k + 1 := lt_of_monthStart_lt (Int.lt_of_le_of_lt jLo hi)
  have above : k < j + 1 := lt_of_monthStart_lt (Int.lt_of_le_of_lt lo jHi)
  have same : j = k := by omega
  rw [spec, same]

theorem civilFromDays_monthStart (n : Int) :
    civilFromDays (monthStart n) = (n / 12, n % 12 + 1, 1) := by
  rw [civilFromDays_of_monthStart (Int.le_refl _) (monthStart_lt_succ n), Int.sub_self, Int.zero_add]

theorem eq_monthStart_of_first {z : Int} (first : (civilFromDays z).2.2 = 1) :
    ∃ k, z = monthStart k ∧ civilFromDays z = (k / 12, k % 12 + 1, 1) := by
  obtain ⟨k, -, -, spec⟩ := civilFromDays_spec z
  rw [spec] at first ⊢
  have start : z = monthStart k := by
    dsimp only at first
    omega
  exact ⟨k, start, by rw [start, Int.sub_self, Int.zero_add]⟩

theorem date_nanos (year month day hh mm ss nsec : Int) :
    (date year month day hh mm ss nsec).nanos =
      (monthStart (12 * year + month - 1) + (day - 1)) * nanosPerDay + hh * hour + mm * minute +
        ss * second + nsec := by
  have yearOf : (12 * year + month - 1) / 12 = year + (month - 1) / 12 := by omega
  have monthOf : (12 * year + month - 1) % 12 = (month - 1) % 12 := by omega
  rw [monthStart, yearOf, monthOf]
  rfl

theorem Time.date_spec {t : Time} {y m dd : Int} (dated : t.date = (y, m, dd)) :
    (1 ≤ m ∧ m ≤ 12) ∧ monthStart (12 * y + m - 1) ≤ t.nanos / nanosPerDay ∧
      t.nanos / nanosPerDay < monthStart (12 * y + m - 1 + 1) ∧
      dd = t.nanos / nanosPerDay - monthStart (12 * y + m - 1) + 1 := by
  obtain ⟨k, lo, hi, spec⟩ := civilFromDays_spec (t.nanos / nanosPerDay)
  rw [Time.date, spec, Prod.mk.injEq, Prod.mk.injEq] at dated
  obtain ⟨rfl, rfl, rfl⟩ := dated
  have index : 12 * (k / 12) + (k % 12 + 1) - 1 = k := by omega
  rw [index]
  exact ⟨⟨by omega, by omega⟩, lo, hi, rfl⟩

theorem date_of_date {t : Time} {y m dd : Int} (dated : t.date = (y, m, dd)) (hh mm ss nsec : Int) :
    (date y m dd hh mm ss nsec).nanos =
      t.nanos / nanosPerDay * nanosPerDay + hh * hour + mm * minute + ss * second + nsec := by
  obtain ⟨-, -, -, day⟩ := Time.date_spec dated
  rw [date_nanos, day]
  have sameDay : monthStart (12 * y + m - 1) + (t.nanos / nanosPerDay - monthStart (12 * y + m - 1) + 1 - 1) =
      t.nanos / nanosPerDay := by omega
  rw [sameDay]

/-! The clock reads zero below a unit exactly at multiples of that unit. -/

theorem clock_minute_eq_zero_iff (t : Time) : t.clock.2.2 = (0, 0) ↔ t.nanos % minute = 0 := by
  simp only [Time.clock, Prod.mk.injEq, nanosPerDay, hour, minute, second]
  omega

theorem clock_hour_eq_zero_iff (t : Time) : t.clock.2 = (0, 0, 0) ↔ t.nanos % hour = 0 := by
  simp only [Time.clock, Prod.mk.injEq, nanosPerDay, hour, minute, second]
  omega

theorem clock_eq_zero_iff (t : Time) : t.clock = (0, 0, 0, 0) ↔ t.nanos % nanosPerDay = 0 := by
  simp only [Time.clock, Prod.mk.injEq, nanosPerDay, hour, minute, second]
  omega

theorem addDate_monthStart {t : Time} {n : Int} (aligned : t.nanos = monthStart n * nanosPerDay)
    (years months : Int) :
    (t.addDate years months 0).nanos = monthStart (n + 12 * years + months) * nanosPerDay := by
  have day : t.nanos / nanosPerDay = monthStart n := by
    rw [aligned]
    exact Int.mul_ediv_cancel _ (by decide)
  have midnight : t.clock = (0, 0, 0, 0) := (clock_eq_zero_iff t).mpr (by rw [aligned]; exact Int.mul_emod_left _ _)
  have dated : t.date = (n / 12, n % 12 + 1, 1) := by rw [Time.date, day, civilFromDays_monthStart]
  unfold Time.addDate
  rw [dated, midnight]
  dsimp only
  rw [date_nanos]
  have index : 12 * (n / 12 + years) + (n % 12 + 1 + months) - 1 = n + 12 * years + months := by omega
  rw [index]
  simp

end CivilTime
