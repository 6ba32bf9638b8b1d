import ChatShow.CommBase.MonthDays
import ChatShow.CommBase.TimerInterface

/-! # Timers of a month

`SetMonthTime` of the timer interface. Where the time has passed in this month it asks for the next month
that has the day of today, and not the day that is asked for; and where it has not, it does not ask
whether this month has the day. -/

namespace ChatShow.CommBase.MonthTimers

open ChatShow.Lib.Gregorian ChatShow.CommBase.LocalTime ChatShow.CommBase.TimerWheel
open ChatShow.CommBase.MonthDays ChatShow.CommBase.TimerInterface

def setMonthTime (type : ETimerType) (w : Wheel) (o : ℕ) (zone : ℤ) (now : TimeVal)
    (day hour minutes second : ℤ) : Wheel :=
  let p := localtime zone now.sec
  let diftime := (day - p.mday) * 24 * 3600 * 1000 + dayDistance p hour minutes second
  let diftime :=
    if diftime < 0 then diftime + (getNextMonthDay (p.year + 1900) (p.mon + 1) p.mday 0).1 else diftime
  addTimer type (w.setTimer o (setStart (w.timer o) now diftime)) o

/-- A time of day on a day of the month. -/
structure MonthTime extends DayTime where
  day : ℤ
  day_mem : 1 ≤ day ∧ day ≤ 31

/-- The local time has this day of the month and this time of day. -/
def MonthTime.At (a : MonthTime) (zone t : ℤ) : Prop :=
  (localtime zone t).mday = a.day ∧ a.toDayTime.At zone t

/-! ### The next time -/

/-- The time has not passed in this month. -/
def Ahead (a : MonthTime) (zone now : ℤ) : Prop :=
  (dateOf zone now).day < a.day ∨
    (dateOf zone now).day = a.day ∧ (localtime zone now).secs ≤ a.secs

instance (a : MonthTime) (zone now : ℤ) : Decidable (Ahead a zone now) :=
  inferInstanceAs (Decidable (_ ∨ _))

/-- The month of the next time. -/
def nextMonth (a : MonthTime) (zone now : ℤ) : ℤ :=
  let i := (dateOf zone now).month
  if Ahead a zone now ∧ a.day ≤ daysIn i then i else monthWith i a.day

/-- The second of the next time. -/
def nextTime (a : MonthTime) (zone now : ℤ) : ℤ :=
  86400 * (monthStart (nextMonth a zone now) + a.day - 1) + a.secs - zone

section

variable (a : MonthTime) (zone now : ℤ)

/-- A second is its day and its time of day. -/
theorem second_eq (t : ℤ) :
    t = 86400 * (dateOf zone t).number + (localtime zone t).secs - zone := by
  rw [number_dateOf, secs_localtime]
  unfold dayOf
  omega

theorem day_le_nextMonth : a.day ≤ daysIn (nextMonth a zone now) := by
  unfold nextMonth
  dsimp only
  split_ifs with h
  · exact h.2
  · exact (isLeast_monthWith a.day_mem.2 _).1.2

/-- The date of the next time. -/
def nextDate : Date := ⟨nextMonth a zone now, a.day, a.day_mem.1, day_le_nextMonth a zone now⟩

theorem dateOf_nextTime : dateOf zone (nextTime a zone now) = nextDate a zone now := by
  have hsecs := a.secs_bounds
  have hday : dayOf zone (nextTime a zone now) = (nextDate a zone now).number := by
    unfold dayOf nextTime nextDate Date.number
    dsimp only
    omega
  unfold dateOf
  rw [hday, ofNumber_number]

theorem le_nextTime : now ≤ nextTime a zone now := by
  have hsecs := a.secs_bounds
  have hnow := second_eq zone now
  have hlt := secs_lt zone now
  have hnext : nextTime a zone now = 86400 * (nextDate a zone now).number + a.secs - zone := rfl
  by_cases h : Ahead a zone now ∧ a.day ≤ daysIn (dateOf zone now).month
  · have hmonth : nextMonth a zone now = (dateOf zone now).month := if_pos h
    unfold nextTime
    unfold Date.number at hnow
    rw [hmonth]
    rcases h.1 with hday | ⟨hday, hle⟩ <;> omega
  · have hmonth : nextMonth a zone now = monthWith (dateOf zone now).month a.day := if_neg h
    have hlater := (isLeast_monthWith a.day_mem.2 (dateOf zone now).month).1.1
    have hnumber := @Date.number_lt_number (dateOf zone now) (nextDate a zone now)
      (by rw [← hmonth] at hlater; exact hlater)
    omega

theorem nextTime_isLeast : IsLeast {t | now ≤ t ∧ a.At zone t} (nextTime a zone now) := by
  have hsecs := a.secs_bounds
  refine ⟨⟨le_nextTime a zone now, ?_, ?_⟩, ?_⟩
  · exact congrArg Date.day (dateOf_nextTime a zone now)
  · rw [DayTime.at_iff]
    unfold nextTime
    omega
  · rintro t ⟨hle, hday, htime⟩
    rw [DayTime.at_iff, ← secs_localtime] at htime
    have ht := second_eq zone t
    have hnow := second_eq zone now
    have hlow := secs_nonneg zone now
    replace hday : (dateOf zone t).day = a.day := hday
    have hmonth : (dateOf zone now).month ≤ (dateOf zone t).month := by
      by_contra hlt
      have := @Date.number_lt_number (dateOf zone t) (dateOf zone now) (by omega)
      omega
    have hnext : nextMonth a zone now ≤ (dateOf zone t).month := by
      unfold nextMonth
      dsimp only
      split_ifs with h
      · exact hmonth
      · rcases hmonth.lt_or_eq with hlt | heq
        · exact (isLeast_monthWith a.day_mem.2 _).2 ⟨hlt, hday ▸ (dateOf zone t).day_le⟩
        · -- in the month of now the time would have to be ahead
          refine absurd ⟨?_, ?_⟩ h
          · unfold Date.number at ht hnow
            rw [← heq] at ht
            unfold Ahead
            omega
          · rw [heq, ← hday]
            exact (dateOf zone t).day_le
    have hstart := monthStart_le_monthStart hnext
    unfold nextTime
    unfold Date.number at ht
    omega

/-! ### The distance that is set -/

/-- The seconds to the time that is set. -/
def setDistance : ℤ :=
  let d := dateOf zone now
  86400 * (a.day - d.day) + (a.secs - (localtime zone now).secs) +
    if Ahead a zone now then 0 else 86400 * (monthStart (monthWith d.month d.day) - monthStart d.month)

theorem setMonthTime_eq (type : ETimerType) (w : Wheel) (o : ℕ) (now : TimeVal) :
    setMonthTime type w o zone now a.day a.hour a.minutes a.second =
      addTimer type (w.setTimer o (setStart (w.timer o) now (1000 * setDistance a zone now.sec))) o := by
  have hsecs := a.secs_bounds
  have hnow := secs_localtime zone now.sec
  have hmday : (localtime zone now.sec).mday = (dateOf zone now.sec).day := rfl
  have hyear : (localtime zone now.sec).year + 1900 = (dateOf zone now.sec).year :=
    Int.sub_add_cancel _ _
  have hmon : (localtime zone now.sec).mon + 1 = (dateOf zone now.sec).mon := rfl
  unfold setMonthTime setDistance
  dsimp only
  rw [a.dayDistance_eq, hmday, hyear, hmon, getNextMonthDay_eq]
  dsimp only
  have hahead : Ahead a zone now.sec ↔ ¬ (a.day - (dateOf zone now.sec).day) * 24 * 3600 * 1000 +
      1000 * (a.secs - (localtime zone now.sec).secs) < 0 := by
    unfold Ahead
    omega
  congr 3
  by_cases h : Ahead a zone now.sec
  · rw [if_neg (hahead.mp h), if_pos h]
    omega
  · rw [if_pos (not_not.mp (hahead.not.mp h)), if_neg h]
    omega

/-- Where the time that is set is the next time. -/
def Right : Prop :=
  if Ahead a zone now then a.day ≤ daysIn (dateOf zone now).month
  else (dateOf zone now).day ≤ daysIn ((dateOf zone now).month + 1)

instance : Decidable (Right a zone now) :=
  inferInstanceAs (Decidable (if Ahead a zone now then a.day ≤ daysIn (dateOf zone now).month
    else (dateOf zone now).day ≤ daysIn ((dateOf zone now).month + 1)))

/-- The months after a month begin when it is through, and the next. -/
theorem monthStart_two (i : ℤ) :
    monthStart (i + 1) = monthStart i + daysIn i ∧
      monthStart (i + 2) = monthStart i + daysIn i + daysIn (i + 1) := by
  have h1 := monthStart_succ i
  have h2 := monthStart_succ (i + 1)
  rw [add_assoc, one_add_one_eq_two] at h2
  omega

/-- The seconds from now to the next time. -/
theorem nextTime_sub : nextTime a zone now - now =
    86400 * (monthStart (nextMonth a zone now) - monthStart (dateOf zone now).month +
      a.day - (dateOf zone now).day) + (a.secs - (localtime zone now).secs) := by
  have hnow := second_eq zone now
  unfold Date.number at hnow
  unfold nextTime
  omega

/-- Where it is right, what is set is the next time. -/
theorem setDistance_right (h : Right a zone now) :
    setDistance a zone now = nextTime a zone now - now ∧ 0 ≤ setDistance a zone now ∧
      setDistance a zone now < 4294967 := by
  have hday := (dateOf zone now).one_le_day
  have hle := (dateOf zone now).day_le
  have hmax := daysIn_le (dateOf zone now).month
  have hsecs := a.secs_bounds
  have hmem := a.day_mem
  have hlow := secs_nonneg zone now
  have hhigh := secs_lt zone now
  obtain ⟨h1, -⟩ := monthStart_two (dateOf zone now).month
  rw [nextTime_sub]
  unfold setDistance nextMonth
  dsimp only
  unfold Right at h
  by_cases hahead : Ahead a zone now
  · rw [if_pos hahead] at h
    rw [if_pos hahead, if_pos ⟨hahead, h⟩]
    unfold Ahead at hahead
    omega
  · rw [if_neg hahead] at h
    rw [if_neg hahead, if_neg fun hh => hahead hh.1]
    unfold Ahead at hahead
    unfold monthWith
    rw [if_pos h, if_pos (by omega)]
    omega

/-- Where it is not, what is set is another time, or more than a `DWORD` has of milliseconds. -/
theorem setDistance_wrong (h : ¬ Right a zone now) :
    0 ≤ setDistance a zone now ∧ setDistance a zone now < 8000000 ∧
      nextTime a zone now - now < 9000000 ∧
      (setDistance a zone now + 2 ≤ nextTime a zone now - now ∧ setDistance a zone now ≤ 4294967 ∨
        nextTime a zone now - now + 2 ≤ setDistance a zone now ∧ setDistance a zone now ≤ 4294967 ∨
        4294967 < setDistance a zone now ∧
          setDistance a zone now ≤ nextTime a zone now - now + 2678400) := by
  have hday := (dateOf zone now).one_le_day
  have hle := (dateOf zone now).day_le
  have hmax := daysIn_le (dateOf zone now).month
  have hmax' := daysIn_le ((dateOf zone now).month + 1)
  have hmin := le_daysIn (dateOf zone now).month
  have hmin' := le_daysIn ((dateOf zone now).month + 1)
  have hsecs := a.secs_bounds
  have hmem := a.day_mem
  have hlow := secs_nonneg zone now
  have hhigh := secs_lt zone now
  obtain ⟨h1, h2⟩ := monthStart_two (dateOf zone now).month
  rw [nextTime_sub]
  unfold setDistance nextMonth
  dsimp only
  unfold Right at h
  by_cases hahead : Ahead a zone now
  · rw [if_pos hahead] at h
    rw [if_pos hahead, if_neg fun hh => h hh.2]
    unfold Ahead at hahead
    unfold monthWith
    split_ifs <;> omega
  · rw [if_neg hahead] at h
    rw [if_neg hahead, if_neg fun hh => hahead hh.1]
    unfold Ahead at hahead
    unfold monthWith
    rw [if_neg h]
    split_ifs <;> omega

end

theorem dueAt_nextTime_iff (type : ETimerType) (w : Wheel) (o : ℕ) (zone : ℤ) (now : TimeVal)
    (a : MonthTime) :
    DueAt ((setMonthTime type w o zone now a.day a.hour a.minutes a.second).timer o)
      (nextTime a zone now.sec) ↔ Right a zone now.sec := by
  have hpoint : ((setMonthTime type w o zone now a.day a.hour a.minutes a.second).timer o).bePoint =
      (setStart (w.timer o) now (1000 * setDistance a zone now.sec)).bePoint := by
    rw [setMonthTime_eq]
    exact (timer_addTimer ..).1
  unfold DueAt
  rw [hpoint]
  by_cases h : Right a zone now.sec
  · obtain ⟨heq, h0, hlt⟩ := setDistance_right a zone now.sec h
    refine iff_of_true ?_ h
    rw [show nextTime a zone now.sec = now.sec + setDistance a zone now.sec by omega]
    exact dueAt_setStart (w.timer o) now h0 hlt
  · obtain ⟨h0, hx, hy, hcases⟩ := setDistance_wrong a zone now.sec h
    refine iff_of_false (fun hdue => ?_) h
    have hle := le_nextTime a zone now.sec
    have hms := now.ms_bounds
    have hcut : (1000 * setDistance a zone now.sec) % 4294967296 =
        if setDistance a zone now.sec ≤ 4294967 then 1000 * setDistance a zone now.sec
        else 1000 * setDistance a zone now.sec - 4294967296 := by
      split_ifs <;> omega
    have hb := bePoint_eq (w.timer o) now (1000 * setDistance a zone now.sec)
    rw [start_setStart, hcut] at hb
    split_ifs at hb <;> rw [← DueAt, dueAt_iff hb (by omega)] at hdue <;> omega

/-- **Where a timer of a month is set to the next time**: this month has the day, where its time has not
passed; or the next month has the day of today, where it has. -/
theorem setMonthTime_iff (type : ETimerType) (w : Wheel) (o : ℕ) (zone : ℤ) (now : TimeVal)
    (a : MonthTime) :
    (∃ s, IsLeast {t | now.sec ≤ t ∧ a.At zone t} s ∧
      DueAt ((setMonthTime type w o zone now a.day a.hour a.minutes a.second).timer o) s) ↔
    Right a zone now.sec := by
  have hleast := nextTime_isLeast a zone now.sec
  rw [← dueAt_nextTime_iff type w o]
  constructor
  · rintro ⟨s, hs, hdue⟩
    rwa [hs.unique hleast] at hdue
  · exact fun hdue => ⟨_, hleast, hdue⟩

/-- Noon of the fifteenth. -/
def fifteenth : MonthTime := ⟨⟨12, 0, 0, by decide, by decide, by decide⟩, 15, by decide⟩

/-- Noon of the last day of January 2018. -/
def lastOfJanuary : TimeVal := ⟨1517400000, 0, by decide, by decide⟩

/-- From the end of January the fifteenth of February is left out. -/
theorem not_setMonthTime : ¬ ∃ s, IsLeast {t | lastOfJanuary.sec ≤ t ∧ fifteenth.At 0 t} s ∧
    DueAt ((setMonthTime .timerSingle (({} : Wheel).newTimer .monthLoopTimer 0 0 0) 0 0 lastOfJanuary
      15 12 0 0).timer 0) s := by
  rintro ⟨s, hs, hdue⟩
  rw [hs.unique (nextTime_isLeast fifteenth 0 lastOfJanuary.sec)] at hdue
  exact absurd ((dueAt_nextTime_iff .timerSingle _ 0 0 lastOfJanuary fifteenth).mp hdue) (by decide)

end ChatShow.CommBase.MonthTimers
