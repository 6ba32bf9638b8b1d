import ChatShow.CommBase.LocalTime
import ChatShow.CommBase.SingleTimerMgr
import ChatShow.CommBase.TimerMgr

/-! # The timer interface

`SetDistanceTime`, `SetDayTime` and `SetWeekTime` of `TimerInterface`. The products of an `int` with the
milliseconds of an hour are `int64`, and are integers here. The clock is read twice by `SetDayTime` and
`SetWeekTime`, at one time here. -/

namespace ChatShow.CommBase.TimerInterface

open ChatShow.Lib.Gregorian ChatShow.CommBase.LocalTime ChatShow.CommBase.TimerWheel

/-! ### The interface -/

inductive ETimerType
  | timerSingle
  | timerThreadSafe

/-- `m_timer->AddTimer` of a new timer. -/
def addTimer : ETimerType → Wheel → ℕ → Wheel
  | .timerSingle, w, o => SingleTimerMgr.SingleTimerManager.addTimer w o
  | .timerThreadSafe, w, o => TimerMgr.TimerManager.addTimer w o

/-- The distance, which is put into a `DWORD`, and the due point. -/
def setStart (t : Timer) (now : TimeVal) (diftime : ℤ) : Timer :=
  let start := UInt32.ofInt diftime
  let start := if start < 100 then 100 else start
  { t with start := start, bePoint := (getNowSecond now + start.toUInt64).toInt64 }

def setDistanceTime (type : ETimerType) (w : Wheel) (o : ℕ) (now : TimeVal)
    (hour minutes second microSec interval : ℤ) : Wheel :=
  let start := hour * 3600 * 1000 + minutes * 60 * 1000 + second * 1000 + microSec
  let t := { setStart (w.timer o) now start with interval := Int64.ofInt interval }
  addTimer type (w.setTimer o t) o

/-- The milliseconds from the time of day of `p` to the time of day that is asked for. -/
def dayDistance (p : Tm) (hour minutes second : ℤ) : ℤ :=
  (hour - p.hour) * 3600 * 1000 + (minutes - p.min) * 60 * 1000 + (second - p.sec) * 1000

def setDayTime (type : ETimerType) (w : Wheel) (o : ℕ) (zone : ℤ) (now : TimeVal)
    (hour minutes second interval : ℤ) : Wheel :=
  let diftime := dayDistance (localtime zone now.sec) hour minutes second
  let diftime := if diftime < 0 then diftime + 24 * 3600 * 1000 else diftime
  let t := { setStart (w.timer o) now diftime with interval := Int64.ofInt interval }
  addTimer type (w.setTimer o t) o

def setWeekTime (type : ETimerType) (w : Wheel) (o : ℕ) (zone : ℤ) (now : TimeVal)
    (weekDay hour minutes second : ℤ) : Wheel :=
  let p := localtime zone now.sec
  let diftime := (weekDay - p.week) * 24 * 3600 * 1000 + dayDistance p hour minutes second
  let diftime := if diftime < 0 then diftime + 7 * 24 * 3600 * 1000 else diftime
  let t := { setStart (w.timer o) now diftime with interval := 7 * 24 * 3600 * 1000 }
  addTimer type (w.setTimer o t) o

/-! ### What is kept by `AddTimer` -/

theorem addTimer_eq (type : ETimerType) (w : Wheel) (o : ℕ) :
    addTimer type w o = w ∨ ∃ start, addTimer type w o = w.attachNew o start := by
  cases type with
  | timerSingle =>
    rw [addTimer, SingleTimerMgr.SingleTimerManager.addTimer]
    split_ifs
    · exact Or.inl rfl
    · exact Or.inr ⟨_, rfl⟩
  | timerThreadSafe =>
    rw [addTimer, TimerMgr.TimerManager.addTimer]
    split_ifs
    · exact Or.inl rfl
    · exact Or.inr ⟨_, rfl⟩

/-- What is set in a timer before it is added stays. -/
theorem timer_addTimer (type : ETimerType) (w : Wheel) (o : ℕ) (t : Timer) :
    ((addTimer type (w.setTimer o t) o).timer o).bePoint = t.bePoint ∧
      ((addTimer type (w.setTimer o t) o).timer o).interval = t.interval := by
  have hself := Wheel.setTimer_self w o t
  rcases addTimer_eq type (w.setTimer o t) o with heq | ⟨start, heq⟩
  · rw [heq, hself]
    exact ⟨rfl, rfl⟩
  · rw [heq]
    cases hdel : ((w.setTimer o t).timer o).delflag with
    | true =>
      rw [Wheel.attachNew_of_deleted hdel, hself]
      exact ⟨rfl, rfl⟩
    | false =>
      have hnew : ((w.setTimer o t).attachNew o start).timer o =
          t.begin (w.setTimer o t).nextID start := by
        rw [Wheel.attachNew_eq hdel, Wheel.timer_slotAdd]
        unfold Wheel.setNew
        rw [hself]
        exact Wheel.setTimer_self ..
      rw [hnew]
      exact ⟨rfl, rfl⟩

/-! ### The due point -/

theorem toInt64_ofInt (x : ℤ) : (UInt64.ofInt x).toInt64 = Int64.ofInt x := by
  unfold UInt64.ofInt
  rw [UInt64.toInt64_ofNat', ← Int64.ofInt_eq_ofNat, Int.toNat_of_nonneg (Int.emod_nonneg _ (by decide))]
  refine Int64.toInt_inj.mp ?_
  rw [Int64.toInt_ofInt, Int64.toInt_ofInt]
  exact Int.emod_bmod x Int64.size

/-- A `DWORD` has of a distance what is left of it, from 100 on. -/
theorem start_setStart (t : Timer) (now : TimeVal) (d : ℤ) :
    ((setStart t now d).start.toNat : ℤ) = max (d % 4294967296) 100 := by
  have hof : ((UInt32.ofInt d).toNat : ℤ) = d % 4294967296 := by
    unfold UInt32.ofInt
    rw [UInt32.toNat_ofNat']
    omega
  unfold setStart
  dsimp only
  split_ifs with hlt
  · have := UInt32.lt_iff_toNat_lt.mp hlt
    simp only [UInt32.reduceToNat] at this ⊢
    omega
  · have := UInt32.lt_iff_toNat_lt.not.mp hlt
    simp only [UInt32.reduceToNat] at this
    omega

theorem bePoint_eq (t : Timer) (now : TimeVal) (d : ℤ) :
    (setStart t now d).bePoint = Int64.ofInt (now.ms + (setStart t now d).start.toNat) := by
  have hstart (x : UInt32) : x.toUInt64.toInt64 = Int64.ofInt x.toNat := by
    rw [Int64.ofInt_eq_ofNat, ← UInt64.toInt64_ofNat']
    exact congrArg UInt64.toInt64 (UInt64.ofNat_uInt32ToNat x).symm
  rw [Int64.ofInt_add, ← hstart, ← toInt64_ofInt]
  rfl

theorem bePoint_setStart (t : Timer) (now : TimeVal) {d : ℤ} (h0 : 0 ≤ d) (h : d < 4294967296) :
    (setStart t now d).bePoint = Int64.ofInt (now.ms + max d 100) := by
  rw [bePoint_eq, start_setStart, Int.emod_eq_of_lt h0 h]

/-! ### `SetDistanceTime` -/

/-- A distance below `2 ^ 32` is kept where it is 100 or more. -/
theorem setDistanceTime_exact (type : ETimerType) (w : Wheel) (o : ℕ) (now : TimeVal)
    (hour minutes second microSec : ℕ) (interval : ℤ)
    (h : hour * 3600000 + minutes * 60000 + second * 1000 + microSec < 4294967296) :
    ((setDistanceTime type w o now hour minutes second microSec interval).timer o).bePoint =
      Int64.ofInt (now.ms +
        max (hour * 3600000 + minutes * 60000 + second * 1000 + microSec : ℤ) 100) := by
  have hd : (hour * 3600 * 1000 + minutes * 60 * 1000 + second * 1000 + microSec : ℤ) =
      hour * 3600000 + minutes * 60000 + second * 1000 + microSec := by omega
  unfold setDistanceTime
  dsimp only
  rw [(timer_addTimer ..).1, hd]
  exact bePoint_setStart (w.timer o) now (by omega) (by omega)

/-- The distance of 49 days is the longest number of days. -/
theorem setDistanceTime_days :
    49 * 24 * 3600000 + 0 * 60000 + 0 * 1000 + 0 < 4294967296 ∧
      ((setDistanceTime .timerSingle (({} : Wheel).newTimer .loopTimer 0 0 0) 0 ⟨1700000000, 0, by decide,
        by decide⟩ (49 * 24 : ℕ) (0 : ℕ) (0 : ℕ) (0 : ℕ) 0).timer 0).bePoint = 1704233600000 :=
  ⟨by decide, setDistanceTime_exact .timerSingle _ 0 _ (49 * 24) 0 0 0 0 (by decide)⟩

/-- Fewer than 100 milliseconds are 100. -/
theorem setDistanceTime_short :
    ((setDistanceTime .timerSingle (({} : Wheel).newTimer .loopTimer 0 0 0) 0 ⟨1700000000, 0, by decide,
      by decide⟩ 0 0 0 50 0).timer 0).bePoint ≠ Int64.ofInt (1700000000000 + 50) := by
  unfold setDistanceTime
  dsimp only
  rw [(timer_addTimer ..).1, bePoint_eq]
  decide

/-! ### `SetDayTime` and `SetWeekTime` -/

/-- A time of day. -/
structure DayTime where
  hour : ℤ
  minutes : ℤ
  second : ℤ
  hour_mem : 0 ≤ hour ∧ hour < 24
  minutes_mem : 0 ≤ minutes ∧ minutes < 60
  second_mem : 0 ≤ second ∧ second < 60

namespace DayTime

def secs (a : DayTime) : ℤ := 3600 * a.hour + 60 * a.minutes + a.second

/-- The local time has this time of day. -/
def At (a : DayTime) (zone t : ℤ) : Prop :=
  (localtime zone t).hour = a.hour ∧ (localtime zone t).min = a.minutes ∧
    (localtime zone t).sec = a.second

theorem secs_bounds (a : DayTime) : 0 ≤ a.secs ∧ a.secs < 86400 := by
  have := a.hour_mem
  have := a.minutes_mem
  have := a.second_mem
  unfold secs
  omega

theorem at_iff {a : DayTime} {zone t : ℤ} : a.At zone t ↔ (t + zone) % 86400 = a.secs := by
  have := a.hour_mem
  have := a.minutes_mem
  have := a.second_mem
  unfold At localtime secs
  dsimp only
  omega

theorem dayDistance_eq (a : DayTime) (p : Tm) :
    dayDistance p a.hour a.minutes a.second = 1000 * (a.secs - p.secs) := by
  unfold dayDistance secs Tm.secs
  omega

end DayTime

/-- A time of day on a day of the week, where a Sunday is 7. -/
structure WeekTime extends DayTime where
  weekDay : ℤ
  weekDay_mem : 1 ≤ weekDay ∧ weekDay ≤ 7

/-- The local time has this day of the week and this time of day. -/
def WeekTime.At (a : WeekTime) (zone t : ℤ) : Prop :=
  (localtime zone t).week = a.weekDay ∧ a.toDayTime.At zone t

/-- The second of the week is this one; a week that begins on a Monday begins 3 days before the first
day of all. -/
theorem WeekTime.at_iff {a : WeekTime} {zone t : ℤ} :
    a.At zone t ↔ (t + zone + 3 * 86400) % 604800 = 86400 * (a.weekDay - 1) + a.secs := by
  have := a.weekDay_mem
  have := a.secs_bounds
  unfold At
  rw [DayTime.at_iff, week_localtime]
  unfold weekday dayOf
  omega

/-- The timer is due at a second `s`, or less than 1.1 s after it. -/
def DueAt (t : Timer) (s : ℤ) : Prop :=
  ∃ b, t.bePoint = Int64.ofInt b ∧ 1000 * s ≤ b ∧ b < 1000 * s + 1100

/-- The due point is known up to what an `int64` has. -/
theorem dueAt_iff {t : Timer} {b s : ℤ} (hb : t.bePoint = Int64.ofInt b)
    (hnear : (b - 1000 * s).natAbs < 4611686018427387904) :
    DueAt t s ↔ 1000 * s ≤ b ∧ b < 1000 * s + 1100 := by
  refine ⟨fun ⟨b', hb', hle, hlt⟩ => ?_, fun ⟨hle, hlt⟩ => ⟨b, hb, hle, hlt⟩⟩
  have hbmod := congrArg Int64.toInt (hb.symm.trans hb')
  rw [Int64.toInt_ofInt, Int64.toInt_ofInt] at hbmod
  have hemod := congrArg (· % (18446744073709551616 : ℤ)) hbmod
  have hsize : ((Int64.size : ℕ) : ℤ) = 18446744073709551616 := rfl
  rw [← hsize, Int.bmod_emod, Int.bmod_emod, hsize] at hemod
  omega

theorem dueAt_setStart (t : Timer) (now : TimeVal) {d : ℤ} (h0 : 0 ≤ d) (h : d < 4294967) :
    DueAt (setStart t now (1000 * d)) (now.sec + d) := by
  have := now.ms_bounds
  exact ⟨_, bePoint_setStart t now (by omega) (by omega), by omega, by omega⟩

theorem setDayTime_due (type : ETimerType) (w : Wheel) (o : ℕ) (zone : ℤ) (now : TimeVal)
    (a : DayTime) (interval : ℤ) :
    ∃ s, IsLeast {t | now.sec ≤ t ∧ a.At zone t} s ∧ s < now.sec + 86400 ∧
      DueAt ((setDayTime type w o zone now a.hour a.minutes a.second interval).timer o) s := by
  have hsecs := a.secs_bounds
  obtain ⟨d, hd⟩ : ∃ d, d = a.secs - (localtime zone now.sec).secs := ⟨_, rfl⟩
  rw [secs_localtime] at hd
  refine ⟨now.sec + if d < 0 then d + 86400 else d, ⟨⟨?_, ?_⟩, ?_⟩, ?_, ?_⟩
  · split_ifs <;> omega
  · rw [DayTime.at_iff]
    split_ifs <;> omega
  · rintro t ⟨hle, hat⟩
    rw [DayTime.at_iff] at hat
    split_ifs <;> omega
  · split_ifs <;> omega
  · unfold setDayTime DueAt
    dsimp only
    rw [(timer_addTimer ..).1, a.dayDistance_eq, secs_localtime, ← hd]
    split_ifs with hneg hneg' hneg'
    · rw [show 1000 * d + 24 * 3600 * 1000 = 1000 * (d + 86400) by omega]
      exact dueAt_setStart (w.timer o) now (by omega) (by omega)
    · omega
    · omega
    · exact dueAt_setStart (w.timer o) now (by omega) (by omega)

theorem setWeekTime_due (type : ETimerType) (w : Wheel) (o : ℕ) (zone : ℤ) (now : TimeVal)
    (a : WeekTime) :
    ∃ s, IsLeast {t | now.sec ≤ t ∧ a.At zone t} s ∧ s < now.sec + 604800 ∧
      DueAt ((setWeekTime type w o zone now a.weekDay a.hour a.minutes a.second).timer o) s := by
  have hsecs := a.secs_bounds
  have hweek := a.weekDay_mem
  obtain ⟨d, hd⟩ : ∃ d, d = 86400 * (a.weekDay - (localtime zone now.sec).week) +
    (a.secs - (localtime zone now.sec).secs) := ⟨_, rfl⟩
  have hdist : (a.weekDay - (localtime zone now.sec).week) * 24 * 3600 * 1000 +
      dayDistance (localtime zone now.sec) a.hour a.minutes a.second = 1000 * d := by
    rw [a.dayDistance_eq]
    omega
  rw [week_localtime, secs_localtime] at hd
  unfold weekday dayOf at hd
  refine ⟨now.sec + if d < 0 then d + 604800 else d, ⟨⟨?_, ?_⟩, ?_⟩, ?_, ?_⟩
  · split_ifs <;> omega
  · rw [WeekTime.at_iff]
    split_ifs <;> omega
  · rintro t ⟨hle, hat⟩
    rw [WeekTime.at_iff] at hat
    split_ifs <;> omega
  · split_ifs <;> omega
  · unfold setWeekTime DueAt
    dsimp only
    rw [(timer_addTimer ..).1, hdist]
    split_ifs with hneg hneg' hneg'
    · rw [show 1000 * d + 7 * 24 * 3600 * 1000 = 1000 * (d + 604800) by omega]
      exact dueAt_setStart (w.timer o) now (by omega) (by omega)
    · omega
    · omega
    · exact dueAt_setStart (w.timer o) now (by omega) (by omega)

/-- Both are due at the next time that is asked for, and the weeks of a timer are weeks. -/
theorem next_dayTime_weekTime (type : ETimerType) (w : Wheel) (o : ℕ) (zone : ℤ) (now : TimeVal)
    (a : WeekTime) :
    (∀ interval, ∃ s, IsLeast {t | now.sec ≤ t ∧ a.toDayTime.At zone t} s ∧ s < now.sec + 86400 ∧
      DueAt ((setDayTime type w o zone now a.hour a.minutes a.second interval).timer o) s) ∧
    (∃ s, IsLeast {t | now.sec ≤ t ∧ a.At zone t} s ∧ s < now.sec + 604800 ∧
      DueAt ((setWeekTime type w o zone now a.weekDay a.hour a.minutes a.second).timer o) s) ∧
    ((setWeekTime type w o zone now a.weekDay a.hour a.minutes a.second).timer o).interval =
      7 * 24 * 3600 * 1000 :=
  ⟨setDayTime_due type w o zone now a.toDayTime, setWeekTime_due type w o zone now a,
    (timer_addTimer ..).2⟩

end ChatShow.CommBase.TimerInterface
