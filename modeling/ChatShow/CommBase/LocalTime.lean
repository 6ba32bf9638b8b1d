import ChatShow.Lib.Gregorian

/-! # The clock and the local time

What `gettimeofday`, `time` and `localtime_r` give. A zone is the seconds by which it is ahead of UTC,
without daylight saving. -/

namespace ChatShow.CommBase.LocalTime

open ChatShow.Lib.Gregorian

/-- A time of the clock, a `timeval`. -/
structure TimeVal where
  sec : ℤ
  usec : ℤ := 0
  usec_nonneg : 0 ≤ usec := by decide
  usec_lt : usec < 1000000 := by decide

namespace TimeVal

/-- The milliseconds. -/
def ms (now : TimeVal) : ℤ := now.sec * 1000 + now.usec / 1000

theorem ms_bounds (now : TimeVal) : now.sec * 1000 ≤ now.ms ∧ now.ms < now.sec * 1000 + 1000 := by
  have := now.usec_nonneg
  have := now.usec_lt
  unfold ms
  omega

end TimeVal

/-- `CUtil::GetNowSecond`, a `DWORD64`. -/
def getNowSecond (now : TimeVal) : UInt64 := UInt64.ofInt now.ms

/-- `struct tm`: the months begin with 0, the years with 1900, and a Sunday is 0. -/
structure Tm where
  sec : ℤ
  min : ℤ
  hour : ℤ
  mday : ℤ
  mon : ℤ
  year : ℤ
  wday : ℤ
deriving DecidableEq

/-- The number of the day. -/
def dayOf (zone t : ℤ) : ℤ := (t + zone) / 86400

/-- The date. -/
def dateOf (zone t : ℤ) : Date := ofNumber (dayOf zone t)

def localtime (zone t : ℤ) : Tm where
  sec := (t + zone) % 60
  min := (t + zone) / 60 % 60
  hour := (t + zone) / 3600 % 24
  mday := (dateOf zone t).day
  mon := (dateOf zone t).month % 12
  year := (dateOf zone t).month / 12 - 1900
  wday := (dayOf zone t + 4) % 7

namespace Tm

/-- The seconds of the day. -/
def secs (p : Tm) : ℤ := 3600 * p.hour + 60 * p.min + p.sec

/-- The day of the week where a Sunday is 7. -/
def week (p : Tm) : ℤ := if p.wday = 0 then 7 else p.wday

end Tm

theorem secs_localtime (zone t : ℤ) : (localtime zone t).secs = (t + zone) % 86400 := by
  unfold Tm.secs localtime
  dsimp only
  omega

theorem secs_nonneg (zone t : ℤ) : 0 ≤ (localtime zone t).secs := by
  rw [secs_localtime]
  omega

theorem secs_lt (zone t : ℤ) : (localtime zone t).secs < 86400 := by
  rw [secs_localtime]
  omega

theorem week_localtime (zone t : ℤ) : (localtime zone t).week = weekday (dayOf zone t) := by
  unfold Tm.week localtime weekday
  dsimp only
  split_ifs <;> omega

theorem number_dateOf (zone t : ℤ) : (dateOf zone t).number = dayOf zone t := number_ofNumber _

end ChatShow.CommBase.LocalTime
