import ChatShow.Lib.Gregorian

/-! # The days of the months

`CUtil::GetCurMonthDay` and `CUtil::GetNextMonthDay`. The years, months and days are `int`s, and the
milliseconds an `int64`; they are integers here. -/

namespace ChatShow.CommBase.MonthDays

open ChatShow.Lib.Gregorian

def getCurMonthDay (year month : ℤ) : ℤ :=
  if month ∈ [1, 3, 5, 7, 8, 10, 12] then 31
  else if month ∈ [4, 6, 9, 11] then 30
  else if month = 2 then
    if (year.tmod 4 = 0 ∧ year.tmod 100 ≠ 0) ∨ year.tmod 400 = 0 then 29 else 28
  else 0

/-- The loop of `GetNextMonthDay`, with the turns that `j` allows: `diffTime`, `nMonth`, and whether `j`
is too large in the end. -/
def monthLoop (year day : ℤ) : ℕ → (i tyear diffTime nMonth : ℤ) → ℤ × ℤ × Bool
  | 0, _, _, diffTime, nMonth => (diffTime, nMonth, true)
  | n + 1, i, tyear, diffTime, nMonth =>
    if i ≤ 12 then
      let (tmon, tyear) := if i + 1 > 12 then (1, year + 1) else (i + 1, tyear)
      let tday := getCurMonthDay tyear tmon
      if tday ≥ day then (diffTime, tmon, false)
      else monthLoop year day n (i + 1) tyear (diffTime + tday * 24 * 3600 * 1000) nMonth
    else (diffTime, nMonth, false)

/-- What `GetNextMonthDay` returns, and `nMonth`. -/
def getNextMonthDay (year month day nMonth : ℤ) : ℤ × ℤ :=
  let (diffTime, nMonth, past) := monthLoop year day 12 month year 0 nMonth
  (if past then 0 else diffTime + getCurMonthDay year month * 24 * 3600 * 1000, nMonth)

/-! ### The calendar -/

theorem getCurMonthDay_eq (i : ℤ) : getCurMonthDay (i / 12) (i % 12 + 1) = daysIn i := by
  have h0 := Int.emod_nonneg i (by decide : (12 : ℤ) ≠ 0)
  have h12 := Int.emod_lt_of_pos i (by decide : (0 : ℤ) < 12)
  have htmod (y k : ℤ) : y.tmod k = 0 ↔ y % k = 0 := by
    rw [← Int.dvd_iff_tmod_eq_zero, Int.dvd_iff_emod_eq_zero]
  unfold getCurMonthDay daysIn IsLeap
  simp only [ne_eq, htmod]
  generalize i / 12 = y
  generalize i % 12 = m at h0 h12 ⊢
  interval_cases m <;> simp

/-- A turn of the loop from the month `i` on. -/
theorem monthLoop_succ (year day diffTime nMonth i : ℤ) (n : ℕ) (hyear : i / 12 = year) :
    monthLoop year day (n + 1) (i % 12 + 1) year diffTime nMonth =
      if day ≤ daysIn (i + 1) then (diffTime, (i + 1) % 12 + 1, false)
      else monthLoop year day n (i % 12 + 1 + 1) ((i + 1) / 12)
        (diffTime + daysIn (i + 1) * 24 * 3600 * 1000) nMonth := by
  have hnext : (if i % 12 + 1 + 1 > 12 then (1, year + 1) else (i % 12 + 1 + 1, year)) =
      ((i + 1) % 12 + 1, (i + 1) / 12) := by
    split_ifs <;> refine Prod.ext ?_ ?_ <;> dsimp only <;> omega
  rw [monthLoop, if_pos (by omega), hnext]
  dsimp only
  rw [getCurMonthDay_eq]

/-- The loop ends with the first month that has the day. -/
theorem monthLoop_eq {day : ℤ} (hday : day ≤ 31) (i nMonth : ℤ) :
    monthLoop (i / 12) day 12 (i % 12 + 1) (i / 12) 0 nMonth =
      ((monthStart (monthWith i day) - monthStart (i + 1)) * 86400000, monthWith i day % 12 + 1, false) := by
  unfold monthWith
  rw [monthLoop_succ _ _ _ _ _ 11 rfl]
  split_ifs with hd
  · rw [sub_self, zero_mul]
  · -- January has 31 days, so the next month is in the same year
    have hne : (i + 1) % 12 ≠ 0 := fun h0 => hd (daysIn_january h0 ▸ hday)
    have hlong := daysIn_succ (i := i + 1) (by omega)
    rw [add_assoc, one_add_one_eq_two] at hlong
    have hstart := monthStart_succ (i + 1)
    rw [add_assoc, one_add_one_eq_two] at hstart
    rw [show i % 12 + 1 + 1 = (i + 1) % 12 + 1 by omega, show (i + 1) / 12 = i / 12 by omega,
      monthLoop_succ _ _ _ _ (i + 1) 10 (by omega), add_assoc, one_add_one_eq_two, if_pos (by omega), hstart]
    refine Prod.ext ?_ rfl
    dsimp only
    omega

theorem getNextMonthDay_eq (d : Date) (nMonth : ℤ) :
    getNextMonthDay d.year d.mon d.day nMonth =
      (86400000 * (monthStart (monthWith d.month d.day) - monthStart d.month),
        monthWith d.month d.day % 12 + 1) := by
  have hstart := monthStart_succ d.month
  unfold getNextMonthDay Date.year Date.mon
  rw [monthLoop_eq (d.day_le.trans (daysIn_le _)), getCurMonthDay_eq]
  dsimp only
  rw [if_neg Bool.false_ne_true]
  refine Prod.ext ?_ rfl
  dsimp only
  omega

/-- **The next month with the day**, and the milliseconds until then. -/
theorem getNextMonthDay_exact (d : Date) (nMonth : ℤ) :
    ∃ d' : Date, IsLeast {j | d.month < j ∧ d.day ≤ daysIn j} d'.month ∧ d'.day = d.day ∧
      getNextMonthDay d.year d.mon d.day nMonth = (86400000 * (d'.number - d.number), d'.mon) := by
  have hleast := isLeast_monthWith (d.day_le.trans (daysIn_le _)) d.month
  refine ⟨⟨monthWith d.month d.day, d.day, d.one_le_day, hleast.1.2⟩, hleast, rfl, ?_⟩
  rw [getNextMonthDay_eq]
  unfold Date.number
  refine Prod.ext ?_ rfl
  dsimp only
  omega

/-- From the end of January a leap February is skipped. -/
example : getNextMonthDay 2024 1 31 0 = (86400000 * 60, 3) := by decide

end ChatShow.CommBase.MonthDays
