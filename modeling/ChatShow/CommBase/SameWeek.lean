import ChatShow.CommBase.LocalTime
import ChatShow.CommBase.MonthDays

/-! # Two days in one week

`CUtil::IsSameWeek`, for an argument in milliseconds. It looks at the years, the months and the days one
after the other, and asks `GetCurMonthDay` with the years and months of `localtime_r`, which are counted
from 1900 and from 0. -/

namespace ChatShow.CommBase.SameWeek

open ChatShow.Lib.Gregorian ChatShow.CommBase.LocalTime ChatShow.CommBase.MonthDays

/-- `IsSameWeek`, once the local times are known. -/
def sameWeek (pNow p : Tm) : Bool :=
  if pNow.year ≠ p.year then false
  else if pNow.mon = p.mon then
    if (pNow.mday - p.mday).natAbs ≥ 7 then false
    else if pNow.mday > p.mday then !(pNow.week < p.week)
    else if pNow.mday < p.mday then !(pNow.week > p.week)
    else true
  else if (pNow.mon - p.mon).natAbs = 1 then
    if pNow.mon > p.mon then
      if getCurMonthDay p.year p.mon - p.mday + pNow.mday ≥ 7 then false
      else !(pNow.week < p.week)
    else if getCurMonthDay pNow.year pNow.mon - pNow.mday + p.mday ≥ 7 then false
    else !(pNow.week < p.week)
  else false

def isSameWeek (zone now btime : ℤ) : Bool :=
  sameWeek (localtime zone now) (localtime zone (btime.tdiv 1000))

/-! ### What is returned for two dates -/

/-- The local time of a day. -/
structure Tm.Of (p : Tm) (d : Date) : Prop where
  mday : p.mday = d.day
  mon : p.mon = d.month % 12
  year : p.year = d.year - 1900
  week : p.week = weekday d.number

theorem localtime_of (zone t : ℤ) : Tm.Of (localtime zone t) (dateOf zone t) where
  mday := rfl
  mon := rfl
  year := rfl
  week := by rw [week_localtime, number_dateOf]

/-- The two dates are in one week. -/
def InWeek (d d' : Date) : Prop := week d.number = week d'.number

/-- The days between two dates of months in a row, as `GetCurMonthDay` counts them. -/
def between (d d' : Date) : ℤ := getCurMonthDay (d.year - 1900) (d.month % 12) - d.day + d'.day

section
variable {pNow p : Tm} {d d' : Date} (hnow : Tm.Of pNow d) (hp : Tm.Of p d')
include hnow hp

theorem sameWeek_year (h : d.year ≠ d'.year) : sameWeek pNow p = false := by
  unfold sameWeek
  rw [hnow.year, hp.year, if_pos (by omega)]

theorem sameWeek_month (h : d.month = d'.month) : sameWeek pNow p = true ↔ InWeek d d' := by
  have hle := d.one_le_day
  have hle' := d'.one_le_day
  have hyear : d.year = d'.year := congrArg (· / 12) h
  unfold sameWeek InWeek
  rw [hnow.year, hp.year, hnow.mon, hp.mon, hnow.week, hp.week, hnow.mday, hp.mday, if_neg (by omega),
    if_pos (by omega)]
  unfold week weekday Date.number
  rw [h]
  split_ifs <;> simp <;> omega

/-- The argument is in the month before. -/
theorem sameWeek_later (h : d.month = d'.month + 1) (hyear : d.year = d'.year) :
    sameWeek pNow p = true ↔ between d' d < 7 ∧ weekday d'.number ≤ weekday d.number := by
  unfold Date.year at hyear
  unfold sameWeek between
  rw [hnow.year, hp.year, hnow.mon, hp.mon, hnow.week, hp.week, hnow.mday, hp.mday]
  unfold Date.year
  rw [if_neg (by omega), if_neg (by omega), if_pos (by omega), if_pos (by omega)]
  split_ifs <;> simp <;> omega

/-- The argument is in the month after. -/
theorem sameWeek_earlier (h : d'.month = d.month + 1) (hyear : d.year = d'.year) :
    sameWeek pNow p = true ↔ between d d' < 7 ∧ weekday d'.number ≤ weekday d.number := by
  unfold Date.year at hyear
  unfold sameWeek between
  rw [hnow.year, hp.year, hnow.mon, hp.mon, hnow.week, hp.week, hnow.mday, hp.mday]
  unfold Date.year
  rw [if_neg (by omega), if_neg (by omega), if_pos (by omega), if_neg (by omega)]
  split_ifs <;> simp <;> omega

theorem sameWeek_apart (h : d.month + 1 < d'.month ∨ d'.month + 1 < d.month) :
    sameWeek pNow p = false := by
  unfold sameWeek
  rw [hnow.year, hp.year, hnow.mon, hp.mon]
  unfold Date.year
  split_ifs <;> first | rfl | omega

end

/-! ### Where it is exact -/

/-- Months that are not in a row have no week in common. -/
theorem not_inWeek_of_apart {d d' : Date} (h : d.month + 1 < d'.month) : ¬ InWeek d d' := by
  have hlt := d.number_lt
  have hle := d'.monthStart_le_number
  have hstart := monthStart_succ d.month
  have hadd := monthStart_add_le h
  have hdays := le_daysIn (d.month + 1)
  unfold InWeek week
  omega

theorem inWeek_comm {d d' : Date} : InWeek d d' ↔ InWeek d' d := eq_comm

/-- Two days are in one week where the days of the week are as far apart as they are. -/
theorem inWeek_iff {d d' : Date} (h : d.number < d'.number) :
    InWeek d d' ↔ d'.number - d.number < 7 ∧ weekday d.number < weekday d'.number := by
  unfold InWeek week weekday
  omega

/-- What is returned for the argument `d'` on the day `d` is right. -/
structure RightFor (d d' : Date) : Prop where
  years : d.year ≠ d'.year → ¬ InWeek d d'
  later : d.year = d'.year → d.month = d'.month + 1 →
    if between d' d < 7 then InWeek d d' ∨ weekday d.number < weekday d'.number else ¬ InWeek d d'
  earlier : d.year = d'.year → d'.month = d.month + 1 →
    ¬ InWeek d d' ∧ (between d d' < 7 → weekday d.number < weekday d'.number)

theorem sameWeek_iff {pNow p : Tm} {d d' : Date} (hnow : Tm.Of pNow d) (hp : Tm.Of p d') :
    (sameWeek pNow p = true ↔ InWeek d d') ↔ RightFor d d' := by
  by_cases hyear : d.year = d'.year
  · rcases (by omega : d.month = d'.month ∨ d.month = d'.month + 1 ∨ d'.month = d.month + 1 ∨
      (d.month + 1 < d'.month ∨ d'.month + 1 < d.month)) with hm | hm | hm | hm
    · refine iff_of_true (sameWeek_month hnow hp hm) ⟨fun h => absurd hyear h, ?_, ?_⟩ <;> omega
    · have hin := @inWeek_iff d' d (Date.number_lt_number (by omega))
      rw [sameWeek_later hnow hp hm hyear]
      constructor
      · intro h
        refine ⟨fun hne => absurd hyear hne, fun _ _ => ?_, fun _ h' => by omega⟩
        split_ifs with hlt
        · by_contra hno
          push Not at hno
          exact hno.1 (h.mp ⟨hlt, hno.2⟩)
        · exact fun hw => hlt (h.mpr hw).1
      · intro h
        have hlater := h.later hyear hm
        split_ifs at hlater with hlt
        · rw [inWeek_comm, hin] at hlater ⊢
          omega
        · exact iff_of_false (fun hw => hlt hw.1) hlater
    · have hin := @inWeek_iff d d' (Date.number_lt_number (by omega))
      rw [sameWeek_earlier hnow hp hm hyear]
      constructor
      · intro h
        refine ⟨fun hne => absurd hyear hne, fun _ h' => by omega, fun _ _ => ?_⟩
        have hno : ¬ InWeek d d' := fun hw => by
          have := (h.mpr hw).2
          have := (hin.mp hw).2
          omega
        refine ⟨hno, fun hlt => ?_⟩
        by_contra hle
        exact hno (h.mp ⟨hlt, by omega⟩)
      · intro h
        obtain ⟨hno, hlt⟩ := h.earlier hyear hm
        refine iff_of_false (fun hw => ?_) hno
        have := hlt hw.1
        omega
    · rw [sameWeek_apart hnow hp hm]
      have hno : ¬ InWeek d d' := by
        rcases hm with hm | hm
        · exact not_inWeek_of_apart hm
        · exact fun hw => not_inWeek_of_apart hm (inWeek_comm.mp hw)
      refine iff_of_true (iff_of_false Bool.false_ne_true hno) ⟨fun h => absurd hyear h, ?_, ?_⟩ <;> omega
  · rw [sameWeek_year hnow hp hyear]
    constructor
    · exact fun h => ⟨fun _ hw => Bool.false_ne_true (h.mpr hw), fun h' => absurd h' hyear,
        fun h' => absurd h' hyear⟩
    · exact fun h => iff_of_false Bool.false_ne_true (h.years hyear)

/-- What is returned is right for the two days in both orders. -/
structure Right (d d' : Date) : Prop where
  years : d.year ≠ d'.year → ¬ InWeek d d'
  after : d.year = d'.year → d'.month = d.month + 1 → ¬ InWeek d d' ∧ 7 ≤ between d d'
  before : d.year = d'.year → d.month = d'.month + 1 → ¬ InWeek d d' ∧ 7 ≤ between d' d

theorem rightFor_both (d d' : Date) : RightFor d d' ∧ RightFor d' d ↔ Right d d' := by
  constructor
  · rintro ⟨h, h'⟩
    refine ⟨h.years, fun hyear hm => ?_, fun hyear hm => ?_⟩
    · obtain ⟨hno, hlt⟩ := h.earlier hyear hm
      refine ⟨hno, ?_⟩
      have hlater := h'.later hyear.symm hm
      by_contra hle
      rw [if_pos (by omega), inWeek_comm] at hlater
      have := hlt (by omega)
      rcases hlater with hw | hw
      · exact hno hw
      · omega
    · obtain ⟨hno, hlt⟩ := h'.earlier hyear.symm hm
      rw [inWeek_comm] at hno
      refine ⟨hno, ?_⟩
      have hlater := h.later hyear hm
      by_contra hle
      rw [if_pos (by omega)] at hlater
      have := hlt (by omega)
      rcases hlater with hw | hw
      · exact hno hw
      · omega
  · intro h
    refine ⟨⟨h.years, fun hyear hm => ?_, fun hyear hm => ?_⟩,
      ⟨fun hyear => ?_, fun hyear hm => ?_, fun hyear hm => ?_⟩⟩
    · obtain ⟨hno, hle⟩ := h.before hyear hm
      rwa [if_neg (by omega)]
    · obtain ⟨hno, hle⟩ := h.after hyear hm
      exact ⟨hno, fun hlt => by omega⟩
    · rw [inWeek_comm]
      exact h.years (Ne.symm hyear)
    · obtain ⟨hno, hle⟩ := h.after hyear.symm hm
      rw [if_neg (by omega), inWeek_comm]
      exact hno
    · obtain ⟨hno, hle⟩ := h.before hyear.symm hm
      exact ⟨fun hw => hno (inWeek_comm.mp hw), fun hlt => by omega⟩

/-! ### Two instants -/

/-- The date of an instant in milliseconds. -/
def dateAt (zone a : ℤ) : Date := dateOf zone (a / 1000)

/-- The date that is taken for an argument. Before 1970 it is that of the next second, except where the
milliseconds are whole seconds. -/
def taken (zone btime : ℤ) : Date := dateOf zone (btime.tdiv 1000)

/-- `IsSameWeek` says whether two instants are in one week, and the same where they are exchanged. -/
def Exact (zone a b : ℤ) : Prop :=
  (isSameWeek zone (a / 1000) b = true ↔ InWeek (dateAt zone a) (dateAt zone b)) ∧
    isSameWeek zone (b / 1000) a = isSameWeek zone (a / 1000) b

theorem iff_through {p q r : Prop} : (p ↔ r) ↔ ((p ↔ q) ↔ (q ↔ r)) := by tauto

/-- **Where `IsSameWeek` is exact.** Where the dates that are taken are those of the instants, it is for
two dates of one month, and for dates that are not in one week, but are 7 or more days apart as
`GetCurMonthDay` counts them. In general the date that is taken must be right if and only if it is
in the week of the other as the date of the instant is. -/
theorem isSameWeek_exact_iff (zone a b : ℤ) :
    (taken zone a = dateAt zone a → taken zone b = dateAt zone b →
      (Exact zone a b ↔ Right (dateAt zone a) (dateAt zone b))) ∧
    (Exact zone a b ↔
      (RightFor (dateAt zone a) (taken zone b) ↔
        (InWeek (dateAt zone a) (taken zone b) ↔ InWeek (dateAt zone a) (dateAt zone b))) ∧
      (RightFor (dateAt zone b) (taken zone a) ↔
        (InWeek (dateAt zone b) (taken zone a) ↔ InWeek (dateAt zone a) (dateAt zone b)))) := by
  have hab := sameWeek_iff (localtime_of zone (a / 1000)) (localtime_of zone (b.tdiv 1000))
  have hba := sameWeek_iff (localtime_of zone (b / 1000)) (localtime_of zone (a.tdiv 1000))
  have hboth : Exact zone a b ↔
      (isSameWeek zone (a / 1000) b = true ↔ InWeek (dateAt zone a) (dateAt zone b)) ∧
      (isSameWeek zone (b / 1000) a = true ↔ InWeek (dateAt zone a) (dateAt zone b)) := by
    unfold Exact
    refine and_congr_right fun h => ?_
    rw [← h, Bool.eq_iff_iff]
  unfold isSameWeek at hboth
  constructor
  · intro ha hb
    unfold taken dateAt at ha hb
    rw [hboth, ← rightFor_both]
    unfold dateAt
    rw [ha] at hba
    rw [hb] at hab
    rw [hab, inWeek_comm (d := dateOf zone (a / 1000)), hba]
  · rw [hboth]
    unfold taken dateAt
    rw [← hab, ← hba]
    exact and_congr iff_through iff_through

/-- The last day of 2018 and the first of 2019, a Monday and a Tuesday. -/
theorem not_exact_newYear : ¬ Exact 0 1546257600000 1546344000000 := by
  unfold Exact InWeek
  decide

end ChatShow.CommBase.SameWeek
