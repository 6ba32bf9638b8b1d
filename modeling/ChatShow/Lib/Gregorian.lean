import Mathlib.Algebra.Order.Group.Int
import Mathlib.Order.Bounds.Basic
import Mathlib.Order.Monotone.Basic
import Mathlib.Order.SuccPred.IntervalSucc
import Mathlib.Tactic.Common
import Mathlib.Tactic.IntervalCases

/-! # The Gregorian calendar

The months are numbered through the years: the month `i` is in the year `i / 12`, and `i % 12` is 0 for
January. The days are numbered from the first of January 1970, which is the day 0 and a Thursday.

* `monthStart_succ`: a month begins where the one before it ends. With `monthStart_epoch` this says what
  `monthStart` is, the closed form aside.
* `number_ofNumber`, `ofNumber_number`: the dates are numbered by the integers. -/

namespace ChatShow.Lib.Gregorian

/-! ### Years -/

def IsLeap (y : ℤ) : Prop := y % 4 = 0 ∧ y % 100 ≠ 0 ∨ y % 400 = 0

instance : DecidablePred IsLeap := fun y => by unfold IsLeap; infer_instance

/-- The first day of a year. -/
def yearStart (y : ℤ) : ℤ := 365 * (y - 1970) + ((y - 1) / 4 - (y - 1) / 100 + (y - 1) / 400 - 477)

def daysInYear (y : ℤ) : ℤ := if IsLeap y then 366 else 365

theorem yearStart_succ (y : ℤ) : yearStart (y + 1) = yearStart y + daysInYear y := by
  unfold yearStart daysInYear IsLeap
  split_ifs <;> omega

/-! ### Months -/

/-- The days of a month. -/
def daysIn (i : ℤ) : ℤ :=
  if i % 12 = 1 then if IsLeap (i / 12) then 29 else 28
  else if i % 12 = 3 ∨ i % 12 = 5 ∨ i % 12 = 8 ∨ i % 12 = 10 then 30 else 31

theorem daysIn_le (i : ℤ) : daysIn i ≤ 31 := by
  unfold daysIn
  split_ifs <;> omega

theorem le_daysIn (i : ℤ) : 28 ≤ daysIn i := by
  unfold daysIn
  split_ifs <;> omega

theorem daysIn_january {i : ℤ} (h : i % 12 = 0) : daysIn i = 31 := by
  unfold daysIn
  rw [if_neg (by omega), if_neg (by omega)]

/-- Of two months in a row one has 31 days. -/
theorem daysIn_succ {i : ℤ} (h : daysIn i < 31) : daysIn (i + 1) = 31 := by
  unfold daysIn at h ⊢
  split_ifs at h ⊢ <;> omega

/-- The first month after `i` that has a day `d`. -/
def monthWith (i d : ℤ) : ℤ := if d ≤ daysIn (i + 1) then i + 1 else i + 2

theorem isLeast_monthWith {d : ℤ} (h : d ≤ 31) (i : ℤ) :
    IsLeast {j | i < j ∧ d ≤ daysIn j} (monthWith i d) := by
  unfold monthWith
  split_ifs with hd
  · exact ⟨⟨by omega, hd⟩, fun j hj => hj.1⟩
  · have h2 := daysIn_succ (i := i + 1) (by omega)
    rw [add_assoc, one_add_one_eq_two] at h2
    refine ⟨⟨by omega, by omega⟩, fun j ⟨hij, hdj⟩ => ?_⟩
    have hne : j ≠ i + 1 := fun heq => hd (heq ▸ hdj)
    omega

/-- The days of a year before a month of it. -/
def daysBefore (y m : ℤ) : ℤ :=
  if m ≤ 1 then 31 * m else 59 + (153 * (m - 2) + 2) / 5 + if IsLeap y then 1 else 0

/-- The first day of a month. -/
def monthStart (i : ℤ) : ℤ := yearStart (i / 12) + daysBefore (i / 12) (i % 12)

theorem monthStart_epoch : monthStart (12 * 1970) = 0 := by decide

theorem monthStart_year (y : ℤ) : monthStart (12 * y) = yearStart y := by
  unfold monthStart daysBefore
  rw [Int.mul_ediv_cancel_left _ (by decide), Int.mul_emod_right, if_pos (by decide), mul_zero, add_zero]

theorem monthStart_succ (i : ℤ) : monthStart (i + 1) = monthStart i + daysIn i := by
  rcases (by omega : i % 12 = 11 ∧ (i + 1) % 12 = 0 ∧ (i + 1) / 12 = i / 12 + 1 ∨
    i % 12 < 11 ∧ (i + 1) % 12 = i % 12 + 1 ∧ (i + 1) / 12 = i / 12) with ⟨hm, hm', hy⟩ | ⟨hm, hm', hy⟩
  · unfold monthStart daysBefore daysIn
    rw [hm, hm', hy, yearStart_succ]
    unfold daysInYear
    simp only [Int.reduceEq, Int.reduceLE, Int.reduceSub, Int.reduceMul, Int.reduceAdd, Int.reduceDiv,
      if_true, if_false, or_self]
    split_ifs <;> omega
  · unfold monthStart daysBefore daysIn
    rw [hm', hy]
    have h0 := Int.emod_nonneg i (by decide : (12 : ℤ) ≠ 0)
    generalize i / 12 = y
    generalize i % 12 = m at hm h0 ⊢
    -- the days before a month are a closed form, so each month is looked at on its own
    interval_cases m <;> simp <;> split_ifs <;> omega

theorem monthStart_lt_monthStart {i j : ℤ} (h : i < j) : monthStart i < monthStart j := by
  have hmono : StrictMono monthStart := strictMono_int_of_lt_succ fun i => by
    have := le_daysIn i
    have := monthStart_succ i
    show monthStart i < monthStart (i + 1)
    omega
  exact hmono h

theorem monthStart_le_monthStart {i j : ℤ} (h : i ≤ j) : monthStart i ≤ monthStart j := by
  rcases Int.lt_or_eq_of_le h with hlt | rfl
  · exact Int.le_of_lt (monthStart_lt_monthStart hlt)
  · exact Int.le_refl _

theorem monthStart_add_le {i j : ℤ} (h : i < j) : monthStart i + daysIn i ≤ monthStart j := by
  rw [← monthStart_succ]
  exact monthStart_le_monthStart h

/-! ### Dates -/

@[ext]
structure Date where
  month : ℤ
  day : ℤ
  one_le_day : 1 ≤ day
  day_le : day ≤ daysIn month
deriving DecidableEq

namespace Date

def year (d : Date) : ℤ := d.month / 12

/-- The number of the month in its year, from 1 to 12. -/
def mon (d : Date) : ℤ := d.month % 12 + 1

/-- The number of the day. -/
def number (d : Date) : ℤ := monthStart d.month + d.day - 1

theorem monthStart_le_number (d : Date) : monthStart d.month ≤ d.number := by
  have := d.one_le_day
  unfold number
  omega

theorem number_lt (d : Date) : d.number < monthStart d.month + daysIn d.month := by
  have := d.day_le
  unfold number
  omega

/-- A date of an earlier month is earlier. -/
theorem number_lt_number {d d' : Date} (h : d.month < d'.month) : d.number < d'.number := by
  have := d.number_lt
  have := d'.monthStart_le_number
  have := monthStart_add_le h
  omega

theorem number_lt_iff {d d' : Date} :
    d.number < d'.number ↔ d.month < d'.month ∨ d.month = d'.month ∧ d.day < d'.day := by
  constructor
  · intro h
    rcases lt_trichotomy d.month d'.month with hm | hm | hm
    · exact Or.inl hm
    · unfold number at h
      rw [hm] at h
      exact Or.inr ⟨hm, by omega⟩
    · exact absurd (number_lt_number hm) (by omega)
  · rintro (hm | ⟨hm, hd⟩)
    · exact number_lt_number hm
    · unfold number
      rw [hm]
      omega

theorem number_injective : Function.Injective number := by
  intro d d' h
  have hlt := (@number_lt_iff d d').not.mp (by omega)
  have hgt := (@number_lt_iff d' d).not.mp (by omega)
  refine Date.ext ?_ ?_ <;> omega

end Date

/-- The year of a day. -/
def yearOf (n : ℤ) : ℤ :=
  let y := 400 * n / 146097 + 1970
  if n < yearStart y then y - 1 else if yearStart (y + 1) ≤ n then y + 1 else y

theorem yearOf_spec (n : ℤ) : yearStart (yearOf n) ≤ n ∧ n < yearStart (yearOf n + 1) := by
  unfold yearOf
  dsimp only
  split_ifs with hlt hle
  · rw [sub_add_cancel]
    refine ⟨?_, hlt⟩
    unfold yearStart
    omega
  · refine ⟨hle, ?_⟩
    unfold yearStart
    omega
  · exact ⟨by omega, by omega⟩

/-- The month of a day: 31 days are a month or more. -/
def monthOf (n : ℤ) : ℤ :=
  let i := 12 * yearOf n + (n - yearStart (yearOf n)) / 31
  if monthStart (i + 1) ≤ n then i + 1 else i

theorem monthOf_spec (n : ℤ) : monthStart (monthOf n) ≤ n ∧ n < monthStart (monthOf n + 1) := by
  obtain ⟨hle, hlt⟩ := yearOf_spec n
  rw [yearStart_succ] at hlt
  unfold monthOf
  dsimp only
  generalize yearOf n = y at hle hlt ⊢
  generalize hk : (n - yearStart y) / 31 = k
  have h0 : 0 ≤ k := by omega
  have h11 : k ≤ 11 := by
    unfold daysInYear at hlt
    split_ifs at hlt <;> omega
  have hlow : monthStart (12 * y + k) ≤ n := by
    unfold monthStart daysBefore
    rw [show (12 * y + k) / 12 = y by omega, show (12 * y + k) % 12 = k by omega]
    split_ifs <;> omega
  have hhigh : n < monthStart (12 * y + k + 1 + 1) := by
    rcases le_or_gt k 9 with hk9 | hk9
    · unfold monthStart daysBefore
      rw [show (12 * y + k + 1 + 1) / 12 = y by omega,
        show (12 * y + k + 1 + 1) % 12 = k + 1 + 1 by omega, if_neg (by omega)]
      split_ifs <;> omega
    · have hmono : monthStart (12 * (y + 1)) ≤ monthStart (12 * y + k + 1 + 1) :=
        monthStart_le_monthStart (by omega)
      rw [monthStart_year, yearStart_succ] at hmono
      omega
  split_ifs with hnext
  · exact ⟨hnext, hhigh⟩
  · exact ⟨hlow, by omega⟩

/-- The date of a day. -/
def ofNumber (n : ℤ) : Date where
  month := monthOf n
  day := n - monthStart (monthOf n) + 1
  one_le_day := by
    have := (monthOf_spec n).1
    omega
  day_le := by
    have := (monthOf_spec n).2
    rw [monthStart_succ] at this
    omega

theorem number_ofNumber (n : ℤ) : (ofNumber n).number = n := by
  unfold Date.number ofNumber
  dsimp only
  omega

theorem ofNumber_number (d : Date) : ofNumber d.number = d :=
  Date.number_injective (number_ofNumber _)

/-! ### Weeks -/

/-- The number of the week, which begins on a Monday. -/
def week (n : ℤ) : ℤ := (n + 3) / 7

/-- The day of the week: 1 is a Monday, 7 is a Sunday. -/
def weekday (n : ℤ) : ℤ := (n + 3) % 7 + 1

end ChatShow.Lib.Gregorian
