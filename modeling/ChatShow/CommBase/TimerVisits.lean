import ChatShow.CommBase.TimerWheel
import Mathlib.Algebra.Order.Group.Abs
import Mathlib.Algebra.Order.Ring.Int
import Mathlib.Tactic.Ring

/-! # The visits of a timer

Where ticks are `SLOT_CHANGE_TIME` apart, a slot is visited once in a round of the wheel, and
`nextVisit` is when. A timer that is `Pending` is called in the visit in which its rounds are through,
which is near its due point: a visit before that one leaves it pending (`Pending.visit`), that one calls
it (`Pending.near_of_due`), and a timer that is attached is pending, at first (`pending_begin`) and again
(`pending_again`). -/

namespace ChatShow.CommBase.TimerVisits

open ChatShow.CommBase.TimerWheel

/-- The time of a round of the wheel. -/
def wheelTime : ℤ := SLOT_CHANGE_TIME * SLOT_COUNT

/-- The slot after `c`. -/
def nextSlot (c : ℕ) : ℕ := if c + 1 ≥ SLOT_COUNT then 0 else c + 1

/-- When the slot `c` is visited, where the tick at `time` is that of the slot `currSlot`. -/
def nextVisit (time : ℤ) (currSlot c : ℕ) : ℤ :=
  time + SLOT_CHANGE_TIME * ((c + SLOT_COUNT - currSlot) % SLOT_COUNT : ℕ)

/-- The visit in which a timer is called, where its next is at `τ`. -/
def callAt (t : Timer) (τ : ℤ) : ℤ := τ + (t.round.toInt - 1) * wheelTime

/-- The time is within a slot of the due point. -/
def Near (t : Timer) (τ : ℤ) : Prop := |τ - t.bePoint.toInt| ≤ SLOT_CHANGE_TIME

/-- The timer has rounds left, is called near its due point, and was first visited some rounds before
its next visit at `τ`. -/
structure Pending (t : Timer) (τ : ℤ) : Prop where
  round : 0 < t.round.toInt
  near : Near t (callAt t τ)
  visited : t.tickPoint.toInt ≤ 0 ∨ t.tickPoint.toInt ≤ τ ∧ wheelTime ∣ τ - t.tickPoint.toInt

/-- What a visit leaves of a timer that is neither called nor moved. -/
def visit (t : Timer) (tick : Int64) : Timer :=
  if t.tickPoint ≤ 0 then t.firstVisit tick else t.nextRound

section

variable {t : Timer} {tick : Int64} {time τ : ℤ} {currSlot c : ℕ}

/-! ### When slots are visited -/

theorem nextVisit_self (time : ℤ) (c : ℕ) : nextVisit time c c = time := by
  unfold nextVisit
  rw [Nat.add_sub_cancel_left, Nat.mod_self]
  simp

theorem nextVisit_next (time : ℤ) (hcurr : currSlot < SLOT_COUNT) (hc : c < SLOT_COUNT)
    (hne : c ≠ currSlot) :
    nextVisit (time + SLOT_CHANGE_TIME) (nextSlot currSlot) c = nextVisit time currSlot c := by
  unfold nextVisit nextSlot
  unfold SLOT_COUNT at *
  unfold SLOT_CHANGE_TIME
  split_ifs <;> omega

/-- A slot that has been visited is visited again after a round. -/
theorem nextVisit_nextSlot (time : ℤ) (hc : c < SLOT_COUNT) :
    nextVisit (time + SLOT_CHANGE_TIME) (nextSlot c) c = time + wheelTime := by
  unfold nextVisit nextSlot wheelTime
  unfold SLOT_COUNT at *
  unfold SLOT_CHANGE_TIME
  split_ifs <;> omega

theorem nextVisit_slotNum {w : Wheel} (time : ℤ) (hcurr : w.currSlot < SLOT_COUNT) (ticks : UInt32) :
    nextVisit time w.currSlot (w.slotNum ticks) =
      time + SLOT_CHANGE_TIME * (ticks.toNat % SLOT_COUNT : ℕ) := by
  unfold nextVisit Wheel.slotNum
  unfold SLOT_COUNT at *
  unfold SLOT_CHANGE_TIME
  omega

theorem le_nextVisit (time : ℤ) (currSlot c : ℕ) : time ≤ nextVisit time currSlot c := by
  unfold nextVisit SLOT_CHANGE_TIME
  omega

/-! ### Visits -/

theorem Pending.le_callAt (h : Pending t τ) : τ ≤ callAt t τ := by
  have hround := h.round
  unfold callAt wheelTime SLOT_CHANGE_TIME SLOT_COUNT
  omega

/-- The last round. -/
theorem callAt_of_round (h : t.round.toInt = 1) : callAt t τ = τ := by
  unfold callAt
  rw [h]
  simp

theorem Pending.toInt_sub (h : Pending t tick.toInt) :
    (tick - t.bePoint).toInt = tick.toInt - t.bePoint.toInt := by
  have hnear := abs_le.mp h.near
  have hround := h.round
  have hle : t.round.toInt < 2 ^ 31 := t.round.toInt_lt
  unfold callAt wheelTime SLOT_CHANGE_TIME SLOT_COUNT at hnear
  rw [Int64.toInt_sub]
  exact Int.bmod_eq_of_le (by omega) (by omega)

theorem Pending.toInt_round (h : Pending t τ) : (t.round - 1).toInt = t.round.toInt - 1 := by
  have hround := h.round
  have hle : t.round.toInt < 2 ^ 31 := t.round.toInt_lt
  rw [Int32.toInt_sub]
  exact Int.bmod_eq_of_le (by rw [Int32.toInt_one]; omega) (by rw [Int32.toInt_one]; omega)

/-- **A timer is called near its due point.** -/
theorem Pending.near_of_due (h : Pending t tick.toInt) (hdue : (t.onTickEx tick).1 = true) :
    Near t tick.toInt := by
  have hnear := h.near
  have hround := h.round
  suffices hone : t.round.toInt = 1 by rwa [callAt_of_round hone] at hnear
  unfold Timer.onTickEx at hdue
  split_ifs at hdue with hle
  · -- one more round would be too late for the due point that has come
    have hpos : 0 ≤ (tick - t.bePoint).toInt := Int64.le_iff_toInt_le.mp hle
    rw [h.toInt_sub] at hpos
    have hhigh := (abs_le.mp hnear).2
    unfold callAt wheelTime SLOT_CHANGE_TIME SLOT_COUNT at hhigh
    omega
  · have hzero : (t.round - 1).toInt ≤ 0 := Int32.le_iff_toInt_le.mp (of_decide_eq_true hdue)
    rw [h.toInt_round] at hzero
    omega

@[simp] theorem bePoint_visit (t : Timer) (tick : Int64) :
    (visit (t.onTickEx tick).2 tick).bePoint = t.bePoint := by
  unfold visit Timer.onTickEx
  split_ifs <;> rfl

@[simp] theorem interval_visit (t : Timer) (tick : Int64) :
    (visit (t.onTickEx tick).2 tick).interval = t.interval := by
  unfold visit Timer.onTickEx
  split_ifs <;> rfl

@[simp] theorem id_visit (t : Timer) (tick : Int64) :
    (visit (t.onTickEx tick).2 tick).id = t.id := by
  unfold visit Timer.onTickEx
  split_ifs <;> rfl

/-- A timer that is not called has a round less, and another to go. -/
theorem Pending.onTickEx (h : Pending t tick.toInt) (hdue : (t.onTickEx tick).1 = false) :
    (t.onTickEx tick).2 = { t with round := t.round - 1 } ∧ 1 < t.round.toInt := by
  unfold Timer.onTickEx at hdue ⊢
  split_ifs at hdue with hle
  rw [if_neg hle]
  refine ⟨rfl, ?_⟩
  have hzero : ¬ (t.round - 1).toInt ≤ 0 := fun hz =>
    of_decide_eq_false hdue (Int32.le_iff_toInt_le.mpr hz)
  rw [h.toInt_round] at hzero
  omega

/-- Timers are not late. -/
theorem Pending.not_isLate (h : Pending t tick.toInt) (hpoint : ¬ t.tickPoint ≤ 0) :
    t.isLate tick = false := by
  have hpos : ¬ t.tickPoint.toInt ≤ 0 := fun hle => hpoint (Int64.le_iff_toInt_le.mpr hle)
  obtain ⟨hle, hdvd⟩ := h.visited.resolve_left hpos
  have hlt : tick.toInt < 2 ^ 63 := tick.toInt_lt
  have hsub : (tick - t.tickPoint).toInt = tick.toInt - t.tickPoint.toInt := by
    rw [Int64.toInt_sub]
    exact Int.bmod_eq_of_le (by omega) (by omega)
  have hlate : (t.late tick).toInt = 0 := by
    unfold Timer.late
    rw [Int64.toInt_mod, hsub]
    exact Int.tmod_eq_zero_of_dvd hdvd
  refine decide_eq_false fun hh => ?_
  have hge : (100 : ℤ) ≤ (t.late tick).toInt := Int64.le_iff_toInt_le.mp hh.2
  omega

/-- **A timer that is not called is pending for the visit a round later.** -/
theorem Pending.visit (h : Pending t tick.toInt) (hdue : (t.onTickEx tick).1 = false) :
    Pending (visit (t.onTickEx tick).2 tick) (tick.toInt + wheelTime) := by
  obtain ⟨heq, hround⟩ := h.onTickEx hdue
  have hleft := h.toInt_round
  have hcall : callAt { t with round := t.round - 1 } (tick.toInt + wheelTime) =
      callAt t tick.toInt := by
    unfold callAt
    rw [hleft]
    ring
  have hnear := h.near
  rw [← hcall] at hnear
  rw [heq]
  unfold TimerVisits.visit
  split_ifs with hpoint
  · refine ⟨hleft ▸ Int.sub_pos.mpr hround, hnear, Or.inr ⟨?_, ?_⟩⟩
    · change tick.toInt ≤ tick.toInt + wheelTime
      exact Int.le_add_of_nonneg_right (by decide)
    · change wheelTime ∣ tick.toInt + wheelTime - tick.toInt
      rw [add_sub_cancel_left]
  · have hpos : ¬ t.tickPoint.toInt ≤ 0 := fun hle => hpoint (Int64.le_iff_toInt_le.mpr hle)
    obtain ⟨hle, hdvd⟩ := h.visited.resolve_left hpos
    refine ⟨hleft ▸ Int.sub_pos.mpr hround, hnear, Or.inr ⟨?_, ?_⟩⟩
    · exact hle.trans (Int.le_add_of_nonneg_right (by decide))
    · change wheelTime ∣ tick.toInt + wheelTime - t.tickPoint.toInt
      rw [add_sub_right_comm]
      exact Int.dvd_add hdvd (Int.dvd_refl _)

/-! ### Timers that are attached -/

/-- What is asked of a timer for several calls: its interval is that of a slot at least, and so many
slots are counted in a `DWORD`. -/
structure Regular (t : Timer) : Prop where
  le : SLOT_CHANGE_TIME ≤ t.interval.toInt
  lt : t.interval.toInt / SLOT_CHANGE_TIME + 1 < 2 ^ 32

theorem toInt_rounds (ticks : UInt32) :
    (ticks / UInt32.ofNat SLOT_COUNT + 1).toInt32.toInt = ticks.toNat / SLOT_COUNT + 1 := by
  have hlt : ticks.toNat < 2 ^ 32 := ticks.toNat_lt
  have hnat : (ticks / UInt32.ofNat SLOT_COUNT + 1).toNat = ticks.toNat / SLOT_COUNT + 1 := by
    rw [UInt32.toNat_add, UInt32.toNat_div]
    change (ticks.toNat / 3000 + 1) % 2 ^ 32 = ticks.toNat / 3000 + 1
    exact Nat.mod_eq_of_lt (by omega)
  refine (BitVec.toInt_eq_toNat_bmod _).trans ?_
  change Int.bmod ((ticks / UInt32.ofNat SLOT_COUNT + 1).toNat : ℤ) (2 ^ 32) = _
  rw [hnat]
  unfold SLOT_COUNT
  exact Int.bmod_eq_of_le (by omega) (by omega)

/-- A timer is called so many ticks after the next. -/
theorem callAt_of_ticks {ticks : UInt32}
    (hround : t.round = (ticks / UInt32.ofNat SLOT_COUNT + 1).toInt32) (time : ℤ) :
    callAt t (time + SLOT_CHANGE_TIME * (ticks.toNat % SLOT_COUNT : ℕ)) =
      time + SLOT_CHANGE_TIME * ticks.toNat := by
  unfold callAt wheelTime
  rw [hround, toInt_rounds]
  unfold SLOT_CHANGE_TIME SLOT_COUNT
  omega

theorem pending_of_ticks {ticks : UInt32}
    (hround : t.round = (ticks / UInt32.ofNat SLOT_COUNT + 1).toInt32) (hpoint : t.tickPoint = 0)
    (hnear : Near t (time + SLOT_CHANGE_TIME * ticks.toNat)) :
    Pending t (time + SLOT_CHANGE_TIME * (ticks.toNat % SLOT_COUNT : ℕ)) where
  round := by
    rw [hround, toInt_rounds]
    unfold SLOT_COUNT
    omega
  near := by rwa [callAt_of_ticks hround]
  visited := Or.inl (by rw [hpoint]; rfl)

/-- **A timer that is attached between two ticks is pending**, where `time` is that of the second one. -/
theorem pending_begin (id : UInt32) (hpoint : t.tickPoint = 0)
    (hlow : time - SLOT_CHANGE_TIME ≤ t.bePoint.toInt - t.start.toNat)
    (hhigh : t.bePoint.toInt - t.start.toNat ≤ time) :
    Pending (t.begin id t.start)
      (time + SLOT_CHANGE_TIME * ((t.begin id t.start).ticks.toNat % SLOT_COUNT : ℕ)) := by
  refine pending_of_ticks rfl hpoint (abs_le.mpr ?_)
  have hticks : (t.begin id t.start).ticks.toNat = t.start.toNat / SLOT_CHANGE_TIME :=
    UInt32.toNat_div ..
  change _ ≤ _ - t.bePoint.toInt ∧ _ - t.bePoint.toInt ≤ _
  rw [hticks]
  unfold SLOT_CHANGE_TIME at *
  omega

/-- The time that is left to the next due point of a timer that has been called. -/
theorem toInt_left (h : Near t tick.toInt) (hreg : Regular t) :
    (t.interval - tick + t.bePoint).toInt = t.interval.toInt - tick.toInt + t.bePoint.toInt := by
  have hnear := abs_le.mp h
  obtain ⟨hle, hlt⟩ := hreg
  unfold SLOT_CHANGE_TIME at *
  rw [Int64.toInt_add, Int64.toInt_sub, Int.bmod_add_bmod]
  exact Int.bmod_eq_of_le (by omega) (by omega)

theorem toNat_ticks_again (h : Near t tick.toInt) (htype : t.type ≠ .monthLoopTimer) (hreg : Regular t)
    (next : Int64) : ((t.again tick next).ticks.toNat : ℤ) =
      (t.interval.toInt - tick.toInt + t.bePoint.toInt) / SLOT_CHANGE_TIME := by
  have hleft := toInt_left h hreg
  have hnear := abs_le.mp h
  obtain ⟨hle, hlt⟩ := hreg
  have hpos : ¬ t.interval - tick + t.bePoint < 0 := fun hneg => by
    have hneg' : (t.interval - tick + t.bePoint).toInt < 0 := Int64.lt_iff_toInt_lt.mp hneg
    omega
  have hdiv : ((t.interval - tick + t.bePoint) / Int64.ofNat SLOT_CHANGE_TIME).toInt =
      (t.interval.toInt - tick.toInt + t.bePoint.toInt) / SLOT_CHANGE_TIME := by
    rw [Int64.toInt_div, show (Int64.ofNat SLOT_CHANGE_TIME).toInt = SLOT_CHANGE_TIME by decide, hleft,
      Int.tdiv_eq_ediv_of_nonneg (by omega)]
    unfold SLOT_CHANGE_TIME at *
    exact Int.bmod_eq_of_le (by omega) (by omega)
  unfold Timer.again
  dsimp only
  rw [if_neg htype, if_neg hpos, ← hdiv]
  generalize (t.interval - tick + t.bePoint) / Int64.ofNat SLOT_CHANGE_TIME = x at hdiv
  have hx : 0 ≤ x.toInt ∧ x.toInt < 2 ^ 32 := by
    rw [hdiv]
    unfold SLOT_CHANGE_TIME at *
    omega
  rw [UInt64.toNat_toUInt32, Int64.toNat_toUInt64_of_le (Int64.le_iff_toInt_le.mpr hx.1)]
  change ((x.toInt.toNat % 2 ^ 32 : ℕ) : ℤ) = x.toInt
  omega

/-- **A timer that has been called is pending again**, for a due point an interval later: where it is
called does not depend on when the calls before were. -/
theorem pending_again (h : Near t tick.toInt) (htype : t.type ≠ .monthLoopTimer) (hreg : Regular t)
    (htick : tick.toInt < 2 ^ 62) (next : Int64) :
    (t.again tick next).bePoint.toInt = t.bePoint.toInt + t.interval.toInt ∧
      Pending (t.again tick next) (tick.toInt + SLOT_CHANGE_TIME +
        SLOT_CHANGE_TIME * ((t.again tick next).ticks.toNat % SLOT_COUNT : ℕ)) := by
  have hticks := toNat_ticks_again h htype hreg next
  have hnear := abs_le.mp h
  obtain ⟨hle, hlt⟩ := hreg
  have hbe : (t.again tick next).bePoint.toInt = t.bePoint.toInt + t.interval.toInt := by
    unfold Timer.again
    dsimp only
    rw [if_neg htype, Int64.toInt_add]
    have hge : -2 ^ 63 ≤ t.bePoint.toInt := t.bePoint.le_toInt
    unfold SLOT_CHANGE_TIME at *
    exact Int.bmod_eq_of_le (by omega) (by omega)
  refine ⟨hbe, pending_of_ticks rfl rfl (abs_le.mpr ?_)⟩
  rw [hbe, hticks]
  unfold SLOT_CHANGE_TIME at *
  omega

end

end ChatShow.CommBase.TimerVisits
