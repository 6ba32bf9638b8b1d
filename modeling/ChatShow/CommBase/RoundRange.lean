import ChatShow.CommBase.SingleTimerRounds
import ChatShow.CommBase.TimerAccuracy
import ChatShow.CommBase.TimerInterface
import ChatShow.CommBase.TimerMgrRounds

/-! # The range of the rounds

In both managers, what is computed from the rounds of a timer is in range in all runs in which timers are
attached for less than `maxDistance`, almost 25 days (`rounds_in_range`). `SetDistanceTime` takes more
than that, and months are longer: a timer that is due in `maxDistance` is visited with 7159 rounds, whose
time is not an `int` (`not_rounds_in_range`). -/

namespace ChatShow.CommBase.RoundRange

open ChatShow.CommBase.TimerWheel ChatShow.CommBase.TimerMgr
open ChatShow.CommBase.SingleTimerMgr (SingleTimerManager)
open ChatShow.CommBase.TimerVisits ChatShow.CommBase.TimerClock ChatShow.CommBase.TimerTurns
open ChatShow.CommBase.TimerAccuracy ChatShow.CommBase.TimerInterface ChatShow.CommBase.RoundCount
open ChatShow.CommBase.LocalTime
open ChatShow.Lib.Runs

/-- **The rounds are in range** in every step of such runs, whenever the ticks come. -/
theorem rounds_in_range (l : List Label) (l' : List SingleTimerMgr.Label)
    (h : Along TimerManager.step TimerMgrRounds.Ok {} l)
    (h' : Along SingleTimerManager.step SingleTimerRounds.Ok {} l') :
    Along TimerManager.step TimerMgrRounds.Safe {} l ∧
      Along SingleTimerManager.step SingleTimerRounds.Safe {} l' :=
  ⟨h.imp TimerMgrRounds.good_step (fun _ a hgood _ => TimerMgrRounds.safe_of_good hgood a)
      TimerMgrRounds.good_start,
    h'.imp SingleTimerRounds.good_step (fun _ _ hgood hok => SingleTimerRounds.safe_of_good hgood hok)
      SingleTimerRounds.good_start⟩

/-- A timer that is as long as it may be, and its first visit. -/
def longest : List Label :=
  [.newTimer .onceTimer 0 2147999999 2147999999, .addTimer 0, .onTick 100, .endTick fun _ => 0,
    .onTick 200, .endTick fun _ => 0]

theorem rounds_in_range_longest : Along TimerManager.step TimerMgrRounds.Safe {} longest ∧
    Along SingleTimerManager.step SingleTimerRounds.Safe {}
      [.newTimer .loopTimer 100 2148000099 2148000099, .addTimer 0, .onTick 100, .tick 100] :=
  rounds_in_range longest _ (by decide +kernel) (by decide +kernel)

/-! ### A timer that is due later -/

/-- A timer is attached that is due in `maxDistance`. -/
def attachLong : List Label := [.newTimer .onceTimer 0 2148000000 1516912800000, .addTimer 0]

/-- The only timer, of which so many rounds have passed. -/
structure Counting (n : ℕ) (s : Clocked) : Prop where
  batch : s.mgr.batch = none
  curr : s.mgr.wheel.currSlot = 0
  time : s.time = 1514764800100 + n * 300000
  slot : s.mgr.wheel.slots 0 = onlyFirst
  empty : ∀ c, 0 < c → s.mgr.wheel.slots c = ∅
  delflag : (s.mgr.wheel.timer 0).delflag = false
  pending : Pending (s.mgr.wheel.timer 0) s.time
  round : (s.mgr.wheel.timer 0).round.toInt = 7161 - n
  elapseRound : (s.mgr.wheel.timer 0).elapseRound.toNat = n
  tickPoint : 0 < n → 0 < (s.mgr.wheel.timer 0).tickPoint

section

variable {s s' : Clocked} {n : ℕ} {t : Timer} {tick : Int64}

theorem run_mgr {l : List Label} (h : run Clocked.step s l = some s') :
    run TimerManager.step s.mgr l = some s'.mgr := by
  induction l generalizing s with
  | nil =>
    cases h
    rfl
  | cons a l ih =>
    obtain ⟨s₁, h₁, h₂⟩ := run_cons_some.mp h
    obtain ⟨-, m, hm, rfl⟩ := of_step h₁
    exact run_cons_eq hm (mgr_after s m a ▸ ih h₂)

/-- A timer with another round to go is not due. -/
theorem not_due (h : Pending t tick.toInt) (hround : 1 < t.round.toInt) :
    (t.onTickEx tick).1 = false := by
  by_contra hdue
  have hnear := h.near_of_due (Bool.eq_true_of_not_eq_false hdue)
  have hcall := abs_le.mp h.near
  have hlow := abs_le.mp hnear
  unfold callAt wheelTime SLOT_CHANGE_TIME SLOT_COUNT at hcall
  unfold SLOT_CHANGE_TIME at hlow
  omega

theorem toInt_ofInt {x : ℤ} (hpos : 0 ≤ x) (hlt : x < 2 ^ 62) : (Int64.ofInt x).toInt = x := by
  exact Int64.toInt_ofInt_of_le (by omega) (by omega)

/-- The ticks of slots that are empty. -/
theorem run_empty (hb : s.mgr.batch = none) (hcurr : s.mgr.wheel.currSlot < SLOT_COUNT) (hpos : 0 ≤ s.time)
    (m : ℕ) (hm : s.mgr.wheel.currSlot + m ≤ SLOT_COUNT) (htime : s.time + 100 * m < 2 ^ 62)
    (hempty : ∀ c, s.mgr.wheel.currSlot ≤ c → s.mgr.wheel.slots c = ∅) :
    ∃ l s', run Clocked.step s l = some s' ∧ s'.mgr.batch = none ∧ s'.time = s.time + 100 * m ∧
      s'.mgr.wheel.currSlot = (s.mgr.wheel.currSlot + m) % SLOT_COUNT ∧
      s'.mgr.wheel.slots = s.mgr.wheel.slots ∧ s'.mgr.wheel.timer = s.mgr.wheel.timer := by
  induction m with
  | zero => exact ⟨[], s, rfl, hb, by simp, (Nat.mod_eq_of_lt hcurr).symm, rfl, rfl⟩
  | succ m ih =>
    obtain ⟨l, s₁, hrun, hb₁, htime₁, hcurr₁, hslots₁, htimer₁⟩ := ih (by omega) (by omega)
    rw [Nat.mod_eq_of_lt (by omega)] at hcurr₁
    have hslot : s₁.mgr.wheel.slots s₁.mgr.wheel.currSlot = ∅ := by
      rw [hslots₁, hcurr₁]
      exact hempty _ (Nat.le_add_right ..)
    have hlt : s₁.time < 2 ^ 62 := by omega
    obtain ⟨s₂, hrun₂, hp, htimer, hslots⟩ :=
      tick_empty hb₁ hslot (toInt_ofInt (by omega) hlt) hlt fun _ => 0
    refine ⟨_, s₂, run_append_some.mpr ⟨s₁, hrun, hrun₂⟩, hp.batch, ?_, ?_, hslots.trans hslots₁,
      htimer.trans htimer₁⟩
    · rw [hp.time, htime₁]
      unfold SLOT_CHANGE_TIME
      push_cast
      ring
    · rw [hp.curr, hcurr₁]
      unfold nextSlot SLOT_COUNT at *
      split_ifs <;> omega

/-- The tick that visits the only timer, which is not due. -/
theorem tick_waiting {tick : Int64} (hb : s.mgr.batch = none)
    (hslot : s.mgr.wheel.slots s.mgr.wheel.currSlot = onlyFirst)
    (hdel : (s.mgr.wheel.timer 0).delflag = false) (htick : tick.toInt = s.time) (hlt : s.time < 2 ^ 62)
    (hpending : Pending (s.mgr.wheel.timer 0) tick.toInt)
    (hdue : ((s.mgr.wheel.timer 0).onTickEx tick).1 = false) :
    ∃ s₁ s', s.step (.onTick tick) = some s₁ ∧
      s₁.mgr.batch = some { slot := s.mgr.wheel.currSlot, tick := tick, rest := [0] } ∧
      s₁.mgr.wheel.timer = s.mgr.wheel.timer ∧
      run Clocked.step s₁ [.turn, .endTick fun _ => 0] = some s' ∧ s'.mgr.batch = none ∧
      s'.time = s.time + SLOT_CHANGE_TIME ∧ s'.mgr.wheel.currSlot = nextSlot s.mgr.wheel.currSlot ∧
      s'.mgr.wheel.slots = s.mgr.wheel.slots ∧
      s'.mgr.wheel.timer 0 = visit ((s.mgr.wheel.timer 0).onTickEx tick).2 tick := by
  have hcollect : TimerManager.collect s.mgr.wheel.advance.2 s.mgr.wheel.currSlot =
      ([0], s.mgr.wheel.advance.2) := collect_of_first hslot hdel
  let b : Batch := { slot := s.mgr.wheel.currSlot, tick := tick, rest := [0] }
  let t := visit ((s.mgr.wheel.timer 0).onTickEx tick).2 tick
  have hturn : TimerManager.turn s.mgr.wheel.advance.2 b 0 [] =
      { wheel := s.mgr.wheel.advance.2.setTimer 0 t, batch := some { b with rest := [] } } := by
    refine (turn_of_pending (w := s.mgr.wheel.advance.2) (b := b) hpending []).trans ?_
    exact if_neg (Bool.eq_false_iff.mp hdue)
  have honTick : s.mgr.onTick tick = { wheel := s.mgr.wheel.advance.2, batch := some b } := by
    rw [onTick_eq, hcollect]
  refine ⟨{ s with mgr := { wheel := s.mgr.wheel.advance.2, batch := some b }
                   time := s.time + SLOT_CHANGE_TIME },
    { s with mgr := { wheel := (s.mgr.wheel.advance.2.setTimer 0 t).slotErase s.mgr.wheel.currSlot [] }
             time := s.time + SLOT_CHANGE_TIME },
    (step_onTick hb htick hlt).trans (by rw [honTick]), rfl, rfl, ?_, rfl, rfl, rfl, ?_, ?_⟩
  · refine run_cons_eq (step_eq trivial (congrArg some hturn)) ?_
    exact run_cons_eq (step_eq trivial rfl) rfl
  · rw [Wheel.slotErase_nil]
    rfl
  · rw [Wheel.slotErase_nil]
    exact Wheel.setTimer_self ..

/-- What a visit leaves of a timer that is not due: a round less, and one more that has passed. -/
theorem round_visit (h : Pending t tick.toInt) (hdue : (t.onTickEx tick).1 = false) :
    (visit (t.onTickEx tick).2 tick).round.toInt = t.round.toInt - 1 := by
  have hleft := h.toInt_round
  rw [(h.onTickEx hdue).1]
  unfold visit
  split_ifs <;> exact hleft

theorem elapseRound_visit (h : Pending t tick.toInt) (hdue : (t.onTickEx tick).1 = false)
    (helapse : t.elapseRound.toNat = n) (hn : n < 7159) (hpoint : 0 < n → 0 < t.tickPoint) :
    (visit (t.onTickEx tick).2 tick).elapseRound.toNat = n + 1 := by
  rw [(h.onTickEx hdue).1]
  unfold visit
  split_ifs with hle
  · have hzero : n = 0 := by
      by_contra hne
      exact Int64.not_le.mpr (hpoint (Nat.pos_of_ne_zero hne)) hle
    rw [hzero]
    rfl
  · change (t.elapseRound + 1).toNat = n + 1
    rw [UInt16.toNat_add, helapse]
    exact Nat.mod_eq_of_lt (show n + 1 < 2 ^ 16 by omega)

theorem tickPoint_visit (h : Pending t tick.toInt) (hdue : (t.onTickEx tick).1 = false)
    (htick : 0 < tick) : 0 < (visit (t.onTickEx tick).2 tick).tickPoint := by
  rw [(h.onTickEx hdue).1]
  unfold visit
  split_ifs with hle
  · exact htick
  · exact Int64.not_le.mp hle

theorem delflag_visit (t : Timer) (tick : Int64) :
    (visit (t.onTickEx tick).2 tick).delflag = t.delflag := by
  have hsame := Timer.same_onTickEx t tick
  unfold visit
  split_ifs <;> exact hsame.delflag

/-- The ticks of a round: the first visits the only timer, and the slots of the others are empty. -/
theorem run_round (h : Counting n s) (htick : tick.toInt = s.time) (hlt : s.time + wheelTime < 2 ^ 62)
    (hdue : ((s.mgr.wheel.timer 0).onTickEx tick).1 = false) :
    ∃ l s', run Clocked.step s l = some s' ∧ s'.mgr.batch = none ∧ s'.time = s.time + wheelTime ∧
      s'.mgr.wheel.currSlot = 0 ∧ s'.mgr.wheel.slots = s.mgr.wheel.slots ∧
      s'.mgr.wheel.timer 0 = visit ((s.mgr.wheel.timer 0).onTickEx tick).2 tick := by
  have htime := h.time
  unfold wheelTime SLOT_CHANGE_TIME SLOT_COUNT at *
  have hpending := h.pending
  rw [← htick] at hpending
  obtain ⟨s₀, s₁, hrun₀, -, -, hrun₁, hb₁, htime₁, hcurr₁, hslots₁, htimer₁⟩ :=
    tick_waiting h.batch (h.curr ▸ h.slot) h.delflag htick (by omega) hpending hdue
  unfold SLOT_CHANGE_TIME at htime₁
  have hone : s₁.mgr.wheel.currSlot = 1 := by
    rw [hcurr₁, h.curr]
    rfl
  have hempty (c : ℕ) (hc : s₁.mgr.wheel.currSlot ≤ c) : s₁.mgr.wheel.slots c = ∅ := by
    rw [hslots₁]
    rw [hone] at hc
    exact h.empty c hc
  obtain ⟨l, s₂, hrun₂, hb₂, htime₂, hcurr₂, hslots₂, htimer₂⟩ :=
    run_empty hb₁ (hone ▸ by decide) (by omega) 2999 (hone ▸ by decide) (by omega) hempty
  refine ⟨_, s₂, run_cons_some.mpr ⟨s₀, hrun₀, run_append_some.mpr ⟨s₁, hrun₁, hrun₂⟩⟩, hb₂, by omega, ?_,
    hslots₂.trans hslots₁, (congrFun htimer₂ 0).trans htimer₁⟩
  rw [hcurr₂, hone]
  rfl

/-- **A round passes.** -/
theorem counting_succ (h : Counting n s) (hn : n < 7159) :
    ∃ l s', run Clocked.step s l = some s' ∧ Counting (n + 1) s' := by
  have htime := h.time
  have hround := h.round
  obtain ⟨tick, htick⟩ : ∃ tick : Int64, tick.toInt = s.time :=
    ⟨_, toInt_ofInt (by omega) (by omega)⟩
  have hpending := h.pending
  rw [← htick] at hpending
  have hdue := not_due hpending (by omega)
  have hlt : s.time + wheelTime < 2 ^ 62 := by
    unfold wheelTime SLOT_CHANGE_TIME SLOT_COUNT
    omega
  obtain ⟨l, s', hrun, hb, htime', hcurr, hslots, htimer⟩ := run_round h htick hlt hdue
  refine ⟨l, s', hrun, ?_⟩
  constructor
  case batch => exact hb
  case curr => exact hcurr
  case time =>
    rw [htime', htime]
    unfold wheelTime SLOT_CHANGE_TIME SLOT_COUNT
    push_cast
    ring
  case slot => exact hslots ▸ h.slot
  case empty => exact hslots ▸ h.empty
  case delflag => rw [htimer, delflag_visit, h.delflag]
  case pending =>
    rw [htimer, htime', ← htick]
    exact hpending.visit hdue
  case round =>
    rw [htimer, round_visit hpending hdue, hround]
    push_cast
    ring
  case elapseRound => exact htimer ▸ elapseRound_visit hpending hdue h.elapseRound hn h.tickPoint
  case tickPoint =>
    refine fun _ => htimer ▸ tickPoint_visit hpending hdue (Int64.lt_iff_toInt_lt.mpr ?_)
    change 0 < tick.toInt
    omega

/-- The timer has just been attached. -/
theorem counting_zero : ∃ s, run Clocked.step { time := 1514764800100 } attachLong = some s ∧
    Counting 0 s := by
  have hrun := @run_attach { time := 1514764800100 } 2148000000 1516912800000 (by decide) (by decide)
    (by decide)
  have hself := Wheel.timer_attached_self {} 2148000000 1516912800000
  have hticks : ((Wheel.once 2148000000 1516912800000).begin 1 2148000000).ticks.toNat % SLOT_COUNT = 0 := by
    decide
  refine ⟨_, hrun, ?_⟩
  constructor
  case batch => rfl
  case curr =>
    change (({} : Wheel).attached 2148000000 1516912800000).currSlot = 0
    rw [Wheel.attached_eq]
    rfl
  case time => rfl
  case slot =>
    change (({} : Wheel).attached 2148000000 1516912800000).slots 0 = onlyFirst
    rw [Wheel.slots_attached]
    rfl
  case empty =>
    intro c hc
    change (({} : Wheel).attached 2148000000 1516912800000).slots c = ∅
    rw [Wheel.slots_attached]
    exact Function.update_of_ne (Nat.ne_of_gt hc) ..
  case delflag => exact congrArg Timer.delflag hself
  case pending =>
    change Pending ((({} : Wheel).attached 2148000000 1516912800000).timer 0) 1514764800100
    have hbegin := @pending_begin (Wheel.once 2148000000 1516912800000) 1514764800100 1 rfl (by decide)
      (by decide)
    rw [show (({} : Wheel).attached 2148000000 1516912800000).timer 0 = _ from hself]
    rw [show (Wheel.once 2148000000 1516912800000).start = 2148000000 from rfl, hticks] at hbegin
    exact hbegin
  case round => exact congrArg (fun t : Timer => t.round.toInt) hself
  case elapseRound => exact congrArg (fun t : Timer => t.elapseRound.toNat) hself
  case tickPoint => exact fun h => absurd h (Nat.lt_irrefl 0)

theorem run_counting (hn : n ≤ 7159) :
    ∃ l s, run Clocked.step { time := 1514764800100 } (attachLong ++ l) = some s ∧ Counting n s := by
  induction n with
  | zero =>
    obtain ⟨s, hs, hc⟩ := counting_zero
    exact ⟨[], s, (List.append_nil attachLong).symm ▸ hs, hc⟩
  | succ n ih =>
    obtain ⟨l, s, hs, hc⟩ := ih (Nat.le_of_succ_le hn)
    obtain ⟨l', s', hs', hc'⟩ := counting_succ hc hn
    refine ⟨l ++ l', s', ?_, hc'⟩
    rw [← List.append_assoc]
    exact run_append_some.mpr ⟨s, hs, hs'⟩

/-- In the next visit the time of the rounds is out of range. -/
theorem not_safe_of_counting (h : Counting 7159 s) :
    ∃ tick s', s.step (.onTick tick) = some s' ∧ ¬ TimerMgrRounds.Safe s'.mgr .turn := by
  have htime := h.time
  have hlt : s.time < 2 ^ 62 := by omega
  obtain ⟨tick, htick⟩ : ∃ tick : Int64, tick.toInt = s.time := ⟨_, toInt_ofInt (by omega) hlt⟩
  have hround := h.round
  have hpending := h.pending
  rw [← htick] at hpending
  have hdue := not_due hpending (by omega)
  obtain ⟨s₀, -, hrun₀, hb₀, htimer₀, -⟩ :=
    tick_waiting h.batch (h.curr ▸ h.slot) h.delflag htick hlt hpending hdue
  refine ⟨tick, s₀, hrun₀, fun hsafe => ?_⟩
  have hfits := hsafe _ hb₀ 0 rfl rfl
  rw [htimer₀] at hfits
  have hlate := hfits.late hdue
  obtain ⟨heq, -⟩ := hpending.onTickEx hdue
  rw [heq] at hlate
  have hproduct := (hlate (h.tickPoint (by decide))).product
  unfold passed at hproduct
  rw [h.elapseRound] at hproduct
  exact absurd hproduct (by decide)

end

/-- `SetDistanceTime` attaches such a timer. -/
theorem setDistanceTime_long : setDistanceTime .timerThreadSafe
    (({} : Wheel).newTimer .onceTimer 0 0 0) 0 { sec := 1514764800 } 596 40 0 0 0 =
      ({} : Wheel).attached 2148000000 1516912800000 := by
  have hset : (({} : Wheel).newTimer .onceTimer 0 0 0).setTimer 0 (Wheel.once 2148000000 1516912800000) =
      ({} : Wheel).newTimer .onceTimer 0 2148000000 1516912800000 := by
    unfold Wheel.newTimer Wheel.setTimer
    dsimp only
    rw [Function.update_idem]
    rfl
  unfold setDistanceTime
  rw [show (({} : Wheel).newTimer .onceTimer 0 0 0).timer 0 = Wheel.once 0 0 from
    Wheel.timer_newTimer_once {} 0 0]
  change addTimer .timerThreadSafe ((({} : Wheel).newTimer .onceTimer 0 0 0).setTimer 0
    (Wheel.once 2148000000 1516912800000)) 0 = _
  rw [hset]
  rfl

/-- **The rounds are out of range** of a timer for 596 hours and 40 minutes, with ticks at their times:
in its last visit but one it is visited with 7159 rounds. -/
theorem not_rounds_in_range :
    setDistanceTime .timerThreadSafe (({} : Wheel).newTimer .onceTimer 0 0 0) 0 { sec := 1514764800 }
      596 40 0 0 0 = ({} : Wheel).attached 2148000000 1516912800000 ∧
    ∃ l s, run Clocked.step { time := 1514764800100 } (attachLong ++ l) = some s ∧
      ¬ Along TimerManager.step TimerMgrRounds.Safe {} (attachLong ++ l ++ [.turn]) := by
  constructor
  · exact setDistanceTime_long
  · obtain ⟨l, s, hs, hc⟩ := run_counting (Nat.le_refl 7159)
    obtain ⟨tick, s', hs', hno⟩ := not_safe_of_counting hc
    have hrun : run Clocked.step { time := 1514764800100 } (attachLong ++ (l ++ [.onTick tick])) =
        some s' := by
      rw [← List.append_assoc]
      exact run_append_some.mpr ⟨s, hs, run_cons_eq hs' rfl⟩
    exact ⟨_, s', hrun, fun h => hno ((along_append h).2 _ (run_mgr hrun)).1⟩

end ChatShow.CommBase.RoundRange
