import ChatShow.CommBase.TimerTurns

/-! # The accuracy of the timer manager

Where ticks are `SLOT_CHANGE_TIME` apart, a timer is called near its due point, and a timer for several
calls near each of the due points that follow at its interval, whatever the slot and however many rounds
it stays (`accurate_run`). It takes ids that are free, as for timers not to be lost: a new timer with the
id of another of its slot is never called (`never_called`). -/

namespace ChatShow.CommBase.TimerAccuracy

open ChatShow.CommBase.TimerWheel ChatShow.CommBase.TimerMgr ChatShow.CommBase.TimerPlaces
open ChatShow.CommBase.TimerMgrPlaces ChatShow.CommBase.TimerVisits
open ChatShow.CommBase.TimerClock ChatShow.CommBase.TimerTurns ChatShow.Lib.Maps ChatShow.Lib.Runs

/-- The timer `o` is called once for each of its due points that has passed, within a slot of it. -/
structure Accurate (s : Clocked) (o : ℕ) : Prop where
  once : (s.mgr.wheel.timer o).type = .onceTimer → (s.called o).length ≤ 1
  near : ∀ (n : ℕ) τ, (s.called o)[n]? = some τ →
    |τ - (s.due o + n * (s.mgr.wheel.timer o).interval.toInt)| ≤ SLOT_CHANGE_TIME
  passed : s.mgr.batch = none → ∀ n : ℕ, ((s.mgr.wheel.timer o).type = .onceTimer → n = 0) →
    s.due o + n * (s.mgr.wheel.timer o).interval.toInt + SLOT_CHANGE_TIME < s.time →
      n < (s.called o).length

section

variable {s s' : Clocked} {m : TimerManager} {o : ℕ} {a : Label}

/-! ### Runs -/

/-- New timers get ids that no timer of a slot has. -/
def Fresh (s : Clocked) (a : Label) : Prop := TimerMgrPlaces.Fresh s.mgr a

instance (s : Clocked) (a : Label) : Decidable (Fresh s a) :=
  inferInstanceAs (Decidable (TimerMgrPlaces.Fresh s.mgr a))

theorem of_step (hs : s.step a = some s') :
    s.Allowed a ∧ ∃ m, s.mgr.step a = some m ∧ s' = s.after m a := by
  obtain ⟨ha, hs⟩ := Option.ite_none_right_eq_some.mp hs
  obtain ⟨m, hm, rfl⟩ := Option.map_eq_some_iff.mp hs
  exact ⟨ha, m, hm, rfl⟩

theorem mgr_after (s : Clocked) (m : TimerManager) (a : Label) : (s.after m a).mgr = m := by
  cases a <;> rfl

theorem synced_step (h : Synced s) (hfresh : Fresh s a) (hs : s.step a = some s') : Synced s' := by
  obtain ⟨ha, m, hm, rfl⟩ := of_step hs
  have hgood : Good (s.after m a).mgr := by
    rw [mgr_after]
    exact good_step _ a m h.good hfresh hm
  refine ⟨hgood, ?_⟩
  cases TimerManager.stepped hm with
  | newTimer | setDelete => exact h.tick
  | addTimer =>
    intro b hb
    obtain ⟨htick, hlt, hcurr⟩ := h.tick b hb
    refine ⟨htick, hlt, Eq.trans ?_ hcurr⟩
    unfold Clocked.after TimerManager.addTimer
    split_ifs
    · rfl
    · exact Wheel.currSlot_attachNew ..
  | onTick tick hb =>
    intro b hb'
    cases hb'
    obtain ⟨htick, hlt⟩ := ha
    exact ⟨htick.trans (Int.add_sub_cancel _ _).symm, htick ▸ hlt, rfl⟩
  | @turn b o l hb hcalling hrest =>
    intro b' hb'
    obtain ⟨htick, hlt, hcurr⟩ := h.tick b hb
    have hturned := TimerManager.turned s.mgr.wheel b o l
    change (TimerManager.turn s.mgr.wheel b o l).batch = some b' at hb'
    change _ ∧ _ ∧ (TimerManager.turn s.mgr.wheel b o l).wheel.currSlot = _
    generalize TimerManager.turn s.mgr.wheel b o l = m' at hturned hb'
    cases hturned <;> cases hb' <;> exact ⟨htick, hlt, hcurr⟩
  | @returned b o hb hcalling =>
    intro b' hb'
    obtain ⟨htick, hlt, hcurr⟩ := h.tick b hb
    revert hb'
    unfold Clocked.after TimerManager.returned
    dsimp only
    split_ifs <;> intro hb' <;> cases hb' <;> exact ⟨htick, hlt, hcurr⟩
  | endTick next hb hcalling hrest =>
    intro b hb
    cases hb

/-- **What every step keeps of a timer**, but for its deletion. -/
theorem tracked_step (h : Synced s) (ht : Tracked s o) (ha : a ≠ .setDelete o) (hfresh : Fresh s a)
    (hs : s.step a = some s') : Tracked s' o := by
  obtain ⟨hallowed, m, hm, rfl⟩ := of_step hs
  have hgood := good_step _ a m h.good hfresh hm
  cases TimerManager.stepped hm with
  | newTimer type interval start bePoint => exact tracked_newTimer h.good ht type interval start bePoint
  | @addTimer o' ho hrun =>
    by_cases heq : o = o'
    · subst heq
      exact tracked_addTimer h.good ht hgood hrun hallowed
    · exact tracked_addTimer_ne h.good ht heq hrun
  | @setDelete o' ho =>
    refine tracked_setDelete ht ?_
    rintro rfl
    exact ha rfl
  | onTick tick hb => exact tracked_onTick h.good ht hb hallowed
  | @turn b o' l hb hcalling hrest =>
    by_cases heq : o = o'
    · subst heq
      exact tracked_turn h ht hb hcalling hrest hgood
    · exact tracked_turn_ne ht hb hcalling hrest heq (afterTurn_ne hcalling heq l)
  | returned hb hcalling => exact tracked_returned h.good ht hb hcalling
  | endTick next hb hcalling hrest => exact tracked_endTick h ht hb hcalling hrest next

theorem synced_start (t₀ : ℤ) : Synced { time := t₀ } := ⟨good_start, fun b hb => by cases hb⟩

theorem tracked_start (t₀ : ℤ) (o : ℕ) : Tracked { time := t₀ } o where
  unvisited _ := rfl
  calls := rfl
  deleted hd := by cases hd
  onTime _ := onTime_of_new good_start rfl fun hnew => absurd hnew.1 (Nat.not_lt_zero o)

theorem calls_le (h : Good m) (htype : (m.wheel.timer o).type = .onceTimer) :
    TimerPlaces.calls m.wheel o ≤ 1 := by
  cases hb : m.batch with
  | none =>
    obtain ⟨place, hp⟩ := h.idle hb
    exact hp.calls_le o htype
  | some b =>
    obtain ⟨place, hin⟩ := h.batch b hb
    exact hin.places.calls_le o htype

/-- A timer that is not finished waits for its next due point, which has not passed. -/
theorem lt_of_passed (h : Synced s) (ht : Tracked s o) (hexact : Exact (s.mgr.wheel.timer o))
    (hrun : (s.mgr.wheel.timer o).isRunning = true) (hb : s.mgr.batch = none) {n : ℕ}
    (honce : (s.mgr.wheel.timer o).type = .onceTimer → n = 0)
    (hpassed : s.due o + n * (s.mgr.wheel.timer o).interval.toInt + SLOT_CHANGE_TIME < s.time) :
    n < (s.called o).length := by
  by_contra hle
  have hfin : ¬ Finished s.mgr.wheel o := fun hf => by
    have hpos := hf.2
    rw [← ht.calls] at hpos
    have hzero := honce hf.1
    omega
  have hdel : (s.mgr.wheel.timer o).delflag = false :=
    Bool.eq_false_iff.mpr fun hd => hfin (ht.deleted hd)
  obtain ⟨place, hp⟩ := h.good.idle hb
  obtain ⟨p, hplace⟩ := Option.ne_none_iff_exists'.mp (hp.placed o hrun hdel hfin)
  cases p with
  | out =>
    have hmem := (hp.out_iff o).mpr hplace
    cases hmem
  | slot c =>
    have hat := (hp.at_iff c _ o).mpr ⟨hplace, rfl⟩
    have hwait : Waits s o (nextVisit s.time s.mgr.wheel.currSlot c) :=
      .slot (slots_of_idle hb ▸ hat) (by rw [rest_of_idle hb]; exact List.not_mem_nil)
    obtain ⟨hpending, hbe⟩ := (ht.onTime hexact).waits _ hwait
    have hlater := (le_nextVisit s.time s.mgr.wheel.currSlot c).trans hpending.le_callAt
    have hnear := (abs_le.mp hpending.near).2
    -- the next due point is not after the one that has passed
    have hmul : (s.called o).length * (s.mgr.wheel.timer o).interval.toInt ≤
        n * (s.mgr.wheel.timer o).interval.toInt := by
      rcases hexact.type with htype | ⟨-, hreg⟩
      · obtain rfl := honce htype
        have hzero : (s.called o).length = 0 := by omega
        rw [hzero]
      · exact Int.mul_le_mul_of_nonneg_right (by omega) ((Int.natCast_nonneg _).trans hreg.le)
    omega

/-- **Timers are accurate** in runs in which new timers get free ids, whatever the first tick is. -/
theorem accurate_run {l : List Label} {t₀ : ℤ} (hs : run Clocked.step { time := t₀ } l = some s)
    (hfresh : Along Clocked.step Fresh { time := t₀ } l) (hdel : .setDelete o ∉ l)
    (hexact : Exact (s.mgr.wheel.timer o)) (hrun : (s.mgr.wheel.timer o).isRunning = true) :
    Accurate s o := by
  obtain ⟨hsync, htracked⟩ : Synced s ∧ Tracked s o :=
    run_inv_along (P := fun s => Synced s ∧ Tracked s o) (Q := fun a : Label => a ≠ .setDelete o)
      (fun s a s' h hq hf hs => ⟨synced_step h.1 hf hs, tracked_step h.1 h.2 hq hf hs⟩) hs
      (fun a ha heq => hdel (heq ▸ ha)) hfresh
      ⟨synced_start t₀, tracked_start t₀ o⟩
  constructor
  case once =>
    intro htype
    rw [htracked.calls]
    exact calls_le hsync.good htype
  case near => exact (htracked.onTime hexact).near
  case passed =>
    intro hb n honce hpassed
    exact lt_of_passed hsync htracked hexact hrun hb honce hpassed

end

/-- A timer for several calls, and the ticks up to its second one. -/
def twoCalls : List Label :=
  [.newTimer .loopTimer 250 100 100, .addTimer 0, .onTick 0, .endTick fun _ => 0, .onTick 100, .turn,
    .returned, .endTick fun _ => 0, .onTick 200, .endTick fun _ => 0, .onTick 300, .endTick fun _ => 0,
    .onTick 400, .turn, .returned, .endTick fun _ => 0]

theorem accurate_run_twoCalls : ∃ s, run Clocked.step { time := 0 } twoCalls = some s ∧
    s.called 0 = [100, 400] ∧ Accurate s 0 := by
  refine ⟨_, rfl, by decide +kernel, ?_⟩
  exact @accurate_run _ 0 twoCalls 0 rfl (by decide +kernel) (by simp [twoCalls])
    ⟨by decide +kernel, Or.inr ⟨by decide +kernel, by decide +kernel, by decide +kernel⟩⟩
    (by decide +kernel)

/-! ### Timers with the id of another -/

/-- A timer, and so many that are due long after it. -/
def fill : ℕ → List Label
  | 0 => [.newTimer .onceTimer 0 100 100, .addTimer 0]
  | n + 1 => fill n ++ [.newTimer .onceTimer 0 200000 200000, .addTimer (n + 1)]

/-- The ticks up to one after the due point of the first. -/
def ticks : List Label :=
  [.onTick 0, .endTick fun _ => 0] ++ ([.onTick 100, .turn, .returned, .endTick fun _ => 0] ++
    [.onTick 200, .endTick fun _ => 0])

/-- In the end, another timer with the due point of the first. -/
def late (n : ℕ) : List Label :=
  fill n ++ ([.newTimer .onceTimer 0 100 100, .addTimer (n + 1)] ++ ticks)

/-- The first timer, when it has been attached. -/
def first : Timer :=
  { type := .onceTimer, id := 1, start := 100, bePoint := 100, ticks := 1, round := 1
    isRunning := true }

/-- What is in the slot of the first timer. -/
def onlyFirst : Std.TreeMap UInt32 ℕ := (∅ : Std.TreeMap UInt32 ℕ).insertIfNew 1 0

/-- A manager with `n` timers besides the first. -/
structure Filled (n : ℕ) (s : Clocked) : Prop where
  batch : s.mgr.batch = none
  time : s.time = 0
  curr : s.mgr.wheel.currSlot = 0
  made : s.mgr.wheel.made = n + 1
  lastID : s.mgr.wheel.lastTimerID.toNat = n + 1
  slot0 : s.mgr.wheel.slots 0 = ∅
  slot1 : s.mgr.wheel.slots 1 = onlyFirst
  slot2 : s.mgr.wheel.slots 2 = ∅
  first : s.mgr.wheel.timer 0 = first
  called : ∀ o, s.called o = []

/-- The timer `o` is in no slot near that of the first, whose due point it has. -/
structure Lost (o : ℕ) (s : Clocked) : Prop where
  batch : s.mgr.batch = none
  time : s.time = 0
  curr : s.mgr.wheel.currSlot = 0
  slot0 : s.mgr.wheel.slots 0 = ∅
  slot1 : s.mgr.wheel.slots 1 = onlyFirst
  slot2 : s.mgr.wheel.slots 2 = ∅
  first : s.mgr.wheel.timer 0 = first
  timer : s.mgr.wheel.timer o = (Wheel.once 100 100).begin 1 100
  due : s.due o = 100
  called : s.called o = []

/-- A tick has passed, in which no other timer than the first was called. -/
structure Passed (s s' : Clocked) : Prop where
  batch : s'.mgr.batch = none
  time : s'.time = s.time + SLOT_CHANGE_TIME
  curr : s'.mgr.wheel.currSlot = nextSlot s.mgr.wheel.currSlot
  slots : ∀ c, c ≠ s.mgr.wheel.currSlot → s'.mgr.wheel.slots c = s.mgr.wheel.slots c
  timer : ∀ o, o ≠ 0 → s'.mgr.wheel.timer o = s.mgr.wheel.timer o
  due : s'.due = s.due
  called : ∀ o, o ≠ 0 → s'.called o = s.called o

section

variable {s : Clocked} {n : ℕ} {w : Wheel} {c : ℕ}

theorem collect_of_empty (h : w.slots c = ∅) : TimerManager.collect w c = ([], w) := by
  have hupdate : Function.update w.slots c (∅ : Std.TreeMap UInt32 ℕ) = w.slots := by
    rw [← h, Function.update_eq_self]
  unfold TimerManager.collect Wheel.timersOf
  rw [h]
  change ([], { w with slots := Function.update w.slots c (∅ : Std.TreeMap UInt32 ℕ) }) = ([], w)
  rw [hupdate]

theorem collect_of_first (h : w.slots c = onlyFirst) (ho : (w.timer 0).delflag = false) :
    TimerManager.collect w c = ([0], w) := by
  have hupdate : Function.update w.slots c onlyFirst = w.slots := by
    rw [← h, Function.update_eq_self]
  have hlist : onlyFirst.toList = [(1, 0)] := rfl
  unfold TimerManager.collect Wheel.timersOf keysOf
  rw [h, hlist]
  simp only [List.map_cons, List.map_nil, List.filter_cons, List.filter_nil, ho]
  change ([0], { w with slots := Function.update w.slots c onlyFirst }) = ([0], w)
  rw [hupdate]

theorem onTick_eq (m : TimerManager) (tick : Int64) : m.onTick tick =
    { wheel := (TimerManager.collect m.wheel.advance.2 m.wheel.currSlot).2
      batch := some { slot := m.wheel.currSlot, tick := tick
                      rest := (TimerManager.collect m.wheel.advance.2 m.wheel.currSlot).1 } } := rfl

theorem step_eq {m : TimerManager} {a : Label} (ha : s.Allowed a) (hm : s.mgr.step a = some m) :
    s.step a = some (s.after m a) := by
  unfold Clocked.step
  rw [if_pos ha, hm]
  rfl

theorem step_onTick {tick : Int64} (hb : s.mgr.batch = none) (htick : tick.toInt = s.time)
    (hlt : s.time < 2 ^ 62) : s.step (.onTick tick) =
      some { s with mgr := s.mgr.onTick tick, time := s.time + SLOT_CHANGE_TIME } := by
  refine step_eq ⟨htick, hlt⟩ ?_
  unfold TimerManager.step
  dsimp only
  rw [hb]

/-- The tick of an empty slot. -/
theorem tick_empty {tick : Int64} (hb : s.mgr.batch = none)
    (hslot : s.mgr.wheel.slots s.mgr.wheel.currSlot = ∅) (htick : tick.toInt = s.time)
    (hlt : s.time < 2 ^ 62) (next : ℕ → Int64) :
    ∃ s', run Clocked.step s [.onTick tick, .endTick next] = some s' ∧ Passed s s' ∧
      s'.mgr.wheel.timer = s.mgr.wheel.timer ∧ s'.mgr.wheel.slots = s.mgr.wheel.slots := by
  have hcollect : TimerManager.collect s.mgr.wheel.advance.2 s.mgr.wheel.currSlot =
      ([], s.mgr.wheel.advance.2) := collect_of_empty hslot
  refine ⟨{ s with mgr := { wheel := s.mgr.wheel.advance.2.slotErase s.mgr.wheel.currSlot [] }
                   time := s.time + SLOT_CHANGE_TIME }, run_cons_eq (step_onTick hb htick hlt) ?_, ?_⟩
  · rw [onTick_eq, hcollect]
    exact run_cons_eq (step_eq trivial rfl) rfl
  · rw [Wheel.slotErase_nil]
    exact ⟨⟨rfl, rfl, rfl, fun _ _ => rfl, fun _ _ => rfl, rfl, fun _ _ => rfl⟩, rfl, rfl⟩

/-- The tick in which the first timer is called. -/
theorem tick_first (hb : s.mgr.batch = none)
    (hslot : s.mgr.wheel.slots s.mgr.wheel.currSlot = onlyFirst) (ho : s.mgr.wheel.timer 0 = first)
    (htime : s.time = 100) (next : ℕ → Int64) :
    ∃ s', run Clocked.step s [.onTick 100, .turn, .returned, .endTick next] = some s' ∧ Passed s s' := by
  have hcollect : TimerManager.collect s.mgr.wheel.advance.2 s.mgr.wheel.currSlot =
      ([0], s.mgr.wheel.advance.2) := collect_of_first hslot (congrArg Timer.delflag ho)
  have hlt : s.time < 2 ^ 62 := by
    rw [htime]
    decide
  have hdue : first.onTickEx 100 = (true, first) := rfl
  have hturn : TimerManager.turn s.mgr.wheel.advance.2
      { slot := s.mgr.wheel.currSlot, tick := 100, rest := [0] } 0 [] =
      { wheel := (s.mgr.wheel.advance.2.setTimer 0 first).onTimeout 0
        batch := some { slot := s.mgr.wheel.currSlot, tick := 100, rest := [], calling := some 0 } } := by
    unfold TimerManager.turn
    rw [show s.mgr.wheel.advance.2.timer 0 = first from ho, hdue]
    rfl
  let w := (s.mgr.wheel.advance.2.setTimer 0 first).onTimeout 0
  have hreturned : TimerManager.returned w
      { slot := s.mgr.wheel.currSlot, tick := 100, rest := [], calling := some 0 } 0 =
      { wheel := w.setDelete 0
        batch := some { slot := s.mgr.wheel.currSlot, tick := 100, rest := [], timeoutAll := [0] } } := by
    have htype : (w.timer 0).type = .onceTimer := congrArg Timer.type (Wheel.setTimer_self ..)
    unfold TimerManager.returned
    rw [htype]
    rfl
  refine ⟨{ mgr := { wheel := (w.setDelete 0).slotErase s.mgr.wheel.currSlot [0] }
            time := s.time + SLOT_CHANGE_TIME
            due := s.due
            called := Function.update s.called 0 (s.called 0 ++ [100]) },
    run_cons_eq (step_onTick hb htime.symm hlt) ?_, ?_⟩
  · rw [onTick_eq, hcollect]
    refine run_cons_eq (step_eq trivial (congrArg some hturn)) ?_
    refine run_cons_eq (step_eq trivial (congrArg some hreturned)) ?_
    exact run_cons_eq (step_eq trivial rfl) rfl
  · refine ⟨rfl, rfl, rfl, fun c hc => Function.update_of_ne hc .., fun o ho => ?_, rfl,
      fun o ho => Function.update_of_ne ho ..⟩
    change ((w.setDelete 0).timer o) = _
    refine (Wheel.setTimer_of_ne ho _).trans ?_
    exact Wheel.setTimer_of_ne ho _

theorem run_attach {start : UInt32} {bePoint : Int64} (hstart : ¬ start ≤ 0)
    (hlow : s.time - SLOT_CHANGE_TIME ≤ bePoint.toInt - start.toNat)
    (hhigh : bePoint.toInt - start.toNat ≤ s.time) :
    run Clocked.step s [.newTimer .onceTimer 0 start bePoint, .addTimer s.mgr.wheel.made] =
      some { s with mgr := { s.mgr with wheel := s.mgr.wheel.attached start bePoint }
                    due := Function.update s.due s.mgr.wheel.made bePoint.toInt } := by
  have htimer := s.mgr.wheel.timer_newTimer_once start bePoint
  let s₁ : Clocked :=
    { s with mgr := { s.mgr with wheel := s.mgr.wheel.newTimer .onceTimer 0 start bePoint } }
  have hadd : TimerManager.addTimer s₁.mgr.wheel s.mgr.wheel.made =
      s.mgr.wheel.attached start bePoint := by
    unfold TimerManager.addTimer
    change (if (((s.mgr.wheel.newTimer .onceTimer 0 start bePoint).timer s.mgr.wheel.made).start ≤ 0)
      then _ else _) = _
    rw [htimer]
    exact if_neg hstart
  have hstep : s₁.mgr.step (.addTimer s.mgr.wheel.made) =
      some { s₁.mgr with wheel := s.mgr.wheel.attached start bePoint } := by
    have hrun : ¬ (s₁.mgr.wheel.timer s.mgr.wheel.made).isRunning = true := by
      change ¬ Timer.isRunning
        ((s.mgr.wheel.newTimer .onceTimer 0 start bePoint).timer s.mgr.wheel.made) = true
      rw [htimer]
      exact Bool.false_ne_true
    refine (if_pos ⟨Nat.lt_succ_self _, hrun⟩).trans ?_
    rw [hadd]
  have hbe : (s₁.mgr.wheel.timer s.mgr.wheel.made).bePoint = bePoint := congrArg Timer.bePoint htimer
  have hst : (s₁.mgr.wheel.timer s.mgr.wheel.made).start = start := congrArg Timer.start htimer
  have hallowed : s₁.Allowed (.addTimer s.mgr.wheel.made) := by
    unfold Clocked.Allowed
    dsimp only
    rw [hbe, hst]
    exact ⟨hlow, hhigh⟩
  refine run_cons_eq (step_eq trivial rfl) (run_cons_eq (step_eq hallowed hstep) ?_)
  unfold Clocked.after
  dsimp only
  rw [hbe]
  rfl

/-- One of the timers that are due later is attached. -/
theorem filled_attach (h : Filled n s) (hn : n + 2 < UInt32.size) :
    ∃ s', run Clocked.step s [.newTimer .onceTimer 0 200000 200000, .addTimer (n + 1)] = some s' ∧
      Filled (n + 1) s' := by
  have hrun := @run_attach s 200000 200000 (by decide) (h.time ▸ by decide) (h.time ▸ by decide)
  rw [h.made] at hrun
  have hlast : (s.mgr.wheel.lastTimerID + 1).toNat = n + 2 := by
    rw [UInt32.toNat_add, h.lastID]
    exact Nat.mod_eq_of_lt hn
  have hnext : s.mgr.wheel.nextID.toNat = n + 2 := by
    unfold Wheel.nextID
    rw [if_neg, hlast]
    intro hzero
    rw [hzero] at hlast
    cases hlast
  have hnum : s.mgr.wheel.slotNum (200000 / UInt32.ofNat SLOT_CHANGE_TIME) = 2000 := by
    unfold Wheel.slotNum
    rw [h.curr]
    rfl
  have hslots {c : ℕ} (hc : c ≠ 2000) :
      (s.mgr.wheel.attached 200000 200000).slots c = s.mgr.wheel.slots c := by
    rw [Wheel.slots_attached]
    dsimp only
    rw [hnum]
    exact Function.update_of_ne hc ..
  have heq := Wheel.attached_eq s.mgr.wheel 200000 200000
  refine ⟨_, hrun, ?_⟩
  constructor
  case batch => exact h.batch
  case time => exact h.time
  case curr =>
    change (s.mgr.wheel.attached 200000 200000).currSlot = 0
    rw [heq]
    exact h.curr
  case made =>
    change (s.mgr.wheel.attached 200000 200000).made = _
    rw [heq]
    exact congrArg (· + 1) h.made
  case lastID =>
    change (s.mgr.wheel.attached 200000 200000).lastTimerID.toNat = _
    rw [heq]
    exact hnext
  case slot0 => exact (hslots (by decide)).trans h.slot0
  case slot1 => exact (hslots (by decide)).trans h.slot1
  case slot2 => exact (hslots (by decide)).trans h.slot2
  case first =>
    have hne : 0 ≠ s.mgr.wheel.made := by
      rw [h.made]
      exact (Nat.succ_ne_zero n).symm
    exact (Wheel.timer_attached_ne _ _ _ hne).trans h.first
  case called => exact h.called

theorem run_fill (hn : n + 1 < UInt32.size) :
    ∃ s, run Clocked.step { time := 0 } (fill n) = some s ∧ Filled n s := by
  induction n with
  | zero =>
    refine ⟨_, run_attach (s := { time := 0 }) (by decide) (by decide) (by decide), ?_⟩
    exact ⟨rfl, rfl, rfl, rfl, rfl, rfl, rfl, rfl, rfl, fun _ => rfl⟩
  | succ n ih =>
    obtain ⟨s, hs, hf⟩ := ih (Nat.lt_of_succ_lt hn)
    obtain ⟨s', hs', hf'⟩ := filled_attach hf hn
    exact ⟨s', run_append_some.mpr ⟨s, hs, hs'⟩, hf'⟩

/-- The timer that gets the id of the first is not put into the slot. -/
theorem lost_of_filled (h : Filled n s) (hn : n + 2 = UInt32.size) :
    ∃ s', run Clocked.step s [.newTimer .onceTimer 0 100 100, .addTimer (n + 1)] = some s' ∧
      Lost (n + 1) s' := by
  have hnext : s.mgr.wheel.nextID = 1 := by
    have hlast : s.mgr.wheel.lastTimerID + 1 = 0 := by
      refine UInt32.toNat_inj.mp ?_
      rw [UInt32.toNat_add, h.lastID]
      change (n + 2) % UInt32.size = 0
      rw [hn, Nat.mod_self]
    exact if_pos hlast
  have hnum : s.mgr.wheel.slotNum (100 / UInt32.ofNat SLOT_CHANGE_TIME) = 1 := by
    unfold Wheel.slotNum
    rw [h.curr]
    rfl
  have hrun := @run_attach s 100 100 (by decide) (h.time ▸ by decide) (h.time ▸ by decide)
  have hself := Wheel.timer_attached_self s.mgr.wheel 100 100
  rw [h.made] at hrun hself
  rw [hnext] at hself
  have hslots {c : ℕ} (hc : c ≠ 1) : (s.mgr.wheel.attached 100 100).slots c = s.mgr.wheel.slots c := by
    rw [Wheel.slots_attached]
    dsimp only
    rw [hnum]
    exact Function.update_of_ne hc ..
  refine ⟨_, hrun, ?_⟩
  constructor
  case batch => exact h.batch
  case time => exact h.time
  case curr =>
    change (s.mgr.wheel.attached 100 100).currSlot = 0
    rw [Wheel.attached_eq]
    exact h.curr
  case slot0 => exact (hslots (by decide)).trans h.slot0
  case slot1 =>
    change (s.mgr.wheel.attached 100 100).slots 1 = onlyFirst
    rw [Wheel.slots_attached]
    dsimp only
    rw [hnum, Function.update_self, hnext, h.slot1]
    rfl
  case slot2 => exact (hslots (by decide)).trans h.slot2
  case first =>
    have hne : 0 ≠ s.mgr.wheel.made := by
      rw [h.made]
      exact (Nat.succ_ne_zero n).symm
    exact (Wheel.timer_attached_ne _ _ _ hne).trans h.first
  case timer => exact hself
  case due => exact Function.update_self ..
  case called => exact h.called _

/-- The ticks call the first timer, and not the one that is lost. -/
theorem run_ticks {o : ℕ} (h : Lost o s) (ho : o ≠ 0) :
    ∃ s', run Clocked.step s ticks = some s' ∧ s'.mgr.batch = none ∧ s'.time = 300 ∧
      s'.mgr.wheel.timer o = (Wheel.once 100 100).begin 1 100 ∧ s'.due o = 100 ∧ s'.called o = [] := by
  obtain ⟨s₁, hrun₁, hp₁, htimer₁, -⟩ := @tick_empty s 0 h.batch (h.curr ▸ h.slot0) h.time.symm
    (h.time ▸ by decide) fun _ => 0
  have hcurr₁ : s₁.mgr.wheel.currSlot = 1 := by
    rw [hp₁.curr, h.curr]
    rfl
  have htime₁ : s₁.time = 100 := by
    rw [hp₁.time, h.time]
    rfl
  have hslots₁ {c : ℕ} (hc : c ≠ 0) : s₁.mgr.wheel.slots c = s.mgr.wheel.slots c :=
    hp₁.slots c (h.curr ▸ hc)
  obtain ⟨s₂, hrun₂, hp₂⟩ := tick_first hp₁.batch (by rw [hcurr₁, hslots₁ (by decide), h.slot1])
    (by rw [htimer₁, h.first]) htime₁ fun _ => 0
  have hcurr₂ : s₂.mgr.wheel.currSlot = 2 := by
    rw [hp₂.curr, hcurr₁]
    rfl
  have htime₂ : s₂.time = 200 := by
    rw [hp₂.time, htime₁]
    rfl
  have hslot₂ : s₂.mgr.wheel.slots 2 = ∅ := by
    rw [hp₂.slots 2 (by rw [hcurr₁]; decide), hslots₁ (by decide), h.slot2]
  obtain ⟨s₃, hrun₃, hp₃, -⟩ := @tick_empty s₂ 200 hp₂.batch (hcurr₂ ▸ hslot₂) htime₂.symm
    (htime₂ ▸ by decide) fun _ => 0
  refine ⟨s₃, run_append_some.mpr ⟨s₁, hrun₁, run_append_some.mpr ⟨s₂, hrun₂, hrun₃⟩⟩, hp₃.batch, ?_, ?_,
    ?_, ?_⟩
  · rw [hp₃.time, htime₂]
    rfl
  · rw [hp₃.timer o ho, hp₂.timer o ho, hp₁.timer o ho, h.timer]
  · rw [hp₃.due, hp₂.due, hp₁.due, h.due]
  · rw [hp₃.called o ho, hp₂.called o ho, hp₁.called o ho, h.called]

theorem not_mem_fill (n o : ℕ) : .setDelete o ∉ fill n := by
  induction n with
  | zero => simp [fill]
  | succ n ih => simp [fill, ih]

theorem not_mem_late (n o : ℕ) : .setDelete o ∉ late n := by
  simp [late, ticks, not_mem_fill]

theorem run_late (hn : n + 2 = UInt32.size) :
    ∃ s, run Clocked.step { time := 0 } (late n) = some s ∧ s.mgr.batch = none ∧ s.time = 300 ∧
      s.mgr.wheel.timer (n + 1) = (Wheel.once 100 100).begin 1 100 ∧ s.due (n + 1) = 100 ∧
      s.called (n + 1) = [] := by
  obtain ⟨s, hs, hf⟩ := run_fill (n := n) (by omega)
  obtain ⟨s₁, hs₁, hlost⟩ := lost_of_filled hf hn
  obtain ⟨s₂, hs₂, h⟩ := run_ticks hlost (Nat.succ_ne_zero n)
  exact ⟨s₂, run_append_some.mpr ⟨s, hs, run_append_some.mpr ⟨s₁, hs₁, hs₂⟩⟩, h⟩

end

/-- **A timer is never called**: the last of so many gets the id of the first, which is in its slot. -/
theorem never_called : ∃ s, run Clocked.step { time := 0 } (late (UInt32.size - 2)) = some s ∧
    Label.setDelete (UInt32.size - 1) ∉ late (UInt32.size - 2) ∧
    Exact (s.mgr.wheel.timer (UInt32.size - 1)) ∧
    (s.mgr.wheel.timer (UInt32.size - 1)).isRunning = true ∧ ¬ Accurate s (UInt32.size - 1) := by
  have hn : UInt32.size - 2 + 2 = UInt32.size := Nat.sub_add_cancel (by decide)
  have hn' : UInt32.size - 2 + 1 = UInt32.size - 1 := by omega
  obtain ⟨s, hs, hb, htime, htimer, hdue, hcalled⟩ := run_late hn
  rw [hn'] at htimer hdue hcalled
  refine ⟨s, hs, not_mem_late _ _, ?_, ?_, fun h => ?_⟩
  · rw [htimer]
    exact ⟨by decide, Or.inl rfl⟩
  · rw [htimer]
    rfl
  · have hlt := h.passed hb 0 (fun _ => rfl) (by rw [htimer, hdue, htime]; decide)
    rw [hcalled] at hlt
    cases hlt

end ChatShow.CommBase.TimerAccuracy
