import ChatShow.CommBase.TimerMgrPlaces
import ChatShow.CommBase.TimerVisits

/-! # A timer manager with a clock

`OnTick` is called at times that are `SLOT_CHANGE_TIME` apart, and timers are attached as
`TimerInterface` does it, with a due point that is `start` from now. `Tracked` is what holds of a timer
then: as long as it waits (`Waits`) it is pending, and its due point is that of its next call. -/

namespace ChatShow.CommBase.TimerClock

open ChatShow.CommBase.TimerWheel ChatShow.CommBase.TimerMgr ChatShow.CommBase.TimerPlaces
open ChatShow.CommBase.TimerMgrPlaces ChatShow.CommBase.TimerVisits

/-! ### A manager with a clock -/

structure Clocked where
  mgr : TimerManager := {}
  /-- the time of the next tick -/
  time : ℤ
  /-- the due point of a timer when it was attached -/
  due : ℕ → ℤ := fun _ => 0
  /-- the ticks in which a timer has been called -/
  called : ℕ → List ℤ := fun _ => []

namespace Clocked

/-- Ticks are at their time. A timer is attached between the last tick and the next one, with the due
point that `SetDistanceTime` gives it. -/
def Allowed (s : Clocked) : Label → Prop
  | .addTimer o => s.time - SLOT_CHANGE_TIME ≤ (s.mgr.wheel.timer o).bePoint.toInt -
      (s.mgr.wheel.timer o).start.toNat ∧
      (s.mgr.wheel.timer o).bePoint.toInt - (s.mgr.wheel.timer o).start.toNat ≤ s.time
  | .onTick tick => tick.toInt = s.time ∧ s.time < 2 ^ 62
  | _ => True

instance (s : Clocked) : ∀ a, Decidable (s.Allowed a)
  | .addTimer _ | .onTick _ => inferInstanceAs (Decidable (_ ∧ _))
  | .newTimer .. | .setDelete _ | .turn | .returned | .endTick _ => .isTrue trivial

/-- The timer that a turn has called is called at the tick. -/
def afterTurn (called : ℕ → List ℤ) (m : TimerManager) : ℕ → List ℤ :=
  match m.batch with
  | some { calling := some o, tick := tick, .. } => Function.update called o (called o ++ [tick.toInt])
  | _ => called

/-- What the clock and the books become, where the manager becomes `m`. -/
def after (s : Clocked) (m : TimerManager) : Label → Clocked
  | .addTimer o =>
    { s with mgr := m, due := Function.update s.due o (s.mgr.wheel.timer o).bePoint.toInt }
  | .onTick _ => { s with mgr := m, time := s.time + SLOT_CHANGE_TIME }
  | .turn => { s with mgr := m, called := afterTurn s.called m }
  | _ => { s with mgr := m }

def step (s : Clocked) (a : Label) : Option Clocked :=
  if s.Allowed a then (s.mgr.step a).map (s.after · a) else none

end Clocked

/-- A timer for one call, or for several at its interval. -/
structure Exact (t : Timer) : Prop where
  start : SLOT_CHANGE_TIME ≤ t.start.toNat
  type : t.type = .onceTimer ∨ t.type = .loopTimer ∧ Regular t

theorem Exact.congr {t t' : Timer} (h : Exact t') (hstart : t'.start = t.start)
    (htype : t'.type = t.type) (hinterval : t'.interval = t.interval) : Exact t where
  start := hstart ▸ h.start
  type := by
    rw [← htype]
    exact h.type.imp_right (And.imp_right fun hreg => ⟨hinterval ▸ hreg.le, hinterval ▸ hreg.lt⟩)

/-! ### When a timer is visited -/

/-- The slots without the timers that are to be erased. -/
def slots (m : TimerManager) : Wheel :=
  match m.batch with
  | some b => inSlots m.wheel b
  | none => m.wheel

/-- The timers that a tick has yet to visit. -/
def rest (m : TimerManager) : List ℕ :=
  match m.batch with
  | some b => b.rest
  | none => []

/-- The next visit of the timer `o` is at a time: that of its slot, or the tick that is on. -/
inductive Waits (s : Clocked) (o : ℕ) : ℤ → Prop
  | slot {c : ℕ} {k : UInt32} (hat : (slots s.mgr).At c k o) (hrest : o ∉ rest s.mgr) :
      Waits s o (nextVisit s.time s.mgr.wheel.currSlot c)
  | rest {b : Batch} (hb : s.mgr.batch = some b) (ho : o ∈ b.rest) : Waits s o b.tick.toInt

/-- A tick that is on is the last one, and its slot the last one. -/
structure Synced (s : Clocked) : Prop where
  good : Good s.mgr
  tick : ∀ b, s.mgr.batch = some b → b.tick.toInt = s.time - SLOT_CHANGE_TIME ∧ b.tick.toInt < 2 ^ 62 ∧
    s.mgr.wheel.currSlot = nextSlot b.slot

/-- The calls of the timer `o` so far have been near its due points, and its due point is the next of
them; but for a timer that has just been called and is not attached again, whose due point was near. -/
structure OnTime (s : Clocked) (o : ℕ) : Prop where
  near : ∀ (n : ℕ) τ, (s.called o)[n]? = some τ →
    |τ - (s.due o + n * (s.mgr.wheel.timer o).interval.toInt)| ≤ SLOT_CHANGE_TIME
  waits : ∀ τ, Waits s o τ → Pending (s.mgr.wheel.timer o) τ ∧ (s.mgr.wheel.timer o).bePoint.toInt =
    s.due o + (s.called o).length * (s.mgr.wheel.timer o).interval.toInt
  taken : ∀ b, s.mgr.batch = some b → o ∈ taken b → Near (s.mgr.wheel.timer o) b.tick.toInt ∧
    (s.mgr.wheel.timer o).bePoint.toInt + (s.mgr.wheel.timer o).interval.toInt =
      s.due o + (s.called o).length * (s.mgr.wheel.timer o).interval.toInt

/-- What holds of a timer, whatever it is. -/
structure Tracked (s : Clocked) (o : ℕ) : Prop where
  unvisited : (s.mgr.wheel.timer o).isRunning = false → (s.mgr.wheel.timer o).tickPoint = 0
  calls : (s.called o).length = calls s.mgr.wheel o
  deleted : (s.mgr.wheel.timer o).delflag = true → Finished s.mgr.wheel o
  onTime : Exact (s.mgr.wheel.timer o) → OnTime s o

section

variable {s s' : Clocked} {m m' : TimerManager} {w w' : Wheel} {b b' : Batch} {c o o' : ℕ} {k : UInt32}
  {τ : ℤ} {a : Label}

theorem slots_of_idle (hb : m.batch = none) : slots m = m.wheel := by
  unfold slots
  rw [hb]

theorem slots_of_batch (hb : m.batch = some b) : slots m = inSlots m.wheel b := by
  unfold slots
  rw [hb]

theorem rest_of_idle (hb : m.batch = none) : rest m = [] := by
  unfold rest
  rw [hb]

theorem rest_of_batch (hb : m.batch = some b) : rest m = b.rest := by
  unfold rest
  rw [hb]

/-- In a tick, the timers of slots are as before where they are neither put there nor erased. -/
theorem at_inSlots (hslot : b'.slot = b.slot) (hat : w'.At c k o → w.At c k o)
    (hids : ∀ o' ∈ leaving b, o' ∈ leaving b' ∧ (w'.timer o').id = (w.timer o').id)
    (h : (inSlots w' b').At c k o) : (inSlots w b).At c k o := by
  obtain ⟨hat', hno⟩ := Wheel.at_slotErase.mp h
  refine Wheel.at_slotErase.mpr ⟨hat hat', fun hh => hno ⟨hh.1.trans hslot.symm, ?_⟩⟩
  obtain ⟨o', ho', hid⟩ := List.mem_map.mp hh.2
  exact List.mem_map.mpr ⟨o', (hids o' ho').1, (hids o' ho').2.trans hid⟩

/-- A timer of a slot is known. -/
theorem known_of_waits (h : Good s.mgr) (hw : Waits s o τ) :
    o < s.mgr.wheel.made ∧ (s.mgr.wheel.timer o).isRunning = true := by
  cases hb : s.mgr.batch with
  | none =>
    obtain ⟨place, hp⟩ := h.idle hb
    cases hw with
    | slot hat =>
      rw [slots_of_idle hb] at hat
      exact ⟨hp.keyed.made hat, hp.keyed.isRunning hat⟩
    | rest hb' =>
      rw [hb] at hb'
      cases hb'
  | some b =>
    obtain ⟨place, hin⟩ := h.batch b hb
    cases hw with
    | slot hat =>
      rw [slots_of_batch hb] at hat
      exact ⟨hin.places.keyed.made hat, hin.places.keyed.isRunning hat⟩
    | rest hb' ho =>
      rw [hb] at hb'
      cases hb'
      exact hin.places.known o (by rw [hin.rest o ho]; exact Option.some_ne_none _)

theorem known_of_taken (h : Good s.mgr) (hb : s.mgr.batch = some b) (ho : o ∈ taken b) :
    o < s.mgr.wheel.made ∧ (s.mgr.wheel.timer o).isRunning = true := by
  obtain ⟨place, hin⟩ := h.batch b hb
  exact hin.places.known o (by rw [(hin.places.out_iff o).mp ho]; exact Option.some_ne_none _)

theorem known_of_calls (h : Good s.mgr) (hcalls : 0 < calls s.mgr.wheel o) :
    o < s.mgr.wheel.made ∧ (s.mgr.wheel.timer o).isRunning = true := by
  cases hb : s.mgr.batch with
  | none =>
    obtain ⟨place, hp⟩ := h.idle hb
    exact hp.ran o hcalls
  | some b =>
    obtain ⟨place, hin⟩ := h.batch b hb
    exact hin.places.ran o hcalls

/-- A timer that has not been attached has not been called, and waits for nothing. -/
theorem onTime_of_new (h : Good s.mgr) (hcalls : (s.called o).length = calls s.mgr.wheel o)
    (hnew : ¬ (o < s.mgr.wheel.made ∧ (s.mgr.wheel.timer o).isRunning = true)) : OnTime s o where
  near n τ hn := by
    have hlt : n < (s.called o).length := (List.getElem?_eq_some_iff.mp hn).1
    exact absurd (known_of_calls h (by omega)) hnew
  waits _ hw := absurd (known_of_waits h hw) hnew
  taken _ hb ho := absurd (known_of_taken h hb ho) hnew

theorem isRunning_of_at (h : Good m) (hat : m.wheel.At c k o) : (m.wheel.timer o).isRunning = true := by
  cases hb : m.batch with
  | none =>
    obtain ⟨place, hp⟩ := h.idle hb
    exact hp.keyed.isRunning hat
  | some b =>
    obtain ⟨place, hin⟩ := h.batch b hb
    by_cases hgone : c = b.slot ∧ k ∈ (leaving b).map fun o => (m.wheel.timer o).id
    · obtain ⟨rfl, hk⟩ := hgone
      obtain ⟨o', ho', rfl⟩ := List.mem_map.mp hk
      obtain ⟨hat', -, hrun⟩ := hin.leaving o' ho'
      obtain rfl : o = o' := Option.some.inj (hat.symm.trans hat')
      exact hrun
    · exact hin.places.keyed.isRunning (Wheel.at_slotErase.mpr ⟨hat, hgone⟩)

/-- A step in which the timer stays where it is. -/
theorem Tracked.congr (h : Tracked s o) {d : Bool}
    (htimer : s'.mgr.wheel.timer o = { s.mgr.wheel.timer o with delflag := d })
    (hdel : d = true → Finished s.mgr.wheel o)
    (hcalls : TimerPlaces.calls s'.mgr.wheel o = TimerPlaces.calls s.mgr.wheel o)
    (hcalled : s'.called o = s.called o)
    (hdue : s'.due o = s.due o) (hwaits : ∀ τ, Waits s' o τ → Waits s o τ)
    (htaken : ∀ b', s'.mgr.batch = some b' → o ∈ taken b' →
      ∃ b, s.mgr.batch = some b ∧ o ∈ taken b ∧ b'.tick = b.tick) : Tracked s' o := by
  constructor
  case unvisited =>
    rw [htimer]
    exact h.unvisited
  case calls => rw [hcalled, hcalls, h.calls]
  case deleted =>
    unfold Finished
    rw [htimer, hcalls]
    exact hdel
  case onTime =>
    rw [htimer]
    intro hexact
    have hon := h.onTime (hexact.congr rfl rfl rfl)
    constructor
    case near =>
      rw [htimer, hcalled, hdue]
      exact hon.near
    case waits =>
      intro τ hw
      rw [htimer, hcalled, hdue]
      obtain ⟨hpending, hbe⟩ := hon.waits τ (hwaits τ hw)
      exact ⟨⟨hpending.round, hpending.near, hpending.visited⟩, hbe⟩
    case taken =>
      intro b' hb' ho'
      obtain ⟨b, hb, ho, htick⟩ := htaken b' hb' ho'
      rw [htimer, hcalled, hdue, htick]
      exact hon.taken b hb ho

theorem at_of_slots (h : (slots m).At c k o) : m.wheel.At c k o := by
  cases hb : m.batch with
  | none => rwa [slots_of_idle hb] at h
  | some b =>
    rw [slots_of_batch hb] at h
    exact (Wheel.at_slotErase.mp h).1

/-- The steps that neither put the timer into a slot nor are those of a tick. -/
theorem waits_of_wheel (hbatch : s'.mgr.batch = s.mgr.batch) (htime : s'.time = s.time)
    (hcurr : s'.mgr.wheel.currSlot = s.mgr.wheel.currSlot)
    (hat : ∀ c k, s'.mgr.wheel.At c k o → s.mgr.wheel.At c k o)
    (hids : ∀ b, s.mgr.batch = some b → ∀ o' ∈ leaving b,
      (s'.mgr.wheel.timer o').id = (s.mgr.wheel.timer o').id) (hw : Waits s' o τ) : Waits s o τ := by
  cases hw with
  | @slot c k h hrest =>
    rw [htime, hcurr]
    cases hb : s.mgr.batch with
    | none =>
      refine .slot (k := k) ?_ (by rw [rest_of_idle hb]; exact List.not_mem_nil)
      rw [slots_of_idle hb]
      exact hat c k (at_of_slots h)
    | some b =>
      rw [rest_of_batch (hbatch.trans hb), ← rest_of_batch hb] at hrest
      rw [slots_of_batch (hbatch.trans hb)] at h
      refine .slot (k := k) ?_ hrest
      rw [slots_of_batch hb]
      exact at_inSlots rfl (hat c k) (fun o' ho' => ⟨ho', hids b hb o' ho'⟩) h
  | rest hb ho => exact .rest (hbatch ▸ hb) ho

theorem tracked_newTimer (h : Good s.mgr) (ht : Tracked s o) (type : TimerType) (interval : Int64)
    (start : UInt32) (bePoint : Int64) : Tracked
      { s with mgr := { s.mgr with wheel := s.mgr.wheel.newTimer type interval start bePoint } } o := by
  have hother {o' : ℕ} (hne : o' ≠ s.mgr.wheel.made) :
      (s.mgr.wheel.newTimer type interval start bePoint).timer o' = s.mgr.wheel.timer o' :=
    Wheel.setTimer_of_ne hne _
  by_cases ho : o = s.mgr.wheel.made
  · subst ho
    have hself : (s.mgr.wheel.newTimer type interval start bePoint).timer s.mgr.wheel.made =
        { type, interval, start, bePoint } := Wheel.setTimer_self ..
    have hpoint := congrArg Timer.tickPoint hself
    have hdel := congrArg Timer.delflag hself
    have hrun := congrArg Timer.isRunning hself
    refine ⟨fun _ => hpoint, ht.calls, fun hd => ?_, fun _ => ?_⟩
    · rw [hdel] at hd
      cases hd
    · refine onTime_of_new (good_newTimer h type interval start bePoint) ht.calls fun hnew => ?_
      rw [hrun] at hnew
      cases hnew.2
  · refine ht.congr (hother ho) ht.deleted rfl rfl rfl (fun τ => ?_) fun b hb hin => ⟨b, hb, hin, rfl⟩
    refine waits_of_wheel rfl rfl rfl (fun _ _ => id) fun b hb o' ho' => congrArg Timer.id (hother ?_)
    obtain ⟨place, hin⟩ := h.batch b hb
    exact Nat.ne_of_lt (hin.leaving o' ho').2.1

theorem id_setDelete (w : Wheel) (o o' : ℕ) : ((w.setDelete o).timer o').id = (w.timer o').id := by
  by_cases heq : o' = o
  · subst heq
    have hself : (w.setDelete o').timer o' = { w.timer o' with delflag := true } :=
      Wheel.setTimer_self ..
    rw [hself]
  · exact congrArg Timer.id (Wheel.setTimer_of_ne heq _)

theorem calls_setDelete (w : Wheel) (o o' : ℕ) :
    TimerPlaces.calls (w.setDelete o) o' = TimerPlaces.calls w o' :=
  (calls_append (w.setTimer o _) (.setDelete o) o').trans (by simp [TimerPlaces.calls, Wheel.setTimer])

theorem tracked_setDelete (ht : Tracked s o) (hne : o ≠ o') :
    Tracked { s with mgr := { s.mgr with wheel := s.mgr.wheel.setDelete o' } } o := by
  refine ht.congr (Wheel.setTimer_of_ne hne _) ht.deleted (calls_setDelete _ _ _) rfl rfl (fun τ => ?_)
    fun b hb hin => ⟨b, hb, hin, rfl⟩
  exact waits_of_wheel rfl rfl rfl (fun _ _ => id) fun _ _ o₁ _ => id_setDelete _ o' o₁

/-! ### A timer is attached -/

theorem at_of_attachNew {start : UInt32} (h : (w.attachNew o start).At c k o') :
    w.At c k o' ∨ o' = o ∧ (w.timer o).delflag = false ∧
      c = w.slotNum ((w.timer o).begin w.nextID start).ticks := by
  cases hdel : (w.timer o).delflag with
  | true =>
    rw [Wheel.attachNew_of_deleted hdel] at h
    exact Or.inl h
  | false =>
    rw [Wheel.attachNew_eq hdel] at h
    rcases Wheel.at_slotAdd.mp h with hat | ⟨hc, -, ho, -⟩
    · exact Or.inl hat
    · exact Or.inr ⟨ho, rfl, hc⟩

theorem tracked_addTimer_ne (h : Good s.mgr) (ht : Tracked s o) (hne : o ≠ o')
    (hrun : ¬ (s.mgr.wheel.timer o').isRunning = true) {point : ℤ} :
    Tracked { s with mgr := { s.mgr with wheel := TimerManager.addTimer s.mgr.wheel o' }
                     due := Function.update s.due o' point } o := by
  have hdue : Function.update s.due o' point o = s.due o := Function.update_of_ne hne _ _
  unfold TimerManager.addTimer
  split_ifs with hstart
  · refine ht.congr rfl ht.deleted rfl rfl hdue (fun τ => ?_) fun b hb hin => ⟨b, hb, hin, rfl⟩
    exact waits_of_wheel rfl rfl rfl (fun _ _ => id) fun _ _ _ _ => rfl
  · have hkept := Wheel.kept_attachNew s.mgr.wheel o' (s.mgr.wheel.timer o').start
    have hcalls : TimerPlaces.calls (s.mgr.wheel.attachNew o' (s.mgr.wheel.timer o').start) o =
        TimerPlaces.calls s.mgr.wheel o := by
      unfold TimerPlaces.calls
      rw [hkept.events]
    refine ht.congr (hkept.other o hne) ht.deleted hcalls rfl hdue (fun τ => ?_)
      fun b hb hin => ⟨b, hb, hin, rfl⟩
    refine waits_of_wheel rfl rfl (Wheel.currSlot_attachNew ..) (fun c k hat => ?_) fun b hb o₁ ho₁ => ?_
    · exact (at_of_attachNew hat).resolve_right fun hh => hne hh.1
    · obtain ⟨place, hin⟩ := h.batch b hb
      refine congrArg Timer.id (hkept.other o₁ ?_)
      rintro rfl
      exact hrun (hin.leaving o₁ ho₁).2.2

/-- **The timer itself is attached.** -/
theorem tracked_addTimer (h : Good s.mgr) (ht : Tracked s o)
    (h' : Good { s.mgr with wheel := TimerManager.addTimer s.mgr.wheel o })
    (hrun : ¬ (s.mgr.wheel.timer o).isRunning = true) (ha : s.Allowed (.addTimer o)) :
    Tracked { s with mgr := { s.mgr with wheel := TimerManager.addTimer s.mgr.wheel o }
                     due := Function.update s.due o (s.mgr.wheel.timer o).bePoint.toInt } o := by
  have hcalls : ¬ 0 < TimerPlaces.calls s.mgr.wheel o := fun hpos => hrun (known_of_calls h hpos).2
  have hzero : (s.called o).length = 0 := by
    rw [ht.calls]
    omega
  have hdel : (s.mgr.wheel.timer o).delflag = false := by
    cases hd : (s.mgr.wheel.timer o).delflag with
    | true => exact absurd (ht.deleted hd).2 hcalls
    | false => rfl
  have hpoint := ht.unvisited (Bool.eq_false_iff.mpr hrun)
  revert h'
  unfold TimerManager.addTimer
  split_ifs with hstart
  · intro h'
    refine ⟨ht.unvisited, ht.calls, ht.deleted, fun _ => ?_⟩
    exact onTime_of_new h' ht.calls fun hnew => hrun hnew.2
  intro h'
  have htimer : (s.mgr.wheel.attachNew o (s.mgr.wheel.timer o).start).timer o =
      (s.mgr.wheel.timer o).begin s.mgr.wheel.nextID (s.mgr.wheel.timer o).start := by
    rw [Wheel.attachNew_eq hdel]
    exact Wheel.setTimer_self ..
  have hevents := (Wheel.kept_attachNew s.mgr.wheel o (s.mgr.wheel.timer o).start).events
  have hbegin := pending_begin s.mgr.wheel.nextID hpoint ha.1 ha.2
  constructor
  case unvisited =>
    rw [htimer]
    intro hno
    cases hno
  case calls =>
    unfold TimerPlaces.calls
    rw [hevents]
    exact ht.calls
  case deleted =>
    rw [htimer]
    intro hd
    exact absurd (hdel.symm.trans hd) Bool.false_ne_true
  case onTime =>
    intro _
    constructor
    case near =>
      intro n τ hn
      have hlt : n < (s.called o).length := (List.getElem?_eq_some_iff.mp hn).1
      omega
    case waits =>
      intro τ hw
      cases hw with
      | @slot c k hat _ =>
        obtain ⟨-, -, rfl⟩ := (at_of_attachNew (at_of_slots hat)).resolve_left
          fun hold => hrun (isRunning_of_at h hold)
        dsimp only
        rw [Wheel.currSlot_attachNew, nextVisit_slotNum _ h.curr, htimer, Function.update_self, hzero]
        exact ⟨hbegin, by simp [Timer.begin]⟩
      | rest hb ho => exact absurd (known_of_waits h (.rest hb ho)).2 hrun
    case taken => exact fun b hb ho => absurd (known_of_taken h hb ho).2 hrun

end

end ChatShow.CommBase.TimerClock
