import ChatShow.CommBase.TimerWheel
import ChatShow.Lib.Runs

/-! # The single timer manager

`SingleTimerManager` has the wheel of `TimerManager`, and calls the timers elsewhere: `OnTick` takes the
timers that are due out of their slot and puts them into `m_timeout`, and `Tick`, in a thread of its
user, calls them. `OnTick` calls nothing and is one step. `Tick` takes several, since callbacks attach
and delete timers: it takes the list (`tick`), calls one timer after the other (`turn`) and attaches
again at its end (`endTick`). -/

namespace ChatShow.CommBase.SingleTimerMgr

open ChatShow.CommBase.TimerWheel ChatShow.Lib.Maps ChatShow.Lib.Runs

/-- A call of `Tick` in progress. -/
structure Batch where
  tick : Int64
  /-- `timeoutTimer` from `it` on -/
  rest : List ℕ
  /-- `timeoutTimer` before `it` -/
  called : List ℕ := []

structure SingleTimerManager where
  wheel : Wheel := {}
  /-- `m_timeout` -/
  timeout : List ℕ := []
  batch : Option Batch := none

inductive Label
  /-- `NEW Timer()`, and what is set -/
  | newTimer (type : TimerType) (interval : Int64) (start : UInt32) (bePoint : Int64)
  | addTimer (o : ℕ)
  | setDelete (o : ℕ)
  | onTick (tick : Int64)
  | tick (tick : Int64)
  | turn
  /-- `next` is what `GetNextMonthDay` returns for each timer -/
  | endTick (next : ℕ → Int64)

/-- What `SingleSlot::OnTick` works on. -/
structure Visit where
  wheel : Wheel
  /-- `lTimeoutTimer` -/
  timeout : List ℕ := []
  /-- `lResetTimer` -/
  reset : List ℕ := []

namespace SingleTimerManager

/-- `AddTimer` of a new timer, which calls `AttachTimer(timer, 0, 1)`. -/
def addTimer (w : Wheel) (o : ℕ) : Wheel :=
  if (w.timer o).start ≤ 0 then w else w.attachNew o ((w.timer o).start - 100)

/-- A turn of the first loop of `SingleSlot::OnTick`. -/
def visit (tick : Int64) (slot : ℕ) (v : Visit) : UInt32 × ℕ → Visit
  | (k, o) =>
    if (v.wheel.timer o).delflag then { v with wheel := v.wheel.eraseAt slot k }
    else
      let (due, t) := (v.wheel.timer o).onTickEx tick
      let w := v.wheel.setTimer o t
      if due then { v with wheel := w.eraseAt slot k, timeout := v.timeout ++ [o] }
      else if t.tickPoint ≤ 0 then { v with wheel := w.setTimer o (t.firstVisit tick) }
      else if t.isLate tick then { v with wheel := w.eraseAt slot k, reset := v.reset ++ [o] }
      else { v with wheel := w.setTimer o t.nextRound }

/-- A turn of the second loop. -/
def resetTimer (tick : Int64) (slot : ℕ) (w : Wheel) (o : ℕ) : Wheel :=
  let t := w.timer o
  match w.addTimer o (t.curslot tick slot) with
  | (0, w) => w.setTimer o t.moved
  | (_, w) => w.setTimer o t.nextRound

/-- `SingleSlot::OnTick`: the timers that are due, and the wheel. -/
def slotOnTick (w : Wheel) (slot : ℕ) (tick : Int64) : List ℕ × Wheel :=
  let v := (w.slots slot).toList.foldl (visit tick slot) { wheel := w }
  (v.timeout, v.reset.foldl (resetTimer tick slot) v.wheel)

def onTick (s : SingleTimerManager) (tick : Int64) : SingleTimerManager :=
  let (slot, w) := s.wheel.advance
  let (timeoutTimer, w) := slotOnTick w slot tick
  { s with wheel := w, timeout := s.timeout ++ timeoutTimer }

/-- `Tick` up to the first callback. -/
def startTick (s : SingleTimerManager) (tick : Int64) : SingleTimerManager :=
  if s.timeout.isEmpty then s
  else { s with timeout := [], batch := some { tick := tick, rest := s.timeout } }

/-- A turn of the first loop of `Tick`. -/
def turn (s : SingleTimerManager) (b : Batch) (o : ℕ) (rest : List ℕ) : SingleTimerManager :=
  { s with
    wheel := if (s.wheel.timer o).delflag then s.wheel else s.wheel.onTimeout o
    batch := some { b with rest := rest, called := b.called ++ [o] } }

/-- A turn of the second loop of `Tick`. -/
def attach (tick : Int64) (next : ℕ → Int64) (w : Wheel) (o : ℕ) : Wheel :=
  if (w.timer o).type ≠ .onceTimer then w.attachAgain o tick (next o) else w

def endTick (s : SingleTimerManager) (b : Batch) (next : ℕ → Int64) : SingleTimerManager :=
  { s with wheel := b.called.foldl (attach b.tick next) s.wheel, batch := none }

/-- A timer is attached once. -/
def step (s : SingleTimerManager) : Label → Option SingleTimerManager
  | .newTimer type interval start bePoint =>
    some { s with wheel := s.wheel.newTimer type interval start bePoint }
  | .addTimer o =>
    if o < s.wheel.made ∧ ¬ (s.wheel.timer o).isRunning then
      some { s with wheel := addTimer s.wheel o }
    else none
  | .setDelete o =>
    if o < s.wheel.made then some { s with wheel := s.wheel.setDelete o } else none
  | .onTick tick => some (s.onTick tick)
  | .tick tick =>
    match s.batch with
    | none => some (s.startTick tick)
    | some _ => none
  | .turn =>
    match s.batch with
    | some b =>
      match b.rest with
      | o :: rest => some (s.turn b o rest)
      | [] => none
    | none => none
  | .endTick next =>
    match s.batch with
    | some b => if b.rest.isEmpty then some (s.endTick b next) else none
    | none => none

/-- Everything that a step can do. -/
inductive Stepped (s : SingleTimerManager) : Label → SingleTimerManager → Prop
  | newTimer (type : TimerType) (interval : Int64) (start : UInt32) (bePoint : Int64) :
      Stepped s (.newTimer type interval start bePoint)
        { s with wheel := s.wheel.newTimer type interval start bePoint }
  | addTimer {o : ℕ} (ho : o < s.wheel.made) (hrun : ¬ (s.wheel.timer o).isRunning = true) :
      Stepped s (.addTimer o) { s with wheel := addTimer s.wheel o }
  | setDelete {o : ℕ} (ho : o < s.wheel.made) :
      Stepped s (.setDelete o) { s with wheel := s.wheel.setDelete o }
  | onTick (tick : Int64) : Stepped s (.onTick tick) (s.onTick tick)
  | tick (tick : Int64) (hb : s.batch = none) : Stepped s (.tick tick) (s.startTick tick)
  | turn {b : Batch} {o : ℕ} {rest : List ℕ} (hb : s.batch = some b) (hrest : b.rest = o :: rest) :
      Stepped s .turn (s.turn b o rest)
  | endTick {b : Batch} (next : ℕ → Int64) (hb : s.batch = some b) (hrest : b.rest = []) :
      Stepped s (.endTick next) (s.endTick b next)

theorem stepped {s s' : SingleTimerManager} {a : Label} (h : s.step a = some s') : Stepped s a s' := by
  unfold step at h
  cases a with
  | newTimer type interval start bePoint =>
    cases h
    exact .newTimer type interval start bePoint
  | addTimer o =>
    obtain ⟨ho, h⟩ := Option.ite_none_right_eq_some.mp h
    cases h
    exact .addTimer ho.1 ho.2
  | setDelete o =>
    obtain ⟨ho, h⟩ := Option.ite_none_right_eq_some.mp h
    cases h
    exact .setDelete ho
  | onTick tick =>
    cases h
    exact .onTick tick
  | tick tick =>
    dsimp only at h
    split at h
    next hb =>
      cases h
      exact .tick tick hb
    next => cases h
  | turn =>
    dsimp only at h
    split at h
    next b hb =>
      split at h
      next o rest hrest =>
        cases h
        exact .turn hb hrest
      next => cases h
    next => cases h
  | endTick next =>
    dsimp only at h
    split at h
    next b hb =>
      obtain ⟨hrest, h⟩ := Option.ite_none_right_eq_some.mp h
      cases h
      exact .endTick next hb (List.isEmpty_iff.mp hrest)
    next => cases h

/-! ### What the loops of a slot do -/

/-- Everything that a visit can do: a timer goes, is taken as due or late, or stays. -/
inductive Visited (tick : Int64) (slot : ℕ) (v : Visit) (k : UInt32) (o : ℕ) : Visit → Prop
  | deleted (hdel : (v.wheel.timer o).delflag = true) :
      Visited tick slot v k o { v with wheel := v.wheel.eraseAt slot k }
  | due {t : Timer} (ht : (v.wheel.timer o).Same t) :
      Visited tick slot v k o
        { v with wheel := (v.wheel.setTimer o t).eraseAt slot k, timeout := v.timeout ++ [o] }
  | late {t : Timer} (ht : (v.wheel.timer o).Same t) (hlate : t.isLate tick = true) :
      Visited tick slot v k o
        { v with wheel := (v.wheel.setTimer o t).eraseAt slot k, reset := v.reset ++ [o] }
  | stays {t : Timer} (ht : (v.wheel.timer o).Same t) :
      Visited tick slot v k o { v with wheel := v.wheel.setTimer o t }

theorem visited (tick : Int64) (slot : ℕ) (v : Visit) (k : UInt32) (o : ℕ) :
    Visited tick slot v k o (visit tick slot v (k, o)) := by
  have ht := Timer.same_onTickEx (v.wheel.timer o) tick
  unfold visit
  dsimp only
  generalize (v.wheel.timer o).onTickEx tick = r at ht ⊢
  obtain ⟨due, t⟩ := r
  dsimp only at ht ⊢
  split_ifs with hdel hdue hfirst hlate
  · exact .deleted hdel
  · exact .due ht
  · rw [Wheel.setTimer_setTimer]
    exact .stays (ht.trans ⟨rfl, rfl, rfl, rfl⟩)
  · exact .late ht hlate
  · rw [Wheel.setTimer_setTimer]
    exact .stays (ht.trans ⟨rfl, rfl, rfl, rfl⟩)

/-- The entries behind the first are in the slot under other ids. -/
theorem entries_tail {w : Wheel} {slot o : ℕ} {k : UInt32} {l : List (UInt32 × ℕ)}
    (hnodup : ((k, o) :: l).Nodup) (hent : ∀ e ∈ (k, o) :: l, w.At slot e.1 e.2) :
    ∀ e ∈ l, w.At slot e.1 e.2 ∧ ¬ (slot = slot ∧ e.1 = k) := by
  intro e he
  have hat := hent e (List.mem_cons_of_mem _ he)
  refine ⟨hat, fun hk => (List.nodup_cons.mp hnodup).1 ?_⟩
  obtain ⟨k', o'⟩ := e
  obtain ⟨-, rfl⟩ := hk
  cases Option.some.inj ((hent _ List.mem_cons_self).symm.trans hat)
  exact he

/-- A timer that is late is put into a slot. -/
theorem resetTimer_eq {w : Wheel} {tick : Int64} {slot o : ℕ} (hlate : (w.timer o).isLate tick = true)
    (hslot : slot < SLOT_COUNT) :
    ∃ c < SLOT_COUNT, resetTimer tick slot w o = (w.slotAdd c o).setTimer o (w.timer o).moved := by
  obtain ⟨hpos, hlt, -⟩ := Timer.curslot_of_isLate hlate hslot
  refine ⟨((w.timer o).curslot tick slot).toNat, by omega, ?_⟩
  unfold resetTimer Wheel.addTimer
  dsimp only
  rw [if_neg (by omega)]
  rfl

theorem currSlot_visit (tick : Int64) (slot : ℕ) (v : Visit) (e : UInt32 × ℕ) :
    (visit tick slot v e).wheel.currSlot = v.wheel.currSlot := by
  obtain ⟨k, o⟩ := e
  have hvisited := visited tick slot v k o
  generalize visit tick slot v (k, o) = v' at hvisited
  cases hvisited <;> rfl

theorem currSlot_resetTimer (tick : Int64) (slot : ℕ) (w : Wheel) (o : ℕ) :
    (resetTimer tick slot w o).currSlot = w.currSlot := by
  unfold resetTimer Wheel.addTimer
  dsimp only
  split_ifs <;> rfl

theorem currSlot_slotOnTick (w : Wheel) (slot : ℕ) (tick : Int64) :
    (slotOnTick w slot tick).2.currSlot = w.currSlot :=
  (foldl_keep Wheel.currSlot (currSlot_resetTimer tick slot) _ _).trans
    (foldl_keep (fun v : Visit => v.wheel.currSlot) (currSlot_visit tick slot) _ _)

theorem currSlot_attach (tick : Int64) (next : ℕ → Int64) (w : Wheel) (o : ℕ) :
    (attach tick next w o).currSlot = w.currSlot := by
  unfold attach
  split_ifs
  · exact Wheel.currSlot_attachAgain w o tick _
  · rfl

end SingleTimerManager

end ChatShow.CommBase.SingleTimerMgr
