import ChatShow.CommBase.TimerWheel
import ChatShow.Lib.Runs

/-! # The timer manager

`TimerManager::OnTick` in steps: it takes the timers of the slot (`onTick`), calls `OnTick` of one after
the other (`turn`, and `returned` when the callback is through), and erases and attaches again at its
end (`endTick`). What callbacks do, and other threads, is done between these steps. -/

namespace ChatShow.CommBase.TimerMgr

open ChatShow.CommBase.TimerWheel ChatShow.Lib.Maps

/-- A call of `OnTick` in progress. -/
structure Batch where
  slot : ℕ
  tick : Int64
  /-- `lTimeoutTimerAll` from `itList` on -/
  rest : List ℕ
  /-- `lTimeoutTimerAll` before `itList` -/
  timeoutAll : List ℕ := []
  /-- `lTimeoutTimerLoop` -/
  timeoutLoop : List ℕ := []
  /-- the timer whose callback has been called -/
  calling : Option ℕ := none

structure TimerManager where
  wheel : Wheel := {}
  batch : Option Batch := none

inductive Label
  /-- `NEW Timer()`, and what is set -/
  | newTimer (type : TimerType) (interval : Int64) (start : UInt32) (bePoint : Int64)
  | addTimer (o : ℕ)
  | setDelete (o : ℕ)
  | onTick (tick : Int64)
  | turn
  | returned
  /-- `next` is what `GetNextMonthDay` returns for each timer -/
  | endTick (next : ℕ → Int64)

namespace TimerManager

/-- `AddTimer` of a new timer, which calls `AttachTimer(timer, 0, 1)`. -/
def addTimer (w : Wheel) (o : ℕ) : Wheel :=
  if (w.timer o).start ≤ 0 then w else w.attachNew o (w.timer o).start

/-- The first loop of `Slot::OnTick`. -/
def collect (w : Wheel) (slot : ℕ) : List ℕ × Wheel :=
  let deleted := keysOf (w.slots slot) fun o => (w.timer o).delflag
  (w.timersOf slot fun o => !(w.timer o).delflag,
    { w with slots := Function.update w.slots slot (eraseAll (w.slots slot) deleted) })

def onTick (s : TimerManager) (tick : Int64) : TimerManager :=
  let (slot, w) := s.wheel.advance
  let (rest, w) := collect w slot
  { wheel := w, batch := some { slot := slot, tick := tick, rest := rest } }

/-- A turn of the second loop of `Slot::OnTick`, up to the callback. -/
def turn (w : Wheel) (b : Batch) (o : ℕ) (rest : List ℕ) : TimerManager :=
  let (due, t) := (w.timer o).onTickEx b.tick
  let b := { b with rest := rest }
  if due then { wheel := (w.setTimer o t).onTimeout o, batch := some { b with calling := some o } }
  else if t.tickPoint ≤ 0 then { wheel := w.setTimer o (t.firstVisit b.tick), batch := some b }
  else if t.isLate b.tick then
    match (w.setTimer o t).addTimer o (t.curslot b.tick b.slot) with
    | (0, w) =>
      { wheel := w.setTimer o t.moved, batch := some { b with timeoutAll := b.timeoutAll ++ [o] } }
    | (_, w) => { wheel := w.setTimer o t.nextRound, batch := some b }
  else { wheel := w.setTimer o t.nextRound, batch := some b }

/-- The turn after the callback. -/
def returned (w : Wheel) (b : Batch) (o : ℕ) : TimerManager :=
  let b := { b with calling := none, timeoutAll := b.timeoutAll ++ [o] }
  if (w.timer o).type ≠ .onceTimer then
    { wheel := w, batch := some { b with timeoutLoop := b.timeoutLoop ++ [o] } }
  else { wheel := w.setDelete o, batch := some b }

/-- The end of `Slot::OnTick`, and of `TimerManager::OnTick`. -/
def endTick (w : Wheel) (b : Batch) (next : ℕ → Int64) : TimerManager :=
  { wheel := b.timeoutLoop.foldl (fun w o => w.attachAgain o b.tick (next o))
      (w.slotErase b.slot b.timeoutAll) }

/-- A timer is attached once. -/
def step (s : TimerManager) : Label → Option TimerManager
  | .newTimer type interval start bePoint =>
    some { s with wheel := s.wheel.newTimer type interval start bePoint }
  | .addTimer o =>
    if o < s.wheel.made ∧ ¬ (s.wheel.timer o).isRunning then
      some { s with wheel := addTimer s.wheel o }
    else none
  | .setDelete o =>
    if o < s.wheel.made then some { s with wheel := s.wheel.setDelete o } else none
  | .onTick tick =>
    match s.batch with
    | none => some (s.onTick tick)
    | some _ => none
  | .turn =>
    match s.batch with
    | some b =>
      match b.calling, b.rest with
      | none, o :: rest => some (turn s.wheel b o rest)
      | _, _ => none
    | none => none
  | .returned =>
    match s.batch with
    | some b =>
      match b.calling with
      | some o => some (returned s.wheel b o)
      | none => none
    | none => none
  | .endTick next =>
    match s.batch with
    | some b =>
      match b.calling, b.rest with
      | none, [] => some (endTick s.wheel b next)
      | _, _ => none
    | none => none

/-- Everything that a step can do. -/
inductive Stepped (s : TimerManager) : Label → TimerManager → Prop
  | newTimer (type : TimerType) (interval : Int64) (start : UInt32) (bePoint : Int64) :
      Stepped s (.newTimer type interval start bePoint)
        { s with wheel := s.wheel.newTimer type interval start bePoint }
  | addTimer {o : ℕ} (ho : o < s.wheel.made) (hrun : ¬ (s.wheel.timer o).isRunning = true) :
      Stepped s (.addTimer o) { s with wheel := addTimer s.wheel o }
  | setDelete {o : ℕ} (ho : o < s.wheel.made) :
      Stepped s (.setDelete o) { s with wheel := s.wheel.setDelete o }
  | onTick (tick : Int64) (hb : s.batch = none) : Stepped s (.onTick tick) (s.onTick tick)
  | turn {b : Batch} {o : ℕ} {rest : List ℕ} (hb : s.batch = some b) (hcalling : b.calling = none)
      (hrest : b.rest = o :: rest) : Stepped s .turn (turn s.wheel b o rest)
  | returned {b : Batch} {o : ℕ} (hb : s.batch = some b) (hcalling : b.calling = some o) :
      Stepped s .returned (returned s.wheel b o)
  | endTick {b : Batch} (next : ℕ → Int64) (hb : s.batch = some b) (hcalling : b.calling = none)
      (hrest : b.rest = []) : Stepped s (.endTick next) (endTick s.wheel b next)

theorem stepped {s s' : TimerManager} {a : Label} (h : s.step a = some s') : Stepped s a s' := by
  unfold step at h
  cases a with
  | newTimer type interval start bePoint =>
    cases h
    exact .newTimer type interval start bePoint
  | addTimer o =>
    obtain ⟨ho, h⟩ := Option.ite_none_right_eq_some.mp h
    cases h
    exact .addTimer ho.1 ho.2
  | setDelete o =>
    obtain ⟨ho, h⟩ := Option.ite_none_right_eq_some.mp h
    cases h
    exact .setDelete ho
  | onTick tick =>
    dsimp only at h
    split at h
    next hb =>
      cases h
      exact .onTick tick hb
    next => cases h
  | turn =>
    dsimp only at h
    split at h
    next b hb =>
      split at h
      next hcalling hrest =>
        cases h
        exact .turn hb hcalling hrest
      next => cases h
    next => cases h
  | returned =>
    dsimp only at h
    split at h
    next b hb =>
      split at h
      next o hcalling =>
        cases h
        exact .returned hb hcalling
      next => cases h
    next => cases h
  | endTick next =>
    dsimp only at h
    split at h
    next b hb =>
      split at h
      next hcalling hrest =>
        cases h
        exact .endTick next hb hcalling hrest
      next => cases h
    next => cases h

/-! ### What the steps of a tick do -/

section

variable {w : Wheel} {b : Batch} {c c' o : ℕ} {k : UInt32}

theorem mem_collect : o ∈ (collect w c).1 ↔ (∃ k, w.At c k o) ∧ (w.timer o).delflag = false := by
  unfold collect
  rw [Wheel.mem_timersOf, Bool.not_eq_true']

/-- The timers that are deleted go. -/
theorem at_collect :
    (collect w c).2.At c' k o ↔ w.At c' k o ∧ ¬ (c' = c ∧ (w.timer o).delflag = true) := by
  unfold collect Wheel.At
  dsimp only
  by_cases hc : c' = c
  · subst hc
    rw [Function.update_self, get_eraseAll]
    split_ifs with h
    · obtain ⟨v, hv, hdel⟩ := mem_keysOf.mp h
      refine iff_of_false (by simp) ?_
      rintro ⟨hat, hno⟩
      rw [hat] at hv
      cases hv
      exact hno ⟨rfl, hdel⟩
    · refine (and_iff_left_of_imp fun hat hdel => h ?_).symm
      exact mem_keysOf.mpr ⟨o, hat, hdel.2⟩
  · rw [Function.update_of_ne hc]
    exact (and_iff_left fun hh => hc hh.1).symm

/-- Everything that a turn can do: the timer is called, or it stays, or it is moved to another slot. -/
inductive Turned (w : Wheel) (b : Batch) (o : ℕ) (rest : List ℕ) : TimerManager → Prop
  | called {t : Timer} (ht : Timer.Same (w.timer o) t) (hdue : ((w.timer o).onTickEx b.tick).1 = true) :
      Turned w b o rest
        { wheel := (w.setTimer o t).onTimeout o, batch := some { b with rest := rest, calling := some o } }
  | stays {t : Timer} (ht : Timer.Same (w.timer o) t) :
      Turned w b o rest { wheel := w.setTimer o t, batch := some { b with rest := rest } }
  | moved {t : Timer} {slot : ℕ} (ht : Timer.Same (w.timer o) t) (hslot : slot < SLOT_COUNT)
      (hne : b.slot < SLOT_COUNT → slot ≠ b.slot) :
      Turned w b o rest
        { wheel := (w.setTimer o t).slotAdd slot o
          batch := some { b with rest := rest, timeoutAll := b.timeoutAll ++ [o] } }

theorem turned (w : Wheel) (b : Batch) (o : ℕ) (rest : List ℕ) :
    Turned w b o rest (turn w b o rest) := by
  have ht := Timer.same_onTickEx (w.timer o) b.tick
  unfold turn
  generalize hr : (w.timer o).onTickEx b.tick = r at ht
  obtain ⟨due, t⟩ := r
  dsimp only
  split_ifs with hdue hfirst hlate
  · exact .called ht (by rw [hr, hdue])
  · exact .stays (ht.trans ⟨rfl, rfl, rfl, rfl⟩)
  · unfold Wheel.addTimer
    split_ifs with hslot
    · change Turned w b o rest { wheel := (w.setTimer o t).setTimer o t.nextRound, batch := _ }
      rw [Wheel.setTimer_setTimer]
      exact .stays (ht.trans ⟨rfl, rfl, rfl, rfl⟩)
    · have hmoved : Timer.Same t t.moved := ⟨rfl, rfl, rfl, rfl⟩
      change Turned w b o rest
        { wheel := ((w.setTimer o t).slotAdd _ o).setTimer o t.moved, batch := _ }
      rw [Wheel.slotAdd_setTimer hmoved]
      refine .moved (ht.trans hmoved) (by omega) fun hb heq => ?_
      obtain ⟨hpos, -, hne⟩ := Timer.curslot_of_isLate hlate hb
      omega
  · exact .stays (ht.trans ⟨rfl, rfl, rfl, rfl⟩)

end

end TimerManager

end ChatShow.CommBase.TimerMgr
