import ChatShow.Lib.Maps
import Mathlib.Data.Int.Notation
import Mathlib.Data.List.Nodup
import Mathlib.Logic.Function.Basic

/-! # Timers on a wheel

`Timer`, and what `TimerManager` and `SingleTimerManager` have in common: a wheel of slots, of which one
is visited at each tick, and each slot has timers by their ids. A timer is attached to the slot where it
is due, and stays there for some rounds of the wheel; where the ticks are late it is moved back.

Timers are objects with numbers, in the order they were made. `events` is the history of the calls of
`SetDelete` and of the callbacks. -/

namespace ChatShow.CommBase.TimerWheel

open ChatShow.Lib.Maps Std

def SLOT_COUNT : ℕ := 3000
def SLOT_CHANGE_TIME : ℕ := 100

/-! ### A timer -/

inductive TimerType
  | loopTimer
  | onceTimer
  | monthLoopTimer
deriving DecidableEq

structure Timer where
  type : TimerType := .onceTimer
  id : UInt32 := 0
  interval : Int64 := 0
  start : UInt32 := 0
  bePoint : Int64 := 0
  tickPoint : Int64 := 0
  elapseRound : UInt16 := 0
  delflag : Bool := false
  ticks : UInt32 := 0
  round : Int32 := 0
  /-- whether `m_tm` is set -/
  isRunning : Bool := false
deriving DecidableEq

namespace Timer

/-- The time of a round of the wheel. -/
def roundTime : Int64 := Int64.ofNat (SLOT_CHANGE_TIME * SLOT_COUNT)

/-- `OnTickEx`: whether the timer is due. `OnTick` is the same, and calls the callback where it is. -/
def onTickEx (t : Timer) (tick : Int64) : Bool × Timer :=
  if tick - t.bePoint ≥ 0 then (true, t)
  else
    let t := { t with round := t.round - 1 }
    (t.round ≤ 0, t)

/-- The time of the rounds that have passed, an `int`. -/
def elapsed (t : Timer) : Int64 :=
  (Int32.ofNat t.elapseRound.toNat * Int32.ofNat SLOT_CHANGE_TIME * Int32.ofNat SLOT_COUNT).toInt64

/-- By how much the timer is late in its round. -/
def late (t : Timer) (tick : Int64) : Int64 := (tick - t.tickPoint) % roundTime

/-- The timer is to be moved back. -/
def isLate (t : Timer) (tick : Int64) : Bool :=
  tick - t.tickPoint > t.elapsed ∧ t.late tick ≥ Int64.ofNat SLOT_CHANGE_TIME

/-- `curslot`: the slot that a timer of the slot `index` is moved back to. -/
def curslot (t : Timer) (tick : Int64) (index : ℕ) : ℤ :=
  let k : ℤ := (t.late tick / Int64.ofNat SLOT_CHANGE_TIME).toInt
  if index - k < 0 then index - k + SLOT_COUNT else index - k

/-- The first visit of a timer. -/
def firstVisit (t : Timer) (tick : Int64) : Timer := { t with tickPoint := tick, elapseRound := 1 }

def nextRound (t : Timer) : Timer := { t with elapseRound := t.elapseRound + 1 }

/-- What is left to be done once a timer has been moved. -/
def moved (t : Timer) : Timer := { t with tickPoint := t.tickPoint + t.elapsed, elapseRound := 1 }

/-- `AttachTimer` of a new timer: the first ticks are those of `start`. -/
def begin (t : Timer) (id start : UInt32) : Timer :=
  let ticks := start / UInt32.ofNat SLOT_CHANGE_TIME
  { t with
    id := id, ticks := ticks, round := (ticks / UInt32.ofNat SLOT_COUNT + 1).toInt32
    isRunning := true }

/-- `AttachTimer` of a timer that has been due: `next` is what `GetNextMonthDay` returns. -/
def again (t : Timer) (tick next : Int64) : Timer :=
  let interval := if t.type = .monthLoopTimer then next else t.interval
  let sec := interval - tick + t.bePoint
  let ticks := ((if sec < 0 then 0 else sec) / Int64.ofNat SLOT_CHANGE_TIME).toUInt64.toUInt32
  { t with
    interval := interval, ticks := ticks, bePoint := t.bePoint + interval, tickPoint := 0
    elapseRound := 0, round := (ticks / UInt32.ofNat SLOT_COUNT + 1).toInt32, isRunning := true }

/-- A change of a timer by the wheel itself. -/
structure Same (t t' : Timer) : Prop where
  id : t'.id = t.id
  isRunning : t'.isRunning = t.isRunning
  delflag : t'.delflag = t.delflag
  type : t'.type = t.type

theorem Same.trans {t t' t'' : Timer} (h : Same t t') (h' : Same t' t'') : Same t t'' where
  id := h'.id.trans h.id
  isRunning := h'.isRunning.trans h.isRunning
  delflag := h'.delflag.trans h.delflag
  type := h'.type.trans h.type

theorem same_onTickEx (t : Timer) (tick : Int64) : Same t (t.onTickEx tick).2 := by
  unfold Timer.onTickEx
  split_ifs <;> exact ⟨rfl, rfl, rfl, rfl⟩

/-- A timer is moved to another slot of the wheel. -/
theorem curslot_of_isLate {t : Timer} {tick : Int64} {index : ℕ} (h : t.isLate tick = true)
    (hindex : index < SLOT_COUNT) :
    0 ≤ t.curslot tick index ∧ t.curslot tick index < SLOT_COUNT ∧ t.curslot tick index ≠ index := by
  unfold isLate at h
  rw [decide_eq_true_eq] at h
  have hlow : (100 : ℤ) ≤ (t.late tick).toInt := Int64.le_iff_toInt_le.mp h.2
  have hhigh : (t.late tick).toInt < 300000 := by
    unfold late
    rw [Int64.toInt_mod, show roundTime.toInt = 300000 by decide]
    exact Int.tmod_lt_of_pos _ (by decide)
  have hk : (t.late tick / Int64.ofNat SLOT_CHANGE_TIME).toInt = (t.late tick).toInt / 100 := by
    rw [Int64.toInt_div, show (Int64.ofNat SLOT_CHANGE_TIME).toInt = 100 by decide,
      Int.tdiv_eq_ediv_of_nonneg (by omega)]
    exact Int.bmod_eq_of_le (by omega) (by omega)
  unfold SLOT_COUNT at hindex
  unfold curslot
  rw [hk]
  dsimp only
  unfold SLOT_COUNT
  split_ifs <;> omega

end Timer

/-! ### The wheel -/

inductive Event
  | setDelete (o : ℕ)
  | onTimeout (o : ℕ)
deriving DecidableEq

structure Wheel where
  slots : ℕ → TreeMap UInt32 ℕ := fun _ => ∅
  currSlot : ℕ := 0
  lastTimerID : UInt32 := 0
  timer : ℕ → Timer := fun _ => {}
  /-- the timers so far -/
  made : ℕ := 0
  events : List Event := []

namespace Wheel

def setTimer (w : Wheel) (o : ℕ) (t : Timer) : Wheel :=
  { w with timer := Function.update w.timer o t }

/-- `NEW Timer()`, with what is set before it is attached. -/
def newTimer (w : Wheel) (type : TimerType) (interval : Int64) (start : UInt32) (bePoint : Int64) :
    Wheel :=
  { w.setTimer w.made { type := type, interval := interval, start := start, bePoint := bePoint } with
    made := w.made + 1 }

def setDelete (w : Wheel) (o : ℕ) : Wheel :=
  { w.setTimer o { w.timer o with delflag := true } with events := w.events ++ [.setDelete o] }

def onTimeout (w : Wheel) (o : ℕ) : Wheel := { w with events := w.events ++ [.onTimeout o] }

/-- `Slot::AddTimer`: a timer with the same id stays. -/
def slotAdd (w : Wheel) (slot o : ℕ) : Wheel :=
  { w with
    slots := Function.update w.slots slot ((w.slots slot).insertIfNew (w.timer o).id o) }

/-- `AddTimer` with a slot, which is made a `DWORD`: what it returns, and the wheel. -/
def addTimer (w : Wheel) (o : ℕ) (slot : ℤ) : ℤ × Wheel :=
  if slot < 0 ∨ slot ≥ SLOT_COUNT then (-1, w) else (0, w.slotAdd slot.toNat o)

/-- The slot of a timer with so many ticks. -/
def slotNum (w : Wheel) (ticks : UInt32) : ℕ := (w.currSlot + ticks.toNat % SLOT_COUNT) % SLOT_COUNT

/-- The id that a new timer gets. -/
def nextID (w : Wheel) : UInt32 := if w.lastTimerID + 1 = 0 then 1 else w.lastTimerID + 1

/-- `AttachTimer` of a new timer. -/
def attachNew (w : Wheel) (o : ℕ) (start : UInt32) : Wheel :=
  if (w.timer o).delflag then w
  else
    let t := (w.timer o).begin w.nextID start
    let w := { w.setTimer o t with lastTimerID := w.nextID }
    w.slotAdd (w.slotNum t.ticks) o

/-- `AttachTimer` of a timer that has been due. -/
def attachAgain (w : Wheel) (o : ℕ) (tick next : Int64) : Wheel :=
  if (w.timer o).delflag then w
  else
    let t := (w.timer o).again tick next
    let w := w.setTimer o t
    w.slotAdd (w.slotNum t.ticks) o

/-- The slot of a tick, and the wheel that has gone on to the next. -/
def advance (w : Wheel) : ℕ × Wheel :=
  (w.currSlot, { w with currSlot := if w.currSlot + 1 ≥ SLOT_COUNT then 0 else w.currSlot + 1 })

/-- The timers of a slot that meet `p`, in the order of the map. -/
def timersOf (w : Wheel) (slot : ℕ) (p : ℕ → Bool) : List ℕ :=
  ((w.slots slot).toList.map Prod.snd).filter p

/-- Timers are erased from a slot by their ids. -/
def slotErase (w : Wheel) (slot : ℕ) (os : List ℕ) : Wheel :=
  { w with
    slots := Function.update w.slots slot (eraseAll (w.slots slot) (os.map fun o => (w.timer o).id)) }

/-- The timer of an entry is erased from a slot. -/
def eraseAt (w : Wheel) (slot : ℕ) (k : UInt32) : Wheel :=
  { w with slots := Function.update w.slots slot ((w.slots slot).erase k) }

/-- The slot has the timer under the id. -/
def At (w : Wheel) (slot : ℕ) (k : UInt32) (o : ℕ) : Prop := (w.slots slot)[k]? = some o

/-! ### What the slots have -/

section

variable {w : Wheel} {c c' o o' : ℕ} {k : UInt32}

@[simp] theorem timer_slotAdd : (w.slotAdd c o).timer = w.timer := rfl

@[simp] theorem timer_eraseAt : (w.eraseAt c k).timer = w.timer := rfl

theorem at_slotAdd : (w.slotAdd c o).At c' k o' ↔
    w.At c' k o' ∨ c' = c ∧ k = (w.timer o).id ∧ o' = o ∧ (w.slots c)[(w.timer o).id]? = none := by
  unfold At slotAdd
  dsimp only
  by_cases hc : c' = c
  · subst hc
    rw [Function.update_self, get_insertIfNew]
    split_ifs with h
    · obtain ⟨rfl, hnone⟩ := h
      rw [hnone]
      simp [eq_comm]
    · constructor
      · exact Or.inl
      · rintro (hat | ⟨-, hk, -, hnone⟩)
        · exact hat
        · exact absurd ⟨hk.symm, hnone⟩ h
  · rw [Function.update_of_ne hc]
    simp [hc]

theorem at_slotErase {os : List ℕ} : (w.slotErase c os).At c' k o' ↔
    w.At c' k o' ∧ ¬ (c' = c ∧ k ∈ os.map fun o => (w.timer o).id) := by
  unfold At slotErase
  dsimp only
  by_cases hc : c' = c
  · subst hc
    rw [Function.update_self, get_eraseAll]
    split_ifs with h
    · exact iff_of_false (by simp) fun hh => hh.2 ⟨rfl, h⟩
    · exact (and_iff_left fun hh => h hh.2).symm
  · rw [Function.update_of_ne hc]
    exact (and_iff_left fun hh => hc hh.1).symm

theorem at_eraseAt {k' : UInt32} :
    (w.eraseAt c k).At c' k' o' ↔ w.At c' k' o' ∧ ¬ (c' = c ∧ k' = k) := by
  unfold At eraseAt
  dsimp only
  by_cases hc : c' = c
  · subst hc
    rw [Function.update_self, get_erase]
    split_ifs with h
    · exact iff_of_false (by simp) fun hh => hh.2 ⟨rfl, h.symm⟩
    · exact (and_iff_left fun hh => h hh.2.symm).symm
  · rw [Function.update_of_ne hc]
    exact (and_iff_left fun hh => hc hh.1).symm

theorem mem_timersOf {p : ℕ → Bool} : o ∈ w.timersOf c p ↔ (∃ k, w.At c k o) ∧ p o = true := by
  unfold timersOf At
  rw [List.mem_filter, List.mem_map]
  refine and_congr_left fun _ => ⟨?_, ?_⟩
  · rintro ⟨⟨k, o⟩, he, rfl⟩
    exact ⟨k, TreeMap.mem_toList_iff_getElem?_eq_some.mp he⟩
  · rintro ⟨k, hk⟩
    exact ⟨(k, o), TreeMap.mem_toList_iff_getElem?_eq_some.mpr hk, rfl⟩

end

theorem slotErase_nil (w : Wheel) (c : ℕ) : w.slotErase c [] = w := by
  unfold slotErase
  rw [List.map_nil, eraseAll, List.foldl_nil, Function.update_eq_self]

theorem slotErase_append (w : Wheel) (c : ℕ) (os : List ℕ) (o : ℕ) :
    w.slotErase c (os ++ [o]) = (w.slotErase c os).eraseAt c (w.timer o).id := by
  unfold slotErase eraseAt
  dsimp only
  rw [Function.update_self, Function.update_idem, List.map_append, eraseAll, List.foldl_append]
  rfl

theorem slotErase_slotAdd (w : Wheel) {c c' : ℕ} (hne : c' ≠ c) (os : List ℕ) (o : ℕ) :
    (w.slotAdd c' o).slotErase c os = (w.slotErase c os).slotAdd c' o := by
  unfold slotErase slotAdd
  dsimp only
  rw [Function.update_of_ne (Ne.symm hne), Function.update_of_ne hne, Function.update_comm (Ne.symm hne)]

theorem currSlot_advance (w : Wheel) : w.advance.2.currSlot < SLOT_COUNT := by
  unfold advance
  dsimp only
  split_ifs with hend
  · decide
  · omega

theorem currSlot_attachNew (w : Wheel) (o : ℕ) (start : UInt32) :
    (w.attachNew o start).currSlot = w.currSlot := by
  unfold attachNew
  split_ifs <;> rfl

theorem currSlot_attachAgain (w : Wheel) (o : ℕ) (tick next : Int64) :
    (w.attachAgain o tick next).currSlot = w.currSlot := by
  unfold attachAgain
  split_ifs <;> rfl

/-! ### Timers under their ids -/

/-- Every timer of a slot has been attached, and is there under its id. -/
structure Keyed (w : Wheel) : Prop where
  made : ∀ {c k o}, w.At c k o → o < w.made
  id : ∀ {c k o}, w.At c k o → (w.timer o).id = k
  isRunning : ∀ {c k o}, w.At c k o → (w.timer o).isRunning = true

section

variable {w : Wheel} {c o : ℕ} {t : Timer}

theorem keyed_start : Keyed {} where
  made h := by cases h
  id h := by cases h
  isRunning h := by cases h

theorem Keyed.setTimer (h : Keyed w) (hid : t.id = (w.timer o).id)
    (hrun : (w.timer o).isRunning = true → t.isRunning = true) : Keyed (w.setTimer o t) where
  made hat := h.made hat
  id {_ _ o'} hat := by
    unfold Wheel.setTimer
    dsimp only
    by_cases ho : o' = o
    · subst ho
      rw [Function.update_self, hid]
      exact h.id hat
    · rw [Function.update_of_ne ho]
      exact h.id hat
  isRunning {_ _ o'} hat := by
    unfold Wheel.setTimer
    dsimp only
    by_cases ho : o' = o
    · subst ho
      rw [Function.update_self]
      exact hrun (h.isRunning hat)
    · rw [Function.update_of_ne ho]
      exact h.isRunning hat

/-- What happens to a timer that is in no slot. -/
theorem Keyed.setTimer_of_free (h : Keyed w) (ho : ∀ c k, ¬ w.At c k o) : Keyed (w.setTimer o t) where
  made hat := h.made hat
  id {c k o'} hat := by
    have hne : o' ≠ o := fun heq => ho c k (heq ▸ hat)
    exact (congrArg Timer.id (Function.update_of_ne hne _ _)).trans (h.id hat)
  isRunning {c k o'} hat := by
    have hne : o' ≠ o := fun heq => ho c k (heq ▸ hat)
    exact (congrArg Timer.isRunning (Function.update_of_ne hne _ _)).trans (h.isRunning hat)

theorem Keyed.slotAdd (h : Keyed w) (ho : o < w.made) (hrun : (w.timer o).isRunning = true) :
    Keyed (w.slotAdd c o) where
  made hat := by
    rcases at_slotAdd.mp hat with hat | ⟨-, -, rfl, -⟩
    · exact h.made hat
    · exact ho
  id hat := by
    rcases at_slotAdd.mp hat with hat | ⟨-, rfl, rfl, -⟩
    · exact h.id hat
    · rfl
  isRunning hat := by
    rcases at_slotAdd.mp hat with hat | ⟨-, -, rfl, -⟩
    · exact h.isRunning hat
    · exact hrun

/-- Fewer timers are as well. -/
theorem Keyed.mono {w' : Wheel} (h : Keyed w) (hat : ∀ {c k o}, w'.At c k o → w.At c k o)
    (htimer : w'.timer = w.timer) (hmade : w'.made = w.made) : Keyed w' where
  made ha := by rw [hmade]; exact h.made (hat ha)
  id ha := by rw [htimer]; exact h.id (hat ha)
  isRunning ha := by rw [htimer]; exact h.isRunning (hat ha)

theorem Keyed.newTimer (h : Keyed w) (type : TimerType) (interval : Int64) (start : UInt32)
    (bePoint : Int64) : Keyed (w.newTimer type interval start bePoint) := by
  have hfree (c : ℕ) (k : UInt32) : ¬ w.At c k w.made := fun hat => Nat.lt_irrefl _ (h.made hat)
  have hset := h.setTimer_of_free (t := { type, interval, start, bePoint }) hfree
  exact
    { made := fun hat => Nat.lt_succ_of_lt (h.made hat)
      id := fun hat => hset.id hat
      isRunning := fun hat => hset.isRunning hat }

theorem setTimer_self (w : Wheel) (o : ℕ) (t : Timer) : (w.setTimer o t).timer o = t :=
  Function.update_self ..

theorem setTimer_of_ne {o' : ℕ} (hne : o' ≠ o) (t : Timer) : (w.setTimer o t).timer o' = w.timer o' :=
  Function.update_of_ne hne ..

/-- A timer that has been put into a slot may be changed before it is. -/
theorem slotAdd_setTimer {t t' : Timer} (ht : t.Same t') :
    ((w.setTimer o t).slotAdd c o).setTimer o t' = (w.setTimer o t').slotAdd c o := by
  unfold Wheel.slotAdd Wheel.setTimer
  dsimp only
  rw [Function.update_idem, Function.update_self, Function.update_self, ht.id]

theorem setTimer_setTimer (w : Wheel) (o : ℕ) (t t' : Timer) :
    (w.setTimer o t).setTimer o t' = w.setTimer o t' := by
  unfold Wheel.setTimer
  dsimp only
  rw [Function.update_idem]

theorem same_setTimer (ht : (w.timer o).Same t) (o' : ℕ) :
    (w.timer o').Same ((w.setTimer o t).timer o') := by
  by_cases heq : o' = o
  · subst heq
    rwa [setTimer_self]
  · rw [setTimer_of_ne heq]
    exact ⟨rfl, rfl, rfl, rfl⟩

theorem slotErase_setTimer (hid : t.id = (w.timer o).id) (os : List ℕ) :
    (w.setTimer o t).slotErase c os = (w.slotErase c os).setTimer o t := by
  have hids : (os.map fun o' => ((w.setTimer o t).timer o').id) = os.map fun o' => (w.timer o').id := by
    refine List.map_congr_left fun o' _ => ?_
    by_cases heq : o' = o
    · subst heq
      rw [setTimer_self, hid]
    · rw [setTimer_of_ne heq]
  unfold slotErase
  rw [hids]
  rfl

theorem slotErase_setDelete (w : Wheel) (c o : ℕ) (os : List ℕ) :
    (w.setDelete o).slotErase c os = (w.slotErase c os).setDelete o := by
  have hset := slotErase_setTimer (w := w) (c := c) (o := o) (t := { w.timer o with delflag := true }) rfl os
  exact congrArg (fun w' : Wheel => { w' with events := w'.events ++ [Event.setDelete o] }) hset

/-- The wheel in which a new timer has its id. -/
def setNew (w : Wheel) (o : ℕ) (start : UInt32) : Wheel :=
  { w.setTimer o ((w.timer o).begin w.nextID start) with lastTimerID := w.nextID }

theorem attachNew_eq (h : (w.timer o).delflag = false) (start : UInt32) :
    w.attachNew o start =
      (w.setNew o start).slotAdd (w.slotNum ((w.timer o).begin w.nextID start).ticks) o := by
  unfold attachNew
  rw [h, if_neg Bool.false_ne_true]
  rfl

theorem attachNew_of_deleted (h : (w.timer o).delflag = true) (start : UInt32) :
    w.attachNew o start = w :=
  if_pos h

theorem attachAgain_eq (h : (w.timer o).delflag = false) (tick next : Int64) :
    w.attachAgain o tick next =
      (w.setTimer o ((w.timer o).again tick next)).slotAdd
        (w.slotNum ((w.timer o).again tick next).ticks) o := by
  unfold attachAgain
  rw [h, if_neg Bool.false_ne_true]
  rfl

theorem attachAgain_of_deleted (h : (w.timer o).delflag = true) (tick next : Int64) :
    w.attachAgain o tick next = w :=
  if_pos h

theorem at_attachNew {c' o' : ℕ} {k : UInt32} (h : w.At c' k o') (start : UInt32) :
    (w.attachNew o start).At c' k o' := by
  cases hdel : (w.timer o).delflag with
  | true => rwa [attachNew_of_deleted hdel]
  | false =>
    rw [attachNew_eq hdel]
    exact at_slotAdd.mpr (Or.inl h)

/-- The other timers, and the flags and the events, are as they were. -/
structure Kept (o : ℕ) (w w' : Wheel) : Prop where
  made : w'.made = w.made
  events : w'.events = w.events
  delflag : (w'.timer o).delflag = (w.timer o).delflag
  other : ∀ o', o' ≠ o → w'.timer o' = w.timer o'

theorem kept_setTimer (ht : t.delflag = (w.timer o).delflag) : Kept o w (w.setTimer o t) where
  made := rfl
  events := rfl
  delflag := by rw [setTimer_self, ht]
  other _ hne := setTimer_of_ne hne t

theorem kept_attachNew (w : Wheel) (o : ℕ) (start : UInt32) : Kept o w (w.attachNew o start) := by
  cases h : (w.timer o).delflag with
  | true => rw [attachNew_of_deleted h]; exact ⟨rfl, rfl, rfl, fun _ _ => rfl⟩
  | false =>
    rw [attachNew_eq h]
    have hkept := kept_setTimer (w := w) (o := o) (t := (w.timer o).begin w.nextID start) rfl
    exact ⟨rfl, rfl, hkept.delflag, hkept.other⟩

theorem kept_attachAgain (w : Wheel) (o : ℕ) (tick next : Int64) :
    Kept o w (w.attachAgain o tick next) := by
  cases h : (w.timer o).delflag with
  | true => rw [attachAgain_of_deleted h]; exact ⟨rfl, rfl, rfl, fun _ _ => rfl⟩
  | false =>
    rw [attachAgain_eq h]
    have hkept := kept_setTimer (w := w) (o := o) (t := (w.timer o).again tick next) rfl
    exact ⟨rfl, rfl, hkept.delflag, hkept.other⟩

theorem Keyed.attachNew (h : Keyed w) (ho : o < w.made) (hrun : (w.timer o).isRunning = false)
    (start : UInt32) : Keyed (w.attachNew o start) := by
  have hfree (c : ℕ) (k : UInt32) : ¬ w.At c k o := fun hat => by
    rw [h.isRunning hat] at hrun
    cases hrun
  cases hdel : (w.timer o).delflag with
  | true => rwa [attachNew_of_deleted hdel]
  | false =>
    rw [attachNew_eq hdel]
    have hset := h.setTimer_of_free (t := (w.timer o).begin w.nextID start) hfree
    have hnew : Keyed (w.setNew o start) := hset.mono (fun hat => hat) rfl rfl
    exact hnew.slotAdd ho (congrArg Timer.isRunning (setTimer_self w o _))

theorem Keyed.attachAgain (h : Keyed w) (ho : o < w.made) (tick next : Int64) :
    Keyed (w.attachAgain o tick next) := by
  cases hdel : (w.timer o).delflag with
  | true => rwa [attachAgain_of_deleted hdel]
  | false =>
    rw [attachAgain_eq hdel]
    have hset : Keyed (w.setTimer o ((w.timer o).again tick next)) := h.setTimer rfl fun _ => rfl
    exact hset.slotAdd ho (congrArg Timer.isRunning (setTimer_self w o _))

/-- A slot has a timer once. -/
theorem Keyed.nodup_timersOf (h : Keyed w) (c : ℕ) (p : ℕ → Bool) : (w.timersOf c p).Nodup := by
  refine List.Nodup.filter _ (List.pairwise_map.mpr ?_)
  refine (nodup_toList (w.slots c)).imp_of_mem ?_
  rintro ⟨k, o⟩ ⟨k', o'⟩ he he' hne heq
  have hk := h.id (show w.At c k o from TreeMap.mem_toList_iff_getElem?_eq_some.mp he)
  have hk' := h.id (show w.At c k' o' from TreeMap.mem_toList_iff_getElem?_eq_some.mp he')
  dsimp only at heq
  rw [← hk, ← hk', heq] at hne
  exact hne rfl

end

/-! ### A timer for one call is made and attached -/

/-- A timer for one call that has just been made. -/
def once (start : UInt32) (bePoint : Int64) : Timer :=
  { type := .onceTimer, start := start, bePoint := bePoint }

/-- The wheel with another timer for one call. -/
def attached (w : Wheel) (start : UInt32) (bePoint : Int64) : Wheel :=
  (w.newTimer .onceTimer 0 start bePoint).attachNew w.made start

section

variable (w : Wheel) (start : UInt32) (bePoint : Int64)

theorem timer_newTimer_once : (w.newTimer .onceTimer 0 start bePoint).timer w.made = once start bePoint :=
  setTimer_self ..

theorem attached_eq : w.attached start bePoint =
    ((w.newTimer .onceTimer 0 start bePoint).setNew w.made start).slotAdd
      (w.slotNum (start / UInt32.ofNat SLOT_CHANGE_TIME)) w.made := by
  unfold attached
  rw [attachNew_eq (by rw [timer_newTimer_once]; rfl)]
  rfl

theorem timer_attached_self :
    (w.attached start bePoint).timer w.made = (once start bePoint).begin w.nextID start := by
  rw [attached_eq, ← timer_newTimer_once w]
  exact setTimer_self ..

theorem timer_attached_ne {o : ℕ} (ho : o ≠ w.made) :
    (w.attached start bePoint).timer o = w.timer o := by
  rw [attached_eq]
  exact (setTimer_of_ne ho _).trans (setTimer_of_ne ho _)

theorem slots_attached : (w.attached start bePoint).slots =
    let c := w.slotNum (start / UInt32.ofNat SLOT_CHANGE_TIME)
    Function.update w.slots c ((w.slots c).insertIfNew w.nextID w.made) := by
  have hid : (((w.newTimer .onceTimer 0 start bePoint).setNew w.made start).timer w.made).id =
      w.nextID := congrArg Timer.id (setTimer_self ..)
  rw [attached_eq]
  unfold slotAdd
  rw [hid]
  rfl

end

end Wheel

end ChatShow.CommBase.TimerWheel
