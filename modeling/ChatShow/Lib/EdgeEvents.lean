import Mathlib.Tactic.Common

/-! # Events that are told once

A socket that is watched with `EPOLLET`. That there is room to write is told once: when it is asked for,
and when room comes where there was none. `Watch` is what the kernel keeps of it, and `Owes` says that an
event is due: it waits to be told, or it comes with the next room. A program that has something left to
write and is owed no event is not woken again. -/

namespace ChatShow.Lib.EdgeEvents

structure Watch where
  /-- `EPOLLOUT` is one of the events that are asked for -/
  asked : Bool := false
  ready : Bool := false
  /-- there was less room than was looked for, and none has come since -/
  short : Bool := false
  /-- the event has been told, and nothing has been written since -/
  told : Bool := false
  deriving DecidableEq

namespace Watch

/-- An event is due. -/
def Owes (w : Watch) : Prop := w.asked = true ∧ (w.ready = true ∨ w.short = true)

instance (w : Watch) : Decidable w.Owes := inferInstanceAs (Decidable (_ ∧ _))

/-- `EPOLL_CTL_ADD` and `EPOLL_CTL_MOD` with `EPOLLOUT`, which look at the socket. -/
def ask (w : Watch) (room : Bool) : Watch := { w with asked := true, ready := room, short := w.short || !room }

/-- `EPOLL_CTL_MOD` without it. -/
def unask (w : Watch) : Watch := { w with asked := false, ready := false }

/-- A write, of which all is taken or not. -/
def wrote (w : Watch) (all : Bool) : Watch := { w with short := w.short || !all, told := false }

/-- Room comes. -/
def drained (w : Watch) : Watch := { w with ready := w.ready || w.asked && w.short, short := false }

/-- `epoll_wait`: whether the event is told. The socket is looked at where it is ready, or where there is
something other to tell about it. -/
def wait (w : Watch) (room other : Bool) : Bool × Watch :=
  if w.ready || other then
    if w.asked && room then (true, { w with ready := false, told := true })
    else (false, { w with ready := false, short := w.short || !room })
  else (false, w)

variable {w : Watch}

@[simp] theorem asked_wait (room other : Bool) : (w.wait room other).2.asked = w.asked := by
  unfold wait
  split_ifs <;> rfl

theorem owes_ask (room : Bool) : (w.ask room).Owes := by
  refine ⟨rfl, ?_⟩
  cases room with
  | true => exact .inl rfl
  | false => exact .inr (Bool.or_true _)

/-- A write that is not taken whole has found an end of the room. -/
theorem owes_wrote (h : w.asked = true) : (w.wrote false).Owes := ⟨h, .inr (Bool.or_true _)⟩

theorem Owes.drained (h : w.Owes) : w.drained.Owes := by
  obtain ⟨hasked, hready | hshort⟩ := h
  · refine ⟨hasked, .inl ?_⟩
    show (w.ready || _) = true
    rw [hready, Bool.true_or]
  · refine ⟨hasked, .inl ?_⟩
    show (w.ready || w.asked && w.short) = true
    rw [hasked, hshort, Bool.and_true, Bool.or_true]

/-- An event that is due is told, or it stays due. -/
theorem Owes.wait {room other : Bool} (h : w.Owes) (hnot : (w.wait room other).1 = false) :
    (w.wait room other).2.Owes := by
  refine ⟨(asked_wait room other).trans h.1, ?_⟩
  unfold Watch.wait at hnot ⊢
  split_ifs at hnot ⊢ with hlook hroom
  · rw [h.1, Bool.true_and] at hroom
    refine .inr ?_
    show (w.short || !room) = true
    rw [Bool.eq_false_iff.mpr hroom, Bool.not_false, Bool.or_true]
  · exact h.2

/-- Where it is told, it has been asked for, and nothing has been written since. -/
theorem wait_told {room other : Bool} (h : (w.wait room other).1 = true) :
    w.asked = true ∧ (w.wait room other).2.told = true := by
  unfold Watch.wait at h ⊢
  split_ifs at h ⊢ with hlook hroom
  · exact ⟨(Bool.and_eq_true_iff.mp hroom).1, rfl⟩

end Watch

end ChatShow.Lib.EdgeEvents
