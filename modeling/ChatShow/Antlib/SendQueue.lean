import Mathlib.Data.List.Basic
import Mathlib.Data.Int.Notation
import Mathlib.Logic.Function.Basic
import Mathlib.Tactic.Common

/-! # The send queue of a connection

The messages are in an array that goes round at `TCPQUEUE_NODE` and is made larger when it is full. What
is popped stays in its slot, and `tcpqueue_head` gives the slot of the head also where the queue is
empty. A slot of a new array is taken to be `NULL`. `none` is an `ASSERT` that fails. -/

namespace ChatShow.Antlib.SendQueue

/-- `TCPQUEUE_NODE`. -/
def tcpQueueNode : ℕ := 128

/-- `struct tcp_queue`; one without an array has the size 0. -/
structure TcpQueue where
  size : ℕ := 0
  head : ℕ := 0
  tail : ℕ := 0
  count : ℤ := 0
  queue : ℕ → Option ℕ := fun _ => none

variable {q : TcpQueue}

/-- `reset_tcpqueue`, which keeps an array that has not been made larger. -/
def TcpQueue.reset (q : TcpQueue) : TcpQueue where
  size := tcpQueueNode
  queue := if q.size = tcpQueueNode then q.queue else fun _ => none

/-- The array is copied to one of the double size, from the head on. -/
def TcpQueue.grow (q : TcpQueue) : TcpQueue where
  size := 2 * q.size
  tail := q.size
  count := q.count
  queue j := if j < q.size - q.head then q.queue (q.head + j)
    else if j < q.size then q.queue (j - (q.size - q.head)) else none

/-- `push_tcpqueue`. -/
def TcpQueue.push (q : TcpQueue) (m : ℕ) : Option TcpQueue :=
  if ¬ q.count < q.size then none
  else
    let q' := { q with
      tail := q.tail + 1, count := q.count + 1, queue := Function.update q.queue q.tail (some m) }
    if q.count + 1 < q.size then
      some { q' with tail := if q'.tail = q.size then 0 else q'.tail }
    else if q'.head ≠ q'.tail ∨ 1024 * 1024 ≤ 2 * q.size then none
    else some q'.grow

/-- `pop_tcpqueue`. -/
def TcpQueue.pop (q : TcpQueue) : TcpQueue :=
  { q with head := if q.head + 1 = tcpQueueNode then 0 else q.head + 1, count := q.count - 1 }

/-- `tcpqueue_head`. -/
def TcpQueue.first (q : TcpQueue) : Option ℕ := q.queue q.head

/-- The messages that have been pushed and not popped. -/
def TcpQueue.pending (q : TcpQueue) : List ℕ :=
  (List.range q.count.toNat).filterMap fun i => q.queue ((q.head + i) % tcpQueueNode)

/-- A queue whose array has the first size. -/
structure Good (q : TcpQueue) : Prop where
  size : q.size = tcpQueueNode
  head : q.head < tcpQueueNode
  count : 0 ≤ q.count ∧ q.count < tcpQueueNode
  tail : q.tail = (q.head + q.count.toNat) % tcpQueueNode
  slots : ∀ i < q.count.toNat, (q.queue ((q.head + i) % tcpQueueNode)).isSome

theorem good_reset (q : TcpQueue) : Good q.reset := by
  refine ⟨rfl, ?_, ?_, rfl, fun i hi => absurd hi (Nat.not_lt_zero _)⟩
  · exact Nat.succ_pos _
  · exact ⟨Int.le_refl _, Int.natCast_pos.mpr (Nat.succ_pos _)⟩

theorem pending_reset (q : TcpQueue) : q.reset.pending = [] := rfl

theorem length_pending (h : Good q) : q.pending.length = q.count.toNat := by
  unfold TcpQueue.pending
  rw [List.length_filterMap_eq_countP, List.countP_eq_length.mpr, List.length_range]
  exact fun i hi => h.slots i (List.mem_range.mp hi)

/-- The messages that wait are one more after a push. -/
theorem Good.push (h : Good q) (hroom : q.count + 1 < q.size) (m : ℕ) :
    ∃ q', q.push m = some q' ∧ Good q' ∧ q'.pending = q.pending ++ [m] := by
  have hsize := h.size
  have hhead := h.head
  have hcount := h.count
  have htail := h.tail
  unfold tcpQueueNode at hsize hhead hcount htail
  have hne : ∀ i < q.count.toNat, (q.head + i) % tcpQueueNode ≠ q.tail := by
    unfold tcpQueueNode
    omega
  have hnext : (q.count + 1).toNat = q.count.toNat + 1 := by omega
  unfold TcpQueue.push
  rw [if_neg (not_not_intro (by omega))]
  dsimp only
  rw [if_pos hroom]
  refine ⟨_, rfl, ⟨h.size, h.head, ?_, ?_, fun i hi => ?_⟩, ?_⟩
  · unfold tcpQueueNode
    dsimp only
    omega
  · unfold tcpQueueNode
    dsimp only
    split <;> omega
  · dsimp only at hi ⊢
    rw [hnext] at hi
    obtain hi | rfl := Nat.lt_succ_iff_lt_or_eq.mp hi
    · rw [Function.update_of_ne (hne i hi)]
      exact h.slots i hi
    · rw [← h.tail, Function.update_self]
      rfl
  · unfold TcpQueue.pending
    dsimp only
    rw [hnext, List.range_succ, List.filterMap_append]
    congr 1
    · refine List.filterMap_congr fun i hi => ?_
      exact Function.update_of_ne (hne i (List.mem_range.mp hi)) _ _
    · rw [List.filterMap_cons, ← h.tail, Function.update_self]
      rfl

/-- **The message at the head is popped.** -/
theorem Good.pop (h : Good q) (hpos : 0 < q.count) :
    ∃ m, q.first = some m ∧ Good q.pop ∧ q.pending = m :: q.pop.pending := by
  have hhead := h.head
  have hcount := h.count
  unfold tcpQueueNode at hhead hcount
  obtain ⟨n, hn⟩ : ∃ n, q.count.toNat = n + 1 := ⟨q.count.toNat - 1, by omega⟩
  have hprev : (q.count - 1).toNat = n := by omega
  have hslot : ∀ i, (q.pop.head + i) % tcpQueueNode = (q.head + (i + 1)) % tcpQueueNode := by
    intro i
    unfold TcpQueue.pop tcpQueueNode
    dsimp only
    split <;> omega
  have hfirst := h.slots 0 (by omega)
  rw [Nat.add_zero, Nat.mod_eq_of_lt h.head] at hfirst
  obtain ⟨m, hm⟩ := Option.isSome_iff_exists.mp hfirst
  refine ⟨m, hm, ⟨h.size, ?_, ?_, ?_, fun i hi => ?_⟩, ?_⟩
  · have := hslot 0
    rw [Nat.add_zero] at this
    unfold TcpQueue.pop tcpQueueNode
    dsimp only
    split <;> omega
  · unfold TcpQueue.pop tcpQueueNode
    dsimp only
    omega
  · rw [hslot, show q.pop.count.toNat = n from hprev, ← hn]
    exact h.tail
  · rw [hslot]
    exact h.slots (i + 1) (by rw [show q.pop.count.toNat = n from hprev] at hi; omega)
  · unfold TcpQueue.pending
    rw [hn, List.range_succ_eq_map, List.filterMap_cons, Nat.add_zero, Nat.mod_eq_of_lt h.head, hm,
      show q.pop.count.toNat = n from hprev, List.filterMap_map]
    refine congrArg (m :: ·) ?_
    refine List.filterMap_congr fun i _ => ?_
    rw [hslot]
    rfl

end ChatShow.Antlib.SendQueue
