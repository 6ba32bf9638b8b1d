import ChatShow.Lib.Queues
import Mathlib.Data.Int.Notation
import Mathlib.Logic.Function.Basic
import Mathlib.Tactic.Common

/-! # The shared queue

`squeue`, in one thread: a chain of nodes of 1021 places each, of which the pushes fill the last and the
pops empty the first, and the pool of the nodes that have been emptied. Nodes and values are numbered.

`pop_squeue` takes 1 from `_count` before it takes a value, and again after it: `LOCK_SUB` is a
`fetch_and_sub`. `none` is a step that does not come to an end, or goes through a null pointer. -/

namespace ChatShow.Antlib.SharedQueue

open ChatShow.Lib.Queues

def SQUEUE_NODE_SIZE : ℕ := 1021

structure Node where
  queue : ℕ → Option ℕ := fun _ => none
  head : ℕ := 0
  tail : ℕ := 0
  freeTime : UInt32 := 0
  next : Option ℕ := none

/-- The node pool. -/
structure Pool where
  head : Option ℕ := none
  tail : Option ℕ := none
  count : Int32 := 0

/-- A `squeue` with the nodes there are. -/
structure Squeue where
  node : ℕ → Node := fun _ => {}
  /-- the nodes so far -/
  made : ℕ := 0
  pool : Pool := {}
  count : Int32 := 0
  freePtr : Option ℕ := none
  tail : Option ℕ := none
  head : Option ℕ := none

namespace Squeue

def setNode (s : Squeue) (n : ℕ) (a : Node) : Squeue := { s with node := Function.update s.node n a }

/-- `free_squeue_node`. -/
def freeNode (s : Squeue) (now : UInt32) (n : ℕ) : Squeue :=
  let s := s.setNode n { s.node n with next := none, freeTime := now + 60 }
  let s :=
    match s.pool.tail with
    | some t => s.setNode t { s.node t with next := some n }
    | none => { s with pool := { s.pool with head := some n } }
  { s with pool := { s.pool with tail := some n, count := s.pool.count + 1 } }

/-- A node of `my_new`. -/
def newNode (s : Squeue) : ℕ × Squeue := (s.made, { s.setNode s.made {} with made := s.made + 1 })

/-- `get_squeue_node`. The tail of the pool stays where its last node is taken. -/
def getNode (s : Squeue) (now : UInt32) : ℕ × Squeue :=
  match s.pool.head with
  | some n =>
    if (s.node n).freeTime < now then
      (n, { s.setNode n {} with
        pool := { s.pool with head := (s.node n).next, count := s.pool.count - 1 } })
    else s.newNode
  | none => s.newNode

/-- `push_squeuenode`. -/
def pushNode (s : Squeue) (n v : ℕ) : ℕ × Squeue :=
  let a := s.node n
  (a.head, s.setNode n { a with
    head := a.head + 1
    queue := if a.head < SQUEUE_NODE_SIZE then Function.update a.queue a.head (some v) else a.queue })

/-- `push_squeue`. Where the index is too large it would be larger in the next turn, of the same node. -/
def push (s : Squeue) (now : UInt32) (v : ℕ) : Option Squeue :=
  match s.tail with
  | none => none
  | some n =>
    let (index, s) := s.pushNode n v
    if index < SQUEUE_NODE_SIZE - 1 then some { s with count := s.count + 1 }
    else if index = SQUEUE_NODE_SIZE - 1 then
      let (m, s) := s.getNode now
      let s := s.setNode n { s.node n with next := some m }
      some { s with tail := some m, count := s.count + 1 }
    else none

/-- The nodes before the head go to the pool. A node has no next once it is freed, so that the loop has
no more turns than there are nodes. -/
def freeNodes (now : UInt32) : ℕ → Squeue → Option Squeue
  | 0, _ => none
  | k + 1, s =>
    if s.freePtr = s.head then some s
    else
      match s.freePtr with
      | none => none
      | some rm => freeNodes now k (({ s with freePtr := (s.node rm).next } : Squeue).freeNode now rm)

/-- `pop_squeue` once `_count` is less by 1. -/
def take (s : Squeue) (now : UInt32) : Option (Option ℕ × Squeue) :=
  match s.head with
  | none => none
  | some n =>
    let a := s.node n
    let s := s.setNode n { a with tail := a.tail + 1 }
    if a.tail < SQUEUE_NODE_SIZE then
      match a.queue a.tail with
      | none => none
      | some v =>
        if a.tail < SQUEUE_NODE_SIZE - 1 then some (some v, { s with count := s.count - 1 })
        else
          match freeNodes now (s.made + 1) s with
          | none => none
          | some s =>
            if s.head = s.tail then none
            else some (some v, { s with head := (s.node n).next, count := s.count - 1 })
    else none

/-- `pop_squeue`: what is returned, and the queue. -/
def pop (s : Squeue) (now : UInt32) : Option (Option ℕ × Squeue) :=
  if s.count < 1 then some (none, s)
  else
    let old := s.count
    let s := { s with count := s.count - 1 }
    if old < 1 then some (none, { s with count := s.count + 1 }) else s.take now

/-- `init_squeue`, where the pool has no nodes. -/
def init : Squeue :=
  let (n, s) := ({} : Squeue).newNode
  { s with head := some n, tail := some n, freePtr := some n }

end Squeue

/-- The queue, whose calls are made at times. `_count` is to be the number of its values. -/
def squeue : Queue Squeue ℕ UInt32 UInt32 where
  push := Squeue.push
  pop := Squeue.pop
  Fits s n := s.count.toInt = n

/-! ### Pushes -/

/-- The last node has a free place. -/
def Room (s : Squeue) : Prop := ∃ n, s.tail = some n ∧ (s.node n).head < SQUEUE_NODE_SIZE

theorem room_init : Room .init := ⟨0, rfl, by decide⟩

/-- A node that has been got is new. -/
theorem getNode_spec (s : Squeue) (now : UInt32) :
    (s.getNode now).2.node (s.getNode now).1 = {} ∧ (s.getNode now).2.count = s.count := by
  have hnew : s.newNode.2.node s.newNode.1 = {} ∧ s.newNode.2.count = s.count :=
    ⟨Function.update_self .., rfl⟩
  unfold Squeue.getNode
  split
  · split_ifs
    · exact ⟨Function.update_self .., rfl⟩
    · exact hnew
  · exact hnew

theorem Room.push {s : Squeue} (h : Room s) (now : UInt32) (v : ℕ) :
    ∃ s', s.push now v = some s' ∧ Room s' ∧ s'.count = s.count + 1 := by
  obtain ⟨n, hn, hlt⟩ := h
  unfold SQUEUE_NODE_SIZE at hlt
  unfold Squeue.push Squeue.pushNode SQUEUE_NODE_SIZE
  rw [hn]
  dsimp only
  by_cases hlast : (s.node n).head < 1021 - 1
  · rw [if_pos hlast]
    refine ⟨_, rfl, ⟨n, hn, ?_⟩, rfl⟩
    unfold Squeue.setNode SQUEUE_NODE_SIZE
    dsimp only
    rw [Function.update_self]
    dsimp only
    omega
  · rw [if_neg hlast, if_pos (by omega)]
    generalize hs : s.setNode n _ = s₁
    obtain ⟨hnode, hcount⟩ := getNode_spec s₁ now
    refine ⟨_, rfl, ⟨_, rfl, ?_⟩, ?_⟩
    · -- the node that is got is empty, whichever it is
      unfold Squeue.setNode
      dsimp only
      by_cases hm : (s₁.getNode now).1 = n
      · rw [hm, Function.update_self, ← hm, hnode]
        exact Nat.succ_pos _
      · rw [Function.update_of_ne hm, hnode]
        decide
    · show (s₁.getNode now).2.count + 1 = s.count + 1
      rw [hcount, ← hs]
      rfl

/-! ### Pops -/

theorem count_freeNode (s : Squeue) (now : UInt32) (n : ℕ) : (s.freeNode now n).count = s.count := by
  unfold Squeue.freeNode
  dsimp only
  split <;> rfl

theorem count_freeNodes {now : UInt32} {k : ℕ} {s s' : Squeue} (h : Squeue.freeNodes now k s = some s') :
    s'.count = s.count := by
  induction k generalizing s with
  | zero => cases h
  | succ k ih =>
    unfold Squeue.freeNodes at h
    split_ifs at h with heq
    · rw [← Option.some.inj h]
    · split at h
      · cases h
      · rw [ih h, count_freeNode]

theorem count_take {now : UInt32} {s s' : Squeue} {r : Option ℕ} (h : s.take now = some (r, s')) :
    s'.count = s.count - 1 := by
  unfold Squeue.take at h
  split at h
  · cases h
  · dsimp only at h
    split_ifs at h
    · split at h
      · cases h
      · cases h
        rfl
    · split at h
      · cases h
      · split at h
        · cases h
        · rename_i hfree
          split_ifs at h
          cases h
          show _ - 1 = _ - 1
          rw [count_freeNodes hfree]
          rfl

theorem toInt_sub_one {x : Int32} (h : -1 < x.toInt) : (x - 1).toInt = x.toInt - 1 := by
  have := x.toInt_lt
  rw [Int32.toInt_sub, show (1 : Int32).toInt = 1 by decide, Int.bmod_eq_of_le (by omega) (by omega)]

theorem pop_of_empty {s : Squeue} (h : s.count < 1) (now : UInt32) : s.pop now = some (none, s) := if_pos h

/-- **A pop of a value takes 2 from `_count`.** -/
theorem count_pop {now : UInt32} {s s' : Squeue} {r : Option ℕ} (hpos : ¬ s.count < 1)
    (h : s.pop now = some (r, s')) : s'.count = s.count - 1 - 1 := by
  unfold Squeue.pop at h
  rw [if_neg hpos] at h
  dsimp only at h
  rw [if_neg hpos] at h
  exact count_take h

/-! ### Where it is a queue -/

/-- A call of the queue. -/
abbrev Call := Op ℕ UInt32 UInt32

/-- No pop comes after a push, and an `int` has the number of the pushes. -/
def NeverPopped (ops : List Call) : Prop :=
  ops.Pairwise (fun o o' => o.isPush = true → o'.isPush = true) ∧ ops.countP Op.isPush < 2147483648

/-- From a queue with values in it there are only pushes. -/
theorem fifo_iff_of_waiting {s : Squeue} {waiting : List ℕ} {ops : List Call} (hroom : Room s)
    (hne : waiting ≠ []) (hcount : s.count.toInt = waiting.length) :
    Fifo squeue s waiting ops ↔
      (∀ o ∈ ops, o.isPush = true) ∧ waiting.length + ops.length < 2147483648 := by
  induction ops generalizing s waiting with
  | nil =>
    have hlt := s.count.toInt_lt
    refine iff_of_true hcount ⟨fun o ho => absurd ho List.not_mem_nil, ?_⟩
    rw [List.length_nil]
    omega
  | cons o ops ih =>
    cases o with
    | push now v =>
      obtain ⟨s', hpush, hroom', hcount'⟩ := hroom.push now v
      have hlen : (waiting ++ [v]).length = waiting.length + 1 := List.length_append
      have hadd := congrArg Int32.toInt hcount'
      rw [Int32.toInt_add, hcount, show (1 : Int32).toInt = 1 by decide] at hadd
      rw [fifo_push_iff hcount hpush, List.forall_mem_cons, List.length_cons]
      by_cases hmax : waiting.length + 1 < 2147483648
      · rw [Int.bmod_eq_of_le (by omega) (by omega)] at hadd
        have hrest := ih hroom' (List.append_ne_nil_of_right_ne_nil waiting (List.cons_ne_nil v []))
          (by rw [hlen, hadd]; rfl)
        rw [hrest, hlen]
        have hnum : waiting.length + 1 + ops.length = waiting.length + (ops.length + 1) := by omega
        simp only [Op.isPush, true_and, hnum]
      · refine iff_of_false (fun h => ?_) fun h => by omega
        have hfits : s'.count.toInt = (waiting ++ [v]).length := h.fits
        have := s'.count.toInt_lt
        rw [hlen] at hfits
        omega
    | pop now =>
      refine iff_of_false (fun ⟨_, s', hpop, hrest⟩ => ?_) fun h => ?_
      · have hpos := List.length_pos_of_ne_nil hne
        have hnlt : ¬ s.count < 1 := by
          rw [Int32.lt_iff_toInt_lt, show (1 : Int32).toInt = 1 by decide]
          omega
        have hless := congrArg Int32.toInt (count_pop hnlt hpop)
        have hsub := toInt_sub_one (x := s.count) (by omega)
        have hfits : s'.count.toInt = waiting.tail.length := hrest.fits
        have htail : waiting.tail.length = waiting.length - 1 := List.length_tail
        rw [toInt_sub_one (by omega), hsub, hfits] at hless
        omega
      · cases h.1 _ List.mem_cons_self

/-- **Where the queue is first-in first-out**: where nothing is ever popped that has been pushed. -/
theorem fifo_iff (ops : List Call) : Fifo squeue .init [] ops ↔ NeverPopped ops := by
  unfold NeverPopped
  induction ops with
  | nil => exact iff_of_true rfl ⟨List.Pairwise.nil, by decide⟩
  | cons o ops ih =>
    cases o with
    | push now v =>
      obtain ⟨s', hpush, hroom', hcount'⟩ := room_init.push now v
      rw [fifo_push_iff rfl hpush, List.nil_append,
        fifo_iff_of_waiting hroom' (List.cons_ne_nil v []) (by rw [hcount']; rfl), List.pairwise_cons,
        List.countP_cons_of_pos rfl]
      constructor
      · rintro ⟨hall, hlen⟩
        refine ⟨⟨fun o ho _ => hall o ho, ?_⟩, ?_⟩
        · exact List.pairwise_of_forall_mem_list fun o _ o' ho' _ => hall o' ho'
        · rw [List.countP_eq_length.mpr hall]
          rw [List.length_singleton] at hlen
          omega
      · rintro ⟨⟨hall, -⟩, hlen⟩
        have hall' : ∀ o ∈ ops, o.isPush = true := fun o ho => hall o ho rfl
        rw [List.countP_eq_length.mpr hall'] at hlen
        refine ⟨hall', ?_⟩
        rw [List.length_singleton]
        omega
    | pop now =>
      have hpop : Squeue.init.pop now = some (none, .init) := pop_of_empty (by decide) now
      rw [fifo_pop_iff rfl hpop, List.tail_nil, ih, List.pairwise_cons,
        List.countP_cons_of_neg Bool.false_ne_true]
      exact and_congr_left fun _ => (and_iff_right fun o _ h => absurd h Bool.false_ne_true).symm

/-- Two values are pushed and one is popped, and `_count` is 0. -/
theorem not_fifo : ¬ Fifo squeue .init [] [.push 0 1, .push 0 2, .pop 0] := by
  rintro ⟨-, s₁, h₁, -, s₂, h₂, -, s₃, h₃, hrest⟩
  cases h₁
  cases h₂
  cases h₃
  have hfits : ((_ : Squeue).count).toInt = ([1, 2] : List ℕ).tail.length := hrest.fits
  exact absurd hfits (by decide)

end ChatShow.Antlib.SharedQueue
