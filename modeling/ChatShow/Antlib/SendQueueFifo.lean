import ChatShow.Antlib.SendQueue
import ChatShow.Lib.Queues

/-! # The send queue as a queue

`tcp_queue` with an array of any size, and with what `malloc` leaves in a new one. Its users take
`tcpqueue_head` and, where that is not `NULL`, pop it.

The head goes back to 0 at `TCPQUEUE_NODE` also in a larger array; what is popped stays in its slot, and
an array that becomes full with the head at 0 fails the first `ASSERT` of the growth. -/

namespace ChatShow.Antlib.SendQueueFifo

open ChatShow.Lib.Queues ChatShow.Antlib.SendQueue

/-! ### Arrays that are not cleared -/

/-- The growth, where `fresh` is what the new array has had. -/
def growWith (q : TcpQueue) (fresh : ℕ → Option ℕ) : TcpQueue :=
  { q.grow with queue := fun j => if j < q.size then q.grow.queue j else fresh j }

/-- `push_tcpqueue`. -/
def pushWith (q : TcpQueue) (fresh : ℕ → Option ℕ) (m : ℕ) : Option TcpQueue :=
  if ¬ q.count < q.size then none
  else
    let q' := { q with
      tail := q.tail + 1, count := q.count + 1, queue := Function.update q.queue q.tail (some m) }
    if q.count + 1 < q.size then
      some { q' with tail := if q'.tail = q.size then 0 else q'.tail }
    else if q'.head ≠ q'.tail ∨ 1024 * 1024 ≤ 2 * q.size then none
    else some (growWith q' fresh)

/-- A cleared array is what `push` takes. -/
theorem push_eq (q : TcpQueue) (m : ℕ) : q.push m = pushWith q (fun _ => none) m := by
  have hgrow (q : TcpQueue) : growWith q (fun _ => none) = q.grow := by
    unfold growWith TcpQueue.grow
    dsimp only
    congr 1
    funext j
    split_ifs <;> first | rfl | omega
  unfold TcpQueue.push pushWith
  dsimp only
  rw [hgrow]

/-- A queue that has been reset, with what `malloc` has left in its array. -/
def start (a : ℕ → Option ℕ) : TcpQueue := { size := tcpQueueNode, queue := a }

theorem reset_eq {q : TcpQueue} (h : q.size = tcpQueueNode) : q.reset = start q.queue := by
  unfold TcpQueue.reset start
  rw [if_pos h]

/-- The queue of its users. Its head and its tail are to be in the array. -/
def tcpQueue : Queue TcpQueue ℕ (ℕ → Option ℕ) Unit where
  push := pushWith
  pop q _ := some (q.first, if q.first.isSome then q.pop else q)
  Fits q n := q.count = n ∧ q.head < q.size ∧ q.tail < q.size

/-! ### What the array has -/

/-- Once round is enough. -/
theorem mod_of_lt {x n : ℕ} (h : x < 2 * n) : x % n = if x < n then x else x - n := by
  split_ifs with hx
  · exact Nat.mod_eq_of_lt hx
  · rw [Nat.mod_eq_sub_mod (by omega), Nat.mod_eq_of_lt (by omega)]

/-- The slots from the head on have the values that wait. -/
structure Holds (q : TcpQueue) (waiting : List ℕ) : Prop where
  size : tcpQueueNode ≤ q.size
  count : q.count = waiting.length
  room : waiting.length < q.size
  head : q.head < q.size
  tail : q.tail = (q.head + waiting.length) % q.size
  slots : ∀ i (hi : i < waiting.length), q.queue ((q.head + i) % q.size) = some waiting[i]

theorem Holds.fits {q : TcpQueue} {waiting : List ℕ} (h : Holds q waiting) :
    tcpQueue.Fits q waiting.length := by
  refine ⟨h.count, h.head, ?_⟩
  rw [h.tail]
  exact Nat.mod_lt _ (by have := h.head; omega)

theorem holds_start (a : ℕ → Option ℕ) : Holds (start a) [] := by
  refine ⟨Nat.le_refl _, rfl, ?_, ?_, rfl, fun i hi => absurd hi (Nat.not_lt_zero i)⟩
  · exact Nat.succ_pos _
  · exact Nat.succ_pos _

/-- The value at the head. -/
theorem Holds.first {q : TcpQueue} {m : ℕ} {waiting : List ℕ} (h : Holds q (m :: waiting)) :
    q.first = some m := by
  have hslot := h.slots 0 (Nat.succ_pos _)
  rw [Nat.add_zero, Nat.mod_eq_of_lt h.head] at hslot
  exact hslot

section

variable {q : TcpQueue} {waiting : List ℕ}

/-- The slots with the new value in the one at the tail. -/
theorem Holds.slot_push (h : Holds q waiting) (m i : ℕ) (hi : i < (waiting ++ [m]).length) :
    Function.update q.queue q.tail (some m) ((q.head + i) % q.size) = some (waiting ++ [m])[i] := by
  have hroom := h.room
  have hhead := h.head
  have htail := h.tail
  rw [mod_of_lt (by omega)] at htail
  rw [List.length_append, List.length_singleton] at hi
  obtain hi | rfl := Nat.lt_succ_iff_lt_or_eq.mp hi
  · have hne : (q.head + i) % q.size ≠ q.tail := by
      rw [mod_of_lt (by omega)]
      split_ifs at htail ⊢ <;> omega
    rw [Function.update_of_ne hne, List.getElem_append_left hi]
    exact h.slots i hi
  · rw [← h.tail, Function.update_self]
    simp

/-- A push into an array that has room for another. -/
theorem Holds.push (h : Holds q waiting) (hroom : waiting.length + 1 < q.size) (fresh : ℕ → Option ℕ)
    (m : ℕ) : ∃ q', pushWith q fresh m = some q' ∧ Holds q' (waiting ++ [m]) ∧ q'.size = q.size ∧
      q'.head = q.head ∧ ∀ j, j ≠ q.tail → q'.queue j = q.queue j := by
  have hcount := h.count
  have hhead := h.head
  have htail := h.tail
  rw [mod_of_lt (by omega)] at htail
  have hlen : (waiting ++ [m]).length = waiting.length + 1 := List.length_append
  unfold pushWith
  rw [if_neg (not_not_intro (by omega))]
  dsimp only
  rw [if_pos (by omega)]
  refine ⟨_, rfl, ⟨h.size, ?_, ?_, h.head, ?_, fun i hi => ?_⟩, rfl, rfl, fun j hj => Function.update_of_ne hj _ _⟩
  · dsimp only
    omega
  · dsimp only
    omega
  · dsimp only
    rw [hlen, mod_of_lt (by omega)]
    split_ifs at htail ⊢ <;> omega
  · exact h.slot_push m i hi

/-- A push that makes the array full, with the head elsewhere than at its beginning. -/
theorem Holds.push_full (h : Holds q waiting) (hfull : waiting.length + 1 = q.size) (hpos : q.head ≠ 0)
    (hmax : 2 * q.size < 1024 * 1024) (fresh : ℕ → Option ℕ) (m : ℕ) :
    ∃ q', pushWith q fresh m = some q' ∧ Holds q' (waiting ++ [m]) ∧ q'.size = 2 * q.size ∧
      q'.head = 0 := by
  have hcount := h.count
  have hhead := h.head
  have htail := h.tail
  rw [mod_of_lt (by omega)] at htail
  have hlen : (waiting ++ [m]).length = waiting.length + 1 := List.length_append
  unfold pushWith
  rw [if_neg (not_not_intro (by omega))]
  dsimp only
  rw [if_neg (by omega), if_neg]
  · refine ⟨_, rfl, ⟨?_, ?_, ?_, ?_, ?_, fun i hi => ?_⟩, rfl, rfl⟩
    · show _ ≤ 2 * q.size
      have := h.size
      omega
    · show q.count + 1 = _
      omega
    · show _ < 2 * q.size
      omega
    · show 0 < 2 * q.size
      omega
    · show q.size = (0 + _) % (2 * q.size)
      rw [hlen, mod_of_lt (by omega)]
      split_ifs <;> omega
    · unfold growWith TcpQueue.grow
      dsimp only
      rw [Nat.zero_add, Nat.mod_eq_of_lt (by omega)]
      -- the slots from the head to the end of the array come first
      have hslot (f : ℕ → Option ℕ) : (if i < q.size - q.head then f (q.head + i)
          else if i < q.size then f (i - (q.size - q.head)) else none) = f ((q.head + i) % q.size) := by
        rw [mod_of_lt (by omega)]
        split_ifs <;> first | omega | exact congrArg f (by omega)
      rw [if_pos (by omega), hslot]
      exact h.slot_push m i hi
  · rw [not_or]
    split_ifs at htail <;> omega

/-- The value at the head is popped, where the head goes round at the end of the array or nowhere. -/
theorem Holds.pop {m : ℕ} (h : Holds q (m :: waiting)) (hwrap : q.size = 128 ∨ q.head + 1 < 128) :
    Holds q.pop waiting := by
  have hcount := h.count
  have hhead := h.head
  have hroom := h.room
  have htail := h.tail
  rw [List.length_cons] at hcount hroom htail
  have hsize := h.size
  have hnext : q.pop.head = (q.head + 1) % q.size := by
    unfold tcpQueueNode at hsize
    unfold TcpQueue.pop tcpQueueNode
    dsimp only
    rw [mod_of_lt (by omega)]
    split_ifs <;> omega
  have hround (i : ℕ) : (q.pop.head + i) % q.size = (q.head + (i + 1)) % q.size := by
    rw [hnext, Nat.mod_add_mod, Nat.add_assoc, Nat.add_comm 1 i]
  refine ⟨h.size, ?_, ?_, ?_, ?_, fun i hi => ?_⟩
  · show q.count - 1 = _
    omega
  · show _ < q.size
    omega
  · rw [hnext]
    exact Nat.mod_lt _ (by omega)
  · exact htail.trans (hround _).symm
  · show q.queue ((q.pop.head + i) % q.size) = _
    rw [hround]
    exact h.slots (i + 1) (Nat.succ_lt_succ hi)

end

/-! ### Runs -/

/-- What a call has to meet, where so many values have been pushed: fewer than `2 ^ 18` wait, and the
array does not become full with the head at 0; where the queue is empty nobody has used the slot of the
head, and `malloc` has left `NULL` in it; and the head does not go round in a larger array. -/
def Ok (a : ℕ → Option ℕ) (q : TcpQueue) (pushed : ℕ) : Op ℕ (ℕ → Option ℕ) Unit → Prop
  | .push _ _ => q.count + 1 < 262144 ∧ (q.count + 1 = q.size → q.head ≠ 0)
  | .pop _ =>
    if q.count = 0 then pushed < tcpQueueNode ∧ a pushed = none
    else q.size = tcpQueueNode ∨ q.head + 1 ≠ tcpQueueNode

instance (a : ℕ → Option ℕ) (q : TcpQueue) (pushed : ℕ) : ∀ o, Decidable (Ok a q pushed o)
  | .push _ _ => inferInstanceAs (Decidable (_ ∧ (_ → _)))
  | .pop _ => inferInstanceAs (Decidable (if q.count = 0 then pushed < tcpQueueNode ∧ a pushed = none
      else q.size = tcpQueueNode ∨ q.head + 1 ≠ tcpQueueNode))

/-- The queue has what it should. In the first array the slots from the number of the pushes on have not
been used, and in a larger one the queue does not become empty before the head is at the end of the
first. -/
structure Kept (a : ℕ → Option ℕ) (q : TcpQueue) (waiting : List ℕ) (pushed : ℕ) : Prop where
  holds : Holds q waiting
  first : q.size = tcpQueueNode → pushed < tcpQueueNode →
    q.head + waiting.length = pushed ∧ ∀ j, pushed ≤ j → q.queue j = a j
  larger : q.size ≠ tcpQueueNode → q.head < tcpQueueNode ∧ tcpQueueNode ≤ q.head + waiting.length

section

variable {a : ℕ → Option ℕ} {q : TcpQueue} {waiting : List ℕ} {pushed : ℕ}

theorem kept_start (a : ℕ → Option ℕ) : Kept a (start a) [] 0 where
  holds := holds_start a
  first _ _ := ⟨rfl, fun _ _ => rfl⟩
  larger h := absurd rfl h

theorem Kept.push (h : Kept a q waiting pushed) (i : ℕ → Option ℕ) (m : ℕ)
    (hok : q.count + 1 = q.size → q.head ≠ 0 ∧ 2 * q.size < 1024 * 1024) : ∃ q',
      pushWith q i m = some q' ∧ Kept a q' (waiting ++ [m]) (pushed + 1) := by
  have hcount := h.holds.count
  have hroom := h.holds.room
  have htail := h.holds.tail
  have hlen : (waiting ++ [m]).length = waiting.length + 1 := List.length_append
  by_cases hfull : waiting.length + 1 = q.size
  · obtain ⟨hzero, hmax⟩ := hok (by omega)
    obtain ⟨q', hpush, hholds, hsize, hhead⟩ := h.holds.push_full hfull hzero hmax i m
    have hle := h.holds.size
    refine ⟨q', hpush, hholds, fun heq => ?_, fun _ => ?_⟩
    · unfold tcpQueueNode at hle heq
      omega
    · rw [hhead, hlen]
      unfold tcpQueueNode at hle ⊢
      omega
  · obtain ⟨q', hpush, hholds, hsize, hhead, hslots⟩ := h.holds.push (by omega) i m
    refine ⟨q', hpush, hholds, fun heq hlt => ?_, fun hne => ?_⟩
    · obtain ⟨hsum, hunused⟩ := h.first (hsize ▸ heq) (by omega)
      rw [hsum, Nat.mod_eq_of_lt (by omega)] at htail
      refine ⟨by omega, fun j hj => ?_⟩
      rw [hslots j (by omega)]
      exact hunused j (by omega)
    · have := h.larger (hsize ▸ hne)
      omega

/-- The slot at the head of an empty queue. -/
theorem Kept.first_of_empty (h : Kept a q [] pushed) (hlt : pushed < tcpQueueNode)
    (hnone : a pushed = none) : q.first = none := by
  have hsize : q.size = tcpQueueNode := by
    by_contra hne
    have := h.larger hne
    rw [List.length_nil] at this
    omega
  obtain ⟨hsum, hunused⟩ := h.first hsize hlt
  rw [← hnone, ← hunused pushed (Nat.le_refl _), ← hsum]
  rfl

theorem Kept.pop {m : ℕ} (h : Kept a q (m :: waiting) pushed)
    (hok : q.size = tcpQueueNode ∨ q.head + 1 ≠ tcpQueueNode) : Kept a q.pop waiting pushed := by
  have hnext (hne : q.head + 1 ≠ tcpQueueNode) : q.pop.head = q.head + 1 := if_neg hne
  refine ⟨h.holds.pop ?_, fun heq hlt => ?_, fun hne => ?_⟩
  · by_cases hsize : q.size = tcpQueueNode
    · exact Or.inl hsize
    · have hhead := hok.resolve_left hsize
      have := (h.larger hsize).1
      unfold tcpQueueNode at this hhead
      exact Or.inr (by omega)
  · obtain ⟨hsum, hunused⟩ := h.first heq hlt
    rw [List.length_cons] at hsum
    rw [hnext (by omega)]
    exact ⟨by omega, hunused⟩
  · obtain ⟨hlt, hle⟩ := h.larger hne
    rw [List.length_cons] at hle
    have hhead := hok.resolve_left hne
    rw [hnext hhead]
    exact ⟨by omega, by omega⟩

/-- `tcpqueue_head` and `pop_tcpqueue`. -/
theorem Kept.take (h : Kept a q waiting pushed) (hok : Ok a q pushed (.pop ())) :
    q.first = waiting.head? ∧ Kept a (if q.first.isSome then q.pop else q) waiting.tail pushed := by
  have hcount := h.holds.count
  replace hok : if q.count = 0 then pushed < tcpQueueNode ∧ a pushed = none
    else q.size = tcpQueueNode ∨ q.head + 1 ≠ tcpQueueNode := hok
  cases waiting with
  | nil =>
    have hempty : q.count = 0 := hcount
    rw [if_pos hempty] at hok
    rw [h.first_of_empty hok.1 hok.2]
    exact ⟨rfl, h⟩
  | cons m waiting =>
    rw [if_neg (by rw [hcount, List.length_cons]; omega)] at hok
    rw [h.holds.first]
    exact ⟨rfl, h.pop hok⟩

end

/-- **Where the calls meet the condition the queue is first-in first-out.** -/
theorem fifo_of_ok (a : ℕ → Option ℕ) (ops : List (Op ℕ (ℕ → Option ℕ) Unit))
    (h : Along tcpQueue (Ok a) (start a) 0 ops) : Fifo tcpQueue (start a) [] ops := by
  refine fifo_of_along (I := Kept a) (fun q w n hk => hk.holds.fits) (fun q w n i m hk hok => ?_)
    (fun q w n k hk hok => ?_) (kept_start a) h
  · obtain ⟨hmax, hzero⟩ := hok
    exact hk.push i m fun hfull => ⟨hzero hfull, by omega⟩
  · obtain ⟨hfirst, hk'⟩ := hk.take hok
    exact ⟨_, congrArg some (Prod.ext hfirst rfl), hk'⟩

/-- Two values are pushed and popped, and nothing after them. -/
theorem fifo_of_ok_two : Fifo tcpQueue (start fun _ => none) []
    [.push (fun _ => none) 5, .push (fun _ => none) 6, .pop (), .pop (), .pop ()] :=
  fifo_of_ok _ _ (by decide)

/-! ### Once round the array -/

/-- `k` values are pushed and popped one after the other. -/
def rounds (k : ℕ) : List (Op ℕ (ℕ → Option ℕ) Unit) :=
  (List.replicate k [.push (fun _ => none) 1, .pop ()]).flatten

/-- Where the slot `k` places on has been used, the empty queue is not seen to be empty there. -/
theorem not_fifo_of_used (k : ℕ) {q : TcpQueue} (h : Holds q []) (hsize : q.size = 128) (hk : k ≤ 128)
    (hused : k = 128 ∨ (q.queue ((q.head + k) % 128)).isSome) :
    ¬ Fifo tcpQueue q [] (rounds k ++ [.pop ()]) := by
  induction k generalizing q with
  | zero =>
    rintro ⟨-, s', hpop, -⟩
    have hfirst : q.first = none := congrArg Prod.fst (Option.some.inj hpop)
    have hhead := h.head
    rcases hused with hused | hused
    · cases hused
    · rw [Nat.add_zero, Nat.mod_eq_of_lt (by omega)] at hused
      rw [show q.queue q.head = none from hfirst] at hused
      cases hused
  | succ k ih =>
    have hhead := h.head
    obtain ⟨q', hpush, hholds, hsize', hhead', hslots⟩ :=
      h.push (by rw [List.length_nil]; omega) (fun _ => none) 1
    have htail : q.tail = q.head := by
      rw [h.tail, List.length_nil, Nat.add_zero, Nat.mod_eq_of_lt hhead]
    have hslot := hholds.first
    have hpop : tcpQueue.pop q' () = some ((([] ++ [1] : List ℕ)).head?, q'.pop) := by
      unfold tcpQueue
      dsimp only
      rw [hslot]
      rfl
    have hrounds : rounds (k + 1) ++ [.pop ()] =
        .push (fun _ => none) 1 :: .pop () :: (rounds k ++ [.pop ()]) := by
      unfold rounds
      rw [List.replicate_succ, List.flatten_cons]
      rfl
    rw [hrounds, fifo_push_iff h.fits hpush, fifo_pop_iff hholds.fits hpop]
    refine ih (hholds.pop (Or.inl (hsize'.trans hsize))) (hsize'.trans hsize) (by omega) ?_
    have hnext : (q'.pop.head + k) % 128 = (q.head + (k + 1)) % 128 := by
      unfold TcpQueue.pop tcpQueueNode
      dsimp only
      rw [hhead']
      split_ifs <;> omega
    rw [hnext]
    by_cases hlast : k + 1 = 128
    · refine Or.inr ?_
      rw [hlast, Nat.add_mod_right, Nat.mod_eq_of_lt (by omega), ← hhead']
      exact Option.isSome_iff_exists.mpr ⟨1, hslot⟩
    · refine Or.inr ?_
      show (q'.queue _).isSome = true
      rw [hslots _ (by rw [htail]; omega)]
      exact hused.resolve_left hlast

/-- After 128 values the slot of the first is taken for another. -/
theorem not_fifo_round : ¬ Fifo tcpQueue (start fun _ => none) [] (rounds 128 ++ [.pop ()]) :=
  not_fifo_of_used 128 (holds_start _) rfl (Nat.le_refl _) (Or.inl rfl)

end ChatShow.Antlib.SendQueueFifo
