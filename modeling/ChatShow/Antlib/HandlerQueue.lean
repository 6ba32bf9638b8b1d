import ChatShow.Antlib.SharedQueue
import ChatShow.Lib.Cells
import Mathlib.Data.List.Nodup

/-! # The queue of a handler

`handler_pop_squeue` pops where only one thread does: it takes the next value of the first node, and
gives the node back once its last place has been read. The queue is a chain of nodes (`Segments`),
all full but the last one; what waits in it is what the nodes have between their tails and their
heads. It is first-in first-out as long as an `int` has the number of the values that wait
(`handler_fifo_iff`). -/

namespace ChatShow.Antlib.HandlerQueue

open ChatShow.Lib.Cells ChatShow.Lib.Queues ChatShow.Antlib.SharedQueue

/-! ### The calls -/

/-- `push_squeue`, where `get_squeue_node` returns the node `m`. -/
def pushWith (s : Squeue) (m v : ℕ) : Option Squeue :=
  match s.tail with
  | none => none
  | some n =>
    let (index, s) := s.pushNode n v
    if index < SQUEUE_NODE_SIZE - 1 then some { s with count := s.count + 1 }
    else if index = SQUEUE_NODE_SIZE - 1 then
      let s := s.setNode m {}
      let s := s.setNode n { s.node n with next := some m }
      some { s with tail := some m, count := s.count + 1 }
    else none

/-- `handler_pop_squeue`: what is returned, the node that goes to `free_squeue_node`, and the queue.
`none` is a failed assertion, a loop that waits, or a value that has not been read. -/
def handlerPop (s : Squeue) (now : UInt32) : Option (ℕ × Option ℕ × Squeue) :=
  if s.count > 0 then
    match s.head with
    | none => none
    | some n =>
      let a := s.node n
      let s := s.setNode n { a with tail := a.tail + 1 }
      if a.tail < SQUEUE_NODE_SIZE then
        match a.queue a.tail with
        | none => none
        | some v =>
          if a.tail = SQUEUE_NODE_SIZE - 1 then
            if s.tail = some n then none
            else
              let s := ({ s with head := (s.node n).next } : Squeue).freeNode now n
              some (v, some n, { s with count := s.count - 1 })
          else some (v, none, { s with count := s.count - 1 })
      else none
  else none

/-- A queue, with the nodes that have been got for it and not been freed, and the node that the last
call has freed. -/
structure State where
  squeue : Squeue
  used : List ℕ
  freed : Option ℕ

def State.init : State := ⟨.init, [0], none⟩

def State.push (s : State) (m v : ℕ) : Option State :=
  (pushWith s.squeue m v).map fun q =>
    { squeue := q, used := if q.tail = s.squeue.tail then s.used else s.used ++ [m], freed := none }

def State.pop (s : State) (now : UInt32) : Option (Option ℕ × State) :=
  (handlerPop s.squeue now).map fun (v, freed, q) =>
    (some v, { squeue := q, used := s.used.filter fun n => some n ≠ freed, freed := freed })

/-- The queue. `_count` is to be the number of its values, and a node that has just been freed
neither its first node nor its last. -/
def hqueue : Queue State ℕ ℕ UInt32 where
  push := State.push
  pop := State.pop
  Fits s n :=
    s.squeue.count.toInt = n ∧ ∀ m ∈ s.freed, s.squeue.head ≠ some m ∧ s.squeue.tail ≠ some m

abbrev Call := Op ℕ ℕ UInt32

/-- The calls there are: a node that is got is neither in the queue nor the one that the pool will
link to the next node freed, and a pop comes where the count is positive. -/
def Called (s : State) (_ : ℕ) : Call → Prop
  | .push m _ => m ∉ s.used ∧ s.squeue.pool.tail ≠ some m
  | .pop _ => s.squeue.count > 0

instance (s : State) (n : ℕ) (o : Call) : Decidable (Called s n o) := by
  cases o <;> unfold Called <;> infer_instance

/-- The count has not come to its end where a value is pushed. -/
def Counted (s : State) (_ : ℕ) : Call → Prop
  | .push _ _ => s.squeue.count ≠ 2147483647
  | .pop _ => True

instance (s : State) (n : ℕ) (o : Call) : Decidable (Counted s n o) := by
  cases o <;> unfold Counted <;> infer_instance

/-! ### The chain of nodes -/

variable {node node' : ℕ → Node} {last last' a v m : ℕ} {l l' w : List ℕ}

/-- What a node has between its tail and its head. -/
def values (n : Node) : List (Option ℕ) := slice n.queue n.tail (n.head - n.tail)

/-- From the node `a` on, the nodes `l` follow, `last` is the last one, and the values `w` wait in
them. -/
def Segments (node : ℕ → Node) (last : ℕ) : ℕ → List ℕ → List ℕ → Prop
  | a, [], w =>
    a = last ∧ (node a).tail ≤ (node a).head ∧ (node a).head < SQUEUE_NODE_SIZE ∧
      values (node a) = w.map some
  | a, b :: l, w =>
    (node a).next = some b ∧ (node a).tail < SQUEUE_NODE_SIZE ∧ (node a).head = SQUEUE_NODE_SIZE ∧
      ∃ w₁ w₂, w = w₁ ++ w₂ ∧ values (node a) = w₁.map some ∧ Segments node last b l w₂

theorem Segments.last_mem (h : Segments node last a l w) : last ∈ a :: l := by
  induction l generalizing a w with
  | nil => exact h.1 ▸ List.mem_cons_self
  | cons b l ih =>
    obtain ⟨-, -, -, w₁, w₂, -, -, hrest⟩ := h
    exact List.mem_cons_of_mem _ (ih hrest)

theorem Segments.tail_lt (h : Segments node last a l w) : (node a).tail < SQUEUE_NODE_SIZE := by
  cases l with
  | nil => exact Nat.lt_of_le_of_lt h.2.1 h.2.2.1
  | cons b l => exact h.2.1

theorem Segments.exists_last (h : Segments node last a l w) :
    ∃ w', Segments node last last [] w' := by
  induction l generalizing a w with
  | nil =>
    obtain rfl : a = last := h.1
    exact ⟨w, h⟩
  | cons b l ih =>
    obtain ⟨-, -, -, w₁, w₂, -, -, hrest⟩ := h
    exact ih hrest

theorem Segments.congr (h : Segments node last a l w) (heq : ∀ b ∈ a :: l, node' b = node b) :
    Segments node' last a l w := by
  induction l generalizing a w with
  | nil =>
    unfold Segments
    rw [heq a List.mem_cons_self]
    exact h
  | cons b l ih =>
    obtain ⟨hnext, htail, hhead, w₁, w₂, hw, hvalues, hrest⟩ := h
    unfold Segments
    rw [heq a List.mem_cons_self]
    exact ⟨hnext, htail, hhead, w₁, w₂, hw, hvalues, ih hrest fun c hc =>
      heq c (List.mem_cons_of_mem _ hc)⟩

/-- What is done at the last node is done to the queue. -/
theorem Segments.extend (h : Segments node last a l w) (hnd : (a :: l).Nodup)
    (heq : ∀ b ∈ a :: l, b ≠ last → node' b = node b)
    (hlast : ∀ w, Segments node last last [] w → Segments node' last' last l' (w ++ [v])) :
    Segments node' last' a (l ++ l') (w ++ [v]) := by
  induction l generalizing a w with
  | nil =>
    obtain rfl : a = last := h.1
    exact hlast w h
  | cons b l ih =>
    obtain ⟨hnext, htail, hhead, w₁, w₂, hw, hvalues, hrest⟩ := h
    rw [List.nodup_cons] at hnd
    have hne : a ≠ last := fun he => hnd.1 (he ▸ hrest.last_mem)
    have hcons := ih hrest hnd.2 fun c hc => heq c (List.mem_cons_of_mem _ hc)
    rw [List.cons_append]
    unfold Segments
    rw [heq a List.mem_cons_self hne]
    refine ⟨hnext, htail, hhead, w₁, w₂ ++ [v], ?_, hvalues, hcons⟩
    rw [hw, List.append_assoc]

/-! ### What the two calls do to it -/

/-- A node with a further value. -/
def pushed (n : Node) (v : ℕ) : Node :=
  { n with head := n.head + 1, queue := Function.update n.queue n.head (some v) }

theorem values_pushed {n : Node} (h : n.tail ≤ n.head) :
    values (pushed n v) = values n ++ [some v] := by
  unfold values pushed
  dsimp only
  rw [show n.head + 1 - n.tail = n.head - n.tail + 1 by omega, slice_add,
    show n.tail + (n.head - n.tail) = n.head by omega,
    slice_succ, slice_zero, Function.update_self]
  refine congrArg (· ++ [some v]) (slice_congr fun i _ hi => ?_)
  exact Function.update_of_ne (by omega) ..

/-- A value is pushed that is not the last one of its node. -/
theorem Segments.push (h : Segments node last a l w) (hnd : (a :: l).Nodup)
    (hroom : (node last).head + 1 < SQUEUE_NODE_SIZE) :
    Segments (Function.update node last (pushed (node last) v)) last a l (w ++ [v]) := by
  have hlast : ∀ w, Segments node last last [] w →
      Segments (Function.update node last (pushed (node last) v)) last last [] (w ++ [v]) := by
    rintro w ⟨-, hle, -, hvalues⟩
    unfold Segments
    rw [Function.update_self, values_pushed hle, hvalues, List.map_append]
    exact ⟨rfl, Nat.le_succ_of_le hle, hroom, rfl⟩
  have hext := h.extend hnd (fun b _ hb => Function.update_of_ne hb ..) hlast
  rwa [List.append_nil] at hext

/-- The last value of a node is pushed, and a node follows. -/
theorem Segments.push_node (h : Segments node last a l w) (hnd : (a :: l).Nodup) (hm : m ∉ a :: l)
    (hfull : (node last).head + 1 = SQUEUE_NODE_SIZE) :
    Segments (Function.update (Function.update node m {}) last { pushed (node last) v with next := some m }) m a
      (l ++ [m]) (w ++ [v]) := by
  have hmlast : m ≠ last := fun he => hm (he ▸ h.last_mem)
  refine h.extend hnd (fun b hb hbl => ?_) fun w hw => ?_
  · have hbm : b ≠ m := fun he => hm (he ▸ hb)
    rw [Function.update_of_ne hbl, Function.update_of_ne hbm]
  · obtain ⟨-, hle, hlt, hvalues⟩ := hw
    unfold Segments
    rw [Function.update_self]
    refine ⟨rfl, Nat.lt_of_le_of_lt hle hlt, hfull, w ++ [v], [], (List.append_nil _).symm, ?_, ?_⟩
    · rw [List.map_append, ← hvalues]
      exact values_pushed hle
    · unfold Segments
      rw [Function.update_of_ne hmlast, Function.update_self]
      exact ⟨rfl, Nat.le_refl 0, Nat.succ_pos _, rfl⟩

/-- The next value of the first node. -/
theorem values_cons {n : Node} {x : Option ℕ} {xs : List (Option ℕ)} (h : values n = x :: xs) :
    n.tail < n.head ∧ n.queue n.tail = x ∧ values { n with tail := n.tail + 1 } = xs := by
  have hlen := congrArg List.length h
  unfold values at h hlen
  rw [length_slice, List.length_cons] at hlen
  rw [show n.head - n.tail = 1 + (n.head - (n.tail + 1)) by omega, slice_add] at h
  obtain ⟨hx, hxs⟩ := List.cons.inj h
  exact ⟨by omega, hx, hxs⟩

/-- A value is popped that is not the last one of its node. -/
theorem Segments.pop (h : Segments node last a l (v :: w)) (hnd : (a :: l).Nodup)
    (hmore : (node a).tail + 1 < SQUEUE_NODE_SIZE) :
    (node a).queue (node a).tail = some v ∧
      Segments (Function.update node a { node a with tail := (node a).tail + 1 }) last a l w := by
  cases l with
  | nil =>
    obtain ⟨rfl, -, hlt, hvalues⟩ := h
    obtain ⟨htail, hx, hxs⟩ := values_cons hvalues
    refine ⟨hx, ?_⟩
    unfold Segments
    rw [Function.update_self]
    exact ⟨rfl, htail, hlt, hxs⟩
  | cons b l =>
    obtain ⟨hnext, htail, hhead, w₁, w₂, hw, hvalues, hrest⟩ := h
    cases w₁ with
    | nil =>
      have hlen := congrArg List.length hvalues
      unfold values at hlen
      rw [length_slice, hhead, List.map_nil, List.length_nil] at hlen
      omega
    | cons v' w₁ =>
      obtain ⟨rfl, rfl⟩ := List.cons.inj hw
      obtain ⟨-, hx, hxs⟩ := values_cons hvalues
      refine ⟨hx, ?_⟩
      unfold Segments
      rw [Function.update_self]
      refine ⟨hnext, hmore, hhead, w₁, w₂, rfl, hxs, hrest.congr fun c hc => ?_⟩
      have hca : c ≠ a := fun he => (List.nodup_cons.mp hnd).1 (he ▸ hc)
      exact Function.update_of_ne hca ..

/-- The last value of a node is popped: another node follows, with the other values. -/
theorem Segments.pop_node (h : Segments node last a l (v :: w))
    (hlast : (node a).tail + 1 = SQUEUE_NODE_SIZE) :
    (node a).queue (node a).tail = some v ∧
      ∃ b l', l = b :: l' ∧ (node a).next = some b ∧ Segments node last b l' w := by
  cases l with
  | nil =>
    obtain ⟨rfl, -, hlt, hvalues⟩ := h
    have := (values_cons hvalues).1
    omega
  | cons b l =>
    obtain ⟨hnext, htail, hhead, w₁, w₂, hw, hvalues, hrest⟩ := h
    have hlen := congrArg List.length hvalues
    unfold values at hlen
    rw [length_slice, hhead, List.length_map] at hlen
    cases w₁ with
    | nil =>
      rw [List.length_nil] at hlen
      omega
    | cons v' w₁ =>
      obtain ⟨rfl, rfl⟩ := List.cons.inj hw
      obtain rfl : w₁ = [] := List.eq_nil_of_length_eq_zero (by rw [List.length_cons] at hlen; omega)
      exact ⟨(values_cons hvalues).2.1, b, l, rfl, hnext, hrest⟩

/-! ### What holds between calls -/

/-- The nodes in use are those of the chain from the head to the tail, and the pool links to none of
them. -/
structure Chained (s : State) (a : ℕ) (l : List ℕ) (last : ℕ) (waiting : List ℕ) : Prop where
  used : s.used = a :: l
  nodup : (a :: l).Nodup
  head : s.squeue.head = some a
  tail : s.squeue.tail = some last
  segments : Segments s.squeue.node last a l waiting
  pool : ∀ t ∈ s.squeue.pool.tail, t ∉ a :: l

variable {s s' : State} {waiting : List ℕ} {now : UInt32}

theorem chained_init : Chained .init 0 [] 0 [] :=
  ⟨rfl, List.nodup_singleton 0, rfl, rfl, ⟨rfl, Nat.le_refl 0, by decide, rfl⟩,
    fun _ ht => by cases ht⟩

/-! ### What the calls do to the queue -/

variable {q : Squeue} {n : ℕ}

theorem pushWith_room (ht : q.tail = some n) (h : (q.node n).head + 1 < SQUEUE_NODE_SIZE) :
    pushWith q m v = some
      { q with node := Function.update q.node n (pushed (q.node n) v), count := q.count + 1 } := by
  unfold SQUEUE_NODE_SIZE at h
  obtain ⟨node, made, pool, count, freePtr, tail, head⟩ := q
  obtain rfl : tail = some n := ht
  unfold pushWith Squeue.pushNode SQUEUE_NODE_SIZE
  dsimp only at h ⊢
  rw [if_pos (by omega), if_pos (by omega)]
  rfl

theorem pushWith_full (ht : q.tail = some n) (h : (q.node n).head + 1 = SQUEUE_NODE_SIZE)
    (hmn : m ≠ n) :
    pushWith q m v = some { q with
      node := Function.update (Function.update q.node m {}) n { pushed (q.node n) v with next := some m }
      tail := some m
      count := q.count + 1 } := by
  unfold SQUEUE_NODE_SIZE at h
  obtain ⟨node, made, pool, count, freePtr, tail, head⟩ := q
  obtain rfl : tail = some n := ht
  unfold pushWith Squeue.pushNode Squeue.setNode SQUEUE_NODE_SIZE
  dsimp only at h ⊢
  rw [if_neg (by omega), if_pos (by omega), if_pos (by omega), Function.update_comm hmn.symm,
    Function.update_idem, Function.update_self]
  rfl

theorem handlerPop_more (hpos : q.count > 0) (hh : q.head = some n)
    (hv : (q.node n).queue (q.node n).tail = some v)
    (h : (q.node n).tail + 1 < SQUEUE_NODE_SIZE) :
    handlerPop q now = some (v, none, { q with
      node := Function.update q.node n { q.node n with tail := (q.node n).tail + 1 }
      count := q.count - 1 }) := by
  unfold SQUEUE_NODE_SIZE at h
  obtain ⟨node, made, pool, count, freePtr, tail, head⟩ := q
  obtain rfl : head = some n := hh
  unfold handlerPop SQUEUE_NODE_SIZE
  dsimp only at h hv ⊢
  rw [if_pos hpos, if_pos (by omega), hv]
  dsimp only
  rw [if_neg (by omega)]
  rfl

/-- `free_squeue_node` writes to the node and to the last one of the pool. -/
theorem freeNode_spec (now : UInt32) (n : ℕ) (q : Squeue) : ∃ node p,
    q.freeNode now n = { q with node, pool := ⟨p, some n, q.pool.count + 1⟩ } ∧
      ∀ b ≠ n, q.pool.tail ≠ some b → node b = q.node b := by
  obtain ⟨node, made, ⟨phead, ptail, pcount⟩, count, freePtr, tail, head⟩ := q
  unfold Squeue.freeNode Squeue.setNode
  cases ptail with
  | none => exact ⟨_, _, rfl, fun b hb _ => Function.update_of_ne hb ..⟩
  | some t =>
    refine ⟨_, _, rfl, fun b hb ht => ?_⟩
    have hbt : b ≠ t := fun he => ht (congrArg some he.symm)
    exact (Function.update_of_ne hbt ..).trans (Function.update_of_ne hb ..)

/-- Where a node is freed the queue is what `free_squeue_node` leaves. -/
theorem handlerPop_last (now : UInt32) (hpos : q.count > 0) (hh : q.head = some n)
    (hv : (q.node n).queue (q.node n).tail = some v) (h : (q.node n).tail + 1 = SQUEUE_NODE_SIZE)
    (ht : q.tail ≠ some n) :
    ∃ node a, handlerPop q now = some (v, some n, { q with
        node
        pool := ⟨a, some n, q.pool.count + 1⟩
        head := (q.node n).next
        count := q.count - 1 }) ∧
      ∀ b ≠ n, q.pool.tail ≠ some b → node b = q.node b := by
  unfold SQUEUE_NODE_SIZE at h
  obtain ⟨node, made, pool, count, freePtr, tail, head⟩ := q
  obtain rfl : head = some n := hh
  unfold handlerPop SQUEUE_NODE_SIZE
  dsimp only at h hv ht ⊢
  rw [if_pos hpos, if_pos (by omega), hv]
  dsimp only
  unfold Squeue.setNode
  rw [if_pos (by omega), if_neg ht]
  dsimp only
  obtain ⟨node', p, hfree, hother⟩ := freeNode_spec now n ⟨Function.update node n
    { node n with tail := (node n).tail + 1 }, made, pool, count, freePtr, tail, (node n).next⟩
  refine ⟨node', p, ?_, fun b hb ht => ?_⟩
  · rw [Function.update_self, hfree]
  · rw [hother b hb ht]
    exact Function.update_of_ne hb ..

/-- A push ends, and its value waits behind the others. -/
theorem Chained.push (h : Chained s a l last waiting) (hm : m ∉ s.used)
    (hpool : s.squeue.pool.tail ≠ some m) (v : ℕ) :
    ∃ s' l' last', s.push m v = some s' ∧ Chained s' a l' last' (waiting ++ [v]) ∧
      s'.squeue.count = s.squeue.count + 1 ∧ s'.freed = none := by
  rw [h.used] at hm
  obtain ⟨hused, hnd, hhead, htail, hsegs, hpoolt⟩ := h
  obtain ⟨w, -, -, hlt, -⟩ := hsegs.exists_last
  unfold State.push
  by_cases hroom : (s.squeue.node last).head + 1 < SQUEUE_NODE_SIZE
  · rw [pushWith_room htail hroom]
    refine ⟨_, l, last, rfl, ?_, rfl, rfl⟩
    exact ⟨(if_pos rfl).trans hused, hnd, hhead, htail, hsegs.push hnd hroom, hpoolt⟩
  · have hmlast : m ≠ last := fun he => hm (he ▸ hsegs.last_mem)
    have hfull : (s.squeue.node last).head + 1 = SQUEUE_NODE_SIZE := by omega
    have hne : (some m : Option ℕ) ≠ s.squeue.tail := by
      rw [htail]
      exact fun he => hmlast (Option.some.inj he)
    rw [pushWith_full htail hfull hmlast]
    refine ⟨_, l ++ [m], m, rfl, ?_, rfl, rfl⟩
    refine ⟨(if_neg hne).trans (congrArg (· ++ [m]) hused), ?_, hhead, rfl,
      hsegs.push_node hnd hm hfull, fun t ht => ?_⟩
    · rw [← List.cons_append]
      exact List.nodup_append'.mpr ⟨hnd, List.nodup_singleton m, List.disjoint_singleton.mpr hm⟩
    · rw [← List.cons_append, List.mem_append, not_or, List.mem_singleton]
      exact ⟨hpoolt t ht, fun he => hpool (he ▸ ht)⟩

/-- A pop ends with the value that has waited longest. What it frees is neither the first node nor
the last. -/
theorem Chained.pop (h : Chained s a l last (v :: waiting)) (hpos : s.squeue.count > 0)
    (now : UInt32) :
    ∃ s' a' l', s.pop now = some (some v, s') ∧ Chained s' a' l' last waiting ∧
      s'.squeue.count = s.squeue.count - 1 ∧
      ∀ m ∈ s'.freed, s'.squeue.head ≠ some m ∧ s'.squeue.tail ≠ some m := by
  obtain ⟨hused, hnd, hhead, htail, hsegs, hpoolt⟩ := h
  have hlt := hsegs.tail_lt
  unfold State.pop
  by_cases hmore : (s.squeue.node a).tail + 1 < SQUEUE_NODE_SIZE
  · obtain ⟨hv, hsegs'⟩ := hsegs.pop hnd hmore
    rw [handlerPop_more hpos hhead hv hmore]
    refine ⟨_, a, l, rfl, ?_, rfl, fun m hm => by cases hm⟩
    refine ⟨?_, hnd, hhead, htail, hsegs', hpoolt⟩
    rw [← hused]
    exact List.filter_eq_self.mpr fun b _ => decide_eq_true (Option.some_ne_none b)
  · have hlastp : (s.squeue.node a).tail + 1 = SQUEUE_NODE_SIZE := by omega
    obtain ⟨hv, b, l', rfl, hnext, hsegs'⟩ := hsegs.pop_node hlastp
    rw [List.nodup_cons] at hnd
    have hal : last ≠ a := fun he => hnd.1 (he ▸ hsegs'.last_mem)
    obtain ⟨node, p, hpop, hother⟩ := handlerPop_last now hpos hhead hv hlastp fun he =>
      hal (Option.some.inj (htail.symm.trans he))
    rw [hpop]
    refine ⟨_, b, l', rfl, ?_, rfl, fun m hm => ?_⟩
    · refine ⟨?_, hnd.2, hnext, htail, hsegs'.congr fun c hc => ?_, fun t ht => ?_⟩
      · show s.used.filter _ = b :: l'
        rw [hused, List.filter_cons_of_neg (by simp)]
        exact List.filter_eq_self.mpr fun c hc => decide_eq_true fun he =>
          hnd.1 (Option.some.inj he ▸ hc)
      · refine hother c (fun he => hnd.1 (he ▸ hc)) fun he => ?_
        exact hpoolt c he (List.mem_cons_of_mem _ hc)
      · obtain rfl : a = t := Option.some.inj ht
        exact hnd.1
    · obtain rfl : a = m := Option.some.inj hm
      refine ⟨fun he => ?_, fun he => hal (Option.some.inj (htail.symm.trans he))⟩
      have hba : b = a := Option.some.inj (hnext.symm.trans he)
      exact hnd.1 (hba ▸ List.mem_cons_self)

/-! ### Runs -/

variable {ops : List Call}

theorem pushWith_frame {q' : Squeue} (h : pushWith q m v = some q') :
    q'.count = q.count + 1 ∧ q'.pool = q.pool := by
  unfold pushWith at h
  split at h
  · cases h
  · dsimp only at h
    split_ifs at h
    all_goals
      cases h
      exact ⟨rfl, rfl⟩

theorem toInt_add_one {x : Int32} (h : x ≠ 2147483647) : (x + 1).toInt = x.toInt + 1 := by
  have hlt := x.toInt_lt
  have hle := x.le_toInt
  have hne : x.toInt ≠ 2147483647 := fun he => h (Int32.toInt_inj.mp he)
  rw [Int32.toInt_add, show (1 : Int32).toInt = 1 by decide, Int.bmod_eq_of_le (by omega) (by omega)]

/-- The values of a queue that is first-in first-out are counted. -/
theorem counted_of_fifo (h : Fifo hqueue s waiting ops) (k : ℕ) : Along hqueue Counted s k ops := by
  induction ops generalizing s waiting k with
  | nil => exact trivial
  | cons o ops ih =>
    cases o with
    | push m v =>
      obtain ⟨hfits, s', hpush, hrest⟩ := h
      refine ⟨fun hmax => ?_, fun s'' hs => ?_⟩
      · obtain ⟨q', hq, rfl⟩ := Option.map_eq_some_iff.mp hpush
        have hnext : q'.count.toInt = (waiting ++ [v]).length := hrest.fits.1
        rw [(pushWith_frame hq).1, hmax, List.length_append] at hnext
        have hmin : ((2147483647 : Int32) + 1).toInt = -2147483648 := by decide
        omega
      · rw [hpush] at hs
        cases hs
        exact ih hrest (k + 1)
    | pop now =>
      obtain ⟨hfits, s', hpop, hrest⟩ := h
      refine ⟨trivial, fun r s'' hs => ?_⟩
      rw [hpop] at hs
      cases hs
      exact ih hrest k

/-- Where its values are counted a queue is first-in first-out. -/
theorem fifo_of_counted (hcalls : Along hqueue Called .init 0 ops)
    (h : Along hqueue Counted .init 0 ops) :
    Fifo hqueue .init [] ops := by
  refine fifo_of_along
    (I := fun s waiting _ => (∃ a l last, Chained s a l last waiting) ∧ hqueue.Fits s waiting.length)
    (fun s waiting n h => h.2) (fun s waiting n m v hs hg => ?_)
    (fun s waiting n now hs hg => ?_) ?_ (hcalls.and h)
  · obtain ⟨⟨a, l, last, hchain⟩, hcount, -⟩ := hs
    obtain ⟨⟨hm, hpool⟩, hmax⟩ := hg
    obtain ⟨s', l', last', hpush, hchain', hcount', hfreed⟩ := hchain.push hm hpool v
    refine ⟨s', hpush, ⟨a, l', last', hchain'⟩, ?_, fun b hb => ?_⟩
    · rw [hcount', toInt_add_one hmax, hcount, List.length_append]
      rfl
    · rw [hfreed] at hb
      cases hb
  · obtain ⟨⟨a, l, last, hchain⟩, hcount, -⟩ := hs
    have hpos : s.squeue.count > 0 := hg.1
    have hint : 0 < s.squeue.count.toInt := Int32.lt_iff_toInt_lt.mp hpos
    cases waiting with
    | nil =>
      rw [hcount] at hint
      cases hint
    | cons v waiting =>
      obtain ⟨s', a', l', hpop, hchain', hcount', hfreed⟩ := hchain.pop hpos now
      refine ⟨s', hpop, ⟨a', l', last, hchain'⟩, ?_, hfreed⟩
      rw [hcount', toInt_sub_one (by omega), hcount, List.length_cons, List.tail_cons]
      omega
  · exact ⟨⟨0, [], 0, chained_init⟩, rfl, fun b hb => by cases hb⟩

/-- **A handler's queue is first-in first-out exactly where the count never comes to its end.** -/
theorem handler_fifo_iff (ops : List Call) (hcalls : Along hqueue Called .init 0 ops) :
    Fifo hqueue .init [] ops ↔ Along hqueue Counted .init 0 ops :=
  ⟨fun h => counted_of_fifo h 0, fifo_of_counted hcalls⟩

/-- Two values are pushed, and both are popped. -/
theorem handler_fifo_iff_two : Fifo hqueue .init [] [.push 1 7, .push 1 8, .pop 0, .pop 0] :=
  (handler_fifo_iff _ (by decide)).mpr (by decide)

/-! ### More values than an `int` counts -/

/-- Calls that get a new node each time. -/
def pushes (k j : ℕ) : List Call := (List.range' k j).map fun m => .push m 0

theorem called_pushes (j : ℕ) {k : ℕ} (hused : ∀ b ∈ s.used, b < k)
    (hpool : s.squeue.pool.tail = none) (n : ℕ) :
    Along hqueue Called s n (pushes k j) := by
  induction j generalizing s k n with
  | zero => exact trivial
  | succ j ih =>
    refine ⟨⟨fun hk => Nat.lt_irrefl k (hused k hk), ?_⟩, fun s' hs => ?_⟩
    · rw [hpool]
      exact fun he => by cases he
    · obtain ⟨q', hq, rfl⟩ := Option.map_eq_some_iff.mp hs
      refine ih (fun b hb => ?_) ?_ (n + 1)
      · dsimp only at hb
        split_ifs at hb
        · exact Nat.lt_succ_of_lt (hused b hb)
        · obtain hb | hb := List.mem_append.mp hb
          · exact Nat.lt_succ_of_lt (hused b hb)
          · exact List.mem_singleton.mp hb ▸ Nat.lt_succ_self k
      · show q'.pool.tail = none
        rw [(pushWith_frame hq).2, hpool]

theorem length_pushes_of_fifo (j : ℕ) {k : ℕ} (h : Fifo hqueue s waiting (pushes k j)) :
    waiting.length + j < 2147483648 := by
  induction j generalizing s k waiting with
  | zero =>
    have hcount : s.squeue.count.toInt = waiting.length := h.fits.1
    have := s.squeue.count.toInt_lt
    omega
  | succ j ih =>
    obtain ⟨-, s', -, hrest⟩ := h
    have := ih hrest
    rw [List.length_append, List.length_singleton] at this
    omega

/-- `2 ^ 31` values are pushed, each with a node that is new. -/
theorem not_handler_fifo :
    Along hqueue Called .init 0 (pushes 1 (2 ^ 31)) ∧
      ¬ Fifo hqueue .init [] (pushes 1 (2 ^ 31)) := by
  refine ⟨called_pushes _ (fun b hb => ?_) rfl 0, fun h => ?_⟩
  · rw [List.mem_singleton.mp hb]
    exact Nat.one_pos
  · have := length_pushes_of_fifo _ h
    omega

end ChatShow.Antlib.HandlerQueue
