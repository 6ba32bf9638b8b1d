import ChatShow.Antlib.SharedQueue
import ChatShow.Lib.Runs
import Mathlib.Data.Finset.Card

/-! # The queue of a handler, between threads

`push_squeue` in any number of threads, and `handler_pop_squeue` in one. A step of a thread is one access
to what the others write. `LOCK_ADD` on the `_head` of a node gives a push its place there; the push that
gets the last place links the next node, and the others look for the tail again until it has. The pop
waits where a place has been given and not been filled, and where the next node has not been linked.

`get_squeue_node` is a parameter: it gives a node, zeroed, that is not in use. -/

namespace ChatShow.Antlib.SqueueThreads

open ChatShow.Antlib.SharedQueue (Node SQUEUE_NODE_SIZE)
open ChatShow.Lib.Runs

/-- A `squeue`, with the nodes there are. -/
structure Squeue where
  node : ℕ → Node := fun _ => {}
  count : Int32 := 0
  tail : Option ℕ
  head : Option ℕ

namespace Squeue

def setNode (q : Squeue) (n : ℕ) (a : Node) : Squeue := { q with node := Function.update q.node n a }

/-- `LOCK_ADD(node->_head,1)`, but for what it returns. -/
def addHead (q : Squeue) (n : ℕ) : Squeue :=
  q.setNode n { q.node n with head := (q.node n).head + 1 }

/-- `LOCK_ADD(node->_tail,1)`, but for what it returns. -/
def addTail (q : Squeue) (n : ℕ) : Squeue :=
  q.setNode n { q.node n with tail := (q.node n).tail + 1 }

/-- `node->_queue[index] = vl`. -/
def setPlace (q : Squeue) (n i v : ℕ) : Squeue :=
  q.setNode n { q.node n with queue := Function.update (q.node n).queue i (some v) }

/-- `node->_next = next`. -/
def setNext (q : Squeue) (n : ℕ) (next : Option ℕ) : Squeue :=
  q.setNode n { q.node n with next := next }

end Squeue

/-- Where a thread is in `push_squeue`. -/
inductive PushPc
  | out
  /-- before `qu->_tail` is read -/
  | read (v : ℕ)
  /-- before `LOCK_ADD` on the `_head` of a node -/
  | add (v n : ℕ)
  /-- before the value is put in its place -/
  | store (v n i : ℕ)
  /-- before `get_squeue_node` -/
  | get
  /-- before `qu->_tail->_next` is written -/
  | link (m : ℕ)
  /-- before `qu->_tail` is -/
  | move
  /-- before `LOCK_ADD` on `_count` -/
  | count
  deriving DecidableEq

/-- A step of `push_squeue`, where `get_squeue_node` gives the node `m`. What `link` and `move` read is
written by no other thread. -/
def pushTurn (q : Squeue) (m : ℕ) : PushPc → Option (Squeue × PushPc)
  | .out => none
  | .read v => q.tail.map fun n => (q, .add v n)
  | .add v n =>
    let index := (q.node n).head
    some (q.addHead n, if index < SQUEUE_NODE_SIZE then .store v n index else .read v)
  | .store v n i => some (q.setPlace n i v, if i < SQUEUE_NODE_SIZE - 1 then .count else .get)
  | .get => some (q.setNode m {}, .link m)
  | .link m => q.tail.map fun n => (q.setNext n (some m), .move)
  | .move => q.tail.map fun n => ({ q with tail := (q.node n).next }, .count)
  | .count => some ({ q with count := q.count + 1 }, .out)

/-- Where the thread that pops is in `handler_pop_squeue`. -/
inductive PopPc
  | out
  /-- before `LOCK_ADD` on the `_tail` of the first node -/
  | add
  /-- in the loop that waits for a place to be filled -/
  | wait (n i : ℕ)
  /-- in the loop that waits for a node to be linked -/
  | leave (n v : ℕ)
  /-- before `free_squeue_node` -/
  | free (n v : ℕ)
  /-- before `LOCK_SUB` on `_count` -/
  | count (v : ℕ)
  deriving DecidableEq

/-- A step of `handler_pop_squeue`. `none` is a null pointer, or a value that has not been read. -/
def popTurn (q : Squeue) (now : UInt32) : PopPc → Option (Squeue × PopPc)
  | .out => none
  | .add => q.head.bind fun n =>
    let index := (q.node n).tail
    if index < SQUEUE_NODE_SIZE then some (q.addTail n, .wait n index) else none
  | .wait n i =>
    match (q.node n).queue i with
    | none => some (q, .wait n i)
    | some v => some (q, if i = SQUEUE_NODE_SIZE - 1 then .leave n v else .count v)
  | .leave n v =>
    if q.tail = some n then some (q, .leave n v)
    else q.head.map fun h => ({ q with head := (q.node h).next }, .free n v)
  | .free n v => some (q.setNode n { q.node n with next := none, freeTime := now + 60 }, .count v)
  | .count _ => some ({ q with count := q.count - 1 }, .out)

/-! ### The threads -/

/-- The queue and its threads. -/
structure State (ι : Type*) where
  squeue : Squeue
  push : ι → PushPc := fun _ => .out
  pop : PopPc := .out
  /-- the nodes that are in use -/
  used : List ℕ := []
  /-- the values that have been given a place, with the threads they are of -/
  taken : List (ι × ℕ) := []
  /-- the pushes that have returned -/
  pushed : ℕ := 0
  /-- the values that have been returned -/
  popped : List ℕ := []

variable {ι : Type*} [DecidableEq ι]

/-- `init_squeue`, with the node `n`. -/
def State.init (n : ℕ) : State ι where
  squeue := { tail := some n, head := some n }
  used := [n]

inductive Label (ι : Type*)
  /-- `push_squeue` is called -/
  | push (t : ι) (v : ℕ)
  /-- a step of `push_squeue`, with the node that `get_squeue_node` gives -/
  | pushTurn (t : ι) (m : ℕ)
  /-- `handler_pop_squeue` is called -/
  | pop
  /-- a step of `handler_pop_squeue` -/
  | popTurn (now : UInt32)

/-- What a thread has been given a place for by its last step. -/
def PushPc.placed (t : ι) : PushPc → List (ι × ℕ)
  | .store v _ _ => [(t, v)]
  | _ => []

/-- What the next step of a pop returns. -/
def PopPc.returns : PopPc → List ℕ
  | .count v => [v]
  | _ => []

/-- The nodes in use after a step of a push. -/
def PushPc.got (used : List ℕ) (m : ℕ) : PushPc → List ℕ
  | .get => used ++ [m]
  | _ => used

/-- The nodes in use after a step of a pop. -/
def PopPc.left (used : List ℕ) : PopPc → List ℕ
  | .free n _ => used.erase n
  | _ => used

/-- The thread `t` has gone to `r`. -/
def State.turnPush (s : State ι) (t : ι) (m : ℕ) (r : Squeue × PushPc) : State ι :=
  { s with
    squeue := r.1
    push := Function.update s.push t r.2
    used := (s.push t).got s.used m
    taken := s.taken ++ r.2.placed t
    pushed := if s.push t = .count then s.pushed + 1 else s.pushed }

/-- The thread that pops has gone to `r`. -/
def State.turnPop (s : State ι) (r : Squeue × PopPc) : State ι :=
  { s with
    squeue := r.1
    pop := r.2
    used := s.pop.left s.used
    popped := s.popped ++ s.pop.returns }

def State.step (s : State ι) : Label ι → Option (State ι)
  | .push t v => if s.push t = .out then some { s with push := Function.update s.push t (.read v) } else none
  | .pushTurn t m => (pushTurn s.squeue m (s.push t)).map (s.turnPush t m)
  | .pop => if s.pop = .out ∧ s.squeue.count > 0 then some { s with pop := .add } else none
  | .popTurn now => (popTurn s.squeue now s.pop).map s.turnPop

/-- A push looks at the node without being in the queue's: it has read it as the tail. -/
def PushPc.Reads (m : ℕ) : PushPc → Prop
  | .add _ n => n = m
  | _ => False

instance (m : ℕ) : DecidablePred (PushPc.Reads m) := fun pc => by
  unfold PushPc.Reads
  split <;> infer_instance

/-- A step of a push that there is: the node that `get_squeue_node` gives is not in use, and no push has
read it as the tail before it was freed; an `int` has room for the number. -/
def PushOk (s : State ι) (t : ι) (m : ℕ) : Prop :=
  match s.push t with
  | .get => m ∉ s.used ∧ ∀ t', ¬ (s.push t').Reads m
  | .add _ n => (s.squeue.node n).head < 2147483647
  | .count => s.squeue.count ≠ 2147483647
  | _ => True

/-- The steps there are: a push is called with a thread that is in none, and a pop where the one before
has returned and the count is positive. -/
def Ok (s : State ι) : Label ι → Prop
  | .push t _ => s.push t = .out
  | .pushTurn t m => s.push t ≠ .out ∧ PushOk s t m
  | .pop => s.pop = .out ∧ s.squeue.count > 0
  | .popTurn _ => s.pop ≠ .out

/-! ### The nodes -/

namespace Squeue

variable (q : Squeue) (n m i v : ℕ) (next : Option ℕ)

@[simp] theorem node_setNode_self (a : Node) : (q.setNode n a).node n = a := Function.update_self ..

theorem node_setNode_of_ne {m n : ℕ} (h : m ≠ n) (a : Node) : (q.setNode n a).node m = q.node m :=
  Function.update_of_ne h ..

@[simp] theorem tail_setNode (a : Node) : (q.setNode n a).tail = q.tail := rfl
@[simp] theorem head_setNode (a : Node) : (q.setNode n a).head = q.head := rfl
@[simp] theorem count_setNode (a : Node) : (q.setNode n a).count = q.count := rfl

/-- A field that a change of a node leaves as it is, it leaves in every node. -/
theorem keep_setNode {β : Type*} (g : Node → β) {n : ℕ} {a : Node} (h : g a = g (q.node n)) (m : ℕ) :
    g ((q.setNode n a).node m) = g (q.node m) := by
  rcases eq_or_ne m n with rfl | hne
  · rw [node_setNode_self, h]
  · rw [node_setNode_of_ne q hne]

@[simp] theorem queue_addHead : ((q.addHead n).node m).queue = (q.node m).queue :=
  keep_setNode q Node.queue (by rfl) m

@[simp] theorem tail_addHead : ((q.addHead n).node m).tail = (q.node m).tail :=
  keep_setNode q Node.tail (by rfl) m

@[simp] theorem next_addHead : ((q.addHead n).node m).next = (q.node m).next :=
  keep_setNode q Node.next (by rfl) m

theorem head_addHead_self : ((q.addHead n).node n).head = (q.node n).head + 1 :=
  congrArg Node.head (node_setNode_self ..)

theorem head_le_addHead : (q.node m).head ≤ ((q.addHead n).node m).head := by
  rcases eq_or_ne m n with rfl | hne
  · rw [head_addHead_self]
    exact Nat.le_succ _
  · exact (congrArg Node.head (node_setNode_of_ne q hne _)).ge

@[simp] theorem head_addTail : ((q.addTail n).node m).head = (q.node m).head :=
  keep_setNode q Node.head (by rfl) m

@[simp] theorem queue_addTail : ((q.addTail n).node m).queue = (q.node m).queue :=
  keep_setNode q Node.queue (by rfl) m

@[simp] theorem next_addTail : ((q.addTail n).node m).next = (q.node m).next :=
  keep_setNode q Node.next (by rfl) m

@[simp] theorem head_setPlace : ((q.setPlace n i v).node m).head = (q.node m).head :=
  keep_setNode q Node.head (by rfl) m

@[simp] theorem tail_setPlace : ((q.setPlace n i v).node m).tail = (q.node m).tail :=
  keep_setNode q Node.tail (by rfl) m

@[simp] theorem next_setPlace : ((q.setPlace n i v).node m).next = (q.node m).next :=
  keep_setNode q Node.next (by rfl) m

@[simp] theorem head_setNext : ((q.setNext n next).node m).head = (q.node m).head :=
  keep_setNode q Node.head (by rfl) m

@[simp] theorem tail_setNext : ((q.setNext n next).node m).tail = (q.node m).tail :=
  keep_setNode q Node.tail (by rfl) m

@[simp] theorem queue_setNext : ((q.setNext n next).node m).queue = (q.node m).queue :=
  keep_setNode q Node.queue (by rfl) m

end Squeue

end ChatShow.Antlib.SqueueThreads
