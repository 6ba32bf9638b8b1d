import ChatShow.Antlib.SqueueRuns

/-! # The threads of a group of handlers

`handlers_list_thread_proc` in any number of threads, over the handlers of one list: a thread takes the
handler of the next index, and goes on to the one behind it where another has its `_locker`. `do_handler`
pops the messages that were in the queue when it read `_count`. Messages are sent by any threads.

A handler's `_domsg_proc` and `_handler_proc` do to the state of the group what the pushes of some thread
do. The nodes of a queue are not those of another. -/

namespace ChatShow.Antlib.HandlerThreads

open ChatShow.Antlib.SqueueThreads (PopPc PushPc)
open ChatShow.Lib.Runs

/-- Where a thread is in `handlers_list_thread_proc`: `n` is that of its loop, and in `do_handler` the
handler is the `i`-th, `count` is what has been read of its queue, and `j` messages have been done. -/
inductive WorkerPc
  | out
  | turn (n : ℕ)
  /-- before `LOCK_SET` on the `_locker` -/
  | lock (n i : ℕ)
  /-- before `_count` is read -/
  | read (n i : ℕ)
  | msgs (n i j : ℕ) (count : Int32)
  | pop (n i j : ℕ) (count : Int32) (pc : PopPc)
  /-- before `_domsg_proc` -/
  | msg (n i j : ℕ) (count : Int32) (v : ℕ)
  /-- before `LOCK_ZERO` -/
  | unlock (n i : ℕ)
  deriving DecidableEq

/-- Where a step of `handler_pop_squeue` from `pc` to `pc'` leads. -/
def WorkerPc.popped (n i j : ℕ) (count : Int32) (pc pc' : PopPc) : WorkerPc :=
  match pc with
  | .count v => .msg n i j count v
  | _ => .pop n i j count pc'

/-- A group, whose threads are `ω`, and the threads `ι` that send. The `pop` of a queue is no thread's:
where a thread is in `handler_pop_squeue`, its own `WorkerPc` says. -/
structure Group (ι ω : Type*) where
  index : UInt32 := 0
  size : UInt32
  locker : ℕ → UInt32 := fun _ => 0
  queue : ℕ → SqueueThreads.State ι
  worker : ω → WorkerPc := fun _ => .out
  /-- the messages that `_domsg_proc` of a handler has been called with -/
  handled : ℕ → List ℕ := fun _ => []
  /-- the handlers that `_index` has come to -/
  polled : List ℕ := []

namespace Group

variable {ι ω : Type*}

/-- The handlers of the group, with the first nodes of their queues. -/
def init (size : UInt32) (node : ℕ → ℕ) : Group ι ω where
  size
  queue i := .init (node i)

/-- The queue of a handler, with a thread in `handler_pop_squeue`. -/
def popping (g : Group ι ω) (i : ℕ) (pc : PopPc) : SqueueThreads.State ι := { g.queue i with pop := pc }

variable [DecidableEq ω]

def go (g : Group ι ω) (w : ω) (pc : WorkerPc) : Group ι ω :=
  { g with worker := Function.update g.worker w pc }

def setLocker (g : Group ι ω) (i : ℕ) (l : UInt32) : Group ι ω :=
  { g with locker := Function.update g.locker i l }

def setQueue (g : Group ι ω) (i : ℕ) (q : SqueueThreads.State ι) : Group ι ω :=
  { g with queue := Function.update g.queue i q }

/-- `_domsg_proc`, and `free_handler_msg`. -/
def doMsg (g : Group ι ω) (i v : ℕ) : Group ι ω :=
  { g with handled := Function.update g.handled i (g.handled i ++ [v]) }

variable [DecidableEq ι]

/-- A step of `handlers_list_thread_proc`. `none` is a division by 0, an `ASSERT` that fails, or what is
`none` in the queue. -/
def turn (g : Group ι ω) (w : ω) (now : UInt32) : Option (Group ι ω) :=
  match g.worker w with
  | .out => none
  | .turn n =>
    if n + 1 < 8 then
      if g.size = 0 then none
      else
        let i := (g.index % g.size).toNat
        some ({ g with index := g.index + 1, polled := g.polled ++ [i] }.go w (.lock (n + 1) i))
    else some (g.go w .out)
  | .lock n i => some ((g.setLocker i 1).go w (if g.locker i = 0 then .read n i else .turn n))
  | .read n i => some (g.go w (.msgs n i 0 (g.queue i).squeue.count))
  | .msgs n i j count =>
    if j < count.toInt then
      ((g.popping i .out).step .pop).map fun s => g.go w (.pop n i j count s.pop)
    else some (g.go w (.unlock n i))
  | .pop n i j count pc =>
    ((g.popping i pc).step (.popTurn now)).map fun s =>
      (g.setQueue i { s with pop := .out }).go w (.popped n i j count pc s.pop)
  | .msg n i j count v => some ((g.doMsg i v).go w (.msgs n i (j + 1) count))
  | .unlock n i => some ((g.setLocker i 0).go w (.turn n))

inductive Label (ι ω : Type*)
  /-- a step of `push_squeue` to the handler `i` -/
  | send (i : ℕ) (a : SqueueThreads.Label ι)
  /-- `handlers_list_thread_proc` is called -/
  | call (w : ω)
  | turn (w : ω) (now : UInt32)

def step (g : Group ι ω) : Label ι ω → Option (Group ι ω)
  | .send i a => ((g.queue i).step a).map (g.setQueue i)
  | .call w => if g.worker w = .out then some (g.go w (.turn 0)) else none
  | .turn w now => g.turn w now

/-- A step of a push. -/
def IsPush : SqueueThreads.Label ι → Prop
  | .push .. | .pushTurn .. => True
  | _ => False

/-- The steps there are. -/
def Ok (g : Group ι ω) : Label ι ω → Prop
  | .send i a => IsPush a ∧ SqueueThreads.Ok (g.queue i) a
  | .call w => g.worker w = .out
  | .turn w _ => g.worker w ≠ .out

end Group

/-! ### The thread that has a handler -/

/-- The handler of which a thread has the `_locker`. -/
def WorkerPc.has : WorkerPc → Option ℕ
  | .read _ i | .msgs _ i _ _ | .pop _ i _ _ _ | .msg _ i _ _ _ | .unlock _ i => some i
  | _ => none

def WorkerPc.popPc : WorkerPc → PopPc
  | .pop _ _ _ _ pc => pc
  | _ => .out

/-- The messages that `do_handler` has still to pop. -/
def WorkerPc.left : WorkerPc → ℤ
  | .msgs _ _ j count | .pop _ _ j count _ => count.toInt - j
  | .msg _ _ j count _ => count.toInt - (j + 1)
  | _ => 0

/-- The message that has been popped and not done. -/
def WorkerPc.holds : WorkerPc → List ℕ
  | .msg _ _ _ _ v => [v]
  | _ => []

variable {ι ω : Type*} {g g' : Group ι ω} {i : ℕ} {o : WorkerPc}

/-- The one thread that has the handler `i` is at `o`, or none has it and `o` is `out`. -/
def Owner (g : Group ι ω) (i : ℕ) (o : WorkerPc) : Prop :=
  (∃ w, g.worker w = o ∧ o.has = some i ∧ ∀ w', (g.worker w').has = some i → w' = w) ∨
    (o = .out ∧ ∀ w, (g.worker w).has ≠ some i)

/-- What holds of a handler, and of the thread that has it. -/
structure Served (g : Group ι ω) (i : ℕ) (o : WorkerPc) : Prop where
  owner : Owner g i o
  locker : g.locker i = 0 ↔ o = .out
  busy : ∀ n j count, o ≠ .pop n i j count .out
  rest : (g.queue i).pop = .out
  queue : SqueueThreads.Inv (g.popping i o.popPc)
  left : o.left ≤ (g.queue i).squeue.count.toInt
  handled : g.handled i ++ o.holds = (g.queue i).popped

theorem served_init (size : UInt32) (node : ℕ → ℕ) (i : ℕ) :
    Served (Group.init size node : Group ι ω) i .out where
  owner := Or.inr ⟨rfl, fun _ => nofun⟩
  locker := iff_of_true rfl rfl
  busy _ _ _ := nofun
  rest := rfl
  queue := SqueueThreads.inv_init (node i)
  left := le_rfl
  handled := rfl

end ChatShow.Antlib.HandlerThreads
