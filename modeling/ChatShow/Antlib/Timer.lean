import ChatShow.Lib.LinkedQueue
import ChatShow.Lib.Runs
import Mathlib.Data.Int.Notation

/-! # The timers of antlib

`add_timer` puts a node into a queue. A round of `do_timer` runs `do_timers` some times, which sends
what is in the near list of the tick and moves the far list of the block on at its last tick, and then
`do_timer_event`, which takes the queue and puts each node into a near list, where it is due in the
block of `_times`, or into a far list. The steps of a round are steps here, and timers may be added
between them.

`ticks` counts the ticks, of which `_times` has the last 32 bits, and so has `_expire` those of the
tick at which a timer is due. Nodes are numbers, in the order in which they were made. `none` is a
fault: an `ASSERT` that fails, a node that is freed twice, or a loop without end. A node that has been
freed still has what it had, as the head that `_my_malloc` puts in front of it is what `free` writes. -/

namespace ChatShow.Antlib.Timer

open ChatShow.Lib.LinkedQueue

/-! ### The state -/

/-- `TIIMER_MAX`. -/
def timerMax : ℤ := 30 * 24 * 3600

structure Node where
  handlerid : UInt32
  msg : ℕ
  due : ℕ
deriving DecidableEq

/-- `_expire`. -/
def Node.expire (n : Node) : UInt32 := UInt32.ofNat n.due

/-- A message that has been sent for a timer. -/
structure Sent where
  node : ℕ
  handlerid : UInt32
  msg : ℕ
  /-- The ticks at the start of the round, and when it was sent. -/
  start : ℕ
  ticks : ℕ
  /-- The timer was taken from the queue in this round. -/
  taken : Bool
deriving DecidableEq

structure State where
  ticks : ℕ := 0
  start : ℕ := 0
  nodes : List Node := []
  next : ℕ → Option ℕ := fun _ => none
  freed : ℕ → Bool := fun _ => false
  queue : List ℕ := []
  near : ℕ → Queue ℕ := fun _ => {}
  far : ℕ → Queue ℕ := fun _ => {}
  sent : List Sent := []

/-- `_times`. -/
def State.times (s : State) : UInt32 := UInt32.ofNat s.ticks

/-! ### Timers are added -/

/-- `add_timer`; one of no seconds is a message that is sent at once. -/
def State.addTimer (s : State) (sec : ℤ) (handlerid : UInt32) (msg : ℕ) : Option State :=
  if sec ≤ 0 then some s
  else if timerMax < sec then none
  else some { s with
    nodes := s.nodes ++ [⟨handlerid, msg, s.ticks + sec.toNat⟩], queue := s.queue ++ [s.nodes.length] }

/-! ### The ticks -/

/-- `send_handler_msg` for a node. -/
def State.sentOf (s : State) (taken : Bool) (a : ℕ) : Option Sent :=
  s.nodes[a]?.map fun n => ⟨a, n.handlerid, n.msg, s.start, s.ticks, taken⟩

/-- `add_timer_link` to a near list. -/
def State.addNear (s : State) (i a : ℕ) : State :=
  { s with
    next := linkTail s.next (s.near i) a
    near := Function.update s.near i ((s.near i).push a) }

/-- `add_timer_link` to a far list. -/
def State.addFar (s : State) (i a : ℕ) : State :=
  { s with
    next := linkTail s.next (s.far i) a
    far := Function.update s.far i ((s.far i).push a) }

/-- The loop over a far list: a node has its new link when it is asked for the next. -/
def State.relink : ℕ → Option ℕ → State → Option State
  | _, none, s => some s
  | 0, some _, _ => none
  | n + 1, some a, s => (s.nodes[a]?).bind fun node =>
    let s' := s.addNear (node.expire &&& 0xFFFF).toNat a
    State.relink n (s'.next a) s'

/-- The far list of the block is moved to the near lists at its last tick. -/
def State.cascade (s : State) : Option State :=
  let i := (s.times >>> 16 &&& 0xFFFF).toNat
  if s.times &&& 0xFFFF = 0xFFFF then
    (s.relink s.nodes.length (s.far i).head).bind fun s =>
      (freeAll s.next s.nodes.length (s.far i).head s.freed).map fun freed =>
        { s with freed := freed, far := Function.update s.far i {} }
  else some s

/-- `do_timers`. -/
def State.doTimers (s : State) : Option State :=
  let i := (s.times &&& 0xFFFF).toNat
  (follow s.next s.nodes.length (s.near i).head).bind fun l =>
    (l.mapM (s.sentOf false)).bind fun sent =>
      (freeAll s.next s.nodes.length (s.near i).head s.freed).bind fun freed =>
        let s' := { s with
          freed := freed, near := Function.update s.near i {}, sent := s.sent ++ sent }
        s'.cascade.map fun s => { s with ticks := s.ticks + 1 }

/-! ### The queue -/

/-- A node of the queue that is due is sent and freed. -/
def State.sendNow (s : State) (a : ℕ) : Option State :=
  if s.freed a then none
  else (s.sentOf true a).map fun m =>
    { s with sent := s.sent ++ [m], freed := Function.update s.freed a true }

/-- A node of the queue is handled. -/
def State.take (s : State) (a : ℕ) : Option State :=
  (s.nodes[a]?).bind fun n =>
    if n.expire ≤ s.times then s.sendNow a
    else if n.expire ||| 0xFFFF = s.times ||| 0xFFFF then
      some (s.addNear (n.expire &&& 0xFFFF).toNat a)
    else some (s.addFar (n.expire >>> 16 &&& 0xFFFF).toNat a)

/-- The loop of `do_timer_event`, of as many turns as there are nodes at its start. -/
def State.takeAll : ℕ → State → Option State
  | 0, s => some s
  | n + 1, s =>
    match s.queue with
    | [] => none
    | a :: queue => (State.take { s with queue := queue } a).bind (State.takeAll n)

/-- `do_timer_event`, with which the round ends. -/
def State.doTimerEvent (s : State) : Option State :=
  (s.takeAll s.queue.length).map fun s => { s with start := s.ticks }

/-! ### The steps -/

inductive Label
  | add (sec : ℤ) (handlerid : UInt32) (msg : ℕ)
  | tick
  | event
deriving DecidableEq

def State.step (s : State) : Label → Option State
  | .add sec handlerid msg => s.addTimer sec handlerid msg
  | .tick => s.doTimers
  | .event => s.doTimerEvent

end ChatShow.Antlib.Timer
