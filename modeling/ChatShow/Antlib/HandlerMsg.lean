import ChatShow.Antlib.SendQueue
import ChatShow.Lib.Runs

/-! # The messages of antlib and their users

`_used` of a message counts the queues of handlers and of connections that have it; `free_handler_msg`
takes one off and destroys the message by the count that was before. Messages are numbers, in the order
in which they were created. A turn of a loop is one step, as the threads of the handlers take turns,
and so are the two halves of a turn of `do_handler`, as a handler does what it likes in between. `none`
is a fault: an `ASSERT` that fails, or a look at a message that has been destroyed. -/

namespace ChatShow.Antlib.HandlerMsg

open ChatShow.Antlib.SendQueue

/-! ### The state -/

structure Handler where
  queue : List ℕ := []
  /-- The message that `_domsg_proc` has. -/
  busy : Option ℕ := none

structure Connection where
  /-- The connection is in the list of those that are alive. -/
  alive : Bool := false
  type : ℕ := 0
  isOpen : Bool := false
  sendqueue : TcpQueue := {}

structure State where
  created : ℕ := 0
  used : ℕ → ℤ := fun _ => 0
  destroyed : ℕ → ℕ := fun _ => 0
  /-- The message has been in a queue. -/
  passed : ℕ → Bool := fun _ => false
  handlers : List Handler := []
  conns : List Connection := []

/-- A program with as many handlers and objects for connections. -/
def State.start (handlers conns : ℕ) : State where
  handlers := List.replicate handlers {}
  conns := List.replicate conns {}

/-! ### The count -/

/-- `free_handler_msg`. -/
def State.freeHandlerMsg (s : State) (m : ℕ) : Option State :=
  if s.destroyed m ≠ 0 ∨ s.used m < 0 then none
  else some { s with
    used := Function.update s.used m (s.used m - 1)
    destroyed := if s.used m ≤ 0 then Function.update s.destroyed m (s.destroyed m + 1)
      else s.destroyed }

/-- `add_handler_msg_used`, for a queue. -/
def State.addHandlerMsgUsed (s : State) (m : ℕ) : Option State :=
  if s.destroyed m ≠ 0 then none
  else some { s with
    used := Function.update s.used m (s.used m + 1), passed := Function.update s.passed m true }

/-! ### Handlers -/

/-- `send_handler_msg`. -/
def State.sendHandlerMsg (s : State) (i m : ℕ) : Option State :=
  match s.handlers[i]? with
  | none => none
  | some hl => (s.addHandlerMsgUsed m).map fun s =>
    { s with handlers := s.handlers.set i { hl with queue := hl.queue ++ [m] } }

/-- `do_handler` takes a message. -/
def State.handle (s : State) (i : ℕ) : Option State :=
  match s.handlers[i]? with
  | some { queue := m :: queue, busy := none } =>
    if s.destroyed m ≠ 0 then none
    else some { s with handlers := s.handlers.set i { queue := queue, busy := some m } }
  | _ => some s

/-- `do_handler` frees the message that has been handled. -/
def State.handled (s : State) (i : ℕ) : Option State :=
  match s.handlers[i]? with
  | some { queue := queue, busy := some m } => (s.freeHandlerMsg m).map fun s =>
    { s with handlers := s.handlers.set i { queue := queue, busy := none } }
  | _ => some s

/-! ### Connections -/

/-- A loop over the send queue has the message at its head next. -/
def State.look (s : State) (q : TcpQueue) : Option State :=
  match q.first with
  | some m => if s.destroyed m ≠ 0 then none else some s
  | none => some s

/-- `tcpconnection_close`, after which `tcpconnection_free` begins. -/
def State.close (s : State) (i : ℕ) (c : Connection) : Option State :=
  { s with conns := s.conns.set i { c with isOpen := false } }.look c.sendqueue

/-- `tcpconnection_add_msg`. -/
def State.addMsg (s : State) (i m : ℕ) (c : Connection) : Option State :=
  if c.type = 0 ∧ tcpQueueNode ≤ c.sendqueue.count then
    (s.close i c).bind fun s => s.freeHandlerMsg m
  else (c.sendqueue.push m).bind fun q => (s.addHandlerMsgUsed m).map fun s =>
    { s with conns := s.conns.set i { c with sendqueue := q } }

/-- The message at the head has been sent or dropped. -/
def State.release (s : State) (i m : ℕ) (c : Connection) : Option State :=
  (s.freeHandlerMsg m).bind fun s =>
    { s with conns := s.conns.set i { c with sendqueue := c.sendqueue.pop } }.look c.sendqueue.pop

/-- What `tcp_write` does with a message: it is sent to its end, or not, or the socket has an error. -/
inductive Write
  | all
  | part
  | error
deriving DecidableEq

/-- A turn of the loop in `_tcpconnection_send_msg`. -/
def State.write (s : State) (i : ℕ) (w : Write) (c : Connection) : Option State :=
  match c.sendqueue.first with
  | none => some s
  | some m =>
    if s.destroyed m ≠ 0 then none
    else match w with
      | .all => s.release i m c
      | .part => some s
      | .error => s.close i c

/-- A turn of the loop in `tcpconnection_free`, or its end, where the object goes back. -/
def State.drop (s : State) (i : ℕ) (c : Connection) : Option State :=
  match c.sendqueue.first with
  | some m => s.release i m c
  | none =>
    let q := if c.type = 0 then c.sendqueue else {}
    some { s with conns := s.conns.set i { c with alive := false, sendqueue := q } }

/-- `tcpconnection_init`. -/
def State.connect (s : State) (i type : ℕ) (c : Connection) : Option State :=
  let c' := { alive := true, type := type, isOpen := true, sendqueue := c.sendqueue.reset }
  some { s with conns := s.conns.set i c' }

/-! ### The steps -/

inductive Label
  | create
  | send (i m : ℕ)
  | handle (i : ℕ)
  | handled (i : ℕ)
  /-- `free_handler_msg` by one that is not a queue. -/
  | free (m : ℕ)
  | addMsg (i m : ℕ)
  | write (i : ℕ) (w : Write)
  | close (i : ℕ)
  | drop (i : ℕ)
  | connect (i type : ℕ)
deriving DecidableEq

/-- A step of the connection `i`, where there is one that meets a condition. -/
def State.onConn (s : State) (i : ℕ) (p : Connection → Bool) (f : Connection → Option State) :
    Option State :=
  match s.conns[i]? with
  | some c => if p c then f c else some s
  | none => some s

def State.step (s : State) : Label → Option State
  | .create => some { s with created := s.created + 1 }
  | .send i m => s.sendHandlerMsg i m
  | .handle i => s.handle i
  | .handled i => s.handled i
  | .free m => s.freeHandlerMsg m
  | .addMsg i m => s.onConn i (·.alive) (s.addMsg i m)
  | .write i w => s.onConn i (fun c => c.alive && c.isOpen) (s.write i w)
  | .close i => s.onConn i (fun c => c.alive && c.isOpen) (s.close i)
  | .drop i => s.onConn i (fun c => c.alive && !c.isOpen) (s.drop i)
  | .connect i type => s.onConn i (!·.alive) (s.connect i type)

/-! ### Who has a message -/

def Handler.msgs (h : Handler) : List ℕ := h.queue ++ h.busy.toList

def State.holders (s : State) : List ℕ :=
  s.handlers.flatMap Handler.msgs ++ s.conns.flatMap fun c => c.sendqueue.pending

/-- The number of queues that have the message. -/
def State.held (s : State) (m : ℕ) : ℕ := s.holders.count m

end ChatShow.Antlib.HandlerMsg
