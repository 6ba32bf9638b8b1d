import ChatShow.Lib.DoubleList
import ChatShow.Lib.Runs
import Mathlib.Data.Int.Notation

/-! # The list of connections

A server has `TCPLIST_MAX` slots for connections, in an array; the slots are linked into the list of those
that are alive or into the queue of those that are free. A connection is known by its netid, which has
its slot and a number that is counted over all servers. What protocols do with a connection is a
parameter (`Handled`), and their messages are left out. `none` is an `ASSERT` that fails. -/

namespace ChatShow.Antlib.TcpConnections

open ChatShow.Lib.DoubleList

/-- `TCPLIST_MAX`. -/
def tcplistMax : ℕ := 4096

/-- `TCPID_MASK`. -/
def tcpidMask : UInt8 := 0x0F

/-- `ERROR_FD`. -/
def errorFd : ℤ := -1

/-- `tcpid_t`: the fields of `_st` are all of `_i64`. -/
structure TcpId where
  index : UInt32 := 0
  arrayid : UInt16 := 0
  mask : UInt8 := 0
  listid : UInt8 := 0
deriving DecidableEq

inductive TcpState
  | connecting
  | nothng
  | send
deriving DecidableEq

structure TcpConnection where
  id : TcpId := {}
  socket : ℤ := 0
  activeTime : UInt32 := 0
  type : UInt16 := 0
  state : TcpState := .connecting

structure TcpConnectionList where
  listId : UInt8
  timeoutSeconds : UInt16
  nextClearTime : UInt32
  aliveCount : ℤ := 0
  freeQueue : DList ℕ := {}
  aliveList : DList ℕ := {}
  /-- the `_listnode` of each slot -/
  nodes : Links ℕ := {}
  list : ℕ → TcpConnection

/-- What `tcpconnection_recv`, `tcpconnection_send` and the protocol leave of a connection. -/
structure Handled where
  closes : Bool
  activeTime : UInt32
  state : TcpState

/-- What `tcp_connect` gives. -/
inductive Connected
  | failed
  | connected (s : ℤ)
  | inProgress (s : ℤ)

namespace TcpConnection

/-- `tcpconnection_init`, with the number `g_mainid`. -/
def init (c : TcpConnection) (mainid : UInt32) (s : ℤ) (state : TcpState) (type : UInt16)
    (now : UInt32) : TcpConnection where
  id := { c.id with index := mainid, mask := tcpidMask }
  socket := s
  activeTime := now
  type := type
  state := state

def close (c : TcpConnection) : TcpConnection := { c with socket := errorFd }

/-- `tcpconnection_free`. -/
def free (c : TcpConnection) : Option TcpConnection :=
  if c.socket = errorFd then some { c with id := { c.id with mask := 0 } } else none

def isTimeout (c : TcpConnection) (t : UInt32) : Bool := c.type ≠ 1 ∧ c.activeTime < t

def handled (c : TcpConnection) (h : Handled) : TcpConnection :=
  { c with
    socket := if h.closes then errorFd else c.socket, activeTime := h.activeTime, state := h.state }

end TcpConnection

namespace TcpConnectionList

def setConn (s : TcpConnectionList) (i : ℕ) (c : TcpConnection) : TcpConnectionList :=
  { s with list := Function.update s.list i c }

def pushFree (s : TcpConnectionList) (i : ℕ) : Option TcpConnectionList :=
  (addTail s.nodes s.freeQueue i).map fun (nodes, queue) => { s with nodes := nodes, freeQueue := queue }

def pushAlive (s : TcpConnectionList) (i : ℕ) : Option TcpConnectionList :=
  (addTail s.nodes s.aliveList i).map fun (nodes, queue) =>
    { s with nodes := nodes, aliveList := queue, aliveCount := s.aliveCount + 1 }

def popFree (s : TcpConnectionList) : Option (Option ℕ × TcpConnectionList) :=
  (pop s.nodes s.freeQueue).map fun (i, nodes, queue) => (i, { s with nodes := nodes, freeQueue := queue })

/-- The list before its slots are free; `timeout + 120` is an `int`. -/
def cleared (listid : UInt8) (timeout : UInt16) : TcpConnectionList where
  listId := listid
  timeoutSeconds := timeout
  nextClearTime := UInt32.ofNat (timeout.toNat + 120)
  list _ := {}

/-- A turn of the loop of `init_tcpconnection_list`. -/
def initSlot (s : TcpConnectionList) (listid : UInt8) (i : ℕ) : Option TcpConnectionList :=
  let c := s.list i
  (s.setConn i { c with
    id := { c.id with arrayid := UInt16.ofNat i, listid := listid, mask := 0 }
    socket := errorFd }).pushFree i

/-- `init_tcpconnection_list`. -/
def init (listid : UInt8) (timeout : UInt16) : Option TcpConnectionList :=
  (List.range tcplistMax).foldlM (fun s i => s.initSlot listid i) (cleared listid timeout)

/-- `get_tcpconnection`. -/
def get (s : TcpConnectionList) (id : TcpId) : Option (Option ℕ) :=
  if id.listid = s.listId ∧ id.arrayid.toNat < tcplistMax ∧ id.mask = tcpidMask then
    let c := s.list id.arrayid.toNat
    some (if c.id = id ∧ c.socket ≠ errorFd then some id.arrayid.toNat else none)
  else none

/-- `back_tcpconnection`. -/
def back (s : TcpConnectionList) (i : ℕ) : Option TcpConnectionList :=
  if (s.list i).socket = errorFd then
    if s.aliveCount > 0 then do
      let (nodes, queue) ← remove s.nodes s.aliveList i
      let c ← (s.list i).free
      ({ s with aliveCount := s.aliveCount - 1, nodes := nodes, aliveList := queue }.setConn i c).pushFree i
    else none
  else some s

/-- `add_tcpconnection`, where the next number is `mainid`. -/
def addTcpconnection (s : TcpConnectionList) (mainid : UInt32) (fd : ℤ) (now : UInt32) :
    Option TcpConnectionList := do
  match ← s.popFree with
  | (some i, s) => (s.setConn i ((s.list i).init mainid fd .nothng 0 now)).pushAlive i
  | (none, _) => none

/-- `add_tcpconnecting`, and whether there is a new connection. -/
def addTcpconnecting (s : TcpConnectionList) (mainid : UInt32) (re : Connected) (now : UInt32) :
    Option (TcpConnectionList × Bool) := do
  match ← s.popFree with
  | (none, s) => some (s, false)
  | (some i, s) =>
    match re with
    | .failed => (s.pushFree i).map (·, false)
    | .connected fd =>
      ((s.setConn i ((s.list i).init mainid fd .nothng 1 now)).pushAlive i).map (·, true)
    | .inProgress fd =>
      ((s.setConn i ((s.list i).init mainid fd .connecting 1 now)).pushAlive i).map (·, true)

/-- `do_tcpconnection_msg`; a send queue that is in use has a size. -/
def doTcpconnectionMsg (s : TcpConnectionList) (id : TcpId) (h : Handled) : Option TcpConnectionList := do
  match ← s.get id with
  | none => some s
  | some i =>
    let c := (s.list i).handled h
    let c := { c with state := if c.state = .nothng then .send else c.state }
    (s.setConn i c).back i

/-- A turn of the loop of `epoll_run`. -/
def event (s : TcpConnectionList) (id : TcpId) (error : Bool) (h : Handled) : Option TcpConnectionList := do
  match ← s.get id with
  | none => some s
  | some i =>
    let c := if error then (s.list i).close else (s.list i).handled h
    (s.setConn i c).back i

/-- The loop of `tcp_connectionlist_run` over the connections that are alive, in so many turns. -/
def clear (now : UInt32) : ℕ → Option ℕ → TcpConnectionList → Option TcpConnectionList
  | _, none, s => some s
  | 0, some _, _ => none
  | n + 1, some i, s =>
    let next := s.nodes.next i
    if (s.list i).isTimeout now then do
      let s ← (s.setConn i (s.list i).close).back i
      clear now n next s
    else clear now n next s

/-- `tcp_connectionlist_run`, where `epoll_wait` gives the events. -/
def run (s : TcpConnectionList) (events : List (TcpId × Bool × Handled)) (now : UInt32) :
    Option TcpConnectionList := do
  let s ← events.foldlM (fun s e => s.event e.1 e.2.1 e.2.2) s
  if s.nextClearTime > now then some s
  else clear (now - UInt32.ofNat s.timeoutSeconds.toNat) tcplistMax s.aliveList.head s

end TcpConnectionList

/-! ### Runs -/

/-- A server, the counter of all servers, and what has happened: the netids so far with the numbers of
their connections, and the connection that each slot had last. -/
structure State where
  conns : TcpConnectionList
  /-- `g_mainid` -/
  mainid : UInt32 := 0
  /-- the connections of all servers so far -/
  opened : ℕ := 0
  netids : List (TcpId × ℕ) := []
  conn : ℕ → ℕ := fun _ => 0

inductive Label
  | addTcpconnection (fd : ℤ) (now : UInt32)
  | addTcpconnecting (re : Connected) (now : UInt32)
  /-- a connection of another server -/
  | otherServer
  | lookUp (id : TcpId)
  | doTcpconnectionMsg (id : TcpId) (h : Handled)
  | run (events : List (TcpId × Bool × Handled)) (now : UInt32)

namespace State

/-- The last connection of the list of those that are alive is new. -/
def opening (s : State) (conns : TcpConnectionList) : State where
  conns := conns
  mainid := s.mainid + 1
  opened := s.opened + 1
  netids := match conns.aliveList.tail with
    | some i => s.netids ++ [((conns.list i).id, s.opened)]
    | none => s.netids
  conn := match conns.aliveList.tail with
    | some i => Function.update s.conn i s.opened
    | none => s.conn

def step (s : State) : Label → Option State
  | .addTcpconnection fd now => (s.conns.addTcpconnection s.mainid fd now).map s.opening
  | .addTcpconnecting re now =>
    (s.conns.addTcpconnecting s.mainid re now).map fun (conns, new) =>
      if new then s.opening conns else { s with conns := conns }
  | .otherServer => some { s with mainid := s.mainid + 1, opened := s.opened + 1 }
  | .lookUp id => (s.conns.get id).map fun _ => s
  | .doTcpconnectionMsg id h =>
    (s.conns.doTcpconnectionMsg id h).map fun conns => { s with conns := conns }
  | .run events now => (s.conns.run events now).map fun conns => { s with conns := conns }

end State

end ChatShow.Antlib.TcpConnections
