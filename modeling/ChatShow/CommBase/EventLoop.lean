import ChatShow.CommBase.NetworkMoves

/-! # The events of the epoll loops

`CEpollLoop::svr`: a loop takes a batch of events from `epoll_wait`, and for each of them reads from the
session, sends to it and closes it, as the event says; each of the three may find that the session is to be
closed. Other threads may come in between. What `Recv` and `Send` find is left open, but for the connection
packets that `Recv` hands to `AddMessage`. `watched` are the descriptors in the epoll set of their loop;
`ended` are the sessions in `m_session` that the loops have closed, and `reports` those for which `SystemErr`
has made a message that leads to `on_channel_error`. -/

namespace ChatShow.CommBase.EventLoop

open ChatShow.CommBase.NetWorkConfig ChatShow.CommBase.MessageManager ChatShow.CommBase.NetContext
open ChatShow.CommBase.SessionManager (Env SessionMgr Session)
open ChatShow.CommBase.SessionManager.SessionMgr (loopOf)

/-- The bits of an event. -/
structure Mask where
  epollin : Bool := false
  epollout : Bool := false
  epollrdhup : Bool := false
  epollerr : Bool := false
  epollhup : Bool := false
deriving DecidableEq

namespace Mask

/-- The event is read. -/
def reads (m : Mask) : Bool := m.epollin && !m.epollrdhup

/-- The event says that the connection has ended. -/
def hangs (m : Mask) : Bool := m.epollrdhup || m.epollerr || m.epollhup

/-- `bExe` at the end of an event. -/
def exe (m : Mask) : Bool := m.reads || m.epollout || m.hangs

end Mask

/-- Where a loop is: between two events, or in an event of the session `o`, which an earlier branch of the
event may have closed. -/
inductive Stage
  | idle
  | receiving (o : ℕ) (mask : Mask)
  | sending (o : ℕ) (mask : Mask) (closed : Bool)
  | closing (o : ℕ) (mask : Mask) (closed : Bool)

structure Loops where
  mgr : SessionMgr
  watched : ℤ → Bool := fun _ => false
  batch : ℕ → List (ℤ × Mask) := fun _ => []
  stage : ℕ → Stage := fun _ => .idle
  reports : List ℕ := []
  ended : List ℕ := []

inductive Label
  /-- the kernel hands out the descriptor of a new connection -/
  | accept (sock : ℤ)
  /-- `ReadCommd`, where `ctl` is whether `EPOLL_CTL_ADD` succeeds -/
  | readCommd (sock : ℤ) (addr : Inet_Addr) (index type : UInt8) (now : ℤ) (ctl : Bool)
  | tick (loop : ℕ) (nowTime : ℤ)
  /-- `CloseChannel`, which the application calls -/
  | closeChannel (fd : ℤ)
  | write (message : Message)
  | epollWait (loop : ℕ) (events : List (ℤ × Mask))
  /-- the next event of the batch -/
  | next (loop : ℕ)
  /-- `Recv` hands a connection packet to `AddMessage` -/
  | packet (loop : ℕ) (message : Message)
  /-- `Recv` returns, with `eSocketClose` or not -/
  | received (loop : ℕ) (close : Bool)
  /-- the branch for `EPOLLOUT`, where `Send` returns `eSocketClose` or not -/
  | sent (loop : ℕ) (close : Bool)
  /-- the last two branches -/
  | hungUp (loop : ℕ)

namespace Loops

variable (env : Env)

/-- The managers have gone on to `mgr`, and `SystemErr` has made messages of the new events. The kernel takes
descriptors that have been closed out of the epoll sets. -/
def note (s : Loops) (mgr : SessionMgr) : Loops :=
  { s with
    mgr := mgr
    watched := fun fd => s.watched fd && mgr.fds fd
    reports := s.reports ++ (mgr.events.drop s.mgr.events.length).filterMap fun con =>
      if systemErrID con.err.toInt = eConnErrMessage then s.mgr.session[con.channel.toInt]? else none }

/-- `EPOLL_CTL_DEL`. -/
def unwatch (s : Loops) (fd : ℤ) : Loops := { s with watched := Function.update s.watched fd false }

/-- The loop has closed the session with the descriptor `fd`, if it is in `m_session`. -/
def ending (s : Loops) (fd : ℤ) : Loops := { s with ended := s.ended ++ (s.mgr.session[fd]?).toList }

/-- `DeleteChannel`. -/
def deleteChannel (s : Loops) (fd : ℤ) : Loops :=
  (s.unwatch fd).note (s.mgr.deleteSession fd)

/-- `DeleteChannelEx`. -/
def deleteChannelEx (s : Loops) (fd err : ℤ) : Option Loops :=
  (s.mgr.deleteSessionEx env fd err).map (s.unwatch fd).note

/-- `AddMessage` of the session `o` for a connection packet. -/
def addMessage (s : Loops) (o : ℕ) (message : Message) : Option Loops := do
  let (res, message, mgr) ← s.mgr.connectSuccess env message (s.watched message.channelID)
  let s := s.note mgr
  if res ≠ .eNetSuccess ∧ res ≠ .eGroupContinue then
    some ((s.ending message.channelID).deleteChannel message.channelID)
  else if res ≠ .eGroupContinue then
    some (s.note (s.mgr.systemErr
      (if message.group ≥ 0 then message.group else message.channelID) message.localID
      message.localType message.remoteID message.remoteType 0 (s.mgr.object o).addr))
  else some s

def setStage (s : Loops) (loop : ℕ) (stage : Stage) : Loops :=
  { s with stage := Function.update s.stage loop stage }

/-- A branch of an event of the session `o`, which closes it or not. -/
def branch (s : Loops) (o : ℕ) (close : Bool) (err : NetWorkRet) : Option Loops :=
  if close then
    (s.ending (s.mgr.object o).accSock).deleteChannelEx env (s.mgr.object o).accSock err.code
  else some s

/-- `epoll_wait` gives events of descriptors in the epoll set, one for each. -/
def wait (s : Loops) (loop : ℕ) (events : List (ℤ × Mask)) : Option Loops :=
  match s.stage loop, s.batch loop with
  | .idle, [] =>
    if (∀ e ∈ events, s.watched e.1 ∧ loopOf env e.1 = loop) ∧ (events.map Prod.fst).Nodup then
      some { s with batch := Function.update s.batch loop events }
    else none
  | _, _ => none

/-- The first test of an event, of the session that stands at its descriptor. -/
def next (s : Loops) (loop : ℕ) : Option Loops :=
  match s.stage loop, s.batch loop with
  | .idle, (fd, mask) :: rest =>
    let s' := { s with batch := Function.update s.batch loop rest }
    match s.mgr.epollPtr[fd]? with
    | none => some s'
    | some o =>
      some (s'.setStage loop (if mask.reads then .receiving o mask else .sending o mask false))
  | _, _ => none

/-- Whether the thread of a loop is outside of its events. -/
def isIdle (s : Loops) (loop : ℕ) : Bool :=
  match s.stage loop, s.batch loop with
  | .idle, [] => true
  | _, _ => false

def step (s : Loops) : Label → Option Loops
  | .accept sock => (s.mgr.step env (.accept sock)).map s.note
  | .readCommd sock addr index type now ctl =>
    if s.isIdle (loopOf env sock) then do
      let mgr ← s.mgr.step env (.addTimerSessionEx sock addr index type now)
      let s := s.note mgr
      if mgr.timeOutSe[sock]?.isSome then
        if ctl then some { s with watched := Function.update s.watched sock true }
        else some (s.note (mgr.deleteSession sock))
      else some s
    else none
  | .tick loop nowTime => if s.isIdle loop then some (s.note (s.mgr.tick env loop nowTime)) else none
  | .closeChannel fd => some (s.deleteChannel fd)
  | .write message => (s.mgr.write env message (s.watched message.channelID)).map s.note
  | .epollWait loop events => s.wait env loop events
  | .next loop => s.next loop
  | .packet loop message =>
    match s.stage loop with
    | .receiving o _ =>
      if message.channelID = (s.mgr.object o).accSock ∧ message.messageType = ConnMessage then
        s.addMessage env o message
      else none
    | _ => none
  | .received loop close =>
    match s.stage loop with
    | .receiving o mask => do
      let s ← s.branch env o close .eSocketClose
      some (s.setStage loop (.sending o mask close))
    | _ => none
  | .sent loop close =>
    match s.stage loop with
    | .sending o mask closed => do
      let s ← s.branch env o (mask.epollout && close) .eSocketClose
      some (s.setStage loop (.closing o mask (closed || mask.epollout && close)))
    | _ => none
  | .hungUp loop =>
    match s.stage loop with
    | .closing o mask _ => do
      let s ← s.branch env o (mask.hangs || !mask.exe) (if mask.hangs then .eEpollClose else .eEpollNull)
      some (s.setStage loop .idle)
    | _ => none

/-- The loops as they are made. -/
def new (object : ℕ → Session) (clock : ℕ → ℤ × Int32) : Loops :=
  { mgr := SessionMgr.new object clock }

end Loops

end ChatShow.CommBase.EventLoop
