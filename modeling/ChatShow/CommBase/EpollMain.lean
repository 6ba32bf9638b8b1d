import ChatShow.CommBase.DispatchMessage
import ChatShow.CommBase.SessionManager

/-! # The network

The session managers, the epoll loops that read from the sessions, and the dispatchers, which get
what the loops have read and what `SystemErr` makes of the events of the managers. A turn of the loop
in `Recv(vec)` is a step, with what `ConnectSuccess` does where the frame is a connection packet, so
that the managers, the dispatchers and the other loops may come in between any two frames. The
senders of the dispatchers see the sessions as `Label.network` has them. -/

namespace ChatShow.CommBase.EpollMain

open ChatShow.Lib.Cells ChatShow.CommBase.NetWorkConfig ChatShow.CommBase.MessageManager
open ChatShow.CommBase.NetContext ChatShow.CommBase.SessionRecv ChatShow.CommBase.SessionManager
open ChatShow.CommBase.DispatchMessage (Received)

/-! ### A turn of the loop in `Recv(vec)` -/

inductive Found
  /-- less than a frame -/
  | rest
  /-- a header that is not accepted -/
  | refused
  | packet (head : packetHeader)

/-- The tests of a turn, with `nLeftSize` bytes from `tmpHead` on. -/
def found (s : SessionRecv.Session) (tmpHead nLeftSize : ℕ) : Option Found :=
  if nLeftSize < HEADER_LENGTH then some .rest
  else
    let head := (packetHeader.decode (slice s.bufRecv tmpHead HEADER_LENGTH)).toBigEndian
    if head.remoteID < 0 ∨ head.length < 0 ∨ head.remoteType ≥ eMax ∨ head.localType ≥ eMax ∨
        head.messageType > SystemMessage then
      some .refused
    else if 2147483648 ≤ head.length.toInt + HEADER_LENGTH then none
    else if MAX_MSG_PACKET_SIZE < head.length.toInt + HEADER_LENGTH then some .refused
    else if nLeftSize < HEADER_LENGTH + head.length.toInt.toNat then some .rest
    else some (.packet head)

/-- The message that is made of a packet, or `none` inside where it is not for this process or has a
wrong digest. -/
def buildMessage (md5 : MD5) (local_id_ : Int16) (local_type_ : UInt8) (block : ℕ → UInt8)
    (p : Peer) (head : packetHeader) (content : ℕ → UInt8) : Option (Option Message) :=
  let recvMessage := (Message.new block p.remoteID p.remoteType).setHead head
  if head.remoteID = local_id_ ∧ head.remoteType = local_type_ ∧
      recvMessage.security = p.security then do
    let m ← recvMessage.setContent content head.length
    let (ok, m) ← ({ m with
      channelID := p.accSock, group := p.groupID, loopIndex := p.flag / 256 % 256 } :
        Message).unEncryptMessage md5
    some (if ok then some m else none)
  else some none

/-- What `AddMessage` leaves of a message, in the model of one session. -/
def handled (env : SessionRecv.Env) (p : Peer) : Option Message → Peer × List Message
  | none => ({ p with allocs := p.allocs + 1 }, [])
  | some m =>
    let r := ({ p with allocs := p.allocs + 1 } : Peer).addMessage env m
    (r.2, if r.1 = 0 then [m] else [])

theorem handlePacket_buildMessage (env : SessionRecv.Env) (p : Peer) (head : packetHeader)
    (content : ℕ → UInt8) : p.handlePacket env head content =
      (buildMessage env.md5 env.local_id_ env.local_type_ (env.malloc p.allocs) p head content).map
        (handled env p) := by
  unfold Peer.handlePacket buildMessage
  dsimp only
  by_cases hfor : head.remoteID = env.local_id_ ∧ head.remoteType = env.local_type_ ∧
      ((Message.new (env.malloc p.allocs) p.remoteID p.remoteType).setHead head).security =
        p.security
  · rw [if_pos hfor, if_pos hfor]
    rcases ((Message.new (env.malloc p.allocs) p.remoteID p.remoteType).setHead
      head).setContent content head.length with _ | m
    · rfl
    · simp only [Option.bind_eq_bind, Option.bind_some]
      generalize Message.unEncryptMessage env.md5 _ = r
      rcases r with _ | ⟨ok, m'⟩
      · rfl
      · cases ok <;> rfl
  · rw [if_neg hfor, if_neg hfor]
    rfl

/-- **A turn of `recvPass`** is one with these tests and this message. -/
theorem recvPass_succ (env : SessionRecv.Env) (fuel : ℕ) (s : SessionRecv.Session)
    (tmpHead nLeftSize : ℕ) (vec : List Message) :
    recvPass env (fuel + 1) s tmpHead nLeftSize vec =
      (found s tmpHead nLeftSize).bind fun
        | .rest => some (false, s.keepRest tmpHead nLeftSize, vec)
        | .refused =>
          if s.remoteType = eClient then some (true, s, vec)
          else some (false, { s with dwRecvPos := 0 }, vec)
        | .packet head =>
          (buildMessage env.md5 env.local_id_ env.local_type_ (env.malloc s.allocs) s.toPeer head
            (shift s.bufRecv (tmpHead + HEADER_LENGTH))).bind fun m =>
          let r := handled env s.toPeer m
          let s := { s with toPeer := r.1, recvCount := s.recvCount + 1 }
          let left := nLeftSize - (HEADER_LENGTH + head.length.toInt.toNat)
          if left ≤ 0 then some (false, { s with dwRecvPos := 0 }, vec ++ r.2)
          else recvPass env fuel s (tmpHead + (HEADER_LENGTH + head.length.toInt.toNat)) left
            (vec ++ r.2) := by
  rw [recvPass, found]
  by_cases hrest : nLeftSize < HEADER_LENGTH
  · rw [if_pos hrest, if_pos hrest]
    rfl
  rw [if_neg hrest, if_neg hrest]
  dsimp only
  generalize (packetHeader.decode (slice s.bufRecv tmpHead HEADER_LENGTH)).toBigEndian = head
  by_cases hbad : head.remoteID < 0 ∨ head.length < 0 ∨ head.remoteType ≥ eMax ∨
      head.localType ≥ eMax ∨ head.messageType > SystemMessage
  · rw [if_pos hbad, if_pos hbad]
    rfl
  rw [if_neg hbad, if_neg hbad]
  by_cases hover : 2147483648 ≤ head.length.toInt + HEADER_LENGTH
  · rw [if_pos hover, if_pos hover]
    rfl
  rw [if_neg hover, if_neg hover]
  by_cases hlong : MAX_MSG_PACKET_SIZE < head.length.toInt + HEADER_LENGTH
  · rw [if_pos hlong, if_pos hlong]
    rfl
  rw [if_neg hlong, if_neg hlong]
  by_cases hpart : nLeftSize < HEADER_LENGTH + head.length.toInt.toNat
  · rw [if_pos hpart, if_pos hpart]
    rfl
  rw [if_neg hpart, if_neg hpart, Option.bind_some, handlePacket_buildMessage]
  dsimp only
  rcases buildMessage env.md5 env.local_id_ env.local_type_ (env.malloc s.allocs) s.toPeer head _
    with _ | m
  · rfl
  · rfl

/-- Nobody has set the errno of such a message. -/
theorem buildMessage_errno {md5 : MD5} {local_id_ : Int16} {local_type_ : UInt8} {block : ℕ → UInt8}
    {p : Peer} {head : packetHeader} {content : ℕ → UInt8} {m : Message}
    (h : buildMessage md5 local_id_ local_type_ block p head content = some (some m)) :
    m.errno = 0 := by
  unfold buildMessage at h
  dsimp only at h
  split at h
  case isFalse => cases h
  case isTrue =>
  obtain ⟨m₁, h₁, h⟩ := Option.bind_eq_some_iff.mp h
  obtain ⟨⟨ok, m₂⟩, h₂, h⟩ := Option.bind_eq_some_iff.mp h
  obtain ⟨c, capacity, length, rfl⟩ := Message.setContent_eq h₁
  obtain ⟨length', rfl⟩ := Message.unEncryptMessage_eq h₂
  dsimp only at h
  split at h
  case isTrue =>
    cases h
    rfl
  case isFalse => cases h

/-! ### The system -/

/-- What the network runs on. `blockThread` is the number of the dispatchers. -/
structure Env where
  mgr : SessionManager.Env
  dispatch : DispatchMessage.Env
  blockThread : ℕ

/-- An epoll loop in `Recv()` of the session `o`, with the messages that it has so far. -/
inductive Reader
  | idle
  /-- before the next `recv` -/
  | reading (o : ℕ) (vec : List Received)
  /-- in `Recv(vec)`, which is the last where `recv` has no more -/
  | parsing (o : ℕ) (vec : List Received) (tmpHead nLeftSize : ℕ) (last : Bool)
  /-- before the messages go to the dispatcher -/
  | handing (o : ℕ) (vec : List Received)

/-- The messages that the loop has. -/
def Reader.vec : Reader → List Received
  | idle => []
  | reading _ vec => vec
  | parsing _ vec _ _ _ => vec
  | handing _ vec => vec

/-- `handed` is the history of the messages that the loops have handed to the dispatchers, each with
the session that it was read from. -/
structure Network where
  mgr : SessionMgr
  dispatch : ℕ → DispatchMessage.System
  reader : ℕ → Reader := fun _ => .idle
  handed : List (ℕ × Message) := []

inductive Label
  /-- anything but `ConnectSuccess`, which only `Recv` calls -/
  | manager (a : SessionManager.Label)
  /-- there is something to read from the descriptor `fd` -/
  | epoll (loop : ℕ) (fd : ℤ)
  | recv (loop : ℕ) (ret : RecvRet)
  /-- a turn of `Recv(vec)`, with the block that `malloc` returns -/
  | turn (loop : ℕ) (block : ℕ → UInt8) (ctl : Bool)
  | hand (loop : ℕ) (now : ℤ)
  /-- anything but `AddMessage`, which only `Recv` and `SystemErr` call -/
  | dispatcher (i : ℕ) (a : DispatchMessage.Label)

namespace Network

variable (env : Env)

/-- `GetDispatch(index)->AddMessage(..)`. -/
def push (s : Network) (index : ℤ) (messages : List Received) : Network :=
  let i := (index % 18446744073709551616).toNat % env.blockThread
  let d := { s.dispatch i with deque := (s.dispatch i).deque ++ messages }
  { s with dispatch := Function.update s.dispatch i d }

/-- What the managers have told `SystemErr` goes to the dispatchers. -/
def tell (s : Network) (mgr : SessionMgr) : Network :=
  (mgr.events.drop s.mgr.events.length).foldl
    (fun s con => s.push env con.channel.toInt [⟨systemErr env.mgr.block con, rfl⟩])
    { s with mgr := mgr }

/-- `Session::AddMessage`. -/
def addMessage (s : Network) (o : ℕ) (message : Message) (ctl : Bool) : Option (ℤ × Network) :=
  if message.messageType = ConnMessage then do
    let (res, message, mgr) ← s.mgr.connectSuccess env.mgr message ctl
    let s := s.tell env mgr
    if res ≠ .eNetSuccess ∧ res ≠ .eGroupContinue then
      some (-1, { s with mgr := s.mgr.deleteSession message.channelID })
    else if res ≠ .eGroupContinue then
      some (1, s.tell env (s.mgr.systemErr
        (if message.group ≥ 0 then message.group else message.channelID) message.localID
        message.localType message.remoteID message.remoteType 0 (s.mgr.object o).addr))
    else some (1, s)
  else some (0, s)

/-- `AddMessage` for the message of a packet, if there is one: what is put into the queue. -/
def receive (s : Network) (o : ℕ) (m : Option Received) (ctl : Bool) :
    Option (List Received × Network) :=
  match m with
  | none => some ([], s)
  | some m => do
    let (ret, s) ← s.addMessage env o m.1 ctl
    some (if ret = 0 then [m] else [], s)

/-- What a session has received, and how far it has read it. -/
def setRecv (s : Network) (o : ℕ) (se : SessionRecv.Session) : Network :=
  { s with mgr := s.mgr.setObject o { s.mgr.object o with toSession := se } }

def setReader (s : Network) (loop : ℕ) (r : Reader) : Network :=
  { s with reader := Function.update s.reader loop r }

/-- The end of a `Recv(vec)`. -/
def passed (s : Network) (loop o : ℕ) (vec : List Received) (last : Bool) : Network :=
  s.setReader loop (if last then .handing o vec else .reading o vec)

/-- `Recv()` has returned `eSocketClose`. -/
def close (s : Network) (loop o : ℕ) : Option Network := do
  let mgr ← s.mgr.deleteSessionEx env.mgr (s.mgr.object o).accSock NetWorkRet.eSocketClose.code
  some ((s.tell env mgr).setReader loop .idle)

/-- The message that is made of a packet which begins at `tmpHead`. -/
def build (se : SessionRecv.Session) (head : packetHeader) (tmpHead : ℕ) (block : ℕ → UInt8) :
    Option (Option Received) := do
  let config ← env.mgr.context.getConfig
  match h : buildMessage env.mgr.md5 config.local_id_ config.local_type_ block se.toPeer head
    (shift se.bufRecv (tmpHead + HEADER_LENGTH)) with
  | none => none
  | some none => some none
  | some (some m) => some (some ⟨m, buildMessage_errno h⟩)

def turn (s : Network) (loop : ℕ) (block : ℕ → UInt8) (ctl : Bool) : Option Network :=
  match s.reader loop with
  | .parsing o vec tmpHead nLeftSize last =>
    let se := (s.mgr.object o).toSession
    (found se tmpHead nLeftSize).bind fun
      | .rest => some ((s.setRecv o (se.keepRest tmpHead nLeftSize)).passed loop o vec last)
      | .refused =>
        if se.remoteType = eClient then s.close env loop o
        else some ((s.setRecv o { se with dwRecvPos := 0 }).passed loop o vec last)
      | .packet head => do
        let m ← build env se head tmpHead block
        let (messages, s) ←
          (s.setRecv o { se with recvCount := se.recvCount + 1 }).receive env o m ctl
        let len := HEADER_LENGTH + head.length.toInt.toNat
        if nLeftSize - len ≤ 0 then
          some ((s.setRecv o { (s.mgr.object o).toSession with dwRecvPos := 0 }).passed loop o
            (vec ++ messages) last)
        else
          some (s.setReader loop
            (.parsing o (vec ++ messages) (tmpHead + len) (nLeftSize - len) last))
  | _ => none

/-- `recv`, and the beginning of a `Recv(vec)`. -/
def recv (s : Network) (loop : ℕ) (ret : RecvRet) : Option Network :=
  match s.reader loop with
  | .reading o vec =>
    let se := (s.mgr.object o).toSession
    match ret with
    | .closed => s.close env loop o
    | .data bytes =>
      if bytes = [] ∨ MAX_RECV_MSG_SIZE < se.dwRecvPos + bytes.length then none
      else
        let se := se.fill bytes
        let r := if se.dwRecvPos < HEADER_LENGTH then .reading o vec
          else .parsing o vec 0 se.dwRecvPos false
        some ((s.setRecv o se).setReader loop r)
    | _ => some (s.setReader loop (.parsing o vec 0 se.dwRecvPos true))
  | _ => none

/-- The end of `Recv()`. -/
def hand (s : Network) (loop : ℕ) (now : ℤ) : Option Network :=
  match s.reader loop with
  | .handing o vec =>
    let se := (s.mgr.object o).toSession
    let s := { s.push env se.accSock vec with handed := s.handed ++ vec.map fun (m : Received) => (o, m.1) }
    let r := se.packageCount now
    if r.1 = .eSocketClose then (s.setRecv o r.2).close env loop o
    else some ((s.setRecv o r.2).setReader loop .idle)
  | _ => none

def step (s : Network) : Label → Option Network
  | .manager a =>
    match a with
    | .connectSuccess _ _ => none
    | a => (s.mgr.step env.mgr a).map (s.tell env)
  | .epoll loop fd =>
    match s.reader loop, s.mgr.epollPtr[fd]? with
    | .idle, some o => some (s.setReader loop (.reading o []))
    | _, _ => none
  | .recv loop ret => s.recv env loop ret
  | .turn loop block ctl => s.turn env loop block ctl
  | .hand loop now => s.hand env loop now
  | .dispatcher i a =>
    match a with
    | .addMessage _ => none
    | a => ((s.dispatch i).step env.dispatch a).map fun d =>
      { s with dispatch := Function.update s.dispatch i d }

/-- A network as it is made. -/
def new (object : ℕ → SessionManager.Session) (clock : ℕ → ℤ × Int32) (heap : ℕ → Message)
    (sessions : DispatchMessage.Sessions) : Network :=
  { mgr := SessionMgr.new object clock, dispatch := fun _ => .new heap sessions }

end Network

end ChatShow.CommBase.EpollMain
