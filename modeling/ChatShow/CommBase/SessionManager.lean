import ChatShow.CommBase.CircleBuffer
import ChatShow.CommBase.Groups
import ChatShow.CommBase.NetContext
import ChatShow.CommBase.SessionRecv
import ChatShow.Lib.Runs

/-! # The session managers

`CSessionMgr`: a session is in `m_timeOutSe`, and its time in `m_timeout`, until the connection
packet has come, and then in `m_session`. Every epoll loop has a manager, and a descriptor belongs to
the loop that its remainder says; the maps here are those of all managers together. Sessions are
objects with a number. `fds` are the descriptors that the kernel has open, and `arriving` those of
them that are on their way to an epoll loop. `events` and `promoted` are histories: what `SystemErr`
was told, and the sessions that `ConnectSuccess` has put into `m_session`. -/

namespace ChatShow.CommBase.SessionManager

open ChatShow.Lib.Bytes ChatShow.Lib.Cells ChatShow.Lib.Maps
open ChatShow.CommBase.NetWorkConfig ChatShow.CommBase.CircleBuffer
open ChatShow.CommBase.MessageManager ChatShow.CommBase.NetContext ChatShow.CommBase.Groups Std

/-- What the managers run on. `block` is what stands in a block that `malloc` returns. -/
structure Env where
  context : Context
  md5 : MD5
  block : ℕ → UInt8

structure Session extends SessionRecv.Session where
  bufSend : CCircleBuff
  addr : Inet_Addr

namespace Session

/-- `Session(..)`. -/
def new (block : ℕ → UInt8) (sock : ℤ) (flag : ℕ) (addr : Inet_Addr) (isSecurity : Bool) :
    Session where
  accSock := sock
  flag := flag
  security := isSecurity
  bufRecv := block
  bufSend := CCircleBuff.new eClientBufSize block
  addr := addr

/-- `SetRemoteID` and `SetRemoteType`. -/
def setRemote (se : Session) (id : Int16) (type : UInt8) : Session :=
  { se with remoteID := id, remoteType := type }

/-- The index of the configuration, `GetFlag() >> 16`. -/
def config (se : Session) : ℕ := (se.flag / 65536).toNat

end Session

structure SessionMgr where
  session : TreeMap ℤ ℕ := ∅
  timeOutSe : TreeMap ℤ ℕ := ∅
  timeout : TreeMap ℤ ℤ := ∅
  epollPtr : TreeMap ℤ ℕ := ∅
  /-- `m_bTime` and `m_tick` of each manager -/
  clock : ℕ → ℤ × Int32
  groups : GroupSession := {}
  object : ℕ → Session
  made : ℕ := 0
  fds : ℤ → Bool := fun _ => false
  arriving : List ℤ := []
  events : List SystemMessageCon := []
  promoted : List ℕ := []

namespace SessionMgr

variable (env : Env)

def setObject (s : SessionMgr) (o : ℕ) (se : Session) : SessionMgr :=
  { s with object := Function.update s.object o se }

def closeSocket (s : SessionMgr) (o : ℕ) : SessionMgr :=
  { s with fds := Function.update s.fds (s.object o).accSock false }

/-- `SystemErr` for a session. -/
def systemErr (s : SessionMgr) (fd : ℤ) (lid : Int16) (ltype : UInt8) (rid : Int16) (rtype : UInt8)
    (err : ℤ) (addr : Inet_Addr) : SessionMgr :=
  { s with events := s.events ++ [{
      channel := Int32.ofInt fd, lid := lid, ltype := ltype, rid := rid, rtype := rtype
      err := Int32.ofInt err, addr := addr }] }

/-! ### Sessions come and go -/

/-- `AddTimerSessionEx`: whether the session was added. -/
def addTimerSessionEx (s : SessionMgr) (sock : ℤ) (addr : Inet_Addr) (config : ChannelConfig)
    (index : UInt16) (type : UInt8) (now : ℤ) : Bool × SessionMgr :=
  if MAX_EPOLL_EVENT ≤ sock then (false, s)
  else if config.channel_keep_time_ > 0 then
    match s.timeOutSe[sock]? with
    | some _ => (false, s)
    | none =>
      (true, { s with
        timeOutSe := s.timeOutSe.insert sock s.made
        timeout := s.timeout.insert sock (config.channel_keep_time_ + now)
        epollPtr := s.epollPtr.insert sock s.made
        object := Function.update s.object s.made
          (Session.new env.block sock (index.toNat <<< 8 ||| type.toNat) addr config.security_)
        made := s.made + 1 })
  else (false, s)

def deleteSessionEx (s : SessionMgr) (fd err : ℤ) : Option SessionMgr :=
  match s.timeOutSe[fd]? with
  | some o =>
    some { s.closeSocket o with timeOutSe := s.timeOutSe.erase fd, timeout := s.timeout.erase fd }
  | none =>
    match s.session[fd]? with
    | some o => do
      let conf ← env.context.getConfig
      some (s.systemErr fd conf.local_id_ conf.local_type_ (s.object o).remoteID
        (s.object o).remoteType err (s.object o).addr)
    | none => some s

def deleteSession (s : SessionMgr) (fd : ℤ) : SessionMgr :=
  match s.timeOutSe[fd]? with
  | some o =>
    { s.closeSocket o with timeOutSe := s.timeOutSe.erase fd, timeout := s.timeout.erase fd }
  | none =>
    match s.session[fd]? with
    | some o =>
      { s.closeSocket o with
        session := s.session.erase fd
        groups := if (s.object o).groupID > 0 then
            s.groups.deleteGroupSession (s.object o).groupID fd
          else s.groups }
    | none => s

/-- The loop that a descriptor belongs to. -/
def loopOf (fd : ℤ) : ℕ := fd.toNat % env.context.ioThread

/-- The descriptors of a loop whose time has come. -/
def expired (s : SessionMgr) (loop : ℕ) (nowTime : ℤ) : List ℤ :=
  (keysOf s.timeout fun time => time * 1000 ≤ nowTime).filter fun fd => loopOf env fd = loop

/-- `Tick` of the manager of a loop. -/
def tick (s : SessionMgr) (loop : ℕ) (nowTime : ℤ) : SessionMgr :=
  let tick := (s.clock loop).2 + Int32.ofInt (nowTime - (s.clock loop).1)
  if tick ≥ 1000 * 1000 then
    let s' := { s with
      clock := Function.update s.clock loop (nowTime, tick - 1000 * 1000)
      timeout := eraseAll s.timeout (s.expired env loop nowTime) }
    (s.expired env loop nowTime).foldl deleteSession s'
  else { s with clock := Function.update s.clock loop (nowTime, tick) }

/-! ### The connection packet -/

/-- The `short` that stands in the bytes 1 and 2 of the content. -/
def contentID (message : Message) : Int16 :=
  (UInt16.ofNat (field (slice message.content 0 3) 1 2)).toInt16

/-- The id in a `C2SMessage`, which a client sends in network order. -/
def clientID (message : Message) : Int16 :=
  if message.remoteType ≤ 0 then htonsShort (contentID message) else contentID message

/-- What the first part of `ConnectSuccess` makes of a packet: `eConMessageErr` where it is refused,
and the message, the session and the groups as it leaves them. -/
abbrev Identity := NetWorkRet × Message × Session × GroupSession

def refuse (message : Message) (se : Session) (g : GroupSession) : Identity :=
  (.eConMessageErr, message, se, g)

/-- The branch for `C2SMessage`. -/
def identifyC2S (message : Message) (se : Session) (g : GroupSession) : Identity :=
  if message.length ≠ 3 then refuse message se g
  else
    let type := message.content 0
    let id := clientID message
    if type ≥ eMax then refuse message se g
    else (.eNetSuccess, { message with remoteID := id, remoteType := type }, se.setRemote id type, g)

/-- The branch for `S2CMessage`. -/
def identifyS2C (message : Message) (se : Session) (g : GroupSession) : Option Identity :=
  if message.length ≠ 1 then some (refuse message se g)
  else if message.content 0 ≠ 0 then some (refuse message se g)
  else do
    let conf ← env.context.getConnConfig se.config
    some (.eNetSuccess,
      { message with remoteID := conf.remote_id_, remoteType := conf.remote_type_ },
      se.setRemote conf.remote_id_ conf.remote_type_, g)

/-- The branch for `C2SGroupMessage`. -/
def identifyC2SGroup (message : Message) (se : Session) (g : GroupSession) : Identity :=
  if message.length ≠ 4 then refuse message se g
  else
    let type := message.content 0
    let id := contentID message
    let groupCount := message.content 3
    if type ≥ eMax then refuse message se g
    else
      let message := { message with remoteID := id, remoteType := type }
      let se := se.setRemote id type
      let (res, isSuccess, g) := g.addGroupSession type id message.channelID groupCount
      if res < -1 then refuse message se g
      else (if isSuccess then .eNetSuccess else .eGroupContinue,
        { message with group := res }, { se with groupID := res }, g)

/-- The branch for `S2CGroupMessage`. -/
def identifyS2CGroup (message : Message) (se : Session) (g : GroupSession) : Option Identity :=
  if message.length ≠ 1 then some (refuse message se g)
  else if message.content 0 ≠ 0 then some (refuse message se g)
  else do
    let conf ← env.context.getConnConfig se.config
    let message := { message with remoteID := conf.remote_id_, remoteType := conf.remote_type_ }
    let se := se.setRemote conf.remote_id_ conf.remote_type_
    let (res, isSuccess, g) := g.addGroupSession conf.remote_type_ conf.remote_id_
      message.channelID conf.group_count
    if res < 0 then some (refuse message se g)
    else some (if isSuccess then .eNetSuccess else .eGroupContinue,
      { message with group := res }, { se with groupID := res }, g)

/-- The first part of `ConnectSuccess`. -/
def identify (message : Message) (se : Session) (g : GroupSession) : Option Identity :=
  if message.messageID = C2SMessage then some (identifyC2S message se g)
  else if message.messageID = S2CMessage then identifyS2C env message se g
  else if message.messageID = C2SGroupMessage then some (identifyC2SGroup message se g)
  else if message.messageID = S2CGroupMessage then identifyS2CGroup env message se g
  else some (refuse message se g)

/-- `Write` for a message with its channel in it. `ctl` is whether `epoll_ctl` succeeds. -/
def write (s : SessionMgr) (message : Message) (ctl : Bool) : Option SessionMgr :=
  match s.session[message.channelID]?.or s.timeOutSe[message.channelID]? with
  | none => some s
  | some o => do
    let se := s.object o
    let m ← ({ message with security := se.security } : Message).encryptMessage env.md5
    let r := se.bufSend.writeSend m.content m.getHead
    let s := s.setObject o { se with bufSend := r.2 }
    if r.1 = .eNetSuccess ∧ ¬ ctl then
      s.deleteSessionEx env message.channelID NetWorkRet.eCtlEpollErr.code
    else some s

/-- The packet with which a connection packet is answered. -/
def reply (s : SessionMgr) (se : Session) (channel : ℤ) (messageID : UInt32) (ctl : Bool) :
    Option SessionMgr := do
  let config ← env.context.getAccConfig se.config
  let messageret : Message :=
    { content := env.block
      security := config.security_
      remoteID := se.remoteID
      remoteType := se.remoteType
      localType := config.local_type_
      channelID := channel
      messageID := messageID
      messageType := ConnMessage }
  let messageret ← messageret.setContent (fun _ => 0) 1
  s.write env messageret ctl

/-- The last part of `ConnectSuccess`: a packet of a client is answered. -/
def answer (s : SessionMgr) (se : Session) (message : Message) (ctl : Bool) : Option SessionMgr :=
  if message.messageID = C2SMessage then s.reply env se message.channelID S2CMessage ctl
  else if message.messageID = C2SGroupMessage then
    s.reply env se message.channelID S2CGroupMessage ctl
  else some s

/-- The second part of `ConnectSuccess`: the session `o` goes to `m_session`. -/
def promote (s : SessionMgr) (channel : ℤ) (o : ℕ) : SessionMgr :=
  { s with
    timeOutSe := s.timeOutSe.erase channel
    timeout := s.timeout.erase channel
    session := s.session.insert (s.object o).accSock o
    object := if (s.object o).remoteType ≠ eClient then
        Function.update s.object o
          { s.object o with bufSend := (s.object o).bufSend.resetSize eServerBufSize }
      else s.object
    promoted := s.promoted ++ [o] }

/-- `ConnectSuccess`: what it returns, and the message as it leaves it. -/
def connectSuccess (s : SessionMgr) (message : Message) (ctl : Bool) :
    Option (NetWorkRet × Message × SessionMgr) :=
  match s.timeOutSe[message.channelID]? with
  | none => some (.eConnPacketErr, message, s)
  | some o => do
    let (res, message, se, groups) ← identify env message (s.object o) s.groups
    let s := { s.setObject o se with groups := groups }
    if res = .eConMessageErr then some (res, message, s)
    else do
      let s ← (s.promote message.channelID o).answer env se message ctl
      some (res, message, s)

/-! ### The steps -/

end SessionMgr

inductive Label
  /-- the kernel hands out the descriptor of a new connection -/
  | accept (sock : ℤ)
  /-- `ReadCommd` for such a descriptor, with the configuration `index` of a listener or of a
  connection -/
  | addTimerSessionEx (sock : ℤ) (addr : Inet_Addr) (index type : UInt8) (now : ℤ)
  | connectSuccess (message : Message) (ctl : Bool)
  | deleteSession (fd : ℤ)
  | deleteSessionEx (fd err : ℤ)
  | tick (loop : ℕ) (nowTime : ℤ)

namespace SessionMgr

variable (env : Env)

/-- `ReadCommd`, which closes a socket for which there is no session; `m_index` is a byte. -/
def readCommd (s : SessionMgr) (sock : ℤ) (addr : Inet_Addr) (index type : UInt8) (now : ℤ) :
    Option SessionMgr := do
  let config ← env.context.channelConfig index type
  let r := s.addTimerSessionEx env sock addr config
    ((index.toUInt16 <<< 8) ||| (UInt8.ofNat (loopOf env sock)).toUInt16) type now
  some (if r.1 then r.2 else { r.2 with fds := Function.update r.2.fds sock false })

def step (s : SessionMgr) : Label → Option SessionMgr
  | .accept sock =>
    if s.fds sock ∨ sock < 0 then none
    else some { s with fds := Function.update s.fds sock true, arriving := sock :: s.arriving }
  | .addTimerSessionEx sock addr index type now =>
    if sock ∈ s.arriving then
      { s with arriving := s.arriving.erase sock }.readCommd env sock addr index type now
    else none
  | .connectSuccess message ctl => (s.connectSuccess env message ctl).map fun r => r.2.2
  | .deleteSession fd => some (s.deleteSession fd)
  | .deleteSessionEx fd err => s.deleteSessionEx env fd err
  | .tick loop nowTime => some (s.tick env loop nowTime)

/-- Managers as they are made. -/
def new (object : ℕ → Session) (clock : ℕ → ℤ × Int32) : SessionMgr :=
  { clock := clock, object := object }

end SessionMgr

/-! ### Managers for runs on fixed inputs -/

/-- A gate server with one listener and one epoll loop. -/
def gateEnv : Env where
  context :=
    { connAdded := []
      acceptAdded := [{ local_id_ := 1, local_type_ := 1, channel_keep_time_ := 3000 }]
      ioThread := 1 }
  md5 := zeroMD5
  block := fun _ => 0

/-- An address. -/
def anyAddr : Inet_Addr := ⟨[], 0⟩

/-- Managers without a session. -/
def noSessions : SessionMgr :=
  SessionMgr.new (fun _ => Session.new (fun _ => 0) 0 0 anyAddr false) fun _ => (0, 0)

/-- A connection on the descriptor `sock` has got a session. -/
def connected (sock : ℤ) : List Label :=
  [.accept sock, .addTimerSessionEx sock anyAddr 0 eAcceptEpoll 0]

end ChatShow.CommBase.SessionManager
