import ChatShow.CommBase.MessageManager

/-! # Receiving on a session

`Session::Recv` in its two forms. The one without arguments reads from the socket until there is
nothing left to read, and the one with a queue takes the packets off the receive buffer and moves
the rest of the buffer to its front. What the socket returns to each `recv` is a parameter, as are
what `CSessionMgr::ConnectSuccess` makes of a connection packet and the blocks that `malloc`
returns. `none` is a fault: an `int` that overflows, an access outside a block, or a `recv` that
returns more bytes than it was asked for. Logging is left out, and so is the event that
`AddMessage` raises after a connection packet. -/

namespace ChatShow.CommBase.SessionRecv

open ChatShow.Lib.Cells ChatShow.CommBase.NetWorkConfig ChatShow.CommBase.Util
open ChatShow.CommBase.MessageManager

/-- What `ConnectSuccess` returns, and the identity it leaves the session with. -/
structure Connected where
  res : ℤ
  remoteID : Int16
  remoteType : UInt8
  groupID : ℤ

/-- What the session runs on: its configuration, the digest, the blocks of the messages, and for
each connection packet what `ConnectSuccess` does with it (`none`: it throws). -/
structure Env where
  local_id_ : Int16
  local_type_ : UInt8
  md5 : MD5
  malloc : ℕ → ℕ → UInt8
  connectSuccess : ℕ → Message → Option Connected

/-- What of a session its messages depend on. `allocs` and `connects` count the messages made and the
connection packets handed on. -/
structure Peer where
  remoteID : Int16 := 0
  remoteType : UInt8 := 0
  accSock : ℤ := 0
  flag : ℤ := 0
  security : Bool := false
  groupID : ℤ := -1
  allocs : ℕ := 0
  connects : ℕ := 0

structure Session extends Peer where
  bufRecv : ℕ → UInt8
  dwRecvPos : ℕ := 0
  recvCount : ℕ := 0
  recvTime : ℤ := 0

variable (env : Env)

/-- `AddMessage`: 1 for a connection packet that was taken, -1 for one that was not. -/
def Peer.addMessage (p : Peer) (message : Message) : ℤ × Peer :=
  if message.messageType = ConnMessage then
    let p' := { p with connects := p.connects + 1 }
    match env.connectSuccess p.connects message with
    | none => (-1, p')
    | some c =>
      let p' := { p' with remoteID := c.remoteID, remoteType := c.remoteType, groupID := c.groupID }
      if c.res ≠ 0 ∧ c.res ≠ NetWorkRet.eGroupContinue.code then (-1, p') else (1, p')
  else (0, p)

/-- What `Recv` does with one whole packet, whose content begins at `content`: the message, when
it is put into the queue. -/
def Peer.handlePacket (p : Peer) (head : packetHeader) (content : ℕ → UInt8) :
    Option (Peer × List Message) :=
  let recvMessage := (Message.new (env.malloc p.allocs) p.remoteID p.remoteType).setHead head
  let p := { p with allocs := p.allocs + 1 }
  if head.remoteID = env.local_id_ ∧ head.remoteType = env.local_type_ ∧
      recvMessage.security = p.security then do
    let m ← recvMessage.setContent content head.length
    let m := { m with
      channelID := p.accSock, group := p.groupID, loopIndex := p.flag / 256 % 256 }
    let (ok, m) ← m.unEncryptMessage env.md5
    if ok then
      let (ret, p) := p.addMessage env m
      some (p, if ret = 0 then [m] else [])
    else some (p, [])
  else some (p, [])

/-- The rest of the buffer goes to its front, or is dropped where `SafeMemmove` refuses it. The room
passed for the front is what lies behind the rest, not the whole buffer. -/
def Session.keepRest (s : Session) (tmpHead nLeftSize : ℕ) : Session :=
  match safeMemmove s.bufRecv 0 (MAX_RECV_MSG_SIZE - nLeftSize : ℤ) (shift s.bufRecv tmpHead)
    nLeftSize with
  | none => { s with dwRecvPos := 0 }
  | some buf => { s with bufRecv := buf, dwRecvPos := nLeftSize }

/-- A pass of `Recv(vec)` from `tmpHead` on, with `nLeftSize` bytes there. It returns whether the
session is to be closed, and `vec`. -/
def recvPass : ℕ → Session → ℕ → ℕ → List Message → Option (Bool × Session × List Message)
  | 0, _, _, _, _ => none
  | fuel + 1, s, tmpHead, nLeftSize, vec =>
    if nLeftSize < HEADER_LENGTH then some (false, s.keepRest tmpHead nLeftSize, vec)
    else
      let head := (packetHeader.decode (slice s.bufRecv tmpHead HEADER_LENGTH)).toBigEndian
      if head.remoteID < 0 ∨ head.length < 0 ∨ head.remoteType ≥ eMax ∨ head.localType ≥ eMax ∨
          head.messageType > SystemMessage then
        if s.remoteType = eClient then some (true, s, vec)
        else some (false, { s with dwRecvPos := 0 }, vec)
      else if 2147483648 ≤ head.length.toInt + HEADER_LENGTH then none
      else if MAX_MSG_PACKET_SIZE < head.length.toInt + HEADER_LENGTH then
        if s.remoteType = eClient then some (true, s, vec)
        else some (false, { s with dwRecvPos := 0 }, vec)
      else
        let len := head.length.toInt.toNat
        if nLeftSize < HEADER_LENGTH + len then some (false, s.keepRest tmpHead nLeftSize, vec)
        else do
          let (p, msgs) ← s.toPeer.handlePacket env head
            (shift s.bufRecv (tmpHead + HEADER_LENGTH))
          let s := { s with toPeer := p, recvCount := s.recvCount + 1 }
          let nLeftSize := nLeftSize - (HEADER_LENGTH + len)
          if nLeftSize ≤ 0 then some (false, { s with dwRecvPos := 0 }, vec ++ msgs)
          else recvPass fuel s (tmpHead + (HEADER_LENGTH + len)) nLeftSize (vec ++ msgs)

/-- `Recv(vec)`. Every turn of its loop takes a header off, so `dwRecvPos` turns are enough. -/
def Session.recvVec (s : Session) (vec : List Message) : Option (Bool × Session × List Message) :=
  recvPass env (s.dwRecvPos + 1) s 0 s.dwRecvPos vec

/-- What a call of `recv` returns: bytes, `EAGAIN`, another error, or 0. -/
inductive RecvRet
  | data (bytes : List UInt8)
  | again
  | error
  | closed

/-- The bytes that `recv` has put behind `dwRecvPos`. -/
def Session.fill (s : Session) (bytes : List UInt8) : Session :=
  { s with
    bufRecv := store s.bufRecv s.dwRecvPos bytes, dwRecvPos := s.dwRecvPos + bytes.length }

/-- The end of `Recv()` under `USE_PACKAGE_COUNT`: a client that sends too much is closed. -/
def Session.packageCount (s : Session) (now : ℤ) : NetWorkRet × Session :=
  if s.recvTime ≤ 0 then (.eNetSuccess, { s with recvTime := now })
  else if now - s.recvTime > 20 * 1000 then
    if s.recvCount / 20 > 60 ∧ (s.remoteType ≤ eClient ∨ s.remoteType ≥ eMax) then
      (.eSocketClose, s)
    else (.eNetSuccess, { s with recvCount := 0, recvTime := now })
  else (.eNetSuccess, s)

/-- `Recv()`: its code, the session, and the messages it has handed to the dispatcher. -/
def Session.recv (now : ℤ) : List RecvRet → Session → List Message →
    Option (NetWorkRet × Session × List Message)
  | .closed :: _, s, _ => some (.eSocketClose, s, [])
  | .data bytes :: rest, s, vec =>
    if bytes = [] ∨ MAX_RECV_MSG_SIZE < s.dwRecvPos + bytes.length then none
    else
      let s := s.fill bytes
      if s.dwRecvPos < HEADER_LENGTH then s.recv now rest vec
      else do
        let (close, s, vec) ← s.recvVec env vec
        if close then some (.eSocketClose, s, []) else s.recv now rest vec
  | _, s, vec => do
    let (close, s, vec) ← s.recvVec env vec
    if close then some (.eSocketClose, s, [])
    else
      let (ret, s) := s.packageCount now
      some (ret, s, vec)

/-- Calls of `Recv()` one after the other, each with its time and the chunks that the socket returns
before it has no more. All messages handed to the dispatcher. -/
def recvAll : List (ℤ × List (List UInt8)) → Session → Option (Session × List Message)
  | [], s => some (s, [])
  | (now, chunks) :: rest, s => do
    let (_, s, handed) ← s.recv env now (chunks.map .data ++ [.again]) []
    let (s, handed') ← recvAll rest s
    some (s, handed ++ handed')

end ChatShow.CommBase.SessionRecv
