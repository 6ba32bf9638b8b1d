import ChatShow.CommBase.MessageManager

/-! # The context

The configurations of the listeners and of the connections that a process makes, and `SystemErr`,
which makes a message to the dispatcher of what has happened to a connection. An index behind the end
of a list of configurations is a fault, `none`. -/

namespace ChatShow.CommBase.NetContext

open ChatShow.Lib.Bytes ChatShow.Lib.Cells
open ChatShow.CommBase.NetWorkConfig ChatShow.CommBase.MessageManager

/-! ### Configurations -/

structure ChannelConfig where
  local_id_ : Int16 := 0
  local_type_ : UInt8 := 0
  channel_keep_time_ : ℤ := 0
  security_ : Bool := false

structure AcceptorConfig extends ChannelConfig

structure ConnectionConfig extends ChannelConfig where
  remote_id_ : Int16 := 0
  remote_type_ : UInt8 := 0
  group_count : UInt8 := 0

/-- The vectors `m_connAdded` and `m_acceptAdded`, and the number of the epoll loops. -/
structure Context where
  connAdded : List ConnectionConfig
  acceptAdded : List AcceptorConfig
  ioThread : ℕ

namespace Context

def getAccConfig (c : Context) (index : ℕ) : Option AcceptorConfig := c.acceptAdded[index]?

def getConnConfig (c : Context) (index : ℕ) : Option ConnectionConfig := c.connAdded[index]?

/-- `GetConfig()`: that of the first connection, or else of the first listener. -/
def getConfig (c : Context) : Option ChannelConfig :=
  match c.connAdded with
  | [] => (c.getAccConfig 0).map (·.toChannelConfig)
  | conf :: _ => some conf.toChannelConfig

/-- The configuration that `ReadCommd` takes for a socket. -/
def channelConfig (c : Context) (index type : UInt8) : Option ChannelConfig :=
  if type = eConnEpoll then (c.getConnConfig index.toNat).map (·.toChannelConfig)
  else (c.getAccConfig index.toNat).map (·.toChannelConfig)

end Context

/-! ### System messages -/

/-- The address of a peer. -/
structure Inet_Addr where
  ip : List UInt8
  port : UInt16

/-- `SystemMessageCon`, which is not packed. -/
structure SystemMessageCon where
  channel : Int32
  lid : Int16
  ltype : UInt8
  rid : Int16
  rtype : UInt8
  err : Int32
  addr : Inet_Addr

/-- The 16 bytes of `ip`. An address that is too long is not copied. -/
def ipBytes (ip : List UInt8) : List UInt8 :=
  if ip.length ≤ 16 then ip ++ List.replicate (16 - ip.length) 0 else List.replicate 16 0

/-- Its 36 bytes. -/
def SystemMessageCon.encode (c : SystemMessageCon) : List UInt8 :=
  leBytes 4 c.channel.toUInt32.toNat ++ leBytes 2 c.lid.toUInt16.toNat ++ [c.ltype, 0]
    ++ leBytes 2 c.rid.toUInt16.toNat ++ [c.rtype, 0] ++ leBytes 4 c.err.toUInt32.toNat
    ++ ipBytes c.addr.ip ++ leBytes 2 c.addr.port.toNat ++ [0, 0]

/-- The kind of event that an error code stands for. -/
def systemErrID (err : ℤ) : UInt32 :=
  if err ∈ [NetWorkRet.eConnErr, .eAddSeTimeoutErr, .eGetSocketErr, .eSetSocketErr, .eCtlEpollErr,
      .eSessionAdded, .eNotTimeOut].map NetWorkRet.code then eConnFailMessage
  else if err ∈ [NetWorkRet.eEpollClose, .eEpollNull, .eConMessageErr, .eConnPacketErr,
      .eSessionTimeout, .eSocketClose].map NetWorkRet.code then eConnErrMessage
  else if err = NetWorkRet.eNetSuccess.code then eConnBuildSuccess
  else 0xFFFFFFFF

/-- `SystemErr`: the message, over the block that `malloc` returned for its content. -/
def systemErr (block : ℕ → UInt8) (con : SystemMessageCon) : Message :=
  { content := store block 0 con.encode
    length := Int32.ofNat con.encode.length
    messageID := systemErrID con.err.toInt
    messageType := SystemMessage }

end ChatShow.CommBase.NetContext
