import ChatShow.Antlib.TcpMsglist
import ChatShow.Lib.Bytes

/-! # A connection and the protocol `tcp4`

`tcpconnection_recv` reads from the socket into the buffer of the connection and hands each read to
`tcp4_readed_data`, which parses messages off the buffer and leaves what it cannot parse yet to
`tcp_resetbuf`. The reads are a parameter. A failed assertion, a copy from behind the buffer, and a
read of more bytes than there is room for are `none`. The clock of the connection is left out. -/

namespace ChatShow.Antlib.TcpProtocol4

open ChatShow.Lib.Cells ChatShow.Lib.Bytes ChatShow.Antlib.TcpMsglist

/-- `TCPCONNECTION_BUFLEN`. -/
def TCPCONNECTION_BUFLEN : ℕ := 8192 - 8 * 128

/-- What the connection runs on: the tables, and the blocks of the allocator. -/
structure Env where
  tables : ℕ → Option TcpmsgTable
  malloc : ℕ → ℕ → UInt8

/-- `tcp_connection` with the fields of its protocol. `socket` says that it is open, and `protocol`
that the protocol has been chosen. `allocs` counts the messages made, and `done` is what the
handlers of the tables were called with. -/
structure TcpConnection where
  socket : Bool := true
  protocol : Bool := false
  id : UInt64 := 0
  ip : UInt32 := 0
  userid : UInt64 := 0
  msg : Option HandlerMsg := none
  msgbegin : ℕ := 0
  offset : ℕ := 0
  buf : ℕ → UInt8
  closecause : Option String := none
  allocs : ℕ := 0
  done : List HandlerMsg := []

namespace TcpConnection

def tcpconnectionClose (c : TcpConnection) (cause : String) : TcpConnection :=
  { c with socket := false, closecause := some cause }

/-- The part of `_parse_net_tcp4msg` that adds to the body of the message `msg`. -/
def addBody (c : TcpConnection) (msg : HandlerMsg) : Option (ℤ × TcpConnection) :=
  if c.offset > c.msgbegin then
    if TCPCONNECTION_BUFLEN < c.offset then none
    else
      let (n, msg, called) := tcpmsgPutoutRange msg (some (shift c.buf c.msgbegin))
        (c.offset - c.msgbegin)
      let c := { c with done := if called then c.done ++ [msg] else c.done }
      if n ≥ 0 then some (0, { c with msg := none, msgbegin := c.msgbegin + n.toNat })
      else if n = -2 then some (-1, c.tcpconnectionClose "tcp4 parser error2")
      else some (-1, { c with msg := some msg, msgbegin := c.offset })
  else some (-1, c)

/-- `_parse_net_tcp4msg`. -/
def parseNetTcp4msg (env : Env) (c : TcpConnection) : Option (ℤ × TcpConnection) :=
  match c.msg with
  | some msg => c.addBody msg
  | none =>
    if c.msgbegin + 26 > c.offset then some (-1, c)
    else if TCPCONNECTION_BUFLEN < c.msgbegin + 26 then none
    else
      let buf := slice c.buf c.msgbegin 26
      let msglen := UInt32.ofNat (field buf 0 4)
      let msgid := UInt32.ofNat (field buf 9 4)
      match tcpmsgGetbyid env.tables (env.malloc c.allocs) msgid.toInt32.toInt msglen.toInt32.toInt
        c.userid c.id c.ip with
      | none => none
      | some none => some (-1, c.tcpconnectionClose "tcp4 error message")
      | some (some msg) =>
        let c := { c with msgbegin := c.msgbegin + 26, allocs := c.allocs + 1 }
        if msglen = 0 then
          let (n, msg, called) := tcpmsgPutoutRange msg none 0
          let c := { c with done := if called then c.done ++ [msg] else c.done }
          if n = -2 then some (-1, c.tcpconnectionClose "tcp4 parser error") else some (0, c)
        else { c with msg := some msg }.addBody msg

/-- The loop of `tcp4_readed_data`. A turn that goes on has moved `TPD_MSGBEGIN` towards
`_offset`. -/
def parseLoop (env : Env) : ℕ → TcpConnection → Option TcpConnection
  | 0, _ => none
  | fuel + 1, c => do
    let (r, c) ← c.parseNetTcp4msg env
    if r = 0 then parseLoop env fuel c else some c

/-- `tcp_resetbuf`. A rest that is moved to the front keeps the `TPD_MSGBEGIN` it had. -/
def tcpResetbuf (c : TcpConnection) (begin_ end_ : ℕ) : Option TcpConnection :=
  if begin_ ≤ end_ ∧ end_ < TCPCONNECTION_BUFLEN then
    if end_ > begin_ then
      some { c with
        buf := store c.buf 0 (slice c.buf begin_ (end_ - begin_)), offset := end_ - begin_ }
    else some { c with offset := 0, msgbegin := 0 }
  else none

def tcp4ReadedData (env : Env) (add : ℕ) (c : TcpConnection) : Option TcpConnection := do
  let c := { c with offset := c.offset + add }
  let c ← parseLoop env (c.offset + 1) c
  c.tcpResetbuf c.msgbegin c.offset

/-- `tcp_connected`, for a connection that was accepted. -/
def tcpConnected (c : TcpConnection) : TcpConnection :=
  { c with userid := 0, msg := none, msgbegin := 0 }

/-- What `tcp_read` finds: bytes, nothing for now, or the end of the connection. -/
inductive ReadRet
  | data (bytes : List UInt8)
  | again
  | closed

/-- `tcp_read` to the cell `off`, with `len` cells of room: its result and the connection. -/
def tcpRead (c : TcpConnection) (off len : ℕ) : ReadRet → Option (ℕ × TcpConnection)
  | .data bytes =>
    if bytes = [] ∨ len < bytes.length then none
    else some (bytes.length, { c with buf := store c.buf off bytes })
  | .again => some (0, c)
  | .closed => some (0, { c with socket := false })

/-- The loop of `tcpconnection_recv` after a read of `n` bytes. -/
def recvLoop (env : Env) : List ReadRet → ℕ → TcpConnection → Option TcpConnection
  | reads, n, c =>
    if n > 0 ∧ c.socket = true then do
      let c ← c.tcp4ReadedData env n
      if c.socket = true then
        if c.offset < TCPCONNECTION_BUFLEN then
          match reads with
          | [] => some c
          | r :: reads => do
            let (n, c) ← c.tcpRead c.offset (TCPCONNECTION_BUFLEN - c.offset) r
            recvLoop env reads n c
        else none
      else some c
    else some c

/-- `tcpconnection_recv` on a port of the protocol `tcp4`. A list of reads that ends stands for one
that goes on with nothing to read. -/
def tcpconnectionRecv (env : Env) (c : TcpConnection) (reads : List ReadRet) :
    Option TcpConnection :=
  if c.socket = false then some c
  else do
    let (n, c) ← c.tcpRead 0 TCPCONNECTION_BUFLEN (reads.headD .again)
    if c.protocol = false ∧ n < 4 then some (c.tcpconnectionClose "first receive error")
    else
      let c := if c.protocol = false then { c with protocol := true }.tcpConnected else c
      let c ← recvLoop env reads.tail n c
      some (if c.socket = false then c.tcpconnectionClose "receive error" else c)

/-- Calls of `tcpconnection_recv` one after the other, each with the chunks that its reads find. -/
def recvAll (env : Env) (c : TcpConnection) : List (List (List UInt8)) → Option TcpConnection
  | [] => some c
  | chunks :: rest => (c.tcpconnectionRecv env (chunks.map .data)).bind fun c => c.recvAll env rest

end TcpConnection

end ChatShow.Antlib.TcpProtocol4
