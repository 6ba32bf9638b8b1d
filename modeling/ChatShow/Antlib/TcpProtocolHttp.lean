import ChatShow.Antlib.TcpProtocol4
import ChatShow.Antlib.TcpStringmsg

/-! # The protocol `http`

`http_readed_data` takes requests off the buffer of a connection, the method by the first byte, and
calls the handlers with the messages made of them. A run is an `Except`: a failed assertion or a read
outside of a block stops the process in the state it is in, which is its `error`. -/

namespace ChatShow.Antlib.TcpProtocolHttp

open ChatShow.Lib.Cells ChatShow.Lib.CStrings
open ChatShow.Antlib.HttpProtocol ChatShow.Antlib.TcpMsglist ChatShow.Antlib.TcpStringmsg
open ChatShow.Antlib.TcpProtocol4 (TcpConnection TCPCONNECTION_BUFLEN)
open ChatShow.Antlib.TcpProtocol4.TcpConnection (ReadRet)

/-- What a connection runs on: the tables by their keys, and the blocks of the allocator with the
addresses of `_buf` in them. -/
structure Env where
  tables : List UInt8 → List UInt8 → Option StringTable
  malloc : ℕ → ℕ → UInt8
  addr : ℕ → ℕ

/-- A connection with `TPD_MSGOFF`. `fields` and `base` are the fields of the table that `_tb` of the
message in `TPD_MSG` points to, and the address of its `_buf`. -/
structure HttpConnection extends TcpConnection where
  msgoff : ℕ := 0
  fields : List TcpmsgField := []
  base : ℕ := 0

abbrev Run := Except HttpConnection

namespace HttpConnection

def tcpconnectionClose (c : HttpConnection) (cause : String) : HttpConnection :=
  { c with toTcpConnection := c.toTcpConnection.tcpconnectionClose cause }

/-- The string in a header that a pointer points at; the null pointer is `none`. -/
def strAt (buf : List UInt8) : Option ℕ → Option (Option (List UInt8))
  | none => some none
  | some p => (cstr (buf.drop p)).map some

/-- `tcpmsg_getbykey` for the strings that a parser has cut out of a header. -/
def getbykey (env : Env) (c : HttpConnection) (buf : List UInt8) (path1 : ℕ) (path2 : Option ℕ)
    (len : ℤ) : Option (Option (HandlerMsg × List TcpmsgField)) :=
  (strAt buf (some path1)).bind fun key1 =>
    (strAt buf path2).bind fun key2 =>
      tcpmsgGetbykey env.tables (env.malloc c.allocs) key1 key2 len c.userid c.id c.ip

/-- `_http_readed_get`, once the header has been found. -/
def takeGet (env : Env) (c : HttpConnection) : Run (ℤ × HttpConnection) :=
  match parseHttpGet (slice c.buf c.msgbegin c.msgoff) with
  | none => .ok (-1, c)
  | some g =>
    let c := { c with buf := store c.buf c.msgbegin g.buf }
    match c.getbykey env g.buf g.path1 g.path2 g.len with
    | none => .error c
    | some none => .ok (-1, c)
    | some (some (msg, fields)) =>
      let base := env.addr c.allocs
      let c := { c with allocs := c.allocs + 1 }
      match httpmsgPutoutRange fields base msg (some (cells (g.buf.drop g.values))) g.len with
      | none => .error c
      | some (n, msg, called) =>
        let c := { c with done := if called then c.done ++ [msg] else c.done }
        if n = -2 then .ok (-1, c)
        else .ok (1, { c with msgbegin := c.msgbegin + c.msgoff, msgoff := 0 })

def httpReadedGet (env : Env) (c : HttpConnection) : Run (ℤ × HttpConnection) :=
  if c.msg.isSome then .error c
  else
    let (result, msgoff) :=
      parseHttpHeaderLen (shift c.buf c.msgbegin) ((c.offset - c.msgbegin) % 65536) c.msgoff
    let c := { c with msgoff := msgoff }
    if result = -1 ∨ msgoff ≥ TCPCONNECTION_BUFLEN then .ok (-1, c)
    else if result = 0 then .ok (0, c)
    else c.takeGet env

/-- The part of `_htt_readed_post` that adds to the body of the message `msg`. -/
def addBody (c : HttpConnection) (msg : HandlerMsg) : Run (ℤ × HttpConnection) :=
  match httpmsgPutoutRange c.fields c.base msg (some (shift c.buf c.msgbegin))
    ((c.offset : ℤ) - c.msgbegin) with
  | none => .error c
  | some (result, msg, called) =>
    let c := { c with msg := some msg, done := if called then c.done ++ [msg] else c.done }
    if result ≥ 0 then .ok (1, { c with msgbegin := c.msgbegin + result.toNat, msg := none })
    else if result = -2 then .ok (-1, c)
    else .ok (0, { c with msgbegin := c.offset })

/-- `_htt_readed_post`, once the header has been found. -/
def takePost (env : Env) (c : HttpConnection) : Run (ℤ × HttpConnection) :=
  let behind := c.msgbegin + c.msgoff
  match parseHttpPost (slice c.buf c.msgbegin c.msgoff)
    (slice c.buf behind (TCPCONNECTION_BUFLEN - behind)) with
  | none => .ok (-1, c)
  | some p =>
    let c := { c with buf := store c.buf c.msgbegin p.buf }
    if p.contentLen ≥ 0x7FFFFFFF then .ok (-1, c)
    else
      match c.getbykey env p.buf p.path1 p.path2 p.contentLen with
      | none => .error c
      | some none => .ok (-1, c)
      | some (some (msg, fields)) =>
        let c := { c with
          msgbegin := behind, msgoff := 0, msg := some msg, fields := fields
          base := env.addr c.allocs, allocs := c.allocs + 1 }
        c.addBody msg

def httReadedPost (env : Env) (c : HttpConnection) : Run (ℤ × HttpConnection) :=
  match c.msg with
  | some msg => c.addBody msg
  | none =>
    let (result, msgoff) :=
      parseHttpHeaderLen (shift c.buf c.msgbegin) ((c.offset - c.msgbegin) % 65536) c.msgoff
    let c := { c with msgoff := msgoff }
    if result = -1 ∨ msgoff ≥ TCPCONNECTION_BUFLEN then .ok (-1, c)
    else if result = 0 then .ok (0, c)
    else c.takePost env

/-- A turn of the loop of `http_readed_data`. -/
def readedTurn (env : Env) (c : HttpConnection) : Run (ℤ × HttpConnection) :=
  if c.buf c.msgbegin = 'G'.toUInt8 then c.httpReadedGet env
  else if c.buf c.msgbegin = 'P'.toUInt8 then c.httReadedPost env
  else .ok (-1, c)

/-- The loop of `http_readed_data`. A turn that goes on has moved `TPD_MSGBEGIN` towards `_offset`. -/
def readedLoop (env : Env) : ℕ → HttpConnection → Run (ℤ × HttpConnection)
  | 0, c => .error c
  | fuel + 1, c =>
    match c.readedTurn env with
    | .error c => .error c
    | .ok (i, c) => if i > 0 ∧ c.msgbegin < c.offset then readedLoop env fuel c else .ok (i, c)

def tcpResetbuf (c : HttpConnection) (begin_ end_ : ℕ) : Run HttpConnection :=
  match c.toTcpConnection.tcpResetbuf begin_ end_ with
  | none => .error c
  | some t => .ok { c with toTcpConnection := t }

/-- What `http_readed_data` does with the result `i` of its loop. -/
def checkResult (c : HttpConnection) (i : ℤ) : Run HttpConnection :=
  if i = -1 then .ok { c.tcpconnectionClose "http read error message" with msgbegin := 0 }
  else if c.msgbegin > 0 then
    match c.tcpResetbuf c.msgbegin c.offset with
    | .error c => .error c
    | .ok c => .ok { c with msgbegin := 0 }
  else .ok c

def httpReadedData (env : Env) (add : ℕ) (c : HttpConnection) : Run HttpConnection :=
  match readedLoop env (c.offset + add + 1) { c with offset := c.offset + add } with
  | .error c => .error c
  | .ok (i, c) => c.checkResult i

/-! ### Reads -/

/-- `tcp_connected`, for a connection that was accepted. -/
def tcpConnected (c : HttpConnection) : HttpConnection :=
  { c with toTcpConnection := c.toTcpConnection.tcpConnected, msgoff := 0 }

/-- `tcp_read`, which does not read more than there is room for. -/
def tcpRead (c : HttpConnection) (off len : ℕ) (r : ReadRet) : Run (ℕ × HttpConnection) :=
  match c.toTcpConnection.tcpRead off len r with
  | none => .error c
  | some (n, t) => .ok (n, { c with toTcpConnection := t })

/-- The loop of `tcpconnection_recv` after a read of `n` bytes. -/
def recvLoop (env : Env) : List ReadRet → ℕ → HttpConnection → Run HttpConnection
  | reads, n, c =>
    if n > 0 ∧ c.socket = true then
      match c.httpReadedData env n with
      | .error c => .error c
      | .ok c =>
        if c.socket = true then
          if c.offset < TCPCONNECTION_BUFLEN then
            match reads with
            | [] => .ok c
            | r :: reads =>
              match c.tcpRead c.offset (TCPCONNECTION_BUFLEN - c.offset) r with
              | .error c => .error c
              | .ok (n, c) => recvLoop env reads n c
          else .error c
        else .ok c
    else .ok c

/-- `tcpconnection_recv` on a port of the protocol `http`. A list of reads that ends stands for one
that goes on with nothing to read. -/
def tcpconnectionRecv (env : Env) (c : HttpConnection) (reads : List ReadRet) :
    Run HttpConnection :=
  if c.socket = false then .ok c
  else
    match c.tcpRead 0 TCPCONNECTION_BUFLEN (reads.headD .again) with
    | .error c => .error c
    | .ok (n, c) =>
      if c.protocol = false ∧ n < 4 then .ok (c.tcpconnectionClose "first receive error")
      else
        let c := if c.protocol = false then
          { c.tcpConnected with protocol := true } else c
        match recvLoop env reads.tail n c with
        | .error c => .error c
        | .ok c => .ok (if c.socket = false then c.tcpconnectionClose "receive error" else c)

/-- Calls of `tcpconnection_recv` one after the other, each with the chunks that its reads find. -/
def recvAll (env : Env) (c : HttpConnection) : List (List (List UInt8)) → Run HttpConnection
  | [] => .ok c
  | chunks :: rest =>
    match c.tcpconnectionRecv env (chunks.map .data) with
    | .error c => .error c
    | .ok c => c.recvAll env rest

end HttpConnection

/-- What the handlers have been called with in a run. -/
def dispatched : Run HttpConnection → List HandlerMsg
  | .ok c => c.done
  | .error c => c.done

end ChatShow.Antlib.TcpProtocolHttp
