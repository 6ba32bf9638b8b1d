import ChatShow.Lib.Cells

/-! # Message tables and message streams

The tables registered for message ids, the stream that is allocated for an announced message, and
`tcpmsg_putout_range`, which fills it and calls the handler of the table once it is full. A block
that is too small for what is written into it, or larger than an `int`, is `none`. -/

namespace ChatShow.Antlib.TcpMsglist

open ChatShow.Lib.Cells

/-- What of a `tcpmsg_table` the framing reads. -/
structure TcpmsgTable where
  n : ℕ
  minSize : ℤ
  maxSize : ℤ
  deriving DecidableEq, Repr

/-- `tcp_stream`: the body of a message, of which `off` bytes of `len` are there. -/
structure TcpStream where
  tb : TcpmsgTable
  vl : List ℕ
  netid : UInt64
  ip : UInt32
  off : ℤ
  len : ℤ
  buf : ℕ → UInt8

structure HandlerMsg where
  userid : UInt64
  msgid : ℤ
  datalen : ℤ
  data : TcpStream

/-- `MSG_NORMAL_SIZE` and `sizeof(tcp_stream)`. -/
def MSG_NORMAL_SIZE : ℤ := 8142
def sizeofTcpStream : ℤ := 56

/-- `create_tcpstream`, over a block that the allocator returned. -/
def createTcpstream (block : ℕ → UInt8) (userid : UInt64) (msgid msglen : ℤ) (tb : TcpmsgTable)
    (vlnum : ℕ) (netid : UInt64) (ip : UInt32) : Option HandlerMsg :=
  if msglen < 0 ∨ 2147483648 ≤ sizeofTcpStream + msglen + 8 * vlnum then none
  else
    let size :=
      if MSG_NORMAL_SIZE - sizeofTcpStream < msglen + 8 * vlnum then
        sizeofTcpStream + msglen + 8 * vlnum
      else MSG_NORMAL_SIZE
    some
      { userid := userid
        msgid := msgid
        datalen := size
        data :=
          { tb := tb, vl := List.replicate vlnum 0, netid := netid, ip := ip, off := 0,
            len := msglen, buf := block } }

/-- What `tcpmsg_getbyid` returns: no message, or a message that may have failed to be made. -/
def tcpmsgGetbyid (tables : ℕ → Option TcpmsgTable) (block : ℕ → UInt8) (msgid msglen : ℤ)
    (userid netid : UInt64) (ip : UInt32) : Option (Option HandlerMsg) :=
  if msgid < 0 ∨ msgid > 65535 then some none
  else
    match tables msgid.toNat with
    | none => some none
    | some t =>
      if t.n > 0 ∧ (msglen < t.minSize ∨ msglen > t.maxSize) then some none
      else (createTcpstream block userid msgid msglen t t.n netid ip).map some

/-- `tcpmsg_putout_range`: its result, the message, and whether the handler was called with it.
`addmsg` is `none` for the null pointer. -/
def tcpmsgPutoutRange (msg : HandlerMsg) (addmsg : Option (ℕ → UInt8)) (addlen : ℤ) :
    ℤ × HandlerMsg × Bool :=
  let s := msg.data
  if s.len - s.off ≤ addlen then
    match addmsg with
    | some a =>
      let n := s.len - s.off
      let buf := store s.buf s.off.toNat (slice a 0 n.toNat)
      (n, { msg with data := { s with buf := buf, off := 0 } }, true)
    | none => (0, { msg with data := { s with off := 0 } }, true)
  else if addlen > 0 then
    let buf := store s.buf s.off.toNat (slice (addmsg.getD fun _ => 0) 0 addlen.toNat)
    (-1, { msg with data := { s with buf := buf, off := s.off + addlen } }, false)
  else (-1, msg, false)

end ChatShow.Antlib.TcpMsglist
