import ChatShow.Lib.Bytes

/-! # The constants and the packet header of the network layer

`packetHeader` is packed, so a header is 26 bytes on the wire, each field with its lowest byte
first. A client sends its numbers in network order, and the two `htonl`-style functions are their
own inverses (`htonl_htonl`). Reading a header back from its bytes gives it again
(`decode_encode`). -/

namespace ChatShow.CommBase.NetWorkConfig

open ChatShow.Lib.Bytes

/-! ### Sizes and codes -/

/-- `MAX_RECV_MSG_SIZE`: the receive buffer of a session. -/
def MAX_RECV_MSG_SIZE : ℕ := 1024 * 64
/-- `MAX_RECV_MSG_CONTENT_SIZE`: the first allocation of a message's content. -/
def MAX_RECV_MSG_CONTENT_SIZE : ℕ := 1024
/-- `MAX_MSG_PACKET_SIZE`: the longest packet, its header included. -/
def MAX_MSG_PACKET_SIZE : ℕ := 1024 * 64
/-- `HEADER_LENGTH`: `sizeof(packetHeader)`. -/
def HEADER_LENGTH : ℕ := 26

/-- The codes of `E_NetWorkRet` that the modelled functions use. -/
inductive NetWorkRet
  | eNetSuccess | eConnErr | eGetSocketErr | eSetSocketErr | eCtlEpollErr | eAddSeTimeoutErr
  | eSessionAdded | eNotTimeOut | eNoEnughWrite | eWriteHeaderErr | eWritePacketErr | eWriteBuffErr
  | eBuffNULL | eSocketClose | eNetError | eTokenErr | eReqTimeOut | eConMessageErr | eEpollClose
  | eEpollNull | eSessionTimeout | eConnPacketErr | eGroupContinue
  deriving DecidableEq, Repr

/-- Their values. -/
def NetWorkRet.code : NetWorkRet → ℤ
  | eNetSuccess => 0
  | eConnErr => 4
  | eGetSocketErr => 8
  | eSetSocketErr => 9
  | eCtlEpollErr => 10
  | eAddSeTimeoutErr => 11
  | eSessionAdded => 12
  | eNotTimeOut => 13
  | eNoEnughWrite => 14
  | eWriteHeaderErr => 15
  | eWritePacketErr => 16
  | eWriteBuffErr => 17
  | eBuffNULL => 18
  | eSocketClose => 23
  | eNetError => 24
  | eTokenErr => 26
  | eReqTimeOut => 27
  | eConMessageErr => 28
  | eEpollClose => 30
  | eEpollNull => 31
  | eSessionTimeout => 32
  | eConnPacketErr => 33
  | eGroupContinue => 36

/-- `E_ConsoleType`, as the bytes that carry it. -/
def eClient : UInt8 := 0
def eGateServer : UInt8 := 1
def eGameServer : UInt8 := 2
def ePathServer : UInt8 := 3
def eWorldServer : UInt8 := 4
def eDBServer : UInt8 := 5
def eLoginServer : UInt8 := 6
def eManagerServer : UInt8 := 7
def eMax : UInt8 := 9

/-- `EMessageType`, as the bytes that carry it. -/
def ConnMessage : UInt8 := 0
def SimpleMessage : UInt8 := 1
def Request : UInt8 := 2
def Ack : UInt8 := 3
def SystemMessage : UInt8 := 4

/-- `ESystemErr`, as the message ids that carry it. -/
def eConnFailMessage : UInt32 := 0
def eConnErrMessage : UInt32 := 1
def eConnBuildSuccess : UInt32 := 2

/-- `ConnMessageType`, as the message ids that carry it. -/
def C2SMessage : UInt32 := 0
def S2CMessage : UInt32 := 1
def C2SGroupMessage : UInt32 := 2
def S2CGroupMessage : UInt32 := 3

/-- `E_EpollType`. -/
def eAcceptEpoll : UInt8 := 0
def eConnEpoll : UInt8 := 1

/-- `MAX_EPOLL_EVENT`: descriptors from here on get no session. -/
def MAX_EPOLL_EVENT : ℤ := 10000
/-- `MAX_NET_MSG_SIZE`: the send buffers of clients and of servers. -/
def eClientBufSize : ℕ := 1024 * 512
def eServerBufSize : ℕ := 1024 * 1024

/-! ### Network order -/

def htonl (x : UInt32) : UInt32 := UInt32.ofNat (bswap 4 x.toNat)
def htons (x : UInt16) : UInt16 := UInt16.ofNat (bswap 2 x.toNat)
def ntohll (x : UInt64) : UInt64 := UInt64.ofNat (bswap 8 x.toNat)

/-- `htonl` and `htons` on the signed fields. -/
def htonlInt (x : Int32) : Int32 := (htonl x.toUInt32).toInt32
def htonsShort (x : Int16) : Int16 := (htons x.toUInt16).toInt16

@[simp] theorem htonl_htonl (x : UInt32) : htonl (htonl x) = x := by
  apply UInt32.toNat_inj.mp
  have h : (UInt32.ofNat (bswap 4 x.toNat)).toNat = bswap 4 x.toNat :=
    UInt32.toNat_ofNat_of_lt' (by simpa using bswap_lt 4 x.toNat)
  rw [htonl, htonl, h, bswap_bswap (by simpa using x.toNat_lt)]
  exact UInt32.toNat_ofNat_of_lt' x.toNat_lt

@[simp] theorem htons_htons (x : UInt16) : htons (htons x) = x := by
  apply UInt16.toNat_inj.mp
  have h : (UInt16.ofNat (bswap 2 x.toNat)).toNat = bswap 2 x.toNat :=
    UInt16.toNat_ofNat_of_lt' (by simpa using bswap_lt 2 x.toNat)
  rw [htons, htons, h, bswap_bswap (by simpa using x.toNat_lt)]
  exact UInt16.toNat_ofNat_of_lt' x.toNat_lt

@[simp] theorem ntohll_ntohll (x : UInt64) : ntohll (ntohll x) = x := by
  apply UInt64.toNat_inj.mp
  have h : (UInt64.ofNat (bswap 8 x.toNat)).toNat = bswap 8 x.toNat :=
    UInt64.toNat_ofNat_of_lt' (by simpa using bswap_lt 8 x.toNat)
  rw [ntohll, ntohll, h, bswap_bswap (by simpa using x.toNat_lt)]
  exact UInt64.toNat_ofNat_of_lt' x.toNat_lt

@[simp] theorem htonlInt_htonlInt (x : Int32) : htonlInt (htonlInt x) = x := by
  simp [htonlInt]

@[simp] theorem htonsShort_htonsShort (x : Int16) : htonsShort (htonsShort x) = x := by
  simp [htonsShort]

/-! ### The header -/

structure packetHeader where
  length : Int32 := 0
  security : Bool := false
  remoteType : UInt8 := 0
  remoteID : Int16 := -1
  localType : UInt8 := 0
  messageID : UInt32 := 0xFFFFFFFF
  messageType : UInt8 := 0
  reqID : Int32 := 0
  sendTime : UInt64 := 0
  deriving DecidableEq, Repr

namespace packetHeader

/-- The fields in the other byte order. -/
def swap (h : packetHeader) : packetHeader :=
  { h with
    length := htonlInt h.length
    remoteID := htonsShort h.remoteID
    messageID := htonl h.messageID
    reqID := htonlInt h.reqID
    sendTime := ntohll h.sendTime }

/-- `toSmallEndian`: a header to a client leaves in network order. -/
def toSmallEndian (h : packetHeader) : packetHeader := if h.remoteType > 0 then h else h.swap

/-- `toBigEndian`: a header from a client arrives in network order. -/
def toBigEndian (h : packetHeader) : packetHeader := if h.localType > 0 then h else h.swap

/-- `toBigEndianEx`, which does not look at the sender. -/
def toBigEndianEx (h : packetHeader) : packetHeader := h.swap

@[simp] theorem swap_swap (h : packetHeader) : h.swap.swap = h := by
  cases h; simp [swap]

theorem toSmallEndian_toSmallEndian (h : packetHeader) : h.toSmallEndian.toSmallEndian = h := by
  unfold toSmallEndian
  by_cases hc : h.remoteType > 0
  · simp [hc]
  · have : ¬ h.swap.remoteType > 0 := hc
    rw [if_neg hc, if_neg this, swap_swap]

theorem toBigEndian_toBigEndian (h : packetHeader) : h.toBigEndian.toBigEndian = h := by
  unfold toBigEndian
  by_cases hc : h.localType > 0
  · simp [hc]
  · have : ¬ h.swap.localType > 0 := hc
    rw [if_neg hc, if_neg this, swap_swap]

/-- The 26 bytes of a header in memory. -/
def encode (h : packetHeader) : List UInt8 :=
  leBytes 4 h.length.toUInt32.toNat ++ (leBytes 1 h.security.toNat ++ (leBytes 1 h.remoteType.toNat
  ++ (leBytes 2 h.remoteID.toUInt16.toNat ++ (leBytes 1 h.localType.toNat
  ++ (leBytes 4 h.messageID.toNat ++ (leBytes 1 h.messageType.toNat
  ++ (leBytes 4 h.reqID.toUInt32.toNat ++ leBytes 8 h.sendTime.toNat)))))))

/-- The header that 26 bytes in memory stand for. A `bool` is true where its byte is not 0. -/
def decode (l : List UInt8) : packetHeader where
  length := (UInt32.ofNat (field l 0 4)).toInt32
  security := field l 4 1 != 0
  remoteType := UInt8.ofNat (field l 5 1)
  remoteID := (UInt16.ofNat (field l 6 2)).toInt16
  localType := UInt8.ofNat (field l 8 1)
  messageID := UInt32.ofNat (field l 9 4)
  messageType := UInt8.ofNat (field l 13 1)
  reqID := (UInt32.ofNat (field l 14 4)).toInt32
  sendTime := UInt64.ofNat (field l 18 8)

@[simp] theorem length_encode (h : packetHeader) : h.encode.length = HEADER_LENGTH := by
  simp [encode, HEADER_LENGTH]

/-- **A header is read back from its bytes**, whatever stands behind them. -/
theorem decode_encode (h : packetHeader) (rest : List UInt8) : decode (h.encode ++ rest) = h := by
  obtain ⟨len, sec, rt, rid, lt, mid, mt, req, t⟩ := h
  have hl : len.toUInt32.toNat < 256 ^ 4 := by simpa using len.toUInt32.toNat_lt
  have hr : rid.toUInt16.toNat < 256 ^ 2 := by simpa using rid.toUInt16.toNat_lt
  have hq : req.toUInt32.toNat < 256 ^ 4 := by simpa using req.toUInt32.toNat_lt
  have hm : mid.toNat < 256 ^ 4 := by simpa using mid.toNat_lt
  have ht : t.toNat < 256 ^ 8 := by simpa using t.toNat_lt
  have hs : sec.toNat < 256 ^ 1 := by cases sec <;> decide
  have h1 : ∀ x : UInt8, x.toNat < 256 ^ 1 := fun x => by simpa using x.toNat_lt
  have hsec : (sec.toNat != 0) = sec := by cases sec <;> rfl
  simp (disch := first | assumption | apply h1 | omega) only [decode, encode, List.append_assoc,
    field_skip, field_leBytes, Nat.reduceSub, UInt32.ofNat_toNat, UInt16.ofNat_toNat,
    UInt8.ofNat_toNat, UInt64.ofNat_toNat, Int32.toInt32_toUInt32, Int16.toInt16_toUInt16, hsec]

/-- **The bytes of a header are those it was read from**, where the byte of its `bool` is 0 or 1. -/
theorem encode_decode {l : List UInt8} (hl : l.length = HEADER_LENGTH) (hb : field l 4 1 ≤ 1) :
    (decode l).encode = l := by
  have hl' : l.length = 26 := hl
  have hsec : (field l 4 1 != 0).toNat = field l 4 1 := by
    rcases Nat.le_one_iff_eq_zero_or_eq_one.mp hb with h | h <;> rw [h] <;> rfl
  have h4 (off : ℕ) : (UInt32.ofNat (field l off 4)).toNat = field l off 4 :=
    UInt32.toNat_ofNat_of_lt' (field_lt l off 4)
  have h2 (off : ℕ) : (UInt16.ofNat (field l off 2)).toNat = field l off 2 :=
    UInt16.toNat_ofNat_of_lt' (field_lt l off 2)
  have h1 (off : ℕ) : (UInt8.ofNat (field l off 1)).toNat = field l off 1 :=
    UInt8.toNat_ofNat_of_lt' (field_lt l off 1)
  have h8 : (UInt64.ofNat (field l 18 8)).toNat = field l 18 8 :=
    UInt64.toNat_ofNat_of_lt' (field_lt l 18 8)
  have hend : leBytes 8 (field l 18 8) = l.drop 18 := by
    have h : leBytes 8 (field l 18 8) ++ l.drop 26 = l.drop 18 := leBytes_field_append (by omega)
    rwa [List.drop_of_length_le (by omega), List.append_nil] at h
  unfold encode decode
  simp only [UInt32.toUInt32_toInt32, UInt16.toUInt16_toInt16, h4, h2, h1, h8, hsec, hend]
  rw [leBytes_field_append (by omega), leBytes_field_append (by omega), leBytes_field_append (by omega),
    leBytes_field_append (by omega), leBytes_field_append (by omega), leBytes_field_append (by omega),
    leBytes_field_append (by omega), leBytes_field_append (by omega), List.drop_zero]

end packetHeader

end ChatShow.CommBase.NetWorkConfig
