import ChatShow.CommBase.NetWorkConfig
import ChatShow.Lib.Cells

/-! # The packets of the login service for the servers

`net_packet.h` writes a packet into a buffer that `my_new` has allocated: the values of the payload from
byte 26 on, and then, in `push_net_packet_end`, the fields of the header in front of them, each in
network order. `none` is an `ASSERT` that fails.

A header is read back but for its send time, of which `hton32` writes the low half into the first four
of its eight bytes (`readHeader_netPacket`). The four bytes behind them keep what the memory had. -/

namespace ChatShow.CSLoginService.NetPacket

open ChatShow.Lib.Bytes ChatShow.Lib.Cells
open ChatShow.CommBase.NetWorkConfig

def BODY_LENGTH : ℕ := 10240

structure SPacket where
  length : Int32
  security : UInt8
  remoteType : UInt8
  remoteID : Int16
  localType : UInt8
  messageID : UInt32
  messageType : UInt8
  reqID : Int32
  sendTime : UInt64
  off : ℕ
  buf : ℕ → UInt8

/-- What the memory of a new packet has where `create_net_packet` writes nothing. -/
structure Memory where
  length : Int32 := 0
  buf : ℕ → UInt8 := fun _ => 0

def createNetPacket (mem : Memory) (messageID messageType : Int32) : SPacket where
  length := mem.length
  security := 0
  remoteType := 1
  remoteID := 1
  localType := 0
  messageID := messageID.toUInt32
  messageType := messageType.toUInt32.toUInt8
  reqID := 0
  sendTime := 0
  off := HEADER_LENGTH
  buf := mem.buf

/-! ### Numbers in network order -/

def hton16 (v : UInt16) : List UInt8 := leBytes 2 (htons v).toNat
def hton32 (v : UInt32) : List UInt8 := leBytes 4 (htonl v).toNat
def hton64 (v : UInt64) : List UInt8 := (leBytes 8 v.toNat).reverse

/-! ### The payload -/

namespace SPacket

/-- The bytes `l` are put behind what has been written. -/
def push (p : SPacket) (l : List UInt8) : Option SPacket :=
  if p.off + l.length ≤ BODY_LENGTH then
    some { p with buf := store p.buf p.off l, off := p.off + l.length }
  else none

def pushNetPacketInt8 (p : SPacket) (vl : UInt8) : Option SPacket := p.push [vl]
def pushNetPacketInt16 (p : SPacket) (vl : UInt16) : Option SPacket := p.push (hton16 vl)
def pushNetPacketInt32 (p : SPacket) (vl : UInt32) : Option SPacket := p.push (hton32 vl)
def pushNetPacketInt64 (p : SPacket) (vl : UInt64) : Option SPacket := p.push (hton64 vl)

def pushNetPacketStr (p : SPacket) (vl : List UInt8) : Option SPacket :=
  if 0 < vl.length then p.push vl else none

/-- `push_net_packet_end`: `hton16` and `hton32` also change the variable that they are given. -/
def pushNetPacketEnd (p : SPacket) : SPacket :=
  let len := Int32.ofInt (p.off - HEADER_LENGTH)
  let buf := store p.buf 0 (hton32 len.toUInt32)
  let buf := store buf 4 [p.security]
  let buf := store buf 5 [p.remoteType]
  let buf := store buf 6 (hton16 p.remoteID.toUInt16)
  let buf := store buf 8 [p.localType]
  let buf := store buf 9 (hton32 p.messageID)
  let buf := store buf 13 [p.messageType]
  let buf := store buf 14 (hton32 p.reqID.toUInt32)
  let buf := store buf 18 (hton32 p.sendTime.toUInt32)
  { p with
    length := len
    remoteID := htonsShort p.remoteID
    messageID := htonl p.messageID
    reqID := htonlInt p.reqID
    sendTime := (htonl p.sendTime.toUInt32).toUInt64
    buf := buf }

end SPacket

/-- A value of the payload. -/
inductive Push
  | int8 (vl : UInt8)
  | int16 (vl : UInt16)
  | int32 (vl : UInt32)
  | int64 (vl : UInt64)
  | str (vl : List UInt8)

def Push.run (p : SPacket) : Push → Option SPacket
  | int8 vl => p.pushNetPacketInt8 vl
  | int16 vl => p.pushNetPacketInt16 vl
  | int32 vl => p.pushNetPacketInt32 vl
  | int64 vl => p.pushNetPacketInt64 vl
  | str vl => p.pushNetPacketStr vl

/-! ### Whole packets -/

/-- The values that a header is written with. -/
structure Header where
  remoteType : UInt8 := 1
  remoteID : Int16 := 1
  messageID : Int32 := 0
  messageType : Int32 := 0
  reqID : Int32 := 0
  sendTime : UInt64 := 0

/-- A new packet with the fields of `h`. -/
def openNetPacket (mem : Memory) (h : Header) : SPacket :=
  { createNetPacket mem h.messageID h.messageType with
    remoteType := h.remoteType, remoteID := h.remoteID, reqID := h.reqID, sendTime := h.sendTime }

/-- The values are pushed, and the header is written. -/
def netPacket (mem : Memory) (h : Header) (l : List Push) : Option SPacket :=
  (l.foldlM Push.run (openNetPacket mem h)).map SPacket.pushNetPacketEnd

/-- The header as a server reads it. -/
def SPacket.readHeader (q : SPacket) : packetHeader :=
  (packetHeader.decode (slice q.buf 0 HEADER_LENGTH)).toBigEndian

/-! ### What the payload leaves -/

@[simp] theorem length_hton16 (v : UInt16) : (hton16 v).length = 2 := length_leBytes _ _

@[simp] theorem length_hton32 (v : UInt32) : (hton32 v).length = 4 := length_leBytes _ _

@[simp] theorem length_hton64 (v : UInt64) : (hton64 v).length = 8 := by simp [hton64]

def Push.bytes : Push → List UInt8
  | int8 vl => [vl]
  | int16 vl => hton16 vl
  | int32 vl => hton32 vl
  | int64 vl => hton64 vl
  | str vl => vl

def payload (l : List Push) : List UInt8 := l.flatMap Push.bytes

/-- The packet with the bytes `w` behind what has been written. -/
def SPacket.put (p : SPacket) (w : List UInt8) : SPacket :=
  { p with buf := store p.buf p.off w, off := p.off + w.length }

theorem put_put (p : SPacket) (w w' : List UInt8) : (p.put w).put w' = p.put (w ++ w') := by
  unfold SPacket.put
  rw [store_store_append, List.length_append, Nat.add_assoc]

theorem run_push {p q : SPacket} {x : Push} :
    x.run p = some q ↔
      x.bytes ≠ [] ∧ p.off + x.bytes.length ≤ BODY_LENGTH ∧ p.put x.bytes = q := by
  have hpush (w : List UInt8) :
      p.push w = some q ↔ p.off + w.length ≤ BODY_LENGTH ∧ p.put w = q := by
    unfold SPacket.push SPacket.put
    split_ifs with h
    · rw [Option.some.injEq, and_iff_right h]
    · simp [h]
  have hne {w : List UInt8} {n : ℕ} (h : w.length = n + 1) : w ≠ [] :=
    List.ne_nil_of_length_pos (by omega)
  cases x with
  | int8 vl => exact (hpush _).trans (and_iff_right (List.cons_ne_nil _ _)).symm
  | int16 vl => exact (hpush _).trans (and_iff_right (hne (length_hton16 vl))).symm
  | int32 vl => exact (hpush _).trans (and_iff_right (hne (length_hton32 vl))).symm
  | int64 vl => exact (hpush _).trans (and_iff_right (hne (length_hton64 vl))).symm
  | str vl =>
    change (if 0 < vl.length then p.push vl else none) = some q ↔ vl ≠ [] ∧ _ ∧ p.put vl = q
    split_ifs with h
    · exact (hpush vl).trans (and_iff_right (List.ne_nil_of_length_pos h)).symm
    · have hnil : vl = [] := List.length_eq_zero_iff.mp (by omega)
      simp [hnil]

theorem foldlM_run {p q : SPacket} {l : List Push} (hp : p.off ≤ BODY_LENGTH) :
    l.foldlM Push.run p = some q ↔
      (∀ x ∈ l, x.bytes ≠ []) ∧ p.off + (payload l).length ≤ BODY_LENGTH ∧
        p.put (payload l) = q := by
  induction l generalizing p with
  | nil =>
    have hput : p.put [] = p := by
      unfold SPacket.put
      rw [List.length_nil, Nat.add_zero]
      congr 1
      funext i
      exact store_of_disjoint (by rw [List.length_nil]; omega)
    simp [payload, hput, hp]
  | cons x l ih =>
    have hpay : payload (x :: l) = x.bytes ++ payload l := rfl
    rw [List.foldlM_cons, Option.bind_eq_bind, Option.bind_eq_some_iff, List.forall_mem_cons, hpay, List.length_append,
      ← put_put]
    constructor
    · rintro ⟨p', hx, hl⟩
      obtain ⟨hne, hfit, rfl⟩ := run_push.mp hx
      obtain ⟨hall, hfit', hq⟩ := (ih (p := p.put x.bytes) hfit).mp hl
      exact ⟨⟨hne, hall⟩, by rwa [← Nat.add_assoc], hq⟩
    · rintro ⟨⟨hne, hall⟩, hfit, hq⟩
      have hfit' : p.off + x.bytes.length ≤ BODY_LENGTH := by omega
      refine ⟨p.put x.bytes, run_push.mpr ⟨hne, hfit', rfl⟩, (ih (p := p.put x.bytes) hfit').mpr ?_⟩
      exact ⟨hall, by unfold SPacket.put; dsimp only; omega, hq⟩

/-- The values of a payload that `ASSERT` lets pass. -/
def Fits (l : List Push) : Prop :=
  (∀ x ∈ l, x.bytes ≠ []) ∧ HEADER_LENGTH + (payload l).length ≤ BODY_LENGTH

/-! ### The header -/

theorem store_next {α : Type*} {m : ℕ → α} {l l' : List α} {n : ℕ} (h : l.length = n) :
    store (store m 0 l) n l' = store m 0 (l ++ l') := by
  rw [← h, ← store_store_append, Nat.zero_add]

theorem leBytes_one (x : UInt8) : [x] = leBytes 1 x.toNat := by
  simp [leBytes]

/-- The 22 bytes that `push_net_packet_end` writes. -/
def SPacket.headBytes (p : SPacket) : List UInt8 :=
  hton32 (Int32.ofInt (p.off - HEADER_LENGTH)).toUInt32 ++ (leBytes 1 p.security.toNat
  ++ (leBytes 1 p.remoteType.toNat ++ (hton16 p.remoteID.toUInt16
  ++ (leBytes 1 p.localType.toNat ++ (hton32 p.messageID ++ (leBytes 1 p.messageType.toNat
  ++ (hton32 p.reqID.toUInt32 ++ hton32 p.sendTime.toUInt32)))))))

theorem length_headBytes (p : SPacket) : p.headBytes.length = 22 := by
  simp [SPacket.headBytes]

theorem buf_pushNetPacketEnd (p : SPacket) :
    p.pushNetPacketEnd.buf = store p.buf 0 p.headBytes := by
  unfold SPacket.pushNetPacketEnd SPacket.headBytes
  dsimp only
  simp only [leBytes_one]
  rw [store_next (by simp), store_next (by simp), store_next (by simp), store_next (by simp),
    store_next (by simp), store_next (by simp), store_next (by simp), store_next (by simp)]
  simp only [List.append_assoc]

/-- The header in front of `rest`, as a server of the same byte order reads it. -/
theorem decode_headBytes (p : SPacket) (rest : List UInt8) :
    packetHeader.decode (p.headBytes ++ rest) =
      { length := htonlInt (Int32.ofInt (p.off - HEADER_LENGTH))
        security := p.security.toNat != 0
        remoteType := p.remoteType
        remoteID := htonsShort p.remoteID
        localType := p.localType
        messageID := htonl p.messageID
        messageType := p.messageType
        reqID := htonlInt p.reqID
        sendTime := (packetHeader.decode (p.headBytes ++ rest)).sendTime } := by
  have h4 (x : UInt32) : x.toNat < 256 ^ 4 := by simpa using x.toNat_lt
  have h2 (x : UInt16) : x.toNat < 256 ^ 2 := by simpa using x.toNat_lt
  have h1 (x : UInt8) : x.toNat < 256 ^ 1 := by simpa using x.toNat_lt
  unfold SPacket.headBytes hton32 hton16
  simp (disch := first | apply h1 | apply h2 | apply h4 | omega) only [packetHeader.decode,
    List.append_assoc, field_skip, field_leBytes, Nat.reduceSub, UInt32.ofNat_toNat,
    UInt16.ofNat_toNat, UInt8.ofNat_toNat, htonlInt, htonsShort]

/-! ### What a server reads -/

variable {mem : Memory} {h : Header} {l : List Push} {q : SPacket}

theorem netPacket_some : netPacket mem h l = some q ↔
    Fits l ∧ ((openNetPacket mem h).put (payload l)).pushNetPacketEnd = q := by
  have hoff : (openNetPacket mem h).off = HEADER_LENGTH := rfl
  have hp : (openNetPacket mem h).off ≤ BODY_LENGTH := by rw [hoff]; decide
  unfold netPacket Fits
  rw [Option.map_eq_some_iff]
  constructor
  · rintro ⟨p, hrun, rfl⟩
    obtain ⟨hne, hfit, rfl⟩ := (foldlM_run hp).mp hrun
    exact ⟨⟨hne, hfit⟩, rfl⟩
  · rintro ⟨⟨hne, hfit⟩, rfl⟩
    exact ⟨_, (foldlM_run hp).mpr ⟨hne, hfit, rfl⟩, rfl⟩

/-- The bytes of a packet: the header, four bytes that nothing has written, and the payload. -/
theorem buf_netPacket (hq : netPacket mem h l = some q) :
    slice q.buf 0 HEADER_LENGTH =
      ((openNetPacket mem h).put (payload l)).headBytes ++ slice mem.buf 22 4 ∧
    slice q.buf HEADER_LENGTH (payload l).length = payload l ∧
    q.off = HEADER_LENGTH + (payload l).length := by
  obtain ⟨-, rfl⟩ := netPacket_some.mp hq
  have hlen := length_headBytes ((openNetPacket mem h).put (payload l))
  have hsame (m : ℕ → UInt8) := slice_store_same m 0 ((openNetPacket mem h).put (payload l)).headBytes
  rw [hlen] at hsame
  have hkept : slice ((openNetPacket mem h).put (payload l)).buf 22 4 = slice mem.buf 22 4 :=
    slice_store_of_disjoint (Or.inl (Nat.le_refl 26))
  refine ⟨?_, ?_, rfl⟩
  · rw [buf_pushNetPacketEnd, show HEADER_LENGTH = 22 + 4 from rfl, slice_add, Nat.zero_add, hsame,
      slice_store_of_disjoint (Or.inr (by omega)), hkept]
  · rw [buf_pushNetPacketEnd,
      slice_store_of_disjoint (Or.inr (by rw [hlen]; decide))]
    exact slice_store_same _ _ _

/-- The fields of a header that a server reads, but for the send time. -/
structure Recovered (h : Header) (l : List Push) (q : SPacket) : Prop where
  length : q.readHeader.length.toInt = (payload l).length
  payload : slice q.buf HEADER_LENGTH (payload l).length = payload l
  remoteType : q.readHeader.remoteType = h.remoteType
  remoteID : q.readHeader.remoteID = h.remoteID
  messageID : q.readHeader.messageID = h.messageID.toUInt32
  messageType : q.readHeader.messageType = h.messageType.toUInt32.toUInt8
  reqID : q.readHeader.reqID = h.reqID

/-- **What a server reads of a packet of the login service**, for any values and any payload. -/
theorem readHeader_netPacket (hq : netPacket mem h l = some q) : Recovered h l q := by
  obtain ⟨hbuf, hpay, -⟩ := buf_netPacket hq
  have hdec := decode_headBytes ((openNetPacket mem h).put (payload l)) (slice mem.buf 22 4)
  rw [← hbuf] at hdec
  have hswap : q.readHeader = (packetHeader.decode (slice q.buf 0 HEADER_LENGTH)).swap := by
    unfold SPacket.readHeader packetHeader.toBigEndian
    exact if_neg (by rw [hdec]; exact (by decide : ¬ (0 : UInt8) > 0))
  have hfit := (netPacket_some.mp hq).1.2
  have hlen : ((Int32.ofInt (((openNetPacket mem h).put (payload l)).off - HEADER_LENGTH)).toInt) =
      (payload l).length := by
    have hoff : ((((openNetPacket mem h).put (payload l)).off : ℤ) - HEADER_LENGTH) =
        (payload l).length := by
      rw [show ((openNetPacket mem h).put (payload l)).off =
        HEADER_LENGTH + (payload l).length from rfl]
      omega
    have hmax : HEADER_LENGTH + (payload l).length ≤ 10240 := hfit
    rw [hoff]
    exact Int32.toInt_ofInt_of_le (by omega) (by omega)
  rw [hdec] at hswap
  refine ⟨?_, hpay, ?_, ?_, ?_, ?_, ?_⟩
  · rw [hswap]
    unfold packetHeader.swap
    dsimp only
    rw [htonlInt_htonlInt, hlen]
  · rw [hswap]
    rfl
  · rw [hswap]
    exact htonsShort_htonsShort _
  · rw [hswap]
    exact htonl_htonl _
  · rw [hswap]
    rfl
  · rw [hswap]
    exact htonlInt_htonlInt _

/-- A header agrees with what servers read where it does so for any memory that the packet is given,
and no byte of it is what that memory had. -/
structure Agrees (h : Header) (l : List Push) : Prop where
  recovered : ∀ mem q, netPacket mem h l = some q → Recovered h l q
  sendTime : ∀ mem q, netPacket mem h l = some q → q.readHeader.sendTime = h.sendTime
  written : ∀ mem mem' q q', netPacket mem h l = some q → netPacket mem' h l = some q' →
    ∀ i < HEADER_LENGTH, q.buf i = q'.buf i

/-- **No header agrees**: the last four bytes of every one are not written. -/
theorem not_agrees (h : Header) {l : List Push} (hl : Fits l) : ¬ Agrees h l := by
  intro hagree
  have hbyte (mem : Memory) (q : SPacket) (hq : netPacket mem h l = some q) :
      q.buf 22 = mem.buf 22 := by
    obtain ⟨-, rfl⟩ := netPacket_some.mp hq
    rw [buf_pushNetPacketEnd, store_of_ge (by rw [length_headBytes])]
    exact store_of_lt (l := payload l) (show 22 < 26 by decide)
  have hzero : netPacket {} h l = some _ := netPacket_some.mpr ⟨hl, rfl⟩
  have hone : netPacket { buf := fun _ => 1 } h l = some _ := netPacket_some.mpr ⟨hl, rfl⟩
  have heq := hagree.written _ _ _ _ hzero hone 22 (by decide)
  rw [hbyte _ _ hzero, hbyte _ _ hone] at heq
  exact absurd heq (by decide)

/-! ### A login -/

def CONN_GATE_INFO : Int32 := 1000

/-- What `gate_service_call` writes for the player `charid`. -/
def gateServiceCall (charid : UInt64) (name : List UInt8) : Header × List Push :=
  ({ messageID := CONN_GATE_INFO, messageType := 2 },
    [.int64 charid, .int32 (UInt32.ofNat name.length), .str name])

/-- The player 7, whose name is `bob`. -/
def loginCall : Header × List Push := gateServiceCall 7 [98, 111, 98]

theorem not_agrees_login : ¬ Agrees loginCall.1 loginCall.2 :=
  not_agrees loginCall.1 ⟨by decide +kernel, by decide +kernel⟩

/-- In memory that is full of ones, a send time of zero is read as `2 ^ 32 - 1`. -/
theorem login_sendTime :
    loginCall.1.sendTime = 0 ∧
    (netPacket { buf := fun _ => 255 } loginCall.1 loginCall.2).map
      (fun q => q.readHeader.sendTime) = some 0xFFFFFFFF := by
  decide +kernel

end ChatShow.CSLoginService.NetPacket
