import ChatShow.Lib.Regions
import Mathlib.Data.Int.Notation
import Mathlib.Tactic.Common

/-! # The message a connection begins with

`tcp_cennectserver` keeps the bytes that are to be sent first behind a `tcp_connect_data`, in one
handler message; `tcp_connected` makes a message of their number and copies them. It copies as many
bytes as the whole of the first message has, though, which are `sizeof(struct tcp_connect_data)`
more than there are. They have room only where the new message is one of the cache pool, with all
the room of such a message (`tcp_connected_iff`). -/

namespace ChatShow.Antlib.TcpConnected

open ChatShow.Lib.Cells ChatShow.Lib.Regions

/-- `sizeof(struct tcp_connect_data)`, and the offset of its `_msg`. -/
def sizeofTcpConnectData : Int32 := 56
def msgOffset : ℕ := 48

def TCPLIB_SYSMSGID_CONNECT : Int32 := 1
def TCPCONNECT_MSGID : Int32 := 1
def TCPCONNECT_LOST_MSGID : Int32 := 2

/-! ### Messages -/

/-- `_g_handlermsg_chachepool`. -/
structure CachePool where
  size : Int32
  /-- `pop_squeue` has a cache. -/
  cached : Bool

/-- The bytes there are behind the head of the message that `create_handler_msg` makes; `none` where
its `_data` is `NULL`. A cache of the pool has the pool's size. -/
def createHandlerMsg (pool : Option CachePool) (size : Int32) : Option ℕ :=
  if size > 0 then
    match pool with
    | some p => if size ≤ p.size ∧ p.cached then some p.size.toInt.toNat else some size.toInt.toNat
    | none => some size.toInt.toNat
  else none

/-- A `tcp_connect_data`, with the cells from `_msg` on. -/
structure TcpConnectData where
  userId : UInt64
  userHandlerid : UInt32
  ip : UInt32
  port : Int32
  msglen : Int32
  msg : ℕ → UInt8

/-- A `handler_msg` with what its `_data` points to. -/
structure HandlerMsg (α : Type) where
  userid : UInt64
  msgid : Int32
  datalen : Int32
  data : α

/-! ### The two functions -/

/-- The copy in `tcp_cennectserver`, where there is so much room. -/
def copyMsg (room : ℕ) (found msg : ℕ → UInt8) (len : Int32) : Option (ℕ → UInt8) :=
  if len > 0 then Region.write ⟨0, room⟩ found 0 (slice msg 0 len.toInt.toNat) else some found

/-- The message of `tcp_cennectserver`, for a block that has had `found` in it. `none` is a failed
assertion or a write outside of the block. -/
def tcpCennectserver (pool : Option CachePool) (found : ℕ → UInt8) (ip : UInt32) (port : Int32)
    (msg : ℕ → UInt8)
    (len : Int32) (userid : UInt64) (handlerid : UInt32) : Option (HandlerMsg TcpConnectData) :=
  if len < 0 then none
  else
    let size := sizeofTcpConnectData + len
    match createHandlerMsg pool size with
    | none => none
    | some room =>
      if room < msgOffset then none
      else
        (copyMsg (room - msgOffset) found msg len).map fun cells =>
          { userid := 0, msgid := TCPLIB_SYSMSGID_CONNECT, datalen := size
            data := { userId := userid, userHandlerid := handlerid, ip := ip, port := port, msglen := len, msg := cells } }

/-- What `tcp_connected` does. -/
structure Connected where
  /-- the message for the user's handler -/
  sent : Option (UInt32 × HandlerMsg TcpConnectData) := none
  freed : Bool := false
  /-- the message for the send queue of the connection -/
  queued : Option (HandlerMsg (ℕ → UInt8)) := none

/-- The part of `tcp_connected` for a connection that is lost. -/
def connectLost (msg : HandlerMsg TcpConnectData) : Connected :=
  let data := msg.data
  if data.userHandlerid > 0 then
    { sent := some (data.userHandlerid, { msg with userid := data.userId, msgid := TCPCONNECT_LOST_MSGID }) }
  else { freed := true }

/-- The part for one that is made, with the id `id`; the message for its send queue is one that has
had `found` in it. -/
def connectMade (pool : Option CachePool) (found : HandlerMsg (ℕ → UInt8)) (id : UInt64)
    (msg : HandlerMsg TcpConnectData) : Option Connected :=
  let data := msg.data
  let room := (createHandlerMsg pool data.msglen).getD 0
  -- the third argument of `memcpy` is a `size_t`
  let n := (msg.datalen.toInt % 2 ^ 64).toNat
  (Region.write ⟨0, room⟩ found.data 0 (slice data.msg 0 n)).map fun cells =>
    { queued := some { found with userid := 0, datalen := data.msglen, data := cells }
      sent :=
        if data.userHandlerid > 0 then
          some (data.userHandlerid, { msg with userid := id, msgid := TCPCONNECT_MSGID })
        else none }

/-- `tcp_connected`. `none` is a failed assertion or a write outside of the message it makes. -/
def tcpConnected (pool : Option CachePool) (found : HandlerMsg (ℕ → UInt8)) (result : Int32)
    (id : UInt64)
    (msg : Option (HandlerMsg TcpConnectData)) : Option Connected :=
  if result = -1 then msg.map connectLost
  else
    match msg with
    | none => some {}
    | some msg => connectMade pool found id msg

/-- The bytes that are configured are the ones that are queued, and all writes stay inside. -/
def Copied (made : Option (HandlerMsg TcpConnectData)) (pool : Option CachePool)
    (found : HandlerMsg (ℕ → UInt8))
    (id : UInt64) (msg : ℕ → UInt8) (len : Int32) : Prop :=
  ∃ m r q, made = some m ∧ tcpConnected pool found 0 id (some m) = some r ∧ r.queued = some q ∧
    q.datalen = len ∧ slice q.data 0 len.toInt.toNat = slice msg 0 len.toInt.toNat

/-! ### What they do -/

variable {pool pool' : Option CachePool} {found : ℕ → UInt8} {found' : HandlerMsg (ℕ → UInt8)}
    {ip : UInt32}
variable {port : Int32} {msg : ℕ → UInt8} {len size : Int32} {userid id : UInt64} {handlerid : UInt32}

theorem createHandlerMsg_room {room : ℕ} (h : createHandlerMsg pool size = some room) :
    size.toInt.toNat ≤ room := by
  unfold createHandlerMsg at h
  split_ifs at h with hpos
  split at h
  · split_ifs at h with hp
    · have hle := Int32.le_iff_toInt_le.mp hp.1
      rw [← Option.some.inj h]
      omega
    · exact Nat.le_of_eq (Option.some.inj h)
  · exact Nat.le_of_eq (Option.some.inj h)

/-- Where there is more room than has been asked for. -/
theorem createHandlerMsg_more {n : ℕ} (hn : size.toInt.toNat < n) :
    n ≤ (createHandlerMsg pool size).getD 0 ↔
      size > 0 ∧ ∃ p, pool = some p ∧ p.cached = true ∧ (n : ℤ) ≤ p.size.toInt := by
  unfold createHandlerMsg
  by_cases hpos : size > 0
  · rw [if_pos hpos]
    have hint : 0 < size.toInt := Int32.lt_iff_toInt_lt.mp hpos
    cases pool with
    | none => exact iff_of_false (Nat.not_le.mpr hn) fun ⟨_, p, hp, _⟩ => by cases hp
    | some p =>
      dsimp only
      split_ifs with hp
      · refine ⟨fun h => ⟨hpos, p, rfl, hp.2, ?_⟩, fun ⟨_, p', he, _, hle⟩ => ?_⟩
        · rw [Option.getD_some] at h
          omega
        · obtain rfl : p = p' := Option.some.inj he
          rw [Option.getD_some]
          omega
      · refine iff_of_false (Nat.not_le.mpr hn) fun ⟨_, p', he, hcached, hle⟩ => hp ⟨?_, ?_⟩
        · obtain rfl : p = p' := Option.some.inj he
          exact Int32.le_iff_toInt_le.mpr (by omega)
        · obtain rfl : p = p' := Option.some.inj he
          exact hcached
  · rw [if_neg hpos]
    refine iff_of_false (fun h => ?_) fun h => hpos h.1
    rw [Option.getD_none] at h
    omega

/-- The size of the first message, as long as it is an `int`. -/
theorem toInt_size (h0 : 0 ≤ len.toInt) :
    (sizeofTcpConnectData + len > 0 ↔ 56 + len.toInt < 2 ^ 31) ∧
      (56 + len.toInt < 2 ^ 31 → (sizeofTcpConnectData + len).toInt = 56 + len.toInt) := by
  have hlt := len.toInt_lt
  have hsum : (sizeofTcpConnectData + len).toInt = (56 + len.toInt).bmod (2 ^ 32) :=
    Int32.toInt_add ..
  have hpos : sizeofTcpConnectData + len > 0 ↔ 0 < (sizeofTcpConnectData + len).toInt :=
    Int32.lt_iff_toInt_lt
  rw [hpos, hsum, Int.bmod_def]
  omega

theorem createHandlerMsg_isSome (pool : Option CachePool) (h : size > 0) :
    ∃ room, createHandlerMsg pool size = some room := by
  unfold createHandlerMsg
  rw [if_pos h]
  split
  · split_ifs
    · exact ⟨_, rfl⟩
    · exact ⟨_, rfl⟩
  · exact ⟨_, rfl⟩

theorem createHandlerMsg_pos {room : ℕ} (h : createHandlerMsg pool size = some room) : size > 0 := by
  unfold createHandlerMsg at h
  split_ifs at h with hpos
  exact hpos

theorem not_neg_iff : ¬ len < 0 ↔ 0 ≤ len.toInt := by
  rw [Int32.lt_iff_toInt_lt, show (0 : Int32).toInt = 0 by rfl, not_lt]

theorem copyMsg_of_le (found msg : ℕ → UInt8) {room : ℕ} (h : len.toInt.toNat ≤ room) :
    ∃ cells, copyMsg room found msg len = some cells ∧
      slice cells 0 len.toInt.toNat = slice msg 0 len.toInt.toNat := by
  unfold copyMsg
  split_ifs with hlen
  · have hsame := slice_store_same found 0 (slice msg 0 len.toInt.toNat)
    rw [length_slice] at hsame
    exact ⟨_, Region.write_of_has (Region.has_zero_iff.mpr (by rw [length_slice]; omega)), hsame⟩
  · have hle : len.toInt ≤ 0 := not_lt.mp fun hlt => hlen (Int32.lt_iff_toInt_lt.mpr hlt)
    rw [show len.toInt.toNat = 0 by omega]
    exact ⟨found, rfl, rfl⟩

/-- The message that is made where it is: it has the bytes that are configured, and
`sizeof(struct tcp_connect_data)` for its own. -/
theorem exists_made (pool : Option CachePool) (found : ℕ → UInt8) (ip : UInt32) (port : Int32)
    (msg : ℕ → UInt8)
    (userid : UInt64) (handlerid : UInt32) (h0 : 0 ≤ len.toInt) (h : 56 + len.toInt < 2 ^ 31) :
    ∃ m, tcpCennectserver pool found ip port msg len userid handlerid = some m ∧
      m.datalen.toInt = 56 + len.toInt ∧ m.data.msglen = len ∧
      slice m.data.msg 0 len.toInt.toNat = slice msg 0 len.toInt.toNat := by
  obtain ⟨hpos, hsize⟩ := toInt_size h0
  obtain ⟨room, hroom⟩ := createHandlerMsg_isSome pool (hpos.mpr h)
  have hle := createHandlerMsg_room hroom
  rw [hsize h] at hle
  have hcopy : len.toInt.toNat ≤ room - msgOffset := by unfold msgOffset; omega
  obtain ⟨cells, hcells, hsame⟩ := copyMsg_of_le found msg hcopy
  have hhead : ¬ room < msgOffset := by unfold msgOffset; omega
  refine ⟨⟨0, TCPLIB_SYSMSGID_CONNECT, sizeofTcpConnectData + len, userid, handlerid, ip, port,
    len, cells⟩, ?_, hsize h,
    rfl, hsame⟩
  unfold tcpCennectserver
  rw [if_neg (not_neg_iff.mpr h0)]
  dsimp only
  rw [hroom]
  dsimp only
  rw [if_neg hhead, hcells]
  rfl

/-- There is no message for a length that is negative or too large. -/
theorem fits_of_made {m : HandlerMsg TcpConnectData}
    (h : tcpCennectserver pool found ip port msg len userid handlerid = some m) :
    0 ≤ len.toInt ∧ 56 + len.toInt < 2 ^ 31 := by
  unfold tcpCennectserver at h
  by_cases hneg : len < 0
  · rw [if_pos hneg] at h
    cases h
  · have h0 := not_neg_iff.mp hneg
    rw [if_neg hneg] at h
    dsimp only at h
    split at h
    · cases h
    · rename_i room hroom
      exact ⟨h0, (toInt_size h0).1.mp (createHandlerMsg_pos hroom)⟩

/-- The first bytes of what has been written. -/
theorem slice_store_take (found : ℕ → UInt8) {l : List UInt8} {k : ℕ} (h : k ≤ l.length) :
    slice (store found 0 l) 0 k = l.take k := by
  have htake := take_slice (store found 0 l) 0 l.length k
  rw [slice_store_same, Nat.min_eq_left h] at htake
  exact htake.symm

/-- The copy of `tcp_connected` is of as many bytes as the whole of the first message has. -/
theorem copied_iff {m : HandlerMsg TcpConnectData} (h0 : 0 ≤ len.toInt)
    (hm : m.datalen.toInt = 56 + len.toInt)
    (hlen : m.data.msglen = len)
    (hsame : slice m.data.msg 0 len.toInt.toNat = slice msg 0 len.toInt.toNat) :
    Copied (some m) pool' found' id msg len ↔
    56 + len.toInt.toNat ≤ (createHandlerMsg pool' len).getD 0 := by
  have hlt := len.toInt_lt
  have hn : (m.datalen.toInt % 2 ^ 64).toNat = 56 + len.toInt.toNat := by
    rw [hm]
    omega
  have hhas :
      Region.Has ⟨0, (createHandlerMsg pool' len).getD 0⟩ 0
        (slice m.data.msg 0 (56 + len.toInt.toNat)).length ↔
      56 + len.toInt.toNat ≤ (createHandlerMsg pool' len).getD 0 := by
    rw [length_slice, Region.has_zero_iff, Nat.zero_add]
  have hconn : tcpConnected pool' found' 0 id (some m) = connectMade pool' found' id m :=
    if_neg (by decide)
  unfold Copied
  constructor
  · rintro ⟨m', r, q, he, hr, -⟩
    obtain rfl : m = m' := Option.some.inj he
    by_contra hroom
    rw [hconn] at hr
    unfold connectMade at hr
    dsimp only at hr
    rw [hn, hlen, Region.write_none (mt hhas.mp hroom)] at hr
    cases hr
  · intro hroom
    obtain ⟨r, hr, hq⟩ : ∃ r, connectMade pool' found' id m = some r ∧
        r.queued = some ⟨0, found'.msgid, len,
          store found'.data 0 (slice m.data.msg 0 (56 + len.toInt.toNat))⟩ := by
      unfold connectMade
      dsimp only
      rw [hn, hlen, Region.write_of_has (hhas.mpr hroom)]
      exact ⟨_, rfl, rfl⟩
    refine ⟨m, r, _, rfl, hconn.trans hr, hq, rfl, ?_⟩
    rw [slice_store_take _ (by rw [length_slice]; omega), take_slice, Nat.min_eq_left (by omega),
      hsame]

/-- **When the bytes that are configured are queued for sending.** -/
theorem tcp_connected_iff (pool : Option CachePool) (found : ℕ → UInt8) (ip : UInt32)
    (port : Int32) (msg : ℕ → UInt8)
    (len : Int32) (userid : UInt64) (handlerid : UInt32) (pool' : Option CachePool)
    (found' : HandlerMsg (ℕ → UInt8)) (id : UInt64) :
    Copied (tcpCennectserver pool found ip port msg len userid handlerid) pool' found' id msg len ↔
      len > 0 ∧ ∃ p, pool' = some p ∧ p.cached = true ∧ 56 + len.toInt ≤ p.size.toInt := by
  by_cases hfits : 0 ≤ len.toInt ∧ 56 + len.toInt < 2 ^ 31
  · obtain ⟨h0, hlt⟩ := hfits
    obtain ⟨m, hmade, hm, hlen, hsame⟩ := exists_made pool found ip port msg userid handlerid h0 hlt
    have hcast : ((56 + len.toInt.toNat : ℕ) : ℤ) = 56 + len.toInt := by omega
    rw [hmade, copied_iff h0 hm hlen hsame, createHandlerMsg_more (by omega), hcast]
  · refine iff_of_false (fun ⟨m, _, _, hmade, _⟩ => hfits (fits_of_made hmade))
      fun ⟨hpos, p, _, _, hle⟩ => hfits ?_
    have h0 : 0 < len.toInt := Int32.lt_iff_toInt_lt.mp hpos
    have := p.size.toInt_lt
    omega

/-- Five bytes are configured, and the pool has no cache. -/
theorem not_copied :
    ¬ Copied (tcpCennectserver (some ⟨8142, false⟩) (fun _ => 0) 0x7f000001 8000 (fun _ => 104) 5 1 1)
      (some ⟨8142, false⟩) ⟨0, 0, 0, fun _ => 0⟩ 1 (fun _ => 104) 5 := by
  obtain ⟨m, hmade, hm, hlen, hsame⟩ := exists_made (some ⟨8142, false⟩)
      (fun _ => 0) 0x7f000001 8000 (fun _ => 104) 1 1
    (by decide : 0 ≤ (5 : Int32).toInt) (by decide)
  rw [hmade, copied_iff (by decide) hm hlen hsame]
  decide

end ChatShow.Antlib.TcpConnected
