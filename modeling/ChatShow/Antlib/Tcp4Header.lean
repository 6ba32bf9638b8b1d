import ChatShow.Antlib.TcpMsglist
import ChatShow.Lib.Bytes
import Mathlib.Tactic.Ring

/-! # The header of a frame, and what it asks for

`create_tcpstream` adds the length of a header to sizes that are `size_t`s and puts the sum into an `int`,
and `tcpmsg_putout_range` hands a difference of `int`s to `memcpy`. Here `_parse_net_tcp4msg` is run call by
call with these conversions, and all that it asks for is kept: the block for a message with what is to be
held in it, and the copies with what has been received and the room there is. A length that the table does
not limit is used as it is (`run_safe_iff`). -/

namespace ChatShow.Antlib.Tcp4Header

open ChatShow.Lib.Cells ChatShow.Lib.Bytes ChatShow.Antlib.TcpMsglist

variable {tables : ℕ → Option TcpmsgTable} {block : ℕ → UInt8} {msg : HandlerMsg} {l head : List UInt8}
variable {len : ℤ} {n : ℕ}

/-! ### The message that is made -/

/-- The conversions to `size_t` and to `int`. -/
def asSizeT (x : ℤ) : ℤ := x % 2 ^ 64
def asInt (x : ℤ) : ℤ := x.bmod (2 ^ 32)

/-- The size that `create_tcpstream` asks for. -/
def streamSize (msglen : ℤ) (vlnum : ℕ) : ℤ :=
  if MSG_NORMAL_SIZE - sizeofTcpStream < asSizeT (asSizeT msglen + 8 * vlnum) then
    asInt (asSizeT (sizeofTcpStream + asSizeT msglen + 8 * vlnum))
  else MSG_NORMAL_SIZE

/-- `create_tcpstream`, whatever size it comes to. -/
def newTcpstream (block : ℕ → UInt8) (userid : UInt64) (msgid msglen : ℤ) (tb : TcpmsgTable)
    (vlnum : ℕ) (netid : UInt64) (ip : UInt32) : HandlerMsg where
  userid := userid
  msgid := msgid
  datalen := streamSize msglen vlnum
  data :=
    { tb := tb, vl := List.replicate vlnum 0, netid := netid, ip := ip, off := 0, len := msglen,
      buf := block }

/-- `tcpmsg_getbyid`, likewise. -/
def getbyid (tables : ℕ → Option TcpmsgTable) (block : ℕ → UInt8) (msgid msglen : ℤ)
    (userid netid : UInt64) (ip : UInt32) : Option HandlerMsg :=
  if msgid < 0 ∨ msgid > 65535 then none
  else
    match tables msgid.toNat with
    | none => none
    | some t =>
      if t.n > 0 ∧ (msglen < t.minSize ∨ msglen > t.maxSize) then none
      else some (newTcpstream block userid msgid msglen t t.n netid ip)

/-! ### What is asked for -/

/-- A block of `size` cells for a stream with `vlnum` values and a body of `len` bytes. -/
structure Block where
  size : ℤ
  len : ℤ
  vlnum : ℕ

/-- A copy of `size` of the bytes that have been received to the cell `off` of a block of `room` cells. -/
structure Copy where
  off : ℤ
  size : ℤ
  received : ℤ
  room : ℤ

/-- What comes of a call: the frame is rejected and the connection closed; more is waited for, for the header
or for the body of a message; or the message is with its handler. -/
inductive Outcome
  | rejected
  | waits (msg : Option HandlerMsg)
  | delivered (msg : HandlerMsg)

structure Call where
  blocks : List Block := []
  copies : List Copy := []
  outcome : Outcome

/-- The offset of `_buf` in a `tcp_stream`. -/
def bufOffset : ℤ := 52

/-- The copy of `tcpmsg_putout_range`. -/
def putoutCopies (msg : HandlerMsg) (addlen : ℤ) : List Copy :=
  let s := msg.data
  if s.len - s.off ≤ addlen then [⟨bufOffset + s.off, s.len - s.off, addlen, msg.datalen⟩]
  else if addlen > 0 then [⟨bufOffset + s.off, addlen, addlen, msg.datalen⟩]
  else []

/-- The part of `_parse_net_tcp4msg` that adds the bytes `l` to the body of a message. -/
def addBody (msg : HandlerMsg) (l : List UInt8) : Call :=
  if l = [] then { outcome := .waits (some msg) }
  else
    let (n, msg', _) := tcpmsgPutoutRange msg (some (cells l)) l.length
    { copies := putoutCopies msg l.length
      outcome :=
        if n ≥ 0 then .delivered msg' else if n = -2 then .rejected else .waits (some msg') }

/-- The numbers of a header. -/
def msglenOf (head : List UInt8) : ℤ := (UInt32.ofNat (field head 0 4)).toInt32.toInt
def msgidOf (head : List UInt8) : ℤ := (UInt32.ofNat (field head 9 4)).toInt32.toInt

/-- The part of `_parse_net_tcp4msg` for a header, with what is behind it. -/
def parseHead (tables : ℕ → Option TcpmsgTable) (block : ℕ → UInt8) (userid netid : UInt64) (ip : UInt32)
    (l : List UInt8) : Call :=
  if 26 > l.length then { outcome := .waits none }
  else
    match getbyid tables block (msgidOf l) (msglenOf l) userid netid ip with
    | none => { outcome := .rejected }
    | some msg =>
      let blocks : List Block := [⟨msg.datalen, msg.data.len, msg.data.vl.length⟩]
      if msglenOf l = 0 then
        let (n, msg', _) := tcpmsgPutoutRange msg none 0
        { blocks := blocks, outcome := if n = -2 then .rejected else .delivered msg' }
      else { addBody msg (l.drop 26) with blocks := blocks }

/-- `_parse_net_tcp4msg`, where the buffer has the bytes `l` from `TPD_MSGBEGIN` on. -/
def parse (tables : ℕ → Option TcpmsgTable) (block : ℕ → UInt8) (userid netid : UInt64) (ip : UInt32) :
    Option HandlerMsg → List UInt8 → Call
  | some msg, l => addBody msg l
  | none, l => parseHead tables block userid netid ip l

/-- The calls for a frame, each with the bytes that are there from `TPD_MSGBEGIN` on. -/
def run (tables : ℕ → Option TcpmsgTable) (block : ℕ → UInt8) (userid netid : UInt64) (ip : UInt32) :
    Option HandlerMsg → List (List UInt8) → Call
  | msg, [] => { outcome := .waits msg }
  | msg, l :: calls =>
    let c := parse tables block userid netid ip msg l
    match c.outcome with
    | .waits msg =>
      let r := run tables block userid netid ip msg calls
      { blocks := c.blocks ++ r.blocks, copies := c.copies ++ r.copies, outcome := r.outcome }
    | _ => c

/-- No length is negative and each block holds what it is for; no more is copied than has been received, to
where there is room; and a message that is waited for is not complete. -/
structure Call.Safe (c : Call) : Prop where
  blocks : ∀ b ∈ c.blocks, 0 ≤ b.len ∧ sizeofTcpStream + b.len + 8 * b.vlnum ≤ b.size
  copies : ∀ k ∈ c.copies, 0 ≤ k.size ∧ k.size ≤ k.received ∧ 0 ≤ k.off ∧ k.off + k.size ≤ k.room
  waits : ∀ msg, c.outcome = .waits (some msg) → msg.data.off < msg.data.len

/-- The header is one that the table takes: a table without fields takes any length. -/
def Taken (tables : ℕ → Option TcpmsgTable) (msgid msglen : ℤ) (t : TcpmsgTable) : Prop :=
  (0 ≤ msgid ∧ msgid ≤ 65535) ∧ tables msgid.toNat = some t ∧
    ¬ (t.n > 0 ∧ (msglen < t.minSize ∨ msglen > t.maxSize))

/-- A length with which the size of a stream is an `int`. -/
def Held (msglen : ℤ) (vlnum : ℕ) : Prop :=
  0 ≤ msglen ∧ sizeofTcpStream + msglen + 8 * vlnum ≤ 2147483647

/-- A header that is taken has such a length. -/
def Fits (tables : ℕ → Option TcpmsgTable) (head : List UInt8) : Prop :=
  ∀ t, Taken tables (msgidOf head) (msglenOf head) t → Held (msglenOf head) t.n

/-! ### The size of a stream -/

theorem streamSize_le (len : ℤ) (n : ℕ) : streamSize len n ≤ 2147483647 := by
  unfold streamSize
  split_ifs
  · unfold asInt
    have := Int.bmod_lt (x := asSizeT (sizeofTcpStream + asSizeT len + 8 * n)) (m := 2 ^ 32) (by decide)
    omega
  · decide

theorem streamSize_eq (h : Held len n) : streamSize len n =
    if MSG_NORMAL_SIZE - sizeofTcpStream < len + 8 * n then sizeofTcpStream + len + 8 * n
    else MSG_NORMAL_SIZE := by
  obtain ⟨hlen, hle⟩ := h
  have hsize : sizeofTcpStream = 56 := rfl
  have hlen64 : asSizeT len = len := Int.emod_eq_of_lt hlen (by omega)
  have hsum : asSizeT (len + 8 * n) = len + 8 * n := Int.emod_eq_of_lt (by omega) (by omega)
  have hall : asSizeT (sizeofTcpStream + len + 8 * n) = sizeofTcpStream + len + 8 * n :=
    Int.emod_eq_of_lt (by omega) (by omega)
  have hint : asInt (sizeofTcpStream + len + 8 * n) = sizeofTcpStream + len + 8 * n :=
    Int.bmod_eq_of_le_mul_two (by omega) (by omega)
  unfold streamSize
  rw [hlen64, hsum, hall, hint]

/-- **The size holds the stream where it is an `int`.** -/
theorem le_streamSize_iff :
    0 ≤ len ∧ sizeofTcpStream + len + 8 * n ≤ streamSize len n ↔ Held len n := by
  refine ⟨fun h => ⟨h.1, h.2.trans (streamSize_le len n)⟩, fun h => ⟨h.1, ?_⟩⟩
  have hsize : sizeofTcpStream = 56 := rfl
  have hnormal : MSG_NORMAL_SIZE = 8142 := rfl
  rw [streamSize_eq h]
  split_ifs with hlarge
  · exact le_rfl
  · omega

/-- There, and nowhere else, a stream without faults is made. -/
theorem createTcpstream_eq (userid : UInt64) (msgid : ℤ) (tb : TcpmsgTable) (netid : UInt64) (ip : UInt32) :
    (Held len n → createTcpstream block userid msgid len tb n netid ip =
      some (newTcpstream block userid msgid len tb n netid ip)) ∧
    (¬ Held len n → createTcpstream block userid msgid len tb n netid ip = none) := by
  unfold createTcpstream
  constructor
  · intro h
    have hle := h.2
    rw [if_neg (by have := h.1; omega), ← streamSize_eq h]
    rfl
  · intro h
    refine if_pos ?_
    unfold Held at h
    omega

/-! ### The message of a header -/

theorem getbyid_of_taken {msgid : ℤ} {t : TcpmsgTable} (h : Taken tables msgid len t)
    (userid netid : UInt64) (ip : UInt32) : getbyid tables block msgid len userid netid ip =
      some (newTcpstream block userid msgid len t t.n netid ip) := by
  obtain ⟨⟨hlow, hhigh⟩, ht, hlen⟩ := h
  unfold getbyid
  rw [if_neg (by omega), ht]
  exact if_neg hlen

theorem getbyid_none {msgid : ℤ} (h : ∀ t, ¬ Taken tables msgid len t) (userid netid : UInt64)
    (ip : UInt32) : getbyid tables block msgid len userid netid ip = none := by
  unfold getbyid
  split_ifs with hid
  · rfl
  cases ht : tables msgid.toNat with
  | none => rfl
  | some t =>
    refine if_pos (not_not.mp fun hlen => h t ⟨by omega, ht, hlen⟩)

/-! ### The body of a message -/

/-- A message of which some is there and some is not, in a block with room for all of it. -/
structure Filling (msg : HandlerMsg) : Prop where
  off : 0 ≤ msg.data.off
  part : msg.data.off < msg.data.len
  room : bufOffset + msg.data.len ≤ msg.datalen

/-- What is added to a message is there and has room, and a message that is not complete is as before. -/
theorem addBody_filling (h : Filling msg) (l : List UInt8) :
    (addBody msg l).Safe ∧ ∀ m, (addBody msg l).outcome = .waits m → ∃ msg', m = some msg' ∧ Filling msg' := by
  obtain ⟨hoff, hpart, hroom⟩ := h
  have hbuf : bufOffset = 52 := rfl
  unfold addBody
  split_ifs with hl
  · refine ⟨⟨List.forall_mem_nil _, List.forall_mem_nil _, ?_⟩, ?_⟩
    · rintro _ ⟨⟩
      exact hpart
    · rintro _ ⟨⟩
      exact ⟨msg, rfl, hoff, hpart, hroom⟩
  · have hpos := List.length_pos_iff.mpr hl
    unfold tcpmsgPutoutRange putoutCopies
    dsimp only
    by_cases hfull : msg.data.len - msg.data.off ≤ l.length
    · -- The rest of the body is there.
      rw [if_pos hfull, if_pos hfull]
      dsimp only
      rw [if_pos (by omega)]
      refine ⟨⟨List.forall_mem_nil _, ?_, ?_⟩, ?_⟩
      · intro k hk
        rw [List.mem_singleton.mp hk]
        dsimp only
        omega
      · rintro _ ⟨⟩
      · rintro _ ⟨⟩
    · have hsome : (l.length : ℤ) > 0 := by omega
      rw [if_neg hfull, if_neg hfull, if_pos hsome, if_pos hsome]
      dsimp only
      rw [if_neg (by decide), if_neg (by decide)]
      refine ⟨⟨List.forall_mem_nil _, ?_, ?_⟩, ?_⟩
      · intro k hk
        rw [List.mem_singleton.mp hk]
        dsimp only
        omega
      · rintro _ ⟨⟩
        dsimp only
        omega
      · rintro _ ⟨⟩
        exact ⟨_, rfl, by dsimp only; omega, by dsimp only; omega, hroom⟩

/-! ### The calls -/

variable (tables block) (userid netid : UInt64) (ip : UInt32)

/-- A call after which a message is being filled, and the calls behind it. -/
theorem safe_then {m : Option HandlerMsg} (hsafe : (parse tables block userid netid ip m l).Safe)
    (hwaits : ∀ m', (parse tables block userid netid ip m l).outcome = .waits m' →
      ∃ msg, m' = some msg ∧ Filling msg) {calls : List (List UInt8)}
    (hrest : ∀ msg, Filling msg → (run tables block userid netid ip (some msg) calls).Safe) :
    (run tables block userid netid ip m (l :: calls)).Safe := by
  unfold run
  dsimp only
  match hout : (parse tables block userid netid ip m l).outcome with
  | .rejected => exact hsafe
  | .delivered msg => exact hsafe
  | .waits m' =>
    obtain ⟨msg, rfl, hmsg⟩ := hwaits m' hout
    have hthen := hrest msg hmsg
    exact ⟨List.forall_mem_append.mpr ⟨hsafe.blocks, hthen.blocks⟩,
      List.forall_mem_append.mpr ⟨hsafe.copies, hthen.copies⟩, hthen.waits⟩

/-- The calls for a message that is being filled. -/
theorem run_filling (calls : List (List UInt8)) (msg : HandlerMsg) (h : Filling msg) :
    (run tables block userid netid ip (some msg) calls).Safe := by
  induction calls generalizing msg with
  | nil =>
    refine ⟨List.forall_mem_nil _, List.forall_mem_nil _, ?_⟩
    rintro _ ⟨⟩
    exact h.part
  | cons l calls ih =>
    obtain ⟨hsafe, hwaits⟩ := addBody_filling h l
    exact @safe_then tables block l userid netid ip (some msg) hsafe hwaits calls ih

/-- The block of the first call is among those of all calls. -/
theorem blocks_run (m : Option HandlerMsg) (l : List UInt8) (calls : List (List UInt8)) :
    ∀ b ∈ (parse tables block userid netid ip m l).blocks,
      b ∈ (run tables block userid netid ip m (l :: calls)).blocks := by
  intro b hb
  unfold run
  dsimp only
  match (parse tables block userid netid ip m l).outcome with
  | .rejected => exact hb
  | .delivered msg' => exact hb
  | .waits m' => exact List.mem_append_left _ hb

/-- A header that is not there yet is waited for. -/
theorem run_short (hl : 26 > l.length) (calls : List (List UInt8)) :
    run tables block userid netid ip none (l :: calls) = run tables block userid netid ip none calls := by
  have hparse : parse tables block userid netid ip none l = { outcome := .waits none } := if_pos hl
  conv_lhs => unfold run
  rw [hparse]
  rfl

/-- A header that is not taken is rejected. -/
theorem parseHead_rejected (hl : ¬ 26 > l.length) (h : ∀ t, ¬ Taken tables (msgidOf l) (msglenOf l) t) :
    parseHead tables block userid netid ip l = { outcome := .rejected } := by
  unfold parseHead
  rw [if_neg hl, getbyid_none h]

/-- A header that is taken asks for a block. -/
theorem blocks_parseHead (hl : ¬ 26 > l.length) {t : TcpmsgTable}
    (h : Taken tables (msgidOf l) (msglenOf l) t) :
    (parseHead tables block userid netid ip l).blocks =
      [⟨streamSize (msglenOf l) t.n, msglenOf l, t.n⟩] := by
  have hvl := List.length_replicate (n := t.n) (a := 0)
  unfold parseHead
  rw [if_neg hl, getbyid_of_taken h]
  dsimp only [newTcpstream]
  rw [hvl]
  split_ifs <;> rfl

/-- What a header asks for is there where its length fits, and then its message is being filled. -/
theorem parseHead_safe (hl : ¬ 26 > l.length) {t : TcpmsgTable}
    (h : Taken tables (msgidOf l) (msglenOf l) t) (hheld : Held (msglenOf l) t.n) :
    (parseHead tables block userid netid ip l).Safe ∧
      ∀ m, (parseHead tables block userid netid ip l).outcome = .waits m →
        ∃ msg, m = some msg ∧ Filling msg := by
  have hblock : ∀ b ∈ (parseHead tables block userid netid ip l).blocks,
      0 ≤ b.len ∧ sizeofTcpStream + b.len + 8 * b.vlnum ≤ b.size := by
    rw [blocks_parseHead tables block userid netid ip hl h]
    exact List.forall_mem_singleton.mpr (le_streamSize_iff.mpr hheld)
  revert hblock
  unfold parseHead
  rw [if_neg hl, getbyid_of_taken h]
  dsimp only
  split_ifs with hzero hret
  · exact fun hblock => ⟨⟨hblock, List.forall_mem_nil _, by rintro _ ⟨⟩⟩, by rintro _ ⟨⟩⟩
  · exact fun hblock => ⟨⟨hblock, List.forall_mem_nil _, by rintro _ ⟨⟩⟩, by rintro _ ⟨⟩⟩
  · intro hblock
    have hfill : Filling (newTcpstream block userid (msgidOf l) (msglenOf l) t t.n netid ip) := by
      have hle := (le_streamSize_iff.mpr hheld).2
      have hsize : sizeofTcpStream = 56 := rfl
      have hbuf : bufOffset = 52 := rfl
      have hpos := hheld.1
      refine ⟨le_rfl, ?_, ?_⟩
      · change 0 < msglenOf l
        omega
      · change bufOffset + msglenOf l ≤ streamSize (msglenOf l) t.n
        omega
    obtain ⟨hsafe, hwaits⟩ := addBody_filling hfill (l.drop 26)
    exact ⟨⟨hblock, hsafe.copies, hsafe.waits⟩, hwaits⟩

/-- **Which headers ask for nothing that is not there**: those whose length, where the table takes it, is not
negative and is an `int` with the rest of the stream. The first call in which a header is there decides. -/
theorem run_safe_iff (calls : List (List UInt8)) :
    (run tables block userid netid ip none calls).Safe ↔
      ∀ l ∈ calls.find? (fun l => 26 ≤ l.length), Fits tables l := by
  induction calls with
  | nil =>
    refine iff_of_true ⟨List.forall_mem_nil _, List.forall_mem_nil _, ?_⟩ fun l hl => by cases hl
    rintro _ ⟨⟩
  | cons l calls ih =>
    by_cases hl : 26 > l.length
    · have hfind : (l :: calls).find? (fun l => 26 ≤ l.length) = calls.find? (fun l => 26 ≤ l.length) :=
        List.find?_cons_of_neg (by rw [decide_eq_true_eq]; omega)
      rw [hfind, ← ih, run_short tables block userid netid ip hl]
    · have hfind : (l :: calls).find? (fun l => 26 ≤ l.length) = some l :=
        List.find?_cons_of_pos (decide_eq_true (by omega))
      rw [hfind]
      constructor
      · rintro hsafe _ ⟨⟩ t ht
        have hmem := blocks_run tables block userid netid ip none l calls
        have hblock : ⟨streamSize (msglenOf l) t.n, msglenOf l, t.n⟩ ∈
            (parse tables block userid netid ip none l).blocks := by
          change _ ∈ (parseHead tables block userid netid ip l).blocks
          rw [blocks_parseHead tables block userid netid ip hl ht]
          exact List.mem_singleton_self _
        exact le_streamSize_iff.mp (hsafe.blocks _ (hmem _ hblock))
      · intro hfits
        by_cases htaken : ∃ t, Taken tables (msgidOf l) (msglenOf l) t
        · obtain ⟨t, ht⟩ := htaken
          obtain ⟨hsafe, hwaits⟩ := parseHead_safe tables block userid netid ip hl ht (hfits l rfl t ht)
          exact @safe_then tables block l userid netid ip none hsafe hwaits calls
            (run_filling tables block userid netid ip calls)
        · have hparse : parse tables block userid netid ip none l = { outcome := .rejected } :=
            parseHead_rejected tables block userid netid ip hl (not_exists.mp htaken)
          unfold run
          rw [hparse]
          exact ⟨List.forall_mem_nil _, List.forall_mem_nil _, by rintro _ ⟨⟩⟩

/-- The message of the gate, which `init_netprotocol` registers without fields. -/
def CONN_GATE_INFO : ℕ := 1000

def gateTables : ℕ → Option TcpmsgTable := fun id => if id = CONN_GATE_INFO then some ⟨0, 0, 0⟩ else none

/-- A header of that message whose length is -1, and a byte behind it. -/
def negativeFrame : List UInt8 :=
  leBytes 4 0xFFFFFFFF ++ List.replicate 5 0 ++ leBytes 4 CONN_GATE_INFO ++ List.replicate 13 0 ++ [7]

theorem not_run_safe : ¬ (run gateTables (fun _ => 0) 0 0 0 none [negativeFrame]).Safe := by
  intro h
  have hcopies : (run gateTables (fun _ => 0) 0 0 0 none [negativeFrame]).copies = [⟨52, -1, 1, 55⟩] := rfl
  have hk := h.copies ⟨52, -1, 1, 55⟩ (by rw [hcopies]; exact List.mem_singleton_self _)
  exact absurd hk.1 (by decide)

end ChatShow.Antlib.Tcp4Header
