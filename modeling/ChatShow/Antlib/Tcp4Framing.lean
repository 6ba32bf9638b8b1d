import ChatShow.Antlib.TcpProtocol4
import ChatShow.Lib.Framing
import Mathlib.Data.List.Forall2

/-! # When `tcp4` finds every message

Between two reads the connection is `Ready`: it holds the bytes of an incomplete header at the front
of its buffer, or the message whose body it is filling and an empty buffer. A read keeps it so, and
calls the handlers with the messages of the frames it completes, if it leaves the buffer short of
full and, where it ends inside a header, took nothing off the buffer before that header
(`readed_spec`); and the first read of a call of `tcpconnection_recv`, which goes to the front of the
buffer whatever is held there, must not come in the middle of a header. -/

namespace ChatShow.Antlib.Tcp4Framing

open ChatShow.Lib.Cells ChatShow.Lib.Bytes ChatShow.Lib.Framing
open ChatShow.Antlib.TcpMsglist ChatShow.Antlib.TcpProtocol4
open ChatShow.Antlib.TcpProtocol4.TcpConnection

/-! ### Frames -/

/-- A frame: the 26 bytes of its header, and its body. -/
structure Frame where
  head : List UInt8
  body : List UInt8
  length_head : head.length = 26

namespace Frame

def bytes (f : Frame) : List UInt8 := f.head ++ f.body

def size (f : Frame) : ℕ := 26 + f.body.length

/-- The message id, from the byte 9 of the header on. -/
def msgid (f : Frame) : ℕ := field f.head 9 4

@[simp] theorem length_bytes (f : Frame) : f.bytes.length = f.size := by
  rw [bytes, List.length_append, f.length_head, size]

end Frame

/-- A frame for a registered table: its header announces its body, whose length the table admits and
for which a message can be made. -/
structure WellFormed (tables : ℕ → Option TcpmsgTable) (f : Frame) : Prop where
  length : field f.head 0 4 = f.body.length
  msgid : f.msgid ≤ 65535
  table : ∃ t, tables f.msgid = some t ∧
    (t.n > 0 → t.minSize ≤ f.body.length ∧ (f.body.length : ℤ) ≤ t.maxSize) ∧
    56 + f.body.length + 8 * t.n < 2147483648

/-! ### Messages -/

/-- Whom the messages of a connection are from. -/
structure Who where
  userid : UInt64
  netid : UInt64
  ip : UInt32

def who (c : TcpConnection) : Who := ⟨c.userid, c.id, c.ip⟩

/-- `m` is the message of the frame `f`, with the first `k` bytes of its body, and `off` is where
its stream stands. -/
structure Holds (tables : ℕ → Option TcpmsgTable) (u : Who) (f : Frame) (k : ℕ) (off : ℤ)
    (m : HandlerMsg) : Prop where
  msgid : m.msgid = f.msgid
  userid : m.userid = u.userid
  netid : m.data.netid = u.netid
  ip : m.data.ip = u.ip
  tb : tables f.msgid = some m.data.tb
  len : m.data.len = f.body.length
  off : m.data.off = off
  body : slice m.data.buf 0 k = f.body.take k

/-- `m` is the whole message of the frame `f`, as a handler gets it. -/
def Carries (tables : ℕ → Option TcpmsgTable) (u : Who) (f : Frame) (m : HandlerMsg) : Prop :=
  Holds tables u f f.body.length 0 m

/-- `m` is being filled, and has the first `k` bytes. -/
def Filled (tables : ℕ → Option TcpmsgTable) (u : Who) (f : Frame) (k : ℕ) (m : HandlerMsg) :
    Prop :=
  Holds tables u f k k m

variable {env : Env}

theorem toInt_ofNat {n : ℕ} (h : n < 2147483648) : (UInt32.ofNat n).toInt32.toInt = n := by
  rw [UInt32.toInt32_ofNat', Int32.toInt_ofNat_of_lt h]

/-- The table of a well-formed frame makes a message for it. -/
theorem getbyid_spec {f : Frame} (hf : WellFormed env.tables f) (c : TcpConnection)
    (block : ℕ → UInt8) :
    ∃ m, tcpmsgGetbyid env.tables block f.msgid f.body.length c.userid c.id c.ip = some (some m) ∧
      Filled env.tables (who c) f 0 m := by
  obtain ⟨-, hid, t, ht, hadm, hfit⟩ := hf
  unfold tcpmsgGetbyid createTcpstream sizeofTcpStream
  rw [if_neg (by omega), Int.toNat_natCast, ht]
  dsimp only
  rw [if_neg (by rintro ⟨h1, h2⟩; have := hadm h1; omega), if_neg (by omega)]
  exact ⟨_, rfl, rfl, rfl, rfl, rfl, ht, rfl, rfl, rfl⟩

/-- A frame without a body is handed to its handler at once. -/
theorem putout_null {u : Who} {f : Frame} {m : HandlerMsg} (hm : Filled env.tables u f 0 m)
    (hb : f.body.length = 0) :
    ∃ m', tcpmsgPutoutRange m none 0 = (0, m', true) ∧ Carries env.tables u f m' := by
  obtain ⟨h1, h2, h3, h4, h5, h6, h7, h8⟩ := hm
  have hnil : f.body = [] := List.length_eq_zero_iff.mp hb
  unfold tcpmsgPutoutRange
  dsimp only
  rw [if_pos (by rw [h6, h7, hb]; simp)]
  exact ⟨_, rfl, h1, h2, h3, h4, h5, h6, rfl, by rw [hb, slice_zero, hnil]; rfl⟩

/-- The bytes of a window join the body of the message. -/
theorem slice_fill {m : ℕ → UInt8} {body w rest : List UInt8} {k : ℕ}
    (hbody : slice m 0 k = body.take k) (hw : w ++ rest = body.drop k) :
    slice (store m k w) 0 (k + w.length) = body.take (k + w.length) := by
  have h := slice_store_append m 0 k w
  rw [Nat.zero_add] at h
  have htake : w = (body.drop k).take w.length := by rw [← hw, List.take_left]
  rw [h, hbody, List.take_add, ← htake]

/-- Fewer bytes than are missing stay with the message. -/
theorem putout_part {u : Who} {f : Frame} {k : ℕ} {m : HandlerMsg}
    (hm : Filled env.tables u f k m) {a : ℕ → UInt8} {w rest : List UInt8}
    (hw : slice a 0 w.length = w) (hstream : w ++ rest = f.body.drop k)
    (hk : k + w.length < f.body.length) (hpos : 0 < w.length) :
    ∃ m', tcpmsgPutoutRange m (some a) w.length = (-1, m', false) ∧
      Filled env.tables u f (k + w.length) m' := by
  obtain ⟨h1, h2, h3, h4, h5, h6, h7, h8⟩ := hm
  unfold tcpmsgPutoutRange
  dsimp only
  rw [if_neg (by omega), if_pos (by omega), Option.getD_some, Int.toNat_natCast, hw]
  refine ⟨_, rfl, h1, h2, h3, h4, h5, h6, ?_, ?_⟩
  · dsimp only
    rw [h7, Nat.cast_add]
  · dsimp only
    rw [h7, Int.toNat_natCast]
    exact slice_fill h8 hstream

/-- All bytes that are missing, or more, make the message whole. -/
theorem putout_whole {u : Who} {f : Frame} {k : ℕ} {m : HandlerMsg}
    (hm : Filled env.tables u f k m) {a : ℕ → UInt8} {w rest : List UInt8}
    (hw : slice a 0 w.length = w) (hstream : w = f.body.drop k ++ rest)
    (hk : k ≤ f.body.length) :
    ∃ m', tcpmsgPutoutRange m (some a) w.length = (((f.body.length - k : ℕ) : ℤ), m', true) ∧
      Carries env.tables u f m' := by
  obtain ⟨h1, h2, h3, h4, h5, h6, h7, h8⟩ := hm
  have hwl : w.length = f.body.length - k + rest.length := by
    rw [hstream, List.length_append, List.length_drop]
  have hpart : slice a 0 (f.body.length - k) = f.body.drop k := by
    have ht := congrArg (List.take (f.body.length - k)) (hw.trans hstream)
    rwa [take_slice, Nat.min_eq_left (by omega), List.take_append_of_le_length
      (by rw [List.length_drop]), List.take_of_length_le (by rw [List.length_drop])] at ht
  have hn : m.data.len - m.data.off = (f.body.length - k : ℕ) := by rw [h6, h7]; omega
  have hfill := @slice_fill _ _ _ [] _ h8 (List.append_nil (f.body.drop k))
  rw [List.length_drop, Nat.add_sub_cancel' hk] at hfill
  unfold tcpmsgPutoutRange
  dsimp only
  rw [hn, if_pos (by omega), Int.toNat_natCast, hpart]
  refine ⟨_, rfl, h1, h2, h3, h4, h5, h6, rfl, ?_⟩
  dsimp only
  rw [h7, Int.toNat_natCast]
  exact hfill

variable (env) in
/-- A body to which the window gives less than is missing. -/
theorem addBody_part {c : TcpConnection} {f : Frame} {k : ℕ} {m : HandlerMsg}
    (hm : Filled env.tables (who c) f k m) (hc : c.msg = some m) {w r : List UInt8}
    (hlen : c.msgbegin + w.length = c.offset) (hw : slice c.buf c.msgbegin w.length = w)
    (hbuf : c.offset ≤ TCPCONNECTION_BUFLEN) (hstream : w ++ r = f.body.drop k)
    (hk : k + w.length < f.body.length) :
    ∃ m', c.addBody m = some (-1, { c with msg := some m', msgbegin := c.offset }) ∧
      Filled env.tables (who c) f (k + w.length) m' := by
  unfold addBody
  by_cases hw0 : w.length = 0
  · have he : c.msgbegin = c.offset := by omega
    have hsame : c = { c with msg := some m, msgbegin := c.offset } := by
      cases c
      dsimp only at hc he
      rw [hc, he]
    rw [if_neg (by omega), hw0, Nat.add_zero]
    exact ⟨m, congrArg (fun x => some (-1, x)) hsame, hm⟩
  · have hcast : ((c.offset : ℤ) - c.msgbegin) = (w.length : ℕ) := by omega
    obtain ⟨m', hput, hm'⟩ := putout_part hm (a := shift c.buf c.msgbegin)
      (by rw [slice_shift, Nat.add_zero, hw]) hstream hk (by omega)
    rw [if_pos (by omega), if_neg (by omega), hcast, hput]
    exact ⟨m', rfl, hm'⟩

variable (env) in
/-- A body that the window completes. -/
theorem addBody_whole {c : TcpConnection} {f : Frame} {k : ℕ} {m : HandlerMsg}
    (hm : Filled env.tables (who c) f k m) {w r : List UInt8}
    (hlen : c.msgbegin + w.length = c.offset) (hw : slice c.buf c.msgbegin w.length = w)
    (hbuf : c.offset ≤ TCPCONNECTION_BUFLEN) (hstream : w = f.body.drop k ++ r)
    (hk : k < f.body.length) :
    ∃ m', c.addBody m = some (0, { c with
        msg := none, msgbegin := c.msgbegin + (f.body.length - k), done := c.done ++ [m'] }) ∧
      Carries env.tables (who c) f m' := by
  have hwl : w.length = f.body.length - k + r.length := by
    rw [hstream, List.length_append, List.length_drop]
  have hcast : ((c.offset : ℤ) - c.msgbegin) = (w.length : ℕ) := by omega
  obtain ⟨m', hput, hm'⟩ := putout_whole hm (a := shift c.buf c.msgbegin)
    (by rw [slice_shift, Nat.add_zero, hw]) hstream hk.le
  unfold addBody
  rw [if_pos (by omega), if_neg (by omega), hcast, hput]
  dsimp only
  rw [if_pos (by omega), if_pos rfl, Int.toNat_natCast]
  exact ⟨m', rfl, hm'⟩

/-! ### The loop of the parser -/

/-- The bytes of a header that are held. -/
def headHeld (h : ℕ) : ℕ := if h < 26 then h else 0

/-- What the parser keeps of the first of the frames `fs`, of which `h` bytes have been seen. -/
def Pending (tables : ℕ → Option TcpmsgTable) (u : Who) (fs : List Frame) (h : ℕ)
    (msg : Option HandlerMsg) : Prop :=
  if h < 26 then msg = none
  else ∃ f fs' m, fs = f :: fs' ∧ msg = some m ∧ Filled tables u f (h - 26) m

/-- A window that has a whole header: the message is made, and the body follows. -/
theorem parse_header {c : TcpConnection} {f : Frame} (hf : WellFormed env.tables f)
    (hmsg : c.msg = none) {v : List UInt8} (hlen : c.msgbegin + (26 + v.length) = c.offset)
    (hw : slice c.buf c.msgbegin (26 + v.length) = f.head ++ v)
    (hbuf : c.offset ≤ TCPCONNECTION_BUFLEN) :
    ∃ m, Filled env.tables (who c) f 0 m ∧ c.parseNetTcp4msg env =
      if f.body.length = 0 then
        some (0, { c with
          msgbegin := c.msgbegin + 26
          allocs := c.allocs + 1
          done := c.done ++ [(tcpmsgPutoutRange m none 0).2.1] })
      else { c with
        msgbegin := c.msgbegin + 26, allocs := c.allocs + 1, msg := some m }.addBody m := by
  obtain ⟨m, hget, hm⟩ := getbyid_spec hf c (env.malloc c.allocs)
  obtain ⟨hflen, hid, t, -, -, hfit⟩ := hf
  have hhead : slice c.buf c.msgbegin 26 = f.head := by
    rw [slice_add] at hw
    exact (List.append_inj hw (by rw [length_slice, f.length_head])).1
  have h1 : (UInt32.ofNat (field f.head 0 4)).toInt32.toInt = f.body.length := by
    rw [hflen, toInt_ofNat (by omega)]
  have h2 : (UInt32.ofNat (field f.head 9 4)).toInt32.toInt = f.msgid := by
    rw [← Frame.msgid, toInt_ofNat (by omega)]
  have h0 : UInt32.ofNat (field f.head 0 4) = 0 ↔ f.body.length = 0 := by
    rw [hflen, ← UInt32.toNat_inj, UInt32.toNat_ofNat_of_lt'
      (by rw [show UInt32.size = 4294967296 from rfl]; omega)]
    rfl
  refine ⟨m, hm, ?_⟩
  unfold parseNetTcp4msg
  rw [hmsg]
  dsimp only
  rw [if_neg (by omega), if_neg (by omega), hhead, h1, h2, hget]
  dsimp only
  by_cases hb : f.body.length = 0
  · obtain ⟨m', hput, -⟩ := putout_null hm hb
    rw [if_pos (h0.mpr hb), if_pos hb, hput]
    rfl
  · rw [if_neg (fun h => hb (h0.mp h)), if_neg hb]

/-- A window that has a whole frame: its handler is called. -/
theorem parse_whole {c : TcpConnection} {f : Frame} (hf : WellFormed env.tables f)
    (hmsg : c.msg = none) {v : List UInt8} (hlen : c.msgbegin + (f.size + v.length) = c.offset)
    (hw : slice c.buf c.msgbegin (f.size + v.length) = f.bytes ++ v)
    (hbuf : c.offset ≤ TCPCONNECTION_BUFLEN) :
    ∃ m, c.parseNetTcp4msg env = some (0, { c with
        msg := none
        msgbegin := c.msgbegin + f.size
        allocs := c.allocs + 1
        done := c.done ++ [m] }) ∧
      Carries env.tables (who c) f m := by
  have hsz : f.size + v.length = 26 + (f.body ++ v).length := by
    rw [Frame.size, List.length_append, Nat.add_assoc]
  rw [hsz] at hlen hw
  rw [Frame.bytes, List.append_assoc] at hw
  obtain ⟨m, hm, hparse⟩ := parse_header hf hmsg hlen hw hbuf
  rw [hparse]
  by_cases hb : f.body.length = 0
  · obtain ⟨m', hput, hm'⟩ := putout_null hm hb
    rw [if_pos hb, hput, Frame.size, hb, Nat.add_zero, ← hmsg]
    exact ⟨m', rfl, hm'⟩
  · have hbody : slice c.buf (c.msgbegin + 26) (f.body ++ v).length = f.body ++ v := by
      rw [slice_add] at hw
      exact (List.append_inj hw (by rw [length_slice, f.length_head])).2
    obtain ⟨m', hadd, hm'⟩ := addBody_whole env (c := { c with
      msgbegin := c.msgbegin + 26, allocs := c.allocs + 1, msg := some m }) (k := 0) (r := v)
      hm (by dsimp only; omega) hbody hbuf (by rw [List.drop_zero]) (by omega)
    rw [if_neg hb, hadd, Frame.size]
    exact ⟨m', by rw [Nat.sub_zero, Nat.add_assoc], hm'⟩

/-- A window that has the header, but not all of the body. -/
theorem parse_part {c : TcpConnection} {f : Frame} (hf : WellFormed env.tables f)
    (hmsg : c.msg = none) {v rest : List UInt8} (hlen : c.msgbegin + (26 + v.length) = c.offset)
    (hw : slice c.buf c.msgbegin (26 + v.length) = f.head ++ v)
    (hbuf : c.offset ≤ TCPCONNECTION_BUFLEN) (hv : v ++ rest = f.body)
    (hlt : v.length < f.body.length) :
    ∃ m, c.parseNetTcp4msg env = some (-1, { c with
        msg := some m, msgbegin := c.offset, allocs := c.allocs + 1 }) ∧
      Filled env.tables (who c) f v.length m := by
  obtain ⟨m, hm, hparse⟩ := parse_header hf hmsg hlen hw hbuf
  have hbody : slice c.buf (c.msgbegin + 26) v.length = v := by
    rw [slice_add] at hw
    exact (List.append_inj hw (by rw [length_slice, f.length_head])).2
  obtain ⟨m', hadd, hm'⟩ := addBody_part env (c := { c with
    msgbegin := c.msgbegin + 26, allocs := c.allocs + 1, msg := some m }) (k := 0) (r := rest)
    hm rfl (by dsimp only; omega) hbody hbuf (by rw [List.drop_zero, hv]) (by omega)
  rw [Nat.zero_add] at hm'
  rw [hparse, if_neg (by omega), hadd]
  exact ⟨m', rfl, hm'⟩

theorem headHeld_of_lt {h : ℕ} (hh : h < 26) : headHeld h = h := if_pos hh

theorem headHeld_of_le {h : ℕ} (hh : 26 ≤ h) : headHeld h = 0 := if_neg (by omega)

theorem size_le (f : Frame) : 26 ≤ f.size := Nat.le_add_right _ _

/-- What the loop of the parser comes to, from the start of the frames `fs` on with `n` bytes of
them: the handlers have been called with the frames these contain, and the parser stands at the
header or in the body of the next one. -/
def Parsed (env : Env) (fs : List Frame) (n : ℕ) (c : TcpConnection) (r : Option TcpConnection) :
    Prop :=
  ∃ msg allocs ms, r = some { c with
      msg := msg
      msgbegin := c.offset - headHeld (held Frame.size fs n)
      allocs := allocs
      done := c.done ++ ms } ∧
    List.Forall₂ (Carries env.tables (who c)) (taken Frame.size fs n) ms ∧
    Pending env.tables (who c) (left Frame.size fs n) (held Frame.size fs n) msg

/-- Less than a header: the parser stays where it is. -/
theorem parsed_stop {fs : List Frame} {n : ℕ} {c : TcpConnection} (fuel : ℕ) (hmsg : c.msg = none)
    (hlen : c.msgbegin + n = c.offset) (hn : n < 26) :
    Parsed env fs n c (parseLoop env (fuel + 1) c) := by
  obtain ⟨ht, -, hh⟩ := @of_lt _ Frame.size fs n
    fun f _ => lt_of_lt_of_le hn (size_le f)
  have hsame : c = { c with
      msg := none, msgbegin := c.offset - n, allocs := c.allocs, done := c.done ++ [] } := by
    cases c
    dsimp only at hmsg hlen ⊢
    rw [hmsg, List.append_nil, ← hlen, Nat.add_sub_cancel]
  have hparse : parseLoop env (fuel + 1) c = some c := by
    unfold parseLoop parseNetTcp4msg
    rw [hmsg]
    dsimp only
    rw [if_pos (by omega)]
    rfl
  refine ⟨none, c.allocs, [], ?_, by rw [ht]; exact .nil, by rw [hh, Pending, if_pos hn]⟩
  rw [hparse, hh, headHeld_of_lt hn]
  exact congrArg some hsame

/-- **The loop of the parser, from the start of a frame on.** -/
theorem parseLoop_spec {fs : List Frame} (hfs : ∀ f ∈ fs, WellFormed env.tables f) (fuel : ℕ)
    (c : TcpConnection) {w r : List UInt8} (hmsg : c.msg = none)
    (hlen : c.msgbegin + w.length = c.offset) (hw : slice c.buf c.msgbegin w.length = w)
    (hbuf : c.offset ≤ TCPCONNECTION_BUFLEN) (hstream : w ++ r = fs.flatMap Frame.bytes)
    (hfuel : w.length < fuel) : Parsed env fs w.length c (parseLoop env fuel c) := by
  induction fs generalizing fuel c w with
  | nil =>
    obtain ⟨fuel, rfl⟩ : ∃ k, fuel = k + 1 := ⟨fuel - 1, by omega⟩
    obtain ⟨rfl, -⟩ := List.append_eq_nil_iff.mp hstream
    exact parsed_stop fuel hmsg hlen (by simp)
  | cons f fs ih =>
    obtain ⟨fuel, rfl⟩ : ∃ k, fuel = k + 1 := ⟨fuel - 1, by omega⟩
    have hf := hfs f List.mem_cons_self
    rw [List.flatMap_cons] at hstream
    by_cases hhead : w.length < 26
    · exact parsed_stop fuel hmsg hlen hhead
    · by_cases hsz : f.size ≤ w.length
      · obtain ⟨v, rfl, hv⟩ := split_window hstream (by rw [Frame.length_bytes]; exact hsz)
        rw [List.length_append, Frame.length_bytes] at hlen hw hfuel ⊢
        obtain ⟨m, hparse, hm⟩ := parse_whole hf hmsg hlen hw hbuf
        have hrest : slice c.buf (c.msgbegin + f.size) v.length = v := by
          rw [slice_add] at hw
          exact (List.append_inj hw (by simp)).2
        have hsz' := size_le f
        obtain ⟨msg, al, ms, hr, hms, hp⟩ := ih (fun g hg => hfs g (List.mem_cons_of_mem _ hg)) fuel
          { c with
            msg := none
            msgbegin := c.msgbegin + f.size
            allocs := c.allocs + 1
            done := c.done ++ [m] } (w := v) rfl (by dsimp only; omega) hrest hbuf hv (by omega)
        refine ⟨msg, al, m :: ms, ?_, ?_, ?_⟩
        · unfold parseLoop
          rw [hparse, Option.bind_eq_bind, Option.bind_some]
          dsimp only
          rw [if_pos rfl, hr, held, if_pos (by omega), Nat.add_sub_cancel_left]
          simp only [List.append_assoc, List.singleton_append]
        · rw [taken, if_pos (by omega), Nat.add_sub_cancel_left]
          exact .cons hm hms
        · rw [left, held, if_pos (by omega), if_pos (by omega), Nat.add_sub_cancel_left]
          exact hp
      · rw [Frame.bytes, List.append_assoc] at hstream
        obtain ⟨v, rfl, hv⟩ := split_window hstream (by rw [f.length_head]; omega)
        have hvl : v.length < f.body.length := by
          rw [List.length_append, f.length_head, Frame.size] at hsz
          omega
        obtain ⟨u, hu, -⟩ := split_window hv.symm hvl.le
        rw [List.length_append, f.length_head] at hlen hw hfuel ⊢
        obtain ⟨m, hparse, hm⟩ := parse_part hf hmsg hlen hw hbuf hu.symm hvl
        have hsz' : ¬ f.size ≤ 26 + v.length := by rw [Frame.size]; omega
        refine ⟨some m, c.allocs + 1, [], ?_, ?_, ?_⟩
        · unfold parseLoop
          rw [hparse, Option.bind_eq_bind, Option.bind_some]
          dsimp only
          rw [if_neg (by decide), held, if_neg hsz', headHeld_of_le (by omega), Nat.sub_zero,
            List.append_nil]
        · rw [taken, if_neg hsz']
          exact .nil
        · rw [left, held, if_neg hsz', if_neg hsz', Pending, if_neg (by omega),
            Nat.add_sub_cancel_left]
          exact ⟨f, fs, m, rfl, rfl, hm⟩

/-- **The loop of the parser, from the middle of a body on.** -/
theorem parseLoop_body {f : Frame} {fs : List Frame} (hfs : ∀ g ∈ fs, WellFormed env.tables g)
    (fuel : ℕ) (c : TcpConnection) {k : ℕ} {m : HandlerMsg} {w rest : List UInt8}
    (hmsg : c.msg = some m) (hm : Filled env.tables (who c) f k m) (hk : k < f.body.length)
    (hlen : c.msgbegin + w.length = c.offset) (hw : slice c.buf c.msgbegin w.length = w)
    (hbuf : c.offset ≤ TCPCONNECTION_BUFLEN)
    (hstream : w ++ rest = f.body.drop k ++ fs.flatMap Frame.bytes) (hfuel : w.length < fuel) :
    Parsed env (f :: fs) (26 + k + w.length) c (parseLoop env fuel c) := by
  obtain ⟨fuel, rfl⟩ : ∃ k, fuel = k + 1 := ⟨fuel - 1, by omega⟩
  have hparse : c.parseNetTcp4msg env = c.addBody m := by
    unfold parseNetTcp4msg
    rw [hmsg]
  by_cases hsz : f.body.length ≤ k + w.length
  · obtain ⟨v, rfl, hv⟩ := split_window hstream (by rw [List.length_drop]; omega)
    obtain ⟨m', hadd, hm'⟩ := addBody_whole env hm hlen hw hbuf rfl hk
    rw [List.length_append, List.length_drop] at hlen hw hfuel hsz
    have hrest : slice c.buf (c.msgbegin + (f.body.length - k)) v.length = v := by
      rw [slice_add] at hw
      exact (List.append_inj hw (by rw [length_slice, List.length_drop])).2
    obtain ⟨msg, al, ms, hr, hms, hp⟩ := parseLoop_spec hfs fuel
      { c with
        msg := none
        msgbegin := c.msgbegin + (f.body.length - k)
        done := c.done ++ [m'] } (w := v) rfl (by dsimp only; omega) hrest hbuf hv (by omega)
    have hn : 26 + k + (f.body.drop k ++ v).length = f.size + v.length := by
      rw [List.length_append, List.length_drop, Frame.size]
      omega
    rw [hn]
    refine ⟨msg, al, m' :: ms, ?_, ?_, ?_⟩
    · unfold parseLoop
      rw [hparse, hadd, Option.bind_eq_bind, Option.bind_some]
      dsimp only
      rw [if_pos rfl, hr, held, if_pos (by omega), Nat.add_sub_cancel_left]
      simp only [List.append_assoc, List.singleton_append]
    · rw [taken, if_pos (by omega), Nat.add_sub_cancel_left]
      exact .cons hm' hms
    · rw [left, held, if_pos (by omega), if_pos (by omega), Nat.add_sub_cancel_left]
      exact hp
  · obtain ⟨u, hu, -⟩ := split_window hstream.symm (by rw [List.length_drop]; omega)
    obtain ⟨m', hadd, hm'⟩ := addBody_part env hm hmsg hlen hw hbuf hu.symm (by omega)
    have hsz' : ¬ f.size ≤ 26 + k + w.length := by rw [Frame.size]; omega
    refine ⟨some m', c.allocs, [], ?_, ?_, ?_⟩
    · unfold parseLoop
      rw [hparse, hadd, Option.bind_eq_bind, Option.bind_some]
      dsimp only
      rw [if_neg (by decide), held, if_neg hsz', headHeld_of_le (by omega), Nat.sub_zero,
        List.append_nil]
    · rw [taken, if_neg hsz']
      exact .nil
    · rw [left, held, if_neg hsz', if_neg hsz', Pending, if_neg (by omega)]
      exact ⟨f, fs, m', rfl, rfl, by rwa [show 26 + k + w.length - 26 = k + w.length by omega]⟩

/-! ### One read -/

/-- The connection after `n` bytes of the stream of `frames`, between two reads. -/
structure Ready (env : Env) (frames : List Frame) (n : ℕ) (c : TcpConnection) : Prop where
  socket : c.socket = true
  msgbegin : c.msgbegin = 0
  offset : c.offset = headHeld (held Frame.size frames n)
  buf : slice c.buf 0 c.offset = ((left Frame.size frames n).flatMap Frame.bytes).take c.offset
  pending : Pending env.tables (who c) (left Frame.size frames n) (held Frame.size frames n) c.msg
  done : List.Forall₂ (Carries env.tables (who c)) (taken Frame.size frames n) c.done

/-- What a read must be like for the connection to take it right: it leaves room in the buffer, and
if it ends inside a header, that header has all of the buffer. -/
def ReadOk (frames : List Frame) (n k : ℕ) : Prop :=
  headHeld (held Frame.size frames n) + k < TCPCONNECTION_BUFLEN ∧
    (headHeld (held Frame.size frames (n + k)) = 0 ∨
      headHeld (held Frame.size frames (n + k)) = headHeld (held Frame.size frames n) + k)

/-- The bytes of a read behind those held, and the parser on all of them. -/
theorem parseLoop_ready {frames : List Frame} {n : ℕ} {c : TcpConnection} {ch rest : List UInt8}
    (hfs : ∀ f ∈ frames, WellFormed env.tables f) (hc : Ready env frames n c)
    (hch : ch ++ rest =
      ((left Frame.size frames n).flatMap Frame.bytes).drop (held Frame.size frames n))
    (hroom : c.offset + ch.length ≤ TCPCONNECTION_BUFLEN) :
    Parsed env (left Frame.size frames n) (held Frame.size frames n + ch.length)
      { c with buf := store c.buf c.offset ch, offset := c.offset + ch.length }
      (parseLoop env (c.offset + ch.length + 1)
        { c with buf := store c.buf c.offset ch, offset := c.offset + ch.length }) := by
  obtain ⟨-, hb, hoff, hbuf, hpend, -⟩ := hc
  have hl : ∀ f ∈ left Frame.size frames n, WellFormed env.tables f := fun f hf =>
    hfs f (by rw [← @taken_append_left _ Frame.size frames n]
              exact List.mem_append_right _ hf)
  have hst := slice_store_append c.buf 0 c.offset ch
  rw [Nat.zero_add] at hst
  by_cases hh : held Frame.size frames n < 26
  · rw [Pending, if_pos hh] at hpend
    rw [headHeld_of_lt hh] at hoff
    rw [← hoff] at hch ⊢
    have hwl : (slice c.buf 0 c.offset ++ ch).length = c.offset + ch.length := by simp
    rw [← hwl]
    refine parseLoop_spec hl _ _ (r := rest) hpend (by rw [hwl, hb, Nat.zero_add]) ?_ ?_ ?_ ?_
    · dsimp only
      rw [hwl, hb, hst]
    · rw [hwl]; exact hroom
    · rw [List.append_assoc, hch, hbuf, List.take_append_drop]
    · rw [hwl]; omega
  · rw [Pending, if_neg hh] at hpend
    obtain ⟨f, fs, m, hcons, hmsg, hm⟩ := hpend
    have hlt := held_lt hcons
    rw [headHeld_of_le (by omega)] at hoff
    rw [hoff] at hst ⊢
    rw [hcons] at hch hl ⊢
    obtain ⟨k, hk⟩ : ∃ k, held Frame.size frames n = 26 + k :=
      ⟨_, (Nat.add_sub_cancel' (by omega)).symm⟩
    rw [hk, Nat.add_sub_cancel_left] at hm
    rw [hk, List.flatMap_cons, Frame.bytes, List.append_assoc, ← List.drop_drop,
      List.drop_left' f.length_head, List.drop_append_of_le_length (by rw [Frame.size] at hlt; omega)] at hch
    rw [hk]
    rw [Frame.size] at hlt
    refine parseLoop_body (fun g hg => hl g (List.mem_cons_of_mem _ hg)) _ _ hmsg hm (by omega) ?_ ?_
      ?_ hch (by omega)
    · dsimp only
      rw [hb]
    · dsimp only
      rw [hb]
      have := slice_store_same c.buf 0 ch
      exact this
    · dsimp only
      omega

/-- A read that ends inside a header whose bytes are all there are in the buffer completed nothing. -/
theorem nothing_taken {frames : List Frame} {n : ℕ} {c : TcpConnection} {ch rest : List UInt8}
    (hc : Ready env frames n c)
    (hch : ch ++ rest =
      ((left Frame.size frames n).flatMap Frame.bytes).drop (held Frame.size frames n))
    (hpos : headHeld (held Frame.size frames (n + ch.length)) ≠ 0)
    (hall : headHeld (held Frame.size frames (n + ch.length)) = c.offset + ch.length) :
    left Frame.size frames (n + ch.length) = left Frame.size frames n ∧
    slice (store c.buf c.offset ch) 0 (c.offset + ch.length) =
      ((left Frame.size frames n).flatMap Frame.bytes).take (c.offset + ch.length) := by
  obtain ⟨-, -, hoff, hbuf, hpend, -⟩ := hc
  have hlt : held Frame.size frames (n + ch.length) < 26 := by
    by_contra h
    exact hpos (headHeld_of_le (by omega))
  rw [headHeld_of_lt hlt] at hall
  have hh : held Frame.size frames n < 26 := by
    by_contra h
    rw [Pending, if_neg h] at hpend
    obtain ⟨f, fs, m, hcons, -, -⟩ := hpend
    have hf := held_lt hcons
    rw [headHeld_of_le (by omega)] at hoff
    -- fewer bytes than `f` has were taken, so none were
    have hsum := @total_taken_add_held _ Frame.size (left Frame.size frames n)
      (held Frame.size frames n + ch.length)
    rw [← held_add, hall, hoff, hcons, taken] at hsum
    split_ifs at hsum with hle
    · rw [total_cons] at hsum; omega
    · rw [total_nil] at hsum; omega
  rw [headHeld_of_lt hh] at hoff
  have hnone := @of_held_eq _ Frame.size (fun f => lt_of_lt_of_le (by decide) (size_le f))
    (left Frame.size frames n) (held Frame.size frames n + ch.length) (by rw [← held_add, hall, hoff])
  have hst := slice_store_append c.buf 0 c.offset ch
  rw [Nat.zero_add] at hst
  refine ⟨by rw [left_add]; exact hnone.2, ?_⟩
  rw [hst, hbuf, List.take_add, hoff, ← hch, List.take_left]

/-- **A read keeps the connection ready**, and the handlers get the frames it completes. -/
theorem readed_spec {frames : List Frame} {n : ℕ} {c : TcpConnection} {ch rest : List UInt8}
    (hfs : ∀ f ∈ frames, WellFormed env.tables f) (hc : Ready env frames n c)
    (hch : ch ++ rest =
      ((left Frame.size frames n).flatMap Frame.bytes).drop (held Frame.size frames n))
    (hok : ReadOk frames n ch.length) :
    ∃ c', tcp4ReadedData env ch.length { c with buf := store c.buf c.offset ch } = some c' ∧
      Ready env frames (n + ch.length) c' ∧ c'.protocol = c.protocol ∧ who c' = who c := by
  obtain ⟨hroom, hend⟩ := hok
  rw [← hc.offset] at hroom hend
  obtain ⟨msg, al, ms, hr, hms, hp⟩ := parseLoop_ready hfs hc hch hroom.le
  rw [← held_add] at hr hp
  rw [← left_add] at hp
  have hdone : List.Forall₂ (Carries env.tables (who c)) (taken Frame.size frames (n + ch.length))
      (c.done ++ ms) := by
    rw [taken_add]
    exact List.rel_append hc.done hms
  have hreset : tcp4ReadedData env ch.length { c with buf := store c.buf c.offset ch } =
      tcpResetbuf { c with
        buf := store c.buf c.offset ch
        offset := c.offset + ch.length
        msg := msg
        msgbegin := c.offset + ch.length - headHeld (held Frame.size frames (n + ch.length))
        allocs := al
        done := c.done ++ ms }
        (c.offset + ch.length - headHeld (held Frame.size frames (n + ch.length)))
        (c.offset + ch.length) := by
    have hdef : tcp4ReadedData env ch.length { c with buf := store c.buf c.offset ch } =
        (parseLoop env (c.offset + ch.length + 1)
          { c with buf := store c.buf c.offset ch, offset := c.offset + ch.length }).bind
          fun c => c.tcpResetbuf c.msgbegin c.offset := rfl
    rw [hdef, hr, Option.bind_some]
  rw [hreset]
  unfold tcpResetbuf
  rw [if_pos ⟨Nat.sub_le _ _, hroom⟩]
  by_cases h0 : headHeld (held Frame.size frames (n + ch.length)) = 0
  · rw [if_neg (by omega)]
    exact ⟨_, rfl, ⟨hc.socket, rfl, h0.symm, rfl, hp, hdone⟩, rfl, rfl⟩
  · have hall := hend.resolve_left h0
    obtain ⟨hleft, hbuf⟩ := nothing_taken hc hch h0 hall
    rw [if_pos (by omega)]
    dsimp only
    rw [hall, Nat.sub_self, Nat.sub_zero]
    refine ⟨_, rfl, ⟨hc.socket, rfl, hall.symm, ?_, hp, hdone⟩, rfl, rfl⟩
    have hst := slice_store_same (store c.buf c.offset ch) 0
      (slice (store c.buf c.offset ch) 0 (c.offset + ch.length))
    rw [length_slice] at hst
    rw [hleft]
    exact hst.trans hbuf

/-! ### Calls of `tcpconnection_recv` -/

/-- The condition on the reads of one call, behind the first `n` bytes. -/
def ReadsOk (frames : List Frame) : ℕ → List (List UInt8) → Prop
  | _, [] => True
  | n, ch :: chs => ReadOk frames n ch.length ∧ ReadsOk frames (n + ch.length) chs

/-- The condition on the calls: a first read does not come in the middle of a header, and on a
connection that has no protocol yet it brings the four bytes that choose one. -/
def CallsOk (frames : List Frame) : Bool → ℕ → List (List (List UInt8)) → Prop
  | _, _, [] => True
  | protocol, n, chs :: calls =>
    (protocol = false → 4 ≤ (chs.headD []).length) ∧
      (chs ≠ [] → headHeld (held Frame.size frames n) = 0) ∧ ReadsOk frames n chs ∧
      CallsOk frames true (n + chs.flatten.length) calls

theorem drop_left_add (frames : List Frame) {n : ℕ} {ch rest : List UInt8}
    (hch : ch ++ rest =
      ((left Frame.size frames n).flatMap Frame.bytes).drop (held Frame.size frames n)) :
    rest = ((left Frame.size frames (n + ch.length)).flatMap Frame.bytes).drop
      (held Frame.size frames (n + ch.length)) := by
  rw [← drop_flatMap Frame.length_bytes] at hch ⊢
  rw [← List.drop_drop, ← hch, List.drop_left]

theorem ready_offset_lt {frames : List Frame} {n : ℕ} {c : TcpConnection}
    (hc : Ready env frames n c) : c.offset < TCPCONNECTION_BUFLEN := by
  rw [hc.offset, headHeld]
  split_ifs with h
  · exact lt_of_lt_of_le h (by decide)
  · decide

theorem tcpRead_data {c : TcpConnection} {o n : ℕ} {ch : List UInt8} (hne : ch ≠ [])
    (hlen : ch.length ≤ n) :
    c.tcpRead o n (.data ch) = some (ch.length, { c with buf := store c.buf o ch }) := by
  refine if_neg ?_
  rintro (h | h)
  · exact hne h
  · omega

/-- The loop of `tcpconnection_recv`, after a read of `ch`. -/
theorem recvLoop_spec {frames : List Frame} (hfs : ∀ f ∈ frames, WellFormed env.tables f)
    (chs : List (List UInt8)) (n : ℕ) (c : TcpConnection) {ch rest : List UInt8}
    (hne : ∀ x ∈ ch :: chs, x ≠ []) (hc : Ready env frames n c)
    (hch : ch ++ (chs.flatten ++ rest) =
      ((left Frame.size frames n).flatMap Frame.bytes).drop (held Frame.size frames n))
    (hok : ReadsOk frames n (ch :: chs)) :
    ∃ c', recvLoop env (chs.map .data) ch.length { c with buf := store c.buf c.offset ch } =
        some c' ∧
      Ready env frames (n + (ch :: chs).flatten.length) c' ∧ c'.protocol = c.protocol ∧
      who c' = who c := by
  induction chs generalizing n c ch with
  | nil =>
    have hpos : 0 < ch.length := List.length_pos_iff.mpr (hne ch List.mem_cons_self)
    obtain ⟨c₁, hr₁, hc₁, hp₁, hw₁⟩ := readed_spec hfs hc hch hok.1
    refine ⟨c₁, ?_, by simpa using hc₁, hp₁, hw₁⟩
    unfold recvLoop
    rw [if_pos ⟨hpos, hc.socket⟩, hr₁, Option.bind_eq_bind, Option.bind_some, if_pos hc₁.socket,
      if_pos (ready_offset_lt hc₁)]
    rfl
  | cons ch' chs ih =>
    have hpos : 0 < ch.length := List.length_pos_iff.mpr (hne ch List.mem_cons_self)
    obtain ⟨c₁, hr₁, hc₁, hp₁, hw₁⟩ := readed_spec hfs hc hch hok.1
    have hroom := hok.2.1.1
    rw [← hc₁.offset] at hroom
    have hnext := drop_left_add frames hch
    rw [List.flatten_cons, List.append_assoc] at hnext
    obtain ⟨c', hr, hc', hp, hw⟩ := ih (n + ch.length) c₁
      (fun x hx => hne x (List.mem_cons_of_mem _ hx)) hc₁ hnext hok.2
    refine ⟨c', ?_, ?_, hp.trans hp₁, hw.trans hw₁⟩
    · unfold recvLoop
      rw [if_pos ⟨hpos, hc.socket⟩, hr₁, Option.bind_eq_bind, Option.bind_some, if_pos hc₁.socket,
        if_pos (ready_offset_lt hc₁)]
      have hread := tcpRead_data (c := c₁) (o := c₁.offset)
        (n := TCPCONNECTION_BUFLEN - c₁.offset) (hne ch' (by simp)) (by omega)
      rw [List.map_cons]
      dsimp only
      rw [hread]
      exact hr
    · rw [List.flatten_cons, List.length_append, ← Nat.add_assoc]
      exact hc'

/-- **A call of `tcpconnection_recv`** on a connection that has the protocol. -/
theorem recv_spec {frames : List Frame} (hfs : ∀ f ∈ frames, WellFormed env.tables f)
    (chs : List (List UInt8)) (n : ℕ) (c : TcpConnection) {rest : List UInt8}
    (hne : ∀ x ∈ chs, x ≠ []) (hproto : c.protocol = true) (hc : Ready env frames n c)
    (hfirst : chs ≠ [] → headHeld (held Frame.size frames n) = 0)
    (hch : chs.flatten ++ rest =
      ((left Frame.size frames n).flatMap Frame.bytes).drop (held Frame.size frames n))
    (hok : ReadsOk frames n chs) :
    ∃ c', c.tcpconnectionRecv env (chs.map .data) = some c' ∧
      Ready env frames (n + chs.flatten.length) c' ∧ c'.protocol = true ∧ who c' = who c := by
  have hs := hc.socket
  cases chs with
  | nil =>
    refine ⟨c, ?_, hc, hproto, rfl⟩
    unfold tcpconnectionRecv recvLoop
    simp [tcpRead, hs, hproto]
  | cons ch chs =>
    have h0 : c.offset = 0 := hc.offset.trans (hfirst (List.cons_ne_nil _ _))
    have hroom := hok.1.1
    rw [List.flatten_cons, List.append_assoc] at hch
    obtain ⟨c', hr, hc', hp, hw⟩ := recvLoop_spec hfs chs n c hne hc hch hok
    refine ⟨c', ?_, hc', hp.trans hproto, hw⟩
    have hread := tcpRead_data (c := c) (o := c.offset) (n := TCPCONNECTION_BUFLEN)
      (hne ch List.mem_cons_self) (by omega)
    have hfront : c.tcpRead 0 TCPCONNECTION_BUFLEN (.data ch) =
        c.tcpRead c.offset TCPCONNECTION_BUFLEN (.data ch) := by rw [h0]
    unfold tcpconnectionRecv
    rw [if_neg (by simp [hs]), List.map_cons, List.headD_cons, hfront, hread]
    simp only [Option.bind_eq_bind, Option.bind_some, List.tail_cons]
    rw [if_neg (by simp [hproto]), if_neg (by simp [hproto]), hr, Option.bind_some,
      if_neg (by simp [hc'.socket])]

/-! ### Whole streams -/

/-- A connection as `tcpconnection_init` leaves it, or, where the protocol was given to it, as
`tcp_connected` does. -/
structure Start (c : TcpConnection) : Prop where
  socket : c.socket = true
  offset : c.offset = 0
  done : c.done = []
  msg : c.protocol = true → c.msg = none
  msgbegin : c.protocol = true → c.msgbegin = 0

theorem ready_start {c : TcpConnection} (frames : List Frame) (hc : Start c)
    (hproto : c.protocol = true) : Ready env frames 0 c := by
  obtain ⟨ht, -, hh⟩ := @of_lt _ Frame.size frames 0
    fun f _ => lt_of_lt_of_le (by decide) (size_le f)
  refine ⟨hc.socket, hc.msgbegin hproto, ?_, ?_, ?_, ?_⟩
  · rw [hh]; exact hc.offset
  · rw [hc.offset, slice_zero, List.take_zero]
  · rw [hh]; exact hc.msg hproto
  · rw [ht, hc.done]; exact .nil

/-- The protocol that a first read chooses. -/
def connected (c : TcpConnection) : TcpConnection :=
  if c.protocol = false then { c with protocol := true }.tcpConnected else c

theorem start_connected {c : TcpConnection} (hc : Start c) :
    Start (connected c) ∧ (connected c).protocol = true := by
  unfold connected
  by_cases hp : c.protocol = false
  · rw [if_pos hp]
    exact ⟨⟨hc.socket, hc.offset, hc.done, fun _ => rfl, fun _ => rfl⟩, rfl⟩
  · rw [if_neg hp]
    exact ⟨hc, by simpa using hp⟩

/-- A first read of four bytes makes the connection one that has the protocol. -/
theorem recv_connected {c : TcpConnection} (hs : c.socket = true) {chs : List (List UInt8)}
    (hfour : c.protocol = false → 4 ≤ (chs.headD []).length)
    (hroom : (chs.headD []).length ≤ TCPCONNECTION_BUFLEN) :
    c.tcpconnectionRecv env (chs.map .data) =
      (connected c).tcpconnectionRecv env (chs.map .data) := by
  unfold connected
  by_cases hp : c.protocol = false
  · cases chs with
    | nil => exact absurd (hfour hp) (by simp)
    | cons ch chs =>
      have h4 : 4 ≤ ch.length := hfour hp
      have hne : ch ≠ [] := by rintro rfl; exact absurd h4 (by simp)
      have h1 := tcpRead_data (c := c) (o := 0) hne hroom
      have h2 := tcpRead_data (c := { c with protocol := true }.tcpConnected) (o := 0) hne hroom
      rw [if_pos hp]
      unfold tcpconnectionRecv
      rw [if_neg (by simp [hs]), if_neg (by simp [tcpConnected, hs]), List.map_cons, List.headD_cons,
        h1, h2]
      simp only [Option.bind_eq_bind, Option.bind_some, List.tail_cons]
      rw [if_neg (by omega), if_pos hp, if_neg (by simp [tcpConnected]),
        if_neg (by simp [tcpConnected])]
      rfl
  · rw [if_neg hp]

/-- Calls on a connection that has the protocol. -/
theorem recvAll_spec {frames : List Frame} (hfs : ∀ f ∈ frames, WellFormed env.tables f)
    (calls : List (List (List UInt8))) (n : ℕ) (c : TcpConnection) {rest : List UInt8}
    (hne : ∀ chs ∈ calls, ∀ x ∈ chs, x ≠ []) (hproto : c.protocol = true)
    (hc : Ready env frames n c)
    (hch : calls.flatten.flatten ++ rest =
      ((left Frame.size frames n).flatMap Frame.bytes).drop (held Frame.size frames n))
    (hok : CallsOk frames true n calls) :
    ∃ c', c.recvAll env calls = some c' ∧
      Ready env frames (n + calls.flatten.flatten.length) c' ∧ who c' = who c := by
  induction calls generalizing n c with
  | nil => exact ⟨c, rfl, hc, rfl⟩
  | cons chs calls ih =>
    obtain ⟨-, hfirst, hreads, hok⟩ := hok
    rw [List.flatten_cons, List.flatten_append, List.append_assoc] at hch
    obtain ⟨c₁, hr₁, hc₁, hp₁, hw₁⟩ := recv_spec hfs chs n c (hne chs List.mem_cons_self) hproto hc
      hfirst hch hreads
    obtain ⟨c', hr, hc', hw⟩ := ih (n + chs.flatten.length) c₁
      (fun x hx => hne x (List.mem_cons_of_mem _ hx)) hp₁ hc₁ (drop_left_add frames hch) hok
    refine ⟨c', ?_, ?_, hw.trans hw₁⟩
    · rw [recvAll, hr₁]
      exact hr
    · rw [List.flatten_cons, List.flatten_append, List.length_append, ← Nat.add_assoc]
      exact hc'

variable (env) in
/-- **When `tcp4` finds every message.** In every run of calls of `tcpconnection_recv` on a fresh
connection, over any part of a stream of well-formed frames cut into any chunks: if every read
leaves room in the buffer and ends inside a header only if that header is all there is in the
buffer, no call begins in the middle of a header, and the read that chooses the protocol brings four
bytes, then no assertion fails, the connection stays open, and the handlers have been called with
the messages of exactly the frames received whole, in order and each once. -/
theorem tcp4_framing (frames : List Frame) (hfs : ∀ f ∈ frames, WellFormed env.tables f)
    (c : TcpConnection) (hc : Start c) (calls : List (List (List UInt8))) (rest : List UInt8)
    (hne : ∀ chs ∈ calls, ∀ x ∈ chs, x ≠ [])
    (hstream : calls.flatten.flatten ++ rest = frames.flatMap Frame.bytes)
    (hok : CallsOk frames c.protocol 0 calls) :
    ∃ c', c.recvAll env calls = some c' ∧ c'.socket = true ∧
      List.Forall₂ (Carries env.tables (who c'))
        (taken Frame.size frames calls.flatten.flatten.length) c'.done ∧
      (rest = [] → List.Forall₂ (Carries env.tables (who c')) frames c'.done) := by
  obtain ⟨hs, hp⟩ := start_connected hc
  have hstream0 : calls.flatten.flatten ++ rest =
      ((left Frame.size frames 0).flatMap Frame.bytes).drop (held Frame.size frames 0) := by
    rw [← drop_flatMap Frame.length_bytes, List.drop_zero]
    exact hstream
  have hrun : ∃ c', c.recvAll env calls = some c' ∧
      Ready env frames (0 + calls.flatten.flatten.length) c' ∨
      c.recvAll env calls = some c' ∧ calls = [] ∧ c' = c := by
    cases calls with
    | nil => exact ⟨c, Or.inr ⟨rfl, rfl, rfl⟩⟩
    | cons chs calls =>
      have hroom : (chs.headD []).length ≤ TCPCONNECTION_BUFLEN := by
        cases chs with
        | nil => exact Nat.zero_le _
        | cons ch chs =>
          have := hok.2.2.1.1.1
          exact (Nat.le_add_left _ _).trans this.le
      have hok' : CallsOk frames true 0 (chs :: calls) := ⟨(by simp), hok.2⟩
      obtain ⟨c', hr, hc', -⟩ := recvAll_spec hfs (chs :: calls) 0 (connected c) hne hp
        (ready_start frames hs hp) hstream0 hok'
      refine ⟨c', Or.inl ⟨?_, hc'⟩⟩
      rw [recvAll, recv_connected hc.socket hok.1 hroom]
      exact hr
  have hlen := length_flatMap Frame.length_bytes frames
  have hall : rest = [] → taken Frame.size frames calls.flatten.flatten.length = frames := by
    rintro rfl
    rw [List.append_nil] at hstream
    rw [hstream, hlen, taken_total]
  obtain ⟨c', ⟨hr, hready⟩ | ⟨hr, rfl, rfl⟩⟩ := hrun
  · rw [Nat.zero_add] at hready
    exact ⟨c', hr, hready.socket, hready.done, fun h => by rw [← hall h]; exact hready.done⟩
  · have hnone := (@of_lt _ Frame.size frames 0
      fun f _ => lt_of_lt_of_le (by decide) (size_le f)).1
    have hdone : List.Forall₂ (Carries env.tables (who c'))
        (taken Frame.size frames ([] : List (List (List UInt8))).flatten.flatten.length) c'.done := by
      rw [hc.done]
      exact hnone ▸ .nil
    exact ⟨c', hr, hc.socket, hdone, fun h => by rw [← hall h]; exact hdone⟩

/-! ### Two frames -/

/-- The table of the message id 5, without fields. -/
def oneTable : Env where
  tables := fun id => if id = 5 then some ⟨0, 0, 0⟩ else none
  malloc := fun _ _ => 0

/-- A frame of the id 5. -/
def frame5 (body : List UInt8) : Frame where
  head := [UInt8.ofNat body.length, 0, 0, 0, 0, 0, 0, 0, 0, 5, 0, 0, 0] ++ List.replicate 13 0
  body := body
  length_head := rfl

def ping : Frame := frame5 []
def text : Frame := frame5 [1, 2, 3]

theorem wellFormed_ping : WellFormed oneTable.tables ping :=
  ⟨by decide, by decide, ⟨0, 0, 0⟩, by decide, fun h => absurd h (by decide),
    by decide⟩

theorem wellFormed_text : WellFormed oneTable.tables text :=
  ⟨by decide, by decide, ⟨0, 0, 0⟩, by decide, fun h => absurd h (by decide),
    by decide⟩

def accepted : TcpConnection := { buf := fun _ => 0 }

theorem start_accepted : Start accepted := ⟨rfl, rfl, rfl, by decide, by decide⟩

/-- A text and a header alone, cut inside the body of the text and behind the header. -/
theorem tcp4_framing_text :
    ∃ c', accepted.recvAll oneTable [[text.bytes.take 27, text.bytes.drop 27], [ping.bytes]] =
        some c' ∧ c'.socket = true ∧
      List.Forall₂ (Carries oneTable.tables (who c')) [text, ping] c'.done := by
  obtain ⟨c', hr, hs, -, hall⟩ := tcp4_framing oneTable [text, ping]
    (by intro f hf; rw [List.mem_pair] at hf; rcases hf with rfl | rfl
        exacts [wellFormed_text, wellFormed_ping])
    accepted start_accepted [[text.bytes.take 27, text.bytes.drop 27], [ping.bytes]] []
    (by decide) (by decide)
    ⟨by decide, by decide, ⟨⟨by decide, by decide⟩, ⟨by decide, by decide⟩, trivial⟩,
      by decide, by decide, ⟨⟨by decide, by decide⟩, trivial⟩, trivial⟩
  exact ⟨c', hr, hs, hall rfl⟩

/-- Two headers, the second one cut behind its fifth byte: the first read leaves five bytes at the
front of the buffer, but `TPD_MSGBEGIN` at 26, and the second message is lost. -/
theorem ping_lost :
    WellFormed oneTable.tables ping ∧ Start accepted ∧
    (accepted.recvAll oneTable [[ping.bytes ++ ping.bytes.take 5, ping.bytes.drop 5]]).map
      (fun c => (c.socket, c.done.length)) = some (true, 1) :=
  ⟨wellFormed_ping, start_accepted, by decide +kernel⟩

end ChatShow.Antlib.Tcp4Framing
