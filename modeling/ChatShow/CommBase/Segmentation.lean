import ChatShow.CommBase.SessionRecv
import ChatShow.Lib.Framing

/-! # Receiving does not depend on the segmentation

`deliver` says what a well-formed frame becomes: a message for the dispatcher, or a call of
`ConnectSuccess`. A pass of `Recv(vec)` over a window of the stream that starts at a frame delivers
the whole frames in the window and leaves the rest at the front of the buffer (`recvPass_spec`), as
long as the rest fits twice into the buffer, which is what the guarded move asks for. So `Window`
holds between the calls of `recv`: the buffer holds what the stream has of the next frame. -/

namespace ChatShow.CommBase.Segmentation

open ChatShow.Lib.Cells ChatShow.Lib.Framing ChatShow.CommBase.NetWorkConfig
open ChatShow.CommBase.Util ChatShow.CommBase.MessageManager ChatShow.CommBase.SessionRecv

/-! ### Frames -/

/-- A frame: the header as its sender wrote it, and the content. -/
structure Frame where
  head : packetHeader
  content : List UInt8

namespace Frame

def bytes (f : Frame) : List UInt8 := f.head.encode ++ f.content

def size (f : Frame) : ℕ := HEADER_LENGTH + f.content.length

/-- The header in the order of the receiver. -/
def header (f : Frame) : packetHeader := f.head.toBigEndian

/-- The content without the digest behind it. -/
def payload (f : Frame) : List UInt8 :=
  if f.header.security then f.content.take (f.content.length - 16) else f.content

@[simp] theorem length_bytes (f : Frame) : f.bytes.length = f.size := by
  simp [bytes, size]

end Frame

/-- A frame for this session: addressed to it, no longer than a packet, its content one that
`SetContent` takes, with the security of the session and, where that is set, a valid digest. -/
structure WellFormed (env : Env) (secured : Bool) (f : Frame) : Prop where
  remoteID : f.header.remoteID = env.local_id_
  remoteType : f.header.remoteType = env.local_type_
  length : f.header.length.toInt = f.content.length
  packet : f.size ≤ MAX_MSG_PACKET_SIZE
  content : f.content.length + HEADER_LENGTH + 16 ≤ MAX_MSG_PACKET_SIZE
  security : f.header.security = secured
  digest : secured = true → 16 ≤ f.content.length ∧
    f.content.drop (f.content.length - 16) =
      env.md5.digest (f.content.take (f.content.length - 16))

/-- The header passes the check with which `Recv` begins. -/
structure Sane (f : Frame) : Prop where
  remoteID : 0 ≤ f.header.remoteID
  remoteType : f.header.remoteType < eMax
  localType : f.header.localType < eMax
  messageType : f.header.messageType ≤ SystemMessage

/-! ### What a frame becomes -/

variable (env : Env)

/-- The message that holds a well-formed frame, the digest with it. -/
def received (p : Peer) (f : Frame) : Message where
  content := store (env.malloc p.allocs) 0 f.content
  capacity :=
    if f.header.length.toInt + 16 > MAX_RECV_MSG_CONTENT_SIZE then
      (f.header.length.toInt + 16).toNat
    else MAX_RECV_MSG_CONTENT_SIZE
  remoteID := p.remoteID
  remoteType := f.header.localType
  localID := f.header.remoteID
  localType := f.header.remoteType
  reqID := f.header.reqID
  channelID := p.accSock
  messageID := f.header.messageID
  messageType := f.header.messageType
  length := f.header.length
  security := f.header.security
  sendTime := f.header.sendTime
  loopIndex := p.flag / 256 % 256
  group := p.groupID

/-- The message that a well-formed frame becomes. -/
def message (p : Peer) (f : Frame) : Message :=
  { received env p f with
    length := if f.header.security then f.header.length - 16 else f.header.length }

/-- What the session makes of a well-formed frame: it puts the message into the queue, or hands a
connection packet on. -/
def deliver (p : Peer) (f : Frame) : Peer × List Message :=
  let r := Peer.addMessage env { p with allocs := p.allocs + 1 } (message env p f)
  (r.2, if r.1 = 0 then [message env p f] else [])

def deliverAll (p : Peer) : List Frame → Peer × List Message
  | [] => (p, [])
  | f :: fs =>
    let r := deliver env p f
    let rs := deliverAll r.1 fs
    (rs.1, r.2 ++ rs.2)

variable {env}

theorem deliverAll_append (p : Peer) (fs gs : List Frame) :
    deliverAll env p (fs ++ gs) =
      ((deliverAll env (deliverAll env p fs).1 gs).1,
        (deliverAll env p fs).2 ++ (deliverAll env (deliverAll env p fs).1 gs).2) := by
  induction fs generalizing p with
  | nil => rfl
  | cons f fs ih =>
    rw [List.cons_append, deliverAll, deliverAll, ih]
    simp only [List.append_assoc]

theorem deliver_security (p : Peer) (f : Frame) : (deliver env p f).1.security = p.security := by
  unfold deliver Peer.addMessage
  dsimp only
  split_ifs <;> [split; rfl] <;> [rfl; split_ifs <;> rfl]

theorem deliverAll_security (p : Peer) (fs : List Frame) :
    (deliverAll env p fs).1.security = p.security := by
  induction fs generalizing p with
  | nil => rfl
  | cons f fs ih => rw [deliverAll, ih, deliver_security]

/-! ### One packet -/

theorem toInt_sub_16 {n : Int32} (h : 16 ≤ n.toInt) : (n - 16).toInt = n.toInt - 16 := by
  have h16 : (16 : Int32).toInt = 16 := by decide
  have := Int32.toInt_lt n
  rw [Int32.toInt_sub, h16, Int.bmod_eq_of_le (by omega) (by omega)]

theorem slice_store_of_le (m : ℕ → UInt8) (l : List UInt8) {off n : ℕ} (h : off + n ≤ l.length) :
    slice (store m 0 l) off n = (l.drop off).take n := by
  have hl := slice_store_same m 0 l
  conv_rhs => rw [← hl, drop_slice, take_slice]
  rw [Nat.zero_add, Nat.min_eq_left (by omega)]

theorem read?_of_le {m : Message} {off n : ℕ} (h : off + n ≤ m.capacity) :
    m.read? off n = some (slice m.content off n) := by
  unfold Message.read?
  rw [if_pos ⟨by omega, by omega, by omega⟩, Int.toNat_natCast, Int.toNat_natCast]

/-- A valid digest is accepted, and taken off. -/
theorem unEncryptMessage_received {p : Peer} {f : Frame} (hf : WellFormed env p.security f) :
    (received env p f).unEncryptMessage env.md5 = some (true, message env p f) := by
  obtain ⟨-, -, hlen, -, -, hsec, hdig⟩ := hf
  have hC : (MAX_RECV_MSG_CONTENT_SIZE : ℤ) = 1024 := rfl
  unfold Message.unEncryptMessage
  by_cases hs : f.header.security = true
  · obtain ⟨h16, hd⟩ := hdig (hsec ▸ hs)
    have hcap : f.content.length ≤ (received env p f).capacity := by
      unfold received
      dsimp only
      rw [hlen]
      split_ifs <;> omega
    have hread : (received env p f).read? 0 (f.header.length.toInt - 16) =
        some (f.content.take (f.content.length - 16)) := by
      have h := @read?_of_le (received env p f) 0 (f.content.length - 16)
        (by omega)
      rw [show ((f.content.length - 16 : ℕ) : ℤ) = f.header.length.toInt - 16 by omega] at h
      exact h.trans (congrArg some (slice_store_of_le _ _ (by omega)))
    have htail : (received env p f).read? (f.header.length.toInt - 16) 16 =
        some (f.content.drop (f.content.length - 16)) := by
      have h := @read?_of_le (received env p f) (f.content.length - 16) 16
        (by omega)
      rw [show ((f.content.length - 16 : ℕ) : ℤ) = f.header.length.toInt - 16 by omega] at h
      refine h.trans (congrArg some ((slice_store_of_le _ _ (by omega)).trans ?_))
      exact List.take_of_length_le (by rw [List.length_drop]; omega)
    have hrs : (received env p f).security = true := hs
    have hrl : (received env p f).length = f.header.length := rfl
    rw [if_pos hrs, hrl, hread, htail]
    simp only [Option.bind_eq_bind, Option.bind_some]
    rw [hd, if_pos (Message.strncmpEq_self _)]
    unfold message
    rw [if_pos hs]
  · have hrs : ¬ (received env p f).security = true := hs
    rw [if_neg hrs]
    unfold message
    rw [if_neg hs]
    rfl

/-- **A whole packet that holds a well-formed frame becomes what `deliver` says.** -/
theorem handlePacket_eq {p : Peer} {f : Frame} (hf : WellFormed env p.security f)
    {content : ℕ → UInt8} (hc : slice content 0 f.content.length = f.content) :
    p.handlePacket env f.header content = some (deliver env p f) := by
  have hun := unEncryptMessage_received hf
  obtain ⟨hid, htype, hlen, -, hfit, hsec, -⟩ := hf
  have hH : (HEADER_LENGTH : ℤ) = 26 := rfl
  have hM : (MAX_MSG_PACKET_SIZE : ℤ) = 65536 := rfl
  have hto : f.header.length.toInt.toNat = f.content.length := by omega
  have hmove : safeMemmove (env.malloc p.allocs) 0 f.header.length.toInt content
      f.header.length.toInt = some (store (env.malloc p.allocs) 0 f.content) := by
    rw [safeMemmove_of_le _ _ _ (by omega) le_rfl (by omega), hto, hc]
  unfold Peer.handlePacket
  dsimp only
  rw [if_pos ⟨hid, htype, hsec⟩]
  simp only [Message.setContent, Message.setHead, Message.new]
  rw [if_neg (by omega), if_neg (by omega), hmove]
  simp only [Option.map_some, Option.bind_eq_bind, Option.bind_some]
  unfold received at hun
  rw [hun]
  rfl

/-! ### One pass over the buffer -/

theorem header_le_size (f : Frame) : HEADER_LENGTH ≤ f.size := Nat.le_add_right _ _

theorem held_zero (fs : List Frame) :
    taken Frame.size fs 0 = [] ∧ left Frame.size fs 0 = fs ∧ held Frame.size fs 0 = 0 :=
  of_lt fun f _ => lt_of_lt_of_le (by decide) (header_le_size f)

/-- A rest of at most half the buffer is moved. -/
theorem keepRest_eq (s : Session) (off : ℕ) {n : ℕ} (hn : n ≤ MAX_RECV_MSG_SIZE / 2) :
    s.keepRest off n =
      { s with bufRecv := store s.bufRecv 0 (slice s.bufRecv off n), dwRecvPos := n } := by
  have hM : (MAX_RECV_MSG_SIZE : ℤ) = 65536 := rfl
  have hM' : MAX_RECV_MSG_SIZE / 2 = 32768 := rfl
  unfold Session.keepRest
  rw [safeMemmove_of_le _ _ _ (by omega) (by omega) (by omega), Int.toNat_natCast, slice_shift,
    Nat.add_zero]

/-- A longer rest is dropped: the guarded move is told of less room than it is asked to fill. -/
theorem keepRest_drops (s : Session) (off : ℕ) {n : ℕ} (hn : MAX_RECV_MSG_SIZE / 2 < n)
    (hn' : n ≤ MAX_RECV_MSG_SIZE) : s.keepRest off n = { s with dwRecvPos := 0 } := by
  have hM : (MAX_RECV_MSG_SIZE : ℤ) = 65536 := rfl
  have hM' : MAX_RECV_MSG_SIZE / 2 = 32768 := rfl
  unfold Session.keepRest safeMemmove
  rw [dword_of_nonneg (by omega) (by omega), dword_of_nonneg (by omega) (by omega),
    if_pos (by omega)]

theorem decode_window {buf : ℕ → UInt8} {off n : ℕ} {f : Frame} {l rest : List UInt8}
    (h : slice buf off n ++ rest = f.bytes ++ l) (hn : HEADER_LENGTH ≤ n) :
    packetHeader.decode (slice buf off HEADER_LENGTH) = f.head := by
  have hs : slice buf off HEADER_LENGTH = f.head.encode := by
    have ht := congrArg (List.take HEADER_LENGTH) h
    rw [List.take_append_of_le_length (by rw [length_slice]; exact hn), take_slice,
      Nat.min_eq_left hn, Frame.bytes, List.append_assoc,
      List.take_append_of_le_length (by rw [packetHeader.length_encode]),
      List.take_of_length_le (by rw [packetHeader.length_encode])] at ht
    exact ht
  rw [hs]
  have := packetHeader.decode_encode f.head []
  rwa [List.append_nil] at this

/-- A window that contains the first frame whole: its content, and the window behind it. -/
theorem content_window {buf : ℕ → UInt8} {off n : ℕ} {f : Frame} {l rest : List UInt8}
    (h : slice buf off n ++ rest = f.bytes ++ l) (hn : f.size ≤ n) :
    slice (shift buf (off + HEADER_LENGTH)) 0 f.content.length = f.content ∧
    slice buf (off + f.size) (n - f.size) ++ rest = l := by
  have hsplit : slice buf off n = slice buf off HEADER_LENGTH ++
      (slice buf (off + HEADER_LENGTH) f.content.length ++
        slice buf (off + f.size) (n - f.size)) := by
    have hsize : f.size = HEADER_LENGTH + f.content.length := rfl
    conv_lhs => rw [show n = HEADER_LENGTH + (f.content.length + (n - f.size)) by omega]
    rw [slice_add, slice_add, Nat.add_assoc, ← hsize]
  rw [hsplit, Frame.bytes, List.append_assoc, List.append_assoc, List.append_assoc] at h
  obtain ⟨-, h⟩ := List.append_inj h (by simp)
  obtain ⟨h1, h2⟩ := List.append_inj h (by simp)
  exact ⟨by rw [slice_shift, Nat.add_zero]; exact h1, h2⟩

/-- The check with which `Recv` begins. -/
theorem sane_header {f : Frame} (hf : Sane f) (hl : 0 ≤ f.header.length.toInt) :
    ¬ (f.header.remoteID < 0 ∨ f.header.length < 0 ∨ f.header.remoteType ≥ eMax ∨
      f.header.localType ≥ eMax ∨ f.header.messageType > SystemMessage) := by
  obtain ⟨h1, h2, h3, h4⟩ := hf
  rintro (h | h | h | h | h)
  · exact Int16.not_lt.mpr h1 h
  · rw [Int32.lt_iff_toInt_lt] at h
    exact absurd h (by simpa using hl)
  · exact UInt8.not_le.mpr h2 h
  · exact UInt8.not_le.mpr h3 h
  · exact UInt8.not_lt.mpr h4 h

/-- What a pass over a window of `n` bytes comes to: the frames `fs` that the window contains are
delivered, and what it has of the next one is at the front of the buffer. -/
def Passed (env : Env) (fs : List Frame) (s : Session) (off n : ℕ) (vec : List Message)
    (r : Option (Bool × Session × List Message)) : Prop :=
  ∃ s', r = some (false, s', vec ++ (deliverAll env s.toPeer (taken Frame.size fs n)).2) ∧
    s'.toPeer = (deliverAll env s.toPeer (taken Frame.size fs n)).1 ∧
    s'.dwRecvPos = held Frame.size fs n ∧
    slice s'.bufRecv 0 s'.dwRecvPos = (slice s.bufRecv off n).drop (n - held Frame.size fs n)

/-- A pass that stops at once keeps the whole window. -/
theorem passed_stop {fs : List Frame} (s : Session) (off : ℕ) {n : ℕ} (vec : List Message)
    (ht : taken Frame.size fs n = []) (hh : held Frame.size fs n = n)
    (hn : held Frame.size fs n ≤ MAX_RECV_MSG_SIZE / 2) :
    Passed env fs s off n vec (some (false, s.keepRest off n, vec)) := by
  rw [hh] at hn
  have hbuf := slice_store_same s.bufRecv 0 (slice s.bufRecv off n)
  rw [length_slice] at hbuf
  refine ⟨s.keepRest off n, ?_, ?_, ?_, ?_⟩
  · rw [ht, deliverAll, List.append_nil]
  · rw [ht, deliverAll, keepRest_eq s off hn]
  · rw [hh, keepRest_eq s off hn]
  · rw [hh, Nat.sub_self, List.drop_zero, keepRest_eq s off hn]
    exact hbuf

/-- A whole frame at the front of the window is delivered, and the pass goes on behind it. -/
theorem recvPass_frame {f : Frame} {l rest : List UInt8} (fuel : ℕ) (s : Session) (off : ℕ) {n : ℕ}
    (vec : List Message) (hwf : WellFormed env s.security f) (hsane : Sane f)
    (hw : slice s.bufRecv off n ++ rest = f.bytes ++ l) (hle : f.size ≤ n) :
    recvPass env (fuel + 1) s off n vec =
      if n - f.size ≤ 0 then
        some (false, { s with
          toPeer := (deliver env s.toPeer f).1, recvCount := s.recvCount + 1, dwRecvPos := 0 },
          vec ++ (deliver env s.toPeer f).2)
      else recvPass env fuel
        { s with toPeer := (deliver env s.toPeer f).1, recvCount := s.recvCount + 1 }
        (off + f.size) (n - f.size) (vec ++ (deliver env s.toPeer f).2) := by
  have hH : (HEADER_LENGTH : ℤ) = 26 := rfl
  have hM : (MAX_MSG_PACKET_SIZE : ℤ) = 65536 := rfl
  have hsz : f.size = HEADER_LENGTH + f.content.length := rfl
  have hlen := hwf.length
  have hpk := hwf.packet
  have hhead : (packetHeader.decode (slice s.bufRecv off HEADER_LENGTH)).toBigEndian = f.header := by
    rw [decode_window hw (by omega)]
    rfl
  have hto : f.header.length.toInt.toNat = f.content.length := by omega
  obtain ⟨hcont, -⟩ := content_window hw hle
  rw [recvPass]
  dsimp only
  rw [if_neg (by omega), hhead, if_neg (sane_header hsane (by omega)), if_neg (by omega),
    if_neg (by omega), hto, ← hsz, if_neg (by omega), handlePacket_eq hwf hcont]
  rfl

/-- A window that ends in the first frame is kept. -/
theorem recvPass_part {f : Frame} {l rest : List UInt8} (fuel : ℕ) (s : Session) (off : ℕ) {n : ℕ}
    (vec : List Message) (hwf : WellFormed env s.security f) (hsane : Sane f)
    (hw : slice s.bufRecv off n ++ rest = f.bytes ++ l) (hn : n < f.size) :
    recvPass env (fuel + 1) s off n vec = some (false, s.keepRest off n, vec) := by
  have hH : (HEADER_LENGTH : ℤ) = 26 := rfl
  have hM : (MAX_MSG_PACKET_SIZE : ℤ) = 65536 := rfl
  have hsz : f.size = HEADER_LENGTH + f.content.length := rfl
  have hlen := hwf.length
  have hpk := hwf.packet
  rw [recvPass]
  by_cases hlt : n < HEADER_LENGTH
  · rw [if_pos hlt]
  · have hhead : (packetHeader.decode (slice s.bufRecv off HEADER_LENGTH)).toBigEndian = f.header := by
      rw [decode_window hw (by omega)]
      rfl
    have hto : f.header.length.toInt.toNat = f.content.length := by omega
    dsimp only
    rw [if_neg hlt, hhead, if_neg (sane_header hsane (by omega)), if_neg (by omega),
      if_neg (by omega), hto, ← hsz, if_pos hn]

/-- **A pass over a window on the stream** delivers the frames that the window contains and leaves
the rest of it at the front of the buffer, also where the window ends before there is a header of
what stands behind the frames. -/
theorem recvPass_spec {fs : List Frame} {rest tail : List UInt8} (fuel : ℕ) (s : Session) (off n : ℕ)
    (vec : List Message) (hfs : ∀ f ∈ fs, WellFormed env s.security f ∧ Sane f) (hfuel : n < fuel)
    (hw : slice s.bufRecv off n ++ rest = fs.flatMap Frame.bytes ++ tail)
    (hn : n < total Frame.size fs + HEADER_LENGTH)
    (hheld : held Frame.size fs n ≤ MAX_RECV_MSG_SIZE / 2) :
    Passed env fs s off n vec (recvPass env fuel s off n vec) := by
  obtain ⟨fuel, rfl⟩ : ∃ k, fuel = k + 1 := ⟨fuel - 1, by omega⟩
  induction fs generalizing fuel s off n vec with
  | nil =>
    rw [total_nil, Nat.zero_add] at hn
    rw [recvPass, if_pos hn]
    exact passed_stop s off vec rfl rfl hheld
  | cons f fs ih =>
    obtain ⟨hwf, hsane⟩ := hfs f List.mem_cons_self
    have hsz : f.size = HEADER_LENGTH + f.content.length := rfl
    have hH : HEADER_LENGTH = 26 := rfl
    rw [List.flatMap_cons, List.append_assoc] at hw
    by_cases hpart : n < f.size
    · rw [recvPass_part fuel s off vec hwf hsane hw hpart]
      exact passed_stop s off vec (by rw [taken, if_neg (by omega)])
        (by rw [held, if_neg (by omega)]) hheld
    · have hle : f.size ≤ n := Nat.le_of_not_lt hpart
      rw [held, if_pos hle] at hheld
      rw [recvPass_frame fuel s off vec hwf hsane hw hle]
      unfold Passed
      rw [taken, if_pos hle, held, if_pos hle, deliverAll]
      dsimp only
      by_cases hz : n - f.size ≤ 0
      · have h0 : n - f.size = 0 := by omega
        obtain ⟨ht, -, hh⟩ := held_zero fs
        rw [if_pos hz, h0, ht, hh, deliverAll, List.append_nil]
        refine ⟨_, rfl, rfl, rfl, ?_⟩
        rw [slice_zero, List.drop_of_length_le (by rw [length_slice]; omega)]
      · rw [if_neg hz]
        have hsec : (deliver env s.toPeer f).1.security = s.security := deliver_security s.toPeer f
        obtain ⟨fuel, rfl⟩ : ∃ k, fuel = k + 1 := ⟨fuel - 1, by omega⟩
        obtain ⟨s', hr, hp, hpos, hbuf⟩ := ih
          { s with toPeer := (deliver env s.toPeer f).1, recvCount := s.recvCount + 1 }
          (off + f.size) (n - f.size) (vec ++ (deliver env s.toPeer f).2)
          (fun g hg => by rw [hsec]; exact hfs g (List.mem_cons_of_mem _ hg))
          (content_window hw hle).2 (by rw [total_cons] at hn; omega) hheld fuel (by omega)
        refine ⟨s', ?_, hp, hpos, ?_⟩
        · rw [hr, List.append_assoc]
        · have hhl := @held_le _ Frame.size fs (n - f.size)
          rw [hbuf, drop_slice, drop_slice]
          congr 1 <;> omega

/-! ### Between the calls of `recv` -/

/-- The session has received `n` bytes of the stream of `frames`, and `rest` is still to come: the
buffer holds the bytes of the first frame left. -/
structure Window (frames : List Frame) (n : ℕ) (rest : List UInt8) (s : Session) : Prop where
  pos : s.dwRecvPos = held Frame.size frames n
  half : held Frame.size frames n ≤ MAX_RECV_MSG_SIZE / 2
  stream : slice s.bufRecv 0 s.dwRecvPos ++ rest = (left Frame.size frames n).flatMap Frame.bytes

/-- What the socket promises of the chunks behind the first `n` bytes: a `recv` returns at least one
byte, and no more than there is room for behind the bytes held. -/
def Offered (frames : List Frame) : ℕ → List (List UInt8) → Prop
  | _, [] => True
  | n, c :: cs =>
    (c ≠ [] ∧ held Frame.size frames n + c.length ≤ MAX_RECV_MSG_SIZE) ∧
      Offered frames (n + c.length) cs

/-- No chunk ends with more than half a buffer of an incomplete frame. -/
def Movable (frames : List Frame) : ℕ → List (List UInt8) → Prop
  | _, [] => True
  | n, c :: cs =>
    held Frame.size frames (n + c.length) ≤ MAX_RECV_MSG_SIZE / 2 ∧
      Movable frames (n + c.length) cs

/-- The frames that `k` bytes behind the first `n` complete. -/
def completed (frames : List Frame) (n k : ℕ) : List Frame :=
  taken Frame.size (left Frame.size frames n) (held Frame.size frames n + k)

theorem completed_zero (frames : List Frame) (n : ℕ) : completed frames n 0 = [] :=
  (held_held frames n).1

theorem completed_add (frames : List Frame) (n k k' : ℕ) :
    completed frames n (k + k') = completed frames n k ++ completed frames (n + k) k' := by
  unfold completed
  rw [left_add, held_add, ← Nat.add_assoc, taken_add]

theorem completed_total (frames : List Frame) :
    completed frames 0 (total Frame.size frames) = frames := by
  obtain ⟨-, hl, hh⟩ := held_zero frames
  rw [completed, hl, hh, Nat.zero_add, taken_total]

theorem mem_of_mem_left {frames : List Frame} {n : ℕ} {f : Frame}
    (h : f ∈ left Frame.size frames n) : f ∈ frames := by
  rw [← @taken_append_left _ Frame.size frames n]
  exact List.mem_append_right _ h

/-- The same where the stream goes on with `tail` behind the frames. -/
structure WindowOn (frames : List Frame) (tail : List UInt8) (n : ℕ) (rest : List UInt8) (s : Session) :
    Prop where
  pos : s.dwRecvPos = held Frame.size frames n
  half : held Frame.size frames n ≤ MAX_RECV_MSG_SIZE / 2
  stream : slice s.bufRecv 0 s.dwRecvPos ++ rest =
    (left Frame.size frames n).flatMap Frame.bytes ++ tail

theorem window_iff {frames : List Frame} {n : ℕ} {rest : List UInt8} {s : Session} :
    Window frames n rest s ↔ WindowOn frames [] n rest s :=
  ⟨fun ⟨h1, h2, h3⟩ => ⟨h1, h2, h3.trans (List.append_nil _).symm⟩,
    fun ⟨h1, h2, h3⟩ => ⟨h1, h2, h3.trans (List.append_nil _)⟩⟩

/-- No more than the stream is received. -/
theorem Window.le {frames : List Frame} {n : ℕ} {l rest : List UInt8} {s : Session}
    (h : Window frames n (l ++ rest) s) : n + l.length ≤ total Frame.size frames := by
  have hlen := congrArg List.length h.stream
  rw [List.length_append, List.length_append, length_slice, h.pos, length_flatMap Frame.length_bytes] at hlen
  have := @total_left_add _ Frame.size frames n
  omega

/-- **A pass over the bytes held and a chunk behind them.** -/
theorem recvVec_spec {frames : List Frame} {n : ℕ} {c rest tail : List UInt8} {s : Session}
    (vec : List Message) (hfs : ∀ f ∈ frames, WellFormed env s.security f ∧ Sane f)
    (hpos : s.dwRecvPos = held Frame.size frames n + c.length)
    (hstream : slice s.bufRecv 0 s.dwRecvPos ++ rest =
      (left Frame.size frames n).flatMap Frame.bytes ++ tail)
    (hn : n + c.length < total Frame.size frames + HEADER_LENGTH)
    (hhalf : held Frame.size frames (n + c.length) ≤ MAX_RECV_MSG_SIZE / 2) :
    ∃ s', s.recvVec env vec =
        some (false, s', vec ++ (deliverAll env s.toPeer (completed frames n c.length)).2) ∧
      s'.toPeer = (deliverAll env s.toPeer (completed frames n c.length)).1 ∧
      WindowOn frames tail (n + c.length) rest s' := by
  have hheld : held Frame.size (left Frame.size frames n) s.dwRecvPos =
      held Frame.size frames (n + c.length) := by rw [hpos, ← held_add]
  have htotal := @total_left_add _ Frame.size frames n
  obtain ⟨s', hr, hp, hpos', hbuf⟩ := recvPass_spec (s.dwRecvPos + 1) s 0 s.dwRecvPos vec
    (fun f hf => hfs f (mem_of_mem_left hf)) (Nat.lt_succ_self _) hstream (by omega) (hheld ▸ hhalf)
  have hdrop := drop_window Frame.length_bytes hstream
  rw [length_slice] at hdrop
  unfold completed
  rw [← hpos]
  refine ⟨s', hr, hp, ⟨hpos'.trans hheld, hhalf, ?_⟩⟩
  rw [hbuf, hdrop, left_add, hpos]

theorem packageCount_snd (s : Session) (now : ℤ) :
    (s.packageCount now).2.toPeer = s.toPeer ∧ (s.packageCount now).2.bufRecv = s.bufRecv ∧
    (s.packageCount now).2.dwRecvPos = s.dwRecvPos := by
  unfold Session.packageCount
  split_ifs <;> exact ⟨rfl, rfl, rfl⟩

/-- The calls of `recv` that return the chunks, one after the other. -/
theorem recv_chunks {frames : List Frame} {rest tail : List UInt8} (now : ℤ)
    (chunks : List (List UInt8)) (l : List RecvRet) (n : ℕ) (s : Session) (vec : List Message)
    (hfs : ∀ f ∈ frames, WellFormed env s.security f ∧ Sane f)
    (hw : WindowOn frames tail n (chunks.flatten ++ rest) s) (ho : Offered frames n chunks)
    (hm : Movable frames n chunks)
    (hn : n + chunks.flatten.length < total Frame.size frames + HEADER_LENGTH) :
    ∃ s', s.recv env now (chunks.map RecvRet.data ++ l) vec =
        s'.recv env now l (vec ++
          (deliverAll env s.toPeer (completed frames n chunks.flatten.length)).2) ∧
      s'.toPeer = (deliverAll env s.toPeer (completed frames n chunks.flatten.length)).1 ∧
      WindowOn frames tail (n + chunks.flatten.length) rest s' := by
  induction chunks generalizing n s vec with
  | nil =>
    refine ⟨s, ?_, ?_, hw⟩
    · rw [List.flatten_nil, List.length_nil, completed_zero, deliverAll, List.append_nil]
      rfl
    · rw [List.flatten_nil, List.length_nil, completed_zero, deliverAll]
  | cons c cs ih =>
    obtain ⟨⟨hne, hroom⟩, ho⟩ := ho
    obtain ⟨hhalf, hm⟩ := hm
    obtain ⟨hpos, -, hstream⟩ := hw
    have hlen : (c :: cs).flatten.length = c.length + cs.flatten.length := by
      rw [List.flatten_cons, List.length_append]
    have hbuf : slice (s.fill c).bufRecv 0 (s.fill c).dwRecvPos =
        slice s.bufRecv 0 s.dwRecvPos ++ c := by
      have := slice_store_append s.bufRecv 0 s.dwRecvPos c
      rwa [Nat.zero_add] at this
    rw [List.flatten_cons, List.append_assoc, ← List.append_assoc, ← hbuf] at hstream
    rw [hlen] at hn
    have hfill : (s.fill c).dwRecvPos = held Frame.size frames n + c.length := by rw [← hpos]; rfl
    have hfirst : s.recv env now ((c :: cs).map RecvRet.data ++ l) vec =
        if (s.fill c).dwRecvPos < HEADER_LENGTH then
          (s.fill c).recv env now (cs.map RecvRet.data ++ l) vec
        else ((s.fill c).recvVec env vec).bind fun r =>
          if r.1 then some (.eSocketClose, r.2.1, [])
          else r.2.1.recv env now (cs.map RecvRet.data ++ l) r.2.2 := by
      rw [List.map_cons, List.cons_append, Session.recv,
        if_neg (by rw [hpos]; rintro (h | h); exacts [hne h, absurd h (by omega)])]
      rfl
    rw [hfirst, hlen, completed_add, deliverAll_append, ← Nat.add_assoc]
    by_cases hsmall : (s.fill c).dwRecvPos < HEADER_LENGTH
    · obtain ⟨ht, hl, hh⟩ := @of_lt _ Frame.size (left Frame.size frames n)
        (held Frame.size frames n + c.length)
        fun f _ => lt_of_lt_of_le (by omega) (header_le_size f)
      have hnone : completed frames n c.length = [] := ht
      obtain ⟨s', hr, hp, hw'⟩ := ih (n + c.length) (s.fill c) vec hfs
        ⟨by rw [held_add, hh, hfill], hhalf, by rw [left_add, hl]; exact hstream⟩ ho hm (by omega)
      rw [if_pos hsmall, hnone]
      exact ⟨s', hr, hp, hw'⟩
    · obtain ⟨s₁, hr₁, hp₁, hw₁⟩ := recvVec_spec (s := s.fill c) vec hfs hfill hstream (by omega) hhalf
      have hpeer : (s.fill c).toPeer = s.toPeer := rfl
      have hsec : s₁.security = s.security := by
        rw [hp₁]; exact deliverAll_security _ _
      obtain ⟨s', hr, hp, hw'⟩ := ih (n + c.length) s₁
        (vec ++ (deliverAll env (s.fill c).toPeer (completed frames n c.length)).2)
        (hsec ▸ hfs) hw₁ ho hm (by omega)
      rw [if_neg hsmall, hr₁]
      simp only [Option.bind_some, Bool.false_eq_true, if_false]
      rw [hp₁, hpeer] at hr hp
      exact ⟨s', by rw [hpeer, hr, List.append_assoc], hp, hw'⟩

/-- **A call of `Recv()`** hands over the frames that its chunks complete. -/
theorem recv_spec {frames : List Frame} {rest tail : List UInt8} (now : ℤ) (chunks : List (List UInt8))
    (n : ℕ) (s : Session) (vec : List Message)
    (hfs : ∀ f ∈ frames, WellFormed env s.security f ∧ Sane f)
    (hw : WindowOn frames tail n (chunks.flatten ++ rest) s) (ho : Offered frames n chunks)
    (hm : Movable frames n chunks)
    (hn : n + chunks.flatten.length < total Frame.size frames + HEADER_LENGTH) :
    ∃ code s', s.recv env now (chunks.map RecvRet.data ++ [.again]) vec =
        some (code, s', vec ++
          (deliverAll env s.toPeer (completed frames n chunks.flatten.length)).2) ∧
      s'.toPeer = (deliverAll env s.toPeer (completed frames n chunks.flatten.length)).1 ∧
      WindowOn frames tail (n + chunks.flatten.length) rest s' := by
  obtain ⟨s₁, hr₁, hp₁, hpos, hhalf, hstream⟩ := recv_chunks now chunks [.again] n s vec hfs hw ho hm hn
  have hsec : s₁.security = s.security := by rw [hp₁]; exact deliverAll_security _ _
  obtain ⟨s', hr, hp, hw'⟩ := recvVec_spec (c := [])
    (vec ++ (deliverAll env s.toPeer (completed frames n chunks.flatten.length)).2) (hsec ▸ hfs) hpos
    hstream (by rwa [List.length_nil, Nat.add_zero]) hhalf
  rw [List.length_nil, completed_zero, deliverAll, List.append_nil] at hr
  rw [List.length_nil, completed_zero, deliverAll] at hp
  obtain ⟨h1, h2, h3⟩ := packageCount_snd s' now
  refine ⟨(s'.packageCount now).1, (s'.packageCount now).2, ?_, h1.trans (hp.trans hp₁), ?_⟩
  · simp only [hr₁, Session.recv, hr, Option.bind_eq_bind, Option.bind_some]
    rfl
  · exact ⟨h3.trans hw'.pos, hw'.half, by rw [h2, h3]; exact hw'.stream⟩

/-! ### Whole streams -/

theorem offered_append {frames : List Frame} {n : ℕ} {cs ds : List (List UInt8)} :
    Offered frames n (cs ++ ds) ↔ Offered frames n cs ∧ Offered frames (n + cs.flatten.length) ds := by
  induction cs generalizing n with
  | nil => simp [Offered]
  | cons c cs ih =>
    rw [List.cons_append, Offered, Offered, ih, List.flatten_cons, List.length_append,
      Nat.add_assoc]
    exact and_assoc.symm

theorem movable_append {frames : List Frame} {n : ℕ} {cs ds : List (List UInt8)} :
    Movable frames n (cs ++ ds) ↔ Movable frames n cs ∧ Movable frames (n + cs.flatten.length) ds := by
  induction cs generalizing n with
  | nil => simp [Movable]
  | cons c cs ih =>
    rw [List.cons_append, Movable, Movable, ih, List.flatten_cons, List.length_append,
      Nat.add_assoc]
    exact and_assoc.symm

theorem recvAll_spec {frames : List Frame} {rest : List UInt8}
    (invs : List (ℤ × List (List UInt8))) (n : ℕ) (s : Session)
    (hfs : ∀ f ∈ frames, WellFormed env s.security f ∧ Sane f)
    (hw : Window frames n ((invs.flatMap Prod.snd).flatten ++ rest) s)
    (ho : Offered frames n (invs.flatMap Prod.snd))
    (hm : Movable frames n (invs.flatMap Prod.snd)) :
    ∃ s', recvAll env invs s = some (s', (deliverAll env s.toPeer
        (completed frames n (invs.flatMap Prod.snd).flatten.length)).2) ∧
      Window frames (n + (invs.flatMap Prod.snd).flatten.length) rest s' := by
  induction invs generalizing n s with
  | nil => exact ⟨s, by rw [recvAll, List.flatMap_nil, List.flatten_nil, List.length_nil,
      completed_zero, deliverAll], hw⟩
  | cons i invs ih =>
    obtain ⟨now, chunks⟩ := i
    rw [List.flatMap_cons] at hw ho hm ⊢
    rw [List.flatten_append, List.append_assoc] at hw
    rw [offered_append] at ho
    rw [movable_append] at hm
    have hle := hw.le
    obtain ⟨code, s₁, hr₁, hp₁, hw₁⟩ := recv_spec now chunks n s [] hfs (window_iff.mp hw) ho.1 hm.1
      (lt_of_le_of_lt hle (Nat.lt_add_of_pos_right (by decide)))
    have hsec : s₁.security = s.security := by rw [hp₁]; exact deliverAll_security _ _
    obtain ⟨s', hr, hw'⟩ := ih _ s₁ (hsec ▸ hfs) (window_iff.mpr hw₁) ho.2 hm.2
    rw [List.flatten_append, List.length_append, completed_add, deliverAll_append, ← Nat.add_assoc]
    refine ⟨s', ?_, hw'⟩
    rw [recvAll]
    simp only [hr₁, Option.bind_eq_bind, Option.bind_some, hr, hp₁, List.nil_append]

/-- One frame a chunk is a segmentation that every socket may choose, and no chunk of it ends inside
a frame. -/
theorem frames_offered {pre : List Frame} {secured : Bool} (post : List Frame)
    (hfs : ∀ f ∈ post, WellFormed env secured f) :
    Offered (pre ++ post) (total Frame.size pre) (post.map Frame.bytes) ∧
    Movable (pre ++ post) (total Frame.size pre) (post.map Frame.bytes) := by
  induction post generalizing pre with
  | nil => exact ⟨trivial, trivial⟩
  | cons f post ih =>
    have hf := (hfs f List.mem_cons_self).packet
    have hlen : total Frame.size pre + f.bytes.length = total Frame.size (pre ++ [f]) := by
      rw [total_append, total_cons, total_nil, Frame.length_bytes, Nat.add_zero]
    have hne : f.bytes ≠ [] := by
      intro h
      have := congrArg List.length h
      rw [Frame.length_bytes] at this
      have := header_le_size f
      simp only [List.length_nil, HEADER_LENGTH] at *
      omega
    have ih := @ih (pre ++ [f]) fun g hg => hfs g (List.mem_cons_of_mem _ hg)
    rw [List.append_assoc, List.singleton_append] at ih
    have h0 := @held_append_total _ Frame.size pre (f :: post)
    have h1 := @held_append_total _ Frame.size (pre ++ [f]) post
    rw [List.append_assoc, List.singleton_append] at h1
    rw [List.map_cons, Offered, Movable, hlen, h0, h1, Nat.zero_add, Frame.length_bytes]
    exact ⟨⟨⟨hne, hf⟩, ih.1⟩, Nat.zero_le _, ih.2⟩

/-! ### What the dispatcher gets -/

/-- The message has the fields of the frame's header, and the frame's payload. -/
structure Carries (f : Frame) (m : Message) : Prop where
  length : m.length.toInt = f.payload.length
  bytes : m.bytes = f.payload
  messageID : m.messageID = f.header.messageID
  messageType : m.messageType = f.header.messageType
  reqID : m.reqID = f.header.reqID
  sendTime : m.sendTime = f.header.sendTime
  security : m.security = f.header.security
  localID : m.localID = f.header.remoteID
  localType : m.localType = f.header.remoteType
  remoteType : m.remoteType = f.header.localType

theorem message_carries {p : Peer} {f : Frame} {secured : Bool} (hf : WellFormed env secured f) :
    Carries f (message env p f) := by
  have hlen : (message env p f).length.toInt = f.payload.length := by
    have hl := hf.length
    unfold message Frame.payload
    dsimp only
    split_ifs with hs
    · have h16 := (hf.digest (hf.security ▸ hs)).1
      rw [toInt_sub_16 (by omega), List.length_take]
      omega
    · exact hl
  refine ⟨hlen, ?_, rfl, rfl, rfl, rfl, rfl, rfl, rfl, rfl⟩
  have hpre : f.payload <+: f.content := by
    unfold Frame.payload
    split_ifs
    · exact List.take_prefix _ _
    · exact List.prefix_rfl
  have hle := hpre.length_le
  unfold Message.bytes
  rw [hlen, Int.toNat_natCast]
  show slice (store (env.malloc p.allocs) 0 f.content) 0 f.payload.length = f.payload
  rw [slice_store_of_le _ _ (by omega), List.drop_zero]
  exact (List.prefix_iff_eq_take.mp hpre).symm

theorem addMessage_eq_zero (p : Peer) (m : Message) :
    (p.addMessage env m).1 = 0 ↔ m.messageType ≠ ConnMessage := by
  unfold Peer.addMessage
  by_cases h : m.messageType = ConnMessage
  · rw [if_pos h]
    simp only [h, ne_eq, not_true_eq_false, iff_false]
    split
    · simp
    · split_ifs <;> simp
  · rw [if_neg h]
    simp [h]

/-- A frame that is not a connection packet becomes one message, and a connection packet none. -/
theorem deliver_snd (p : Peer) (f : Frame) :
    (deliver env p f).2 =
      if f.header.messageType = ConnMessage then [] else [message env p f] := by
  have ht : (message env p f).messageType = f.header.messageType := rfl
  unfold deliver
  dsimp only
  simp only [addMessage_eq_zero, ht, ne_eq, ite_not]

theorem deliverAll_carries {secured : Bool} (p : Peer) (frames : List Frame)
    (hfs : ∀ f ∈ frames, WellFormed env secured f) :
    List.Forall₂ Carries (frames.filter fun f => f.header.messageType ≠ ConnMessage)
      (deliverAll env p frames).2 := by
  induction frames generalizing p with
  | nil => exact .nil
  | cons f fs ih =>
    have ih := ih (deliver env p f).1 fun g hg => hfs g (List.mem_cons_of_mem _ hg)
    rw [deliverAll, deliver_snd]
    by_cases h : f.header.messageType = ConnMessage
    · rw [List.filter_cons_of_neg (by simpa using h), if_pos h]
      exact ih
    · rw [List.filter_cons_of_pos (by simpa using h), if_neg h]
      exact .cons (message_carries (hfs f List.mem_cons_self)) ih

/-- A game server, number 1, that checks no digests. -/
def gameServer : Env where
  local_id_ := 1
  local_type_ := 2
  md5 := zeroMD5
  malloc := fun _ _ => 0
  connectSuccess := fun _ _ => none

def idle : Session := { bufRecv := fun _ => 0, remoteType := 1 }

/-- A frame of three bytes from a server. -/
def chat : Frame where
  head := { length := 3, remoteType := 2, remoteID := 1, localType := 1, messageID := 7,
            messageType := SimpleMessage, reqID := 0 }
  content := [1, 2, 3]

theorem wellFormed_chat : WellFormed gameServer false chat ∧ Sane chat :=
  ⟨⟨by decide, by decide, by decide, by decide, by decide, by decide, by decide⟩,
    ⟨by decide, by decide, by decide, by decide⟩⟩

/-- A connection packet, and a frame of a sender of no known type. -/
def hello : Frame where
  head := { length := 0, remoteType := 2, remoteID := 1, localType := 1, messageType := ConnMessage }
  content := []

def stray : Frame where
  head := { length := 0, remoteType := 2, remoteID := 1, localType := eMax,
            messageType := SimpleMessage }
  content := []

end ChatShow.CommBase.Segmentation
