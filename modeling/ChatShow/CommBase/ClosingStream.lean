import ChatShow.CommBase.Segmentation
import ChatShow.CommBase.EventLoop
import Mathlib.Data.List.Forall2

/-! # The end of a stream

The peer closes the connection, or sends a malformed frame for which the session is closed, behind a stream of
well-formed frames. `Recv()` puts the messages into a queue of its own and hands the queue over at its end,
but returns before that where it finds the end of the stream or a malformed frame; and an event that tells of
the close is not read at all. So the dispatcher gets every message that stands before the close just where
the event of the close brings none (`handed_iff`). -/

namespace ChatShow.CommBase.ClosingStream

open ChatShow.Lib.Cells ChatShow.Lib.Framing ChatShow.Lib.Runs
open ChatShow.CommBase.NetWorkConfig ChatShow.CommBase.MessageManager ChatShow.CommBase.Segmentation
open ChatShow.CommBase.EventLoop (Mask)
open ChatShow.CommBase.SessionRecv (Env Session Peer RecvRet recvPass)

/-! ### The events of a session -/

/-- An event of the descriptor of a session, the chunks that have come with it, as `recv` returns them, whether
`recv` returns 0 behind them, and whether `Send` returns `eSocketClose`. Bytes that can be read are told of. -/
structure Event where
  mask : Mask
  now : ℤ
  chunks : List (List UInt8)
  fin : Bool
  sendClose : Bool := false
  told : mask.epollin = false → chunks = []

namespace Event

/-- How many bytes have come. -/
def bytes (e : Event) : ℕ := e.chunks.flatten.length

/-- What the calls of `recv` return. -/
def rets (e : Event) : List RecvRet := e.chunks.map .data ++ [if e.fin then .closed else .again]

end Event

/-- The session, what it has handed to the dispatcher, and whether a branch of an event has closed it. -/
structure Served where
  session : Session
  handed : List Message := []
  closed : Bool := false

variable (env : Env)

/-- The branches of an event: whether one closes the session, the session, and the messages that are handed to
the dispatcher. -/
def serve (s : Session) (e : Event) : Option (Bool × Session × List Message) := do
  let (close, s, handed) ←
    if e.mask.reads then (s.recv env e.now e.rets []).map fun r => (decide (r.1 = .eSocketClose), r.2)
    else some (false, s, [])
  some (close || (e.mask.epollout && e.sendClose) || e.mask.hangs || !e.mask.exe, s, handed)

/-- A closed session gets no further event. -/
def step (s : Served) (e : Event) : Option Served :=
  if s.closed then none
  else do
    let (closed, session, handed) ← serve env s.session e
    some { session := session, handed := s.handed ++ handed, closed := closed }

/-! ### The stream -/

/-- The bytes begin with a header that the check with which `Recv` begins refuses, or with one of a packet that
is too long. -/
def Malformed (l : List UInt8) : Prop :=
  HEADER_LENGTH ≤ l.length ∧
  let head := (packetHeader.decode (l.take HEADER_LENGTH)).toBigEndian
  (head.remoteID < 0 ∨ head.length < 0 ∨ head.remoteType ≥ eMax ∨ head.localType ≥ eMax ∨
      head.messageType > SystemMessage) ∨
    MAX_MSG_PACKET_SIZE < head.length.toInt + HEADER_LENGTH ∧ head.length.toInt + HEADER_LENGTH < 2147483648

/-- `ConnectSuccess` takes every connection packet: one that it refuses closes the session by itself. -/
def Taken (p : Peer) : List Frame → Prop
  | [] => True
  | f :: fs =>
    0 ≤ (Peer.addMessage env { p with allocs := p.allocs + 1 } (message env p f)).1 ∧
      Taken (deliver env p f).1 fs

/-- A stream to the session: well-formed frames, and nothing behind them or a malformed frame of a client, for
which the server closes the session. -/
structure Stream (s : Session) (frames : List Frame) (tail : List UInt8) : Prop where
  wellFormed : ∀ f ∈ frames, WellFormed env s.security f ∧ Sane f
  connected : Taken env s.toPeer frames
  ending : tail = [] ∨ Malformed tail ∧ (deliverAll env s.toPeer frames).1.remoteType = eClient

/-- What the socket promises, up to a malformed header: a `recv` returns at least one byte, and no more than there
is room for. -/
def Offers (frames : List Frame) (n : ℕ) (chunks : List (List UInt8)) : Prop :=
  ∀ l c, l ++ [c] <+: chunks → n + l.flatten.length < total Frame.size frames + HEADER_LENGTH →
    c ≠ [] ∧ held Frame.size frames (n + l.flatten.length) + c.length ≤ MAX_RECV_MSG_SIZE

/-- A chunk that ends before a malformed header is complete ends with at most half a buffer of an incomplete
frame. -/
def Moves (frames : List Frame) (n : ℕ) (chunks : List (List UInt8)) : Prop :=
  ∀ l, l <+: chunks → n + l.flatten.length < total Frame.size frames + HEADER_LENGTH →
    held Frame.size frames (n + l.flatten.length) ≤ MAX_RECV_MSG_SIZE / 2

/-- `Recv()` comes to its end: the event is read, and it brings neither the end of the stream nor the header of a
malformed frame. -/
def Event.ReadsOn (frames : List Frame) (n : ℕ) (e : Event) : Prop :=
  e.mask.reads = true ∧ e.fin = false ∧ n + e.bytes < total Frame.size frames + HEADER_LENGTH

/-- An event that is not read to its end completes no frame but connection packets. -/
def Kept (frames : List Frame) : ℕ → List Event → Prop
  | _, [] => True
  | n, e :: es =>
    (e.ReadsOn frames n ∨ ∀ f ∈ completed frames n e.bytes, f.header.messageType = ConnMessage) ∧
      Kept frames (n + e.bytes) es

/-- The dispatcher has got the frames but for the connection packets, in their order and each once. -/
def Hands (frames : List Frame) (handed : List Message) : Prop :=
  List.Forall₂ Carries (frames.filter fun f => f.header.messageType ≠ ConnMessage) handed

section

variable {env : Env} {frames : List Frame} {tail rest : List UInt8} {n : ℕ} {s : Session}

/-! ### Chunks -/

theorem Offers.offered {chunks : List (List UInt8)} (h : Offers frames n chunks)
    (hn : n + chunks.flatten.length < total Frame.size frames + HEADER_LENGTH) :
    Offered frames n chunks := by
  induction chunks generalizing n with
  | nil => trivial
  | cons c cs ih =>
    rw [List.flatten_cons, List.length_append] at hn
    refine ⟨h [] c ⟨cs, rfl⟩ (by rw [List.flatten_nil, List.length_nil]; omega), ih (fun l c' hl hlt => ?_) (by omega)⟩
    have hc := h (c :: l) c' (List.cons_prefix_cons.mpr ⟨rfl, hl⟩)
    rw [List.flatten_cons, List.length_append, ← Nat.add_assoc] at hc
    exact hc hlt

theorem Moves.movable {chunks : List (List UInt8)} (h : Moves frames n chunks)
    (hn : n + chunks.flatten.length < total Frame.size frames + HEADER_LENGTH) :
    Movable frames n chunks := by
  induction chunks generalizing n with
  | nil => trivial
  | cons c cs ih =>
    rw [List.flatten_cons, List.length_append] at hn
    have hnext (l : List (List UInt8)) (hl : l <+: cs)
        (hlt : n + c.length + l.flatten.length < total Frame.size frames + HEADER_LENGTH) :
        held Frame.size frames (n + c.length + l.flatten.length) ≤ MAX_RECV_MSG_SIZE / 2 := by
      have hc := h (c :: l) (List.cons_prefix_cons.mpr ⟨rfl, hl⟩)
      rw [List.flatten_cons, List.length_append, ← Nat.add_assoc] at hc
      exact hc hlt
    exact ⟨hnext [] (List.nil_prefix) (by rw [List.flatten_nil, List.length_nil]; omega), ih hnext (by omega)⟩

theorem Offers.append {cs ds : List (List UInt8)} (h : Offers frames n (cs ++ ds)) :
    Offers frames n cs ∧ Offers frames (n + cs.flatten.length) ds := by
  refine ⟨fun l c hl => h l c (hl.trans (List.prefix_append cs ds)), fun l c hl hlt => ?_⟩
  have hc := h (cs ++ l) c (by rw [List.append_assoc]; exact (List.prefix_append_right_inj cs).mpr hl)
  rw [List.flatten_append, List.length_append, ← Nat.add_assoc] at hc
  exact hc hlt

theorem Moves.append {cs ds : List (List UInt8)} (h : Moves frames n (cs ++ ds)) :
    Moves frames n cs ∧ Moves frames (n + cs.flatten.length) ds := by
  refine ⟨fun l hl => h l (hl.trans (List.prefix_append cs ds)), fun l hl hlt => ?_⟩
  have hc := h (cs ++ l) ((List.prefix_append_right_inj cs).mpr hl)
  rw [List.flatten_append, List.length_append, ← Nat.add_assoc] at hc
  exact hc hlt

/-- The chunk in which a mark is reached. -/
theorem exists_crossing {mark : ℕ} {chunks : List (List UInt8)} (hn : n < mark)
    (h : mark ≤ n + chunks.flatten.length) :
    ∃ l c l', chunks = l ++ c :: l' ∧ n + l.flatten.length < mark ∧ mark ≤ n + l.flatten.length + c.length := by
  induction chunks generalizing n with
  | nil =>
    rw [List.flatten_nil, List.length_nil] at h
    omega
  | cons c cs ih =>
    rw [List.flatten_cons, List.length_append, ← Nat.add_assoc] at h
    by_cases hc : mark ≤ n + c.length
    · exact ⟨[], c, cs, rfl, by rwa [List.flatten_nil, List.length_nil], by rwa [List.flatten_nil, List.length_nil]⟩
    · obtain ⟨l, d, l', rfl, h1, h2⟩ := ih (Nat.lt_of_not_le hc) h
      refine ⟨c :: l, d, l', rfl, ?_, ?_⟩
      · rwa [List.flatten_cons, List.length_append, ← Nat.add_assoc]
      · rwa [List.flatten_cons, List.length_append, ← Nat.add_assoc n]

/-! ### A malformed frame -/

/-- A pass that reaches a malformed frame of a client closes the session. -/
theorem recvPass_malformed {fs : List Frame} (fuel : ℕ) (s : Session) (off n : ℕ) (vec : List Message)
    (hfs : ∀ f ∈ fs, WellFormed env s.security f ∧ Sane f) (hfuel : n < fuel)
    (hw : slice s.bufRecv off n ++ rest = fs.flatMap Frame.bytes ++ tail)
    (hn : total Frame.size fs + HEADER_LENGTH ≤ n) (hbad : Malformed tail)
    (hclient : (deliverAll env s.toPeer fs).1.remoteType = eClient) :
    ∃ s' vec', recvPass env fuel s off n vec = some (true, s', vec') := by
  obtain ⟨fuel, rfl⟩ : ∃ k, fuel = k + 1 := ⟨fuel - 1, by omega⟩
  have hH : HEADER_LENGTH = 26 := rfl
  induction fs generalizing fuel s off n vec with
  | nil =>
    rw [total_nil, Nat.zero_add] at hn
    have hhead : slice s.bufRecv off HEADER_LENGTH = tail.take HEADER_LENGTH := by
      have ht := congrArg (List.take HEADER_LENGTH) hw
      rwa [List.take_append_of_le_length (by rw [length_slice]; exact hn), take_slice, Nat.min_eq_left hn,
        List.flatMap_nil, List.nil_append] at ht
    have hremote : s.remoteType = eClient := hclient
    obtain ⟨-, hbad⟩ := hbad
    rw [recvPass, if_neg (by omega)]
    dsimp only at hbad ⊢
    rw [hhead, if_pos hremote]
    split
    case isTrue => exact ⟨_, _, rfl⟩
    case isFalse hsane =>
      obtain ⟨hlong, hint⟩ := hbad.resolve_left hsane
      rw [if_neg (Int.not_le.mpr hint), if_pos hlong]
      exact ⟨_, _, rfl⟩
  | cons f fs ih =>
    obtain ⟨hwf, hsane⟩ := hfs f List.mem_cons_self
    rw [List.flatMap_cons, List.append_assoc] at hw
    rw [total_cons] at hn
    have hle : f.size ≤ n := by omega
    have hsec : (deliver env s.toPeer f).1.security = s.security := deliver_security s.toPeer f
    have hsz : HEADER_LENGTH ≤ f.size := header_le_size f
    obtain ⟨fuel, rfl⟩ : ∃ k, fuel = k + 1 := ⟨fuel - 1, by omega⟩
    rw [recvPass_frame (fuel + 1) s off vec hwf hsane hw hle, if_neg (by omega)]
    exact ih { s with toPeer := (deliver env s.toPeer f).1, recvCount := s.recvCount + 1 } (off + f.size)
      (n - f.size) (vec ++ (deliver env s.toPeer f).2)
      (fun g hg => by rw [hsec]; exact hfs g (List.mem_cons_of_mem _ hg)) (content_window hw hle).2 (by omega)
      hclient fuel (by omega)

/-! ### One event -/

/-- The session is open, `n` bytes of the stream have been received, and no malformed header. -/
structure Open (env : Env) (frames : List Frame) (tail : List UInt8) (n : ℕ) (rest : List UInt8)
    (s : Session) : Prop where
  window : WindowOn frames tail n rest s
  wellFormed : ∀ f ∈ frames, WellFormed env s.security f ∧ Sane f
  ending : tail = [] ∨ Malformed tail ∧
    (deliverAll env s.toPeer (left Frame.size frames n)).1.remoteType = eClient
  lt : n < total Frame.size frames + HEADER_LENGTH

theorem mem_completed {n k : ℕ} {f : Frame} (h : f ∈ completed frames n k) : f ∈ frames := by
  refine @mem_of_mem_left _ n f ?_
  rw [← @taken_append_left _ Frame.size (left Frame.size frames n) (held Frame.size frames n + k)]
  exact List.mem_append_left _ h

/-- What an event completes, and what is left behind it. -/
theorem left_eq (frames : List Frame) (n k : ℕ) :
    left Frame.size frames n = completed frames n k ++ left Frame.size frames (n + k) := by
  rw [left_add]
  exact (taken_append_left _ _).symm

/-- Behind chunks that end before a malformed header the session is still open. -/
theorem Open.next {k : ℕ} {rest' : List UInt8} {s' : Session} (h : Open env frames tail n rest' s)
    (hp : s'.toPeer = (deliverAll env s.toPeer (completed frames n k)).1)
    (hw : WindowOn frames tail (n + k) rest s')
    (hlt : n + k < total Frame.size frames + HEADER_LENGTH) : Open env frames tail (n + k) rest s' := by
  have hsec : s'.security = s.security := by
    rw [hp]
    exact deliverAll_security _ _
  refine ⟨hw, hsec ▸ h.wellFormed, h.ending.imp_right fun ⟨hbad, hclient⟩ => ⟨hbad, ?_⟩, hlt⟩
  rw [left_eq frames n k, deliverAll_append] at hclient
  rwa [hp]

/-- `Recv()` closes the session at a malformed frame, and hands nothing over. -/
theorem recv_malformed {chunks : List (List UInt8)} {l : List RecvRet} {vec : List Message} (now : ℤ)
    (h : Open env frames tail n (chunks.flatten ++ rest) s) (ho : Offers frames n chunks)
    (hm : Moves frames n chunks)
    (hn : total Frame.size frames + HEADER_LENGTH ≤ n + chunks.flatten.length) :
    ∃ s', s.recv env now (chunks.map .data ++ l) vec = some (.eSocketClose, s', []) := by
  obtain ⟨cs, c, ds, rfl, hlt, hle⟩ := exists_crossing h.lt hn
  obtain ⟨hocs, hods⟩ := ho.append
  obtain ⟨hmcs, -⟩ := hm.append
  have hw := h.window
  rw [List.flatten_append, List.append_assoc] at hw
  obtain ⟨s₁, hr₁, hp₁, hw₁⟩ := recv_chunks now cs (.data c :: (ds.map .data ++ l)) n s vec h.wellFormed hw
    (hocs.offered hlt) (hmcs.movable hlt) hlt
  have hopen := h.next hp₁ hw₁ hlt
  obtain ⟨hpos, -, hstream⟩ := hw₁
  obtain ⟨hne, hroom⟩ := hods [] c ⟨ds, rfl⟩ (by rwa [List.flatten_nil, List.length_nil])
  rw [List.flatten_nil, List.length_nil, Nat.add_zero] at hroom
  have hbuf : slice (s₁.fill c).bufRecv 0 (s₁.fill c).dwRecvPos = slice s₁.bufRecv 0 s₁.dwRecvPos ++ c := by
    have := slice_store_append s₁.bufRecv 0 s₁.dwRecvPos c
    rwa [Nat.zero_add] at this
  have hfill : (s₁.fill c).dwRecvPos = held Frame.size frames (n + cs.flatten.length) + c.length := by
    rw [← hpos]
    rfl
  rw [List.flatten_cons, List.append_assoc, ← List.append_assoc, ← hbuf] at hstream
  have htotal := @total_left_add _ Frame.size frames (n + cs.flatten.length)
  -- the chunk completes a header that is not one of the frames
  have hbad : Malformed tail ∧
      (deliverAll env s₁.toPeer (left Frame.size frames (n + cs.flatten.length))).1.remoteType = eClient := by
    refine hopen.ending.resolve_left ?_
    rintro rfl
    have hlen := congrArg List.length hstream
    rw [List.length_append, length_slice, List.append_nil, length_flatMap Frame.length_bytes] at hlen
    have hH : HEADER_LENGTH = 26 := rfl
    omega
  obtain ⟨s', vec', hpass⟩ := @recvPass_malformed env tail _ _ ((s₁.fill c).dwRecvPos + 1) (s₁.fill c) 0
    (s₁.fill c).dwRecvPos _ (fun f hf => hopen.wellFormed f (mem_of_mem_left hf)) (Nat.lt_succ_self _) hstream
    (by omega) hbad.1 hbad.2
  refine ⟨s', ?_⟩
  have hrecv : (s₁.fill c).recvVec env
      (vec ++ (deliverAll env s.toPeer (completed frames n cs.flatten.length)).2) = some (true, s', vec') := hpass
  rw [List.map_append, List.append_assoc, List.map_cons, List.cons_append, hr₁, Session.recv,
    if_neg (by rw [hpos]; rintro (h | h); exacts [hne h, absurd h (by omega)])]
  dsimp only
  rw [if_neg (by rw [hfill]; omega), hrecv]
  rfl

/-- **What an event does to an open session:** it is read to its end, and what it completes is handed over;
or it closes the session and hands nothing over; or it is not read, and no bytes have come. -/
theorem serve_spec {e : Event} (h : Open env frames tail n (e.chunks.flatten ++ rest) s)
    (ho : Offers frames n e.chunks) (hm : Moves frames n e.chunks) :
    ∃ close s' handed, serve env s e = some (close, s', handed) ∧
      ((e.ReadsOn frames n ∧ Open env frames tail (n + e.bytes) rest s' ∧
          handed = (deliverAll env s.toPeer (completed frames n e.bytes)).2) ∨
        (¬ e.ReadsOn frames n ∧ close = true ∧ handed = []) ∨
        (¬ e.ReadsOn frames n ∧ e.chunks = [] ∧ s' = s ∧ handed = [])) := by
  unfold serve
  by_cases hr : e.mask.reads = true
  · rw [if_pos hr]
    by_cases hlt : n + e.bytes < total Frame.size frames + HEADER_LENGTH
    · cases hfin : e.fin with
      | false =>
        obtain ⟨code, s', hrecv, hp, hw⟩ := recv_spec e.now e.chunks n s [] h.wellFormed h.window
          (ho.offered hlt) (hm.movable hlt) hlt
        have hrets : e.rets = e.chunks.map .data ++ [.again] := by
          unfold Event.rets
          rw [hfin]
          rfl
        rw [hrets, hrecv]
        exact ⟨_, s', _, rfl, Or.inl ⟨⟨hr, hfin, hlt⟩, h.next hp hw hlt, rfl⟩⟩
      | true =>
        obtain ⟨s', hrecv, -, -⟩ := recv_chunks e.now e.chunks [.closed] n s [] h.wellFormed h.window
          (ho.offered hlt) (hm.movable hlt) hlt
        have hrets : e.rets = e.chunks.map .data ++ [.closed] := by
          unfold Event.rets
          rw [hfin]
          rfl
        rw [hrets, hrecv]
        refine ⟨true, s', [], rfl, Or.inr (Or.inl ⟨fun hon => ?_, rfl, rfl⟩)⟩
        rw [hon.2.1] at hfin
        cases hfin
    · obtain ⟨s', hrecv⟩ := @recv_malformed env frames tail rest n s e.chunks
        [if e.fin then .closed else .again] [] e.now h ho hm (Nat.le_of_not_lt hlt)
      unfold Event.rets
      rw [hrecv]
      exact ⟨true, s', [], rfl, Or.inr (Or.inl ⟨fun hon => hlt hon.2.2, rfl, rfl⟩)⟩
  · have hon : ¬ e.ReadsOn frames n := fun hon => hr hon.1
    rw [if_neg hr]
    have hserve (b : Bool) (hb : (false || (e.mask.epollout && e.sendClose) || e.mask.hangs || !e.mask.exe) = b) :
        (some (false || (e.mask.epollout && e.sendClose) || e.mask.hangs || !e.mask.exe, s, []) :
          Option (Bool × Session × List Message)) = some (b, s, []) := congrArg (fun b => some (b, s, [])) hb
    cases hc : false || (e.mask.epollout && e.sendClose) || e.mask.hangs || !e.mask.exe with
    | true => exact ⟨true, s, [], hserve true hc, Or.inr (Or.inl ⟨hon, rfl, rfl⟩)⟩
    | false =>
      refine ⟨false, s, [], hserve false hc, Or.inr (Or.inr ⟨hon, e.told ?_, rfl, rfl⟩)⟩
      unfold Mask.reads Mask.hangs at *
      grind

/-! ### All events -/

theorem hands_append {fs gs : List Frame} {handed handed' : List Message} (h : Hands fs handed) :
    Hands (fs ++ gs) (handed ++ handed') ↔ Hands gs handed' := by
  unfold Hands at *
  rw [List.filter_append]
  refine ⟨fun hall => ?_, fun h' => List.rel_append h h'⟩
  have hlen := h.length_eq
  have hdrop := List.forall₂_drop handed.length hall
  rwa [List.drop_left, ← hlen, List.drop_left] at hdrop

theorem hands_nil {fs : List Frame} : Hands fs [] ↔ ∀ f ∈ fs, f.header.messageType = ConnMessage := by
  unfold Hands
  rw [List.forall₂_nil_right_iff, List.filter_eq_nil_iff]
  simp

/-- The events behind one that an open session serves. -/
theorem run_serve {e : Event} {events : List Event} {close : Bool} {s' : Session} {l handed : List Message}
    {st : Served} (hserve : serve env s e = some (close, s', l))
    (h : run (step env) { session := s, handed := handed } (e :: events) = some st) :
    run (step env) { session := s', handed := handed ++ l, closed := close } events = some st := by
  obtain ⟨st₁, hstep, hrun⟩ := run_cons_some.mp h
  unfold step at hstep
  rw [if_neg Bool.false_ne_true, hserve] at hstep
  cases hstep
  exact hrun

theorem run_closed {s' : Served} {events : List Event} {st : Served} (hc : s'.closed = true)
    (h : run (step env) s' events = some st) : events = [] ∧ st = s' := by
  cases events with
  | nil => exact ⟨rfl, (Option.some.inj h).symm⟩
  | cons e es =>
    obtain ⟨s₁, h₁, -⟩ := run_cons_some.mp h
    unfold step at h₁
    rw [if_pos hc] at h₁
    cases h₁

/-- Of the frames that an open session has still to get. -/
theorem run_iff {events : List Event} {handed : List Message} {st : Served}
    (h : Open env frames tail n ((events.flatMap Event.chunks).flatten ++ rest) s)
    (ho : Offers frames n (events.flatMap Event.chunks)) (hm : Moves frames n (events.flatMap Event.chunks))
    (hrun : run (step env) { session := s, handed := handed } events = some st) :
    ∃ l, st.handed = handed ++ l ∧
      (Hands (completed frames n (events.flatMap Event.chunks).flatten.length) l ↔ Kept frames n events) := by
  induction events generalizing n s handed with
  | nil =>
    cases hrun
    refine ⟨[], (List.append_nil _).symm, ?_⟩
    rw [List.flatMap_nil, List.flatten_nil, List.length_nil, completed_zero]
    exact iff_of_true (hands_nil.mpr nofun) trivial
  | cons e es ih =>
    rw [List.flatMap_cons] at h ho hm ⊢
    rw [List.flatten_append, List.append_assoc] at h
    rw [List.flatten_append, List.length_append, completed_add, Kept]
    obtain ⟨close, s', l, hserve, hcases⟩ := serve_spec h ho.append.1 hm.append.1
    have hrun := run_serve hserve hrun
    have hbytes : e.chunks.flatten.length = e.bytes := rfl
    rw [hbytes] at *
    rcases hcases with ⟨hon, hopen, rfl⟩ | ⟨hon, rfl, rfl⟩ | ⟨hon, hnil, rfl, rfl⟩
    · have hhands : Hands (completed frames n e.bytes) (deliverAll env s.toPeer (completed frames n e.bytes)).2 :=
        deliverAll_carries s.toPeer _ fun f hf => (h.wellFormed f (mem_completed hf)).1
      cases hclose : close with
      | true =>
        obtain ⟨rfl, rfl⟩ := run_closed hclose hrun
        refine ⟨_, rfl, ?_⟩
        rw [List.flatMap_nil, List.flatten_nil, List.length_nil, completed_zero, List.append_nil]
        exact iff_of_true hhands ⟨Or.inl hon, trivial⟩
      | false =>
        rw [hclose] at hrun
        obtain ⟨l, hl, hiff⟩ := ih hopen ho.append.2 hm.append.2 hrun
        refine ⟨_, hl.trans (List.append_assoc _ _ _), ?_⟩
        rw [hands_append hhands, hiff]
        exact (and_iff_right (Or.inl hon)).symm
    · obtain ⟨rfl, rfl⟩ := run_closed rfl hrun
      refine ⟨[], rfl, ?_⟩
      rw [List.flatMap_nil, List.flatten_nil, List.length_nil, completed_zero, List.append_nil, hands_nil, Kept,
        and_true, or_iff_right hon]
    · have hzero : e.bytes = 0 := by
        unfold Event.bytes
        rw [hnil]
        rfl
      have hkept : e.ReadsOn frames n ∨ ∀ f ∈ completed frames n e.bytes, f.header.messageType = ConnMessage := by
        refine Or.inr ?_
        rw [hzero, completed_zero]
        exact nofun
      have hnone : Hands (completed frames n e.bytes) [] := hands_nil.mpr (hkept.resolve_left hon)
      cases hclose : close with
      | true =>
        obtain ⟨rfl, rfl⟩ := run_closed hclose hrun
        refine ⟨[], rfl, ?_⟩
        rw [List.flatMap_nil, List.flatten_nil, List.length_nil, completed_zero, List.append_nil]
        exact iff_of_true hnone ⟨hkept, trivial⟩
      | false =>
        rw [hclose, List.append_nil] at hrun
        rw [hnil, List.flatten_nil, List.nil_append] at h
        have hopen : Open env frames tail (n + e.bytes) ((es.flatMap Event.chunks).flatten ++ rest) s' := by
          rwa [hzero, Nat.add_zero]
        obtain ⟨l, hl, hiff⟩ := ih hopen ho.append.2 hm.append.2 hrun
        refine ⟨l, hl, ?_⟩
        rw [← List.nil_append l, hands_append hnone, hiff]
        exact (and_iff_right hkept).symm

/-- An open session stays open over the events that do not close it, and takes each of them. -/
theorem run_open {events : List Event} {handed : List Message} {st : Served}
    (h : Open env frames tail n ((events.flatMap Event.chunks).flatten ++ rest) s)
    (ho : Offers frames n (events.flatMap Event.chunks)) (hm : Moves frames n (events.flatMap Event.chunks))
    (hrun : run (step env) { session := s, handed := handed } events = some st) (hc : st.closed = false) :
    Open env frames tail (n + (events.flatMap Event.chunks).flatten.length) rest st.session := by
  induction events generalizing n s handed with
  | nil =>
    cases hrun
    exact h
  | cons e es ih =>
    rw [List.flatMap_cons] at h ho hm ⊢
    rw [List.flatten_append, List.append_assoc] at h
    rw [List.flatten_append, List.length_append, ← Nat.add_assoc]
    obtain ⟨close, s', l, hserve, hcases⟩ := serve_spec h ho.append.1 hm.append.1
    have hrun := run_serve hserve hrun
    cases hclose : close with
    | true =>
      obtain ⟨-, rfl⟩ := run_closed hclose hrun
      rw [hclose] at hc
      cases hc
    | false =>
      rw [hclose] at hrun
      refine ih ?_ ho.append.2 hm.append.2 hrun
      rcases hcases with ⟨-, hopen, -⟩ | ⟨-, hcl, -⟩ | ⟨-, hnil, rfl, -⟩
      · exact hopen
      · rw [hcl] at hclose
        cases hclose
      · rw [hnil] at h ⊢
        exact h

/-! ### Before the close -/

theorem Stream.open (h : Stream env s frames tail) (hs : s.dwRecvPos = 0)
    (hrest : rest = frames.flatMap Frame.bytes ++ tail) : Open env frames tail 0 rest s := by
  obtain ⟨-, hl, hh⟩ := held_zero frames
  refine ⟨⟨hs.trans hh.symm, ?_, ?_⟩, h.wellFormed, ?_, Nat.add_pos_right _ (by decide)⟩
  · rw [hh]
    exact Nat.zero_le _
  · rw [hs, hl, slice_zero, hrest, List.nil_append]
  · rw [hl]
    exact h.ending

/-- Each event of an open session comes to its end. -/
theorem step_isSome {events : List Event} {e : Event} {st : Served} (hs : s.dwRecvPos = 0)
    (hstream : Stream env s frames tail)
    (hbytes : ((events ++ [e]).flatMap Event.chunks).flatten ++ rest = frames.flatMap Frame.bytes ++ tail)
    (ho : Offers frames 0 ((events ++ [e]).flatMap Event.chunks))
    (hm : Moves frames 0 ((events ++ [e]).flatMap Event.chunks))
    (hrun : run (step env) { session := s } events = some st) (hc : st.closed = false) :
    (step env st e).isSome := by
  rw [List.flatMap_append, List.flatMap_singleton] at hbytes ho hm
  rw [List.flatten_append, List.append_assoc] at hbytes
  have hopen := run_open (hstream.open hs hbytes) ho.append.1 hm.append.1 hrun hc
  obtain ⟨close, s', l, hserve, -⟩ := serve_spec hopen ho.append.2 hm.append.2
  unfold step
  rw [if_neg (Bool.eq_false_iff.mp hc), hserve]
  rfl

/-- **The dispatcher gets every message before the close, each once, just where no message comes with an event
that is not read to its end.** -/
theorem handed_iff {events : List Event} {st : Served} (hs : s.dwRecvPos = 0)
    (hstream : Stream env s frames tail)
    (hbytes : (events.flatMap Event.chunks).flatten ++ rest = frames.flatMap Frame.bytes ++ tail)
    (ho : Offers frames 0 (events.flatMap Event.chunks)) (hm : Moves frames 0 (events.flatMap Event.chunks))
    (hrun : run (step env) { session := s } events = some st) :
    Hands (completed frames 0 (events.flatMap Event.chunks).flatten.length) st.handed ↔
      Kept frames 0 events := by
  obtain ⟨l, hl, hiff⟩ := run_iff (hstream.open hs hbytes) ho hm hrun
  rw [List.nil_append] at hl
  rw [hl]
  exact hiff

end

/-! ### A frame and the close -/

/-- An event with one frame that is read. -/
def chatting : Event where
  mask := { epollin := true }
  now := 1
  chunks := [chat.bytes]
  fin := false
  told h := absurd h (by decide)

/-- The peer has closed the connection. -/
def leaving : Event where
  mask := { epollin := true, epollrdhup := true }
  now := 2
  chunks := []
  fin := false
  told h := absurd h (by decide)

/-- The two at once: `recv` returns the frame and then 0. -/
def chattingOff : Event := { chatting with fin := true }

/-- The two at once, and the event tells of the close. -/
def chattingUnread : Event :=
  { chatting with
    mask := { epollin := true, epollrdhup := true }
    told := fun h => absurd h (by decide) }

/-- A frame and a malformed one. -/
def chattingBadly : Event :=
  { chatting with
    chunks := [chat.bytes ++ List.replicate 26 255]
    told := fun h => absurd h (by decide) }

theorem stream_chat : Stream gameServer idle [chat] [] where
  wellFormed f hf := List.mem_singleton.mp hf ▸ wellFormed_chat
  connected := ⟨by decide, trivial⟩
  ending := Or.inl rfl

/-- A frame, and then the close. -/
theorem handed_iff_leaving :
    ∃ st, run (step gameServer) { session := idle } [chatting, leaving] = some st ∧ st.closed = true ∧
      Hands [chat] st.handed := by
  obtain ⟨st, hst⟩ := Option.isSome_iff_exists.mp
    (by decide +kernel : (run (step gameServer) { session := idle } [chatting, leaving]).isSome)
  have hone {l : List (List UInt8)} {c : List UInt8} (h : l ++ [c] <+: [chat.bytes]) : l = [] ∧ c = chat.bytes := by
    obtain ⟨r, hr⟩ := h
    cases l with
    | nil =>
      rw [List.nil_append, List.singleton_append] at hr
      exact ⟨rfl, (List.cons.inj hr).1⟩
    | cons d l => simp at hr
  refine ⟨st, hst, ?_, (@handed_iff gameServer [chat] [] [] idle _ st rfl stream_chat rfl ?_ ?_ hst).mpr ?_⟩
  · cases hst
    decide +kernel
  · intro l c hl hlt
    obtain ⟨rfl, rfl⟩ := hone hl
    exact ⟨by decide, by decide⟩
  · intro l hl hlt
    rcases List.eq_nil_or_concat l with rfl | ⟨l, c, rfl⟩
    · exact Nat.zero_le _
    · rw [List.concat_eq_append] at hl
      obtain ⟨rfl, rfl⟩ := hone hl
      decide
  · exact ⟨Or.inl ⟨by decide, rfl, by decide⟩, Or.inr nofun, trivial⟩

/-- The frame is lost where the close, or a malformed frame of a client, comes with it. -/
theorem close_loses_frame :
    (∃ st, run (step gameServer) { session := idle } [chattingOff] = some st ∧ st.closed = true ∧
      ¬ Hands [chat] st.handed) ∧
    (∃ st, run (step gameServer) { session := idle } [chattingUnread] = some st ∧ st.closed = true ∧
      ¬ Hands [chat] st.handed) ∧
    ∃ st, run (step gameServer) { session := { idle with remoteType := eClient } } [chattingBadly] = some st ∧
      st.closed = true ∧ ¬ Hands [chat] st.handed := by
  have hlost {s : Session} {e : Event}
      (h : (run (step gameServer) { session := s } [e]).map (fun st => (st.closed, st.handed.length)) =
        some (true, 0)) :
      ∃ st, run (step gameServer) { session := s } [e] = some st ∧ st.closed = true ∧ ¬ Hands [chat] st.handed := by
    obtain ⟨st, hst, heq⟩ := Option.map_eq_some_iff.mp h
    refine ⟨st, hst, congrArg Prod.fst heq, ?_⟩
    rw [List.length_eq_zero_iff.mp (congrArg Prod.snd heq), hands_nil]
    exact fun hall => absurd (hall chat List.mem_cons_self) (by decide)
  exact ⟨hlost (by decide +kernel), hlost (by decide +kernel), hlost (by decide +kernel)⟩

end ChatShow.CommBase.ClosingStream
