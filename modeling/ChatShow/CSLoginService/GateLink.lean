import ChatShow.Antlib.WriteEvents
import ChatShow.CSLoginService.GateFrames

/-! # The calls of the login service reach the gate

`gate_service_call` makes a packet and gives it to the thread of the server, whose queue keeps the order
(`Antlib/HandlerThreads`). The thread puts it into the send queue of the connection to the gate, and
sends what the socket takes. A session of the gate takes the bytes off its own socket in whatever chunks
they come, and hands messages on.

Message 0 of the connection is the one that `tcp_cennectserver` makes: it is in the send queue until the
connection is made, and is not sent. Message 1 is the packet of `gate_service_conn`, and message `k + 2`
that of the call `k`. The connection is one that is not made at once, and the message that
`tcp_connected` makes has room for what is copied into it. `none` is an `ASSERT` that fails, or a fault
of the session. -/

namespace ChatShow.CSLoginService.GateLink

open ChatShow.Lib.Framing ChatShow.Lib.Runs
open ChatShow.Antlib.SendQueue ChatShow.Antlib.SendQueueFifo ChatShow.Antlib.ConnectionSend
open ChatShow.Antlib.WriteEvents (sends_popped)
open ChatShow.CommBase.NetWorkConfig ChatShow.CommBase.MessageManager ChatShow.CommBase.SessionRecv
open ChatShow.CommBase.Segmentation
open ChatShow.CSLoginService.NetPacket ChatShow.CSLoginService.UserLogin ChatShow.CSLoginService.GateFrames

/-! ### The packets -/

def SYSMSG_CLOSE_CONNECTION : Int32 := 11
def SYSMSG_SETUSERID : Int32 := 12

/-- The calls in the order in which they come to the queue of the server, what `my_new` finds in the
memory of each packet, and what `create_handler_msg` leaves in `_msgid` of each message. -/
structure Calls where
  call : ℕ → Call
  mem : ℕ → Memory := fun _ => {}
  msgid : ℕ → Int32 := fun _ => 0

namespace Calls

/-- The packet of a message. -/
def packet (e : Calls) : ℕ → Option SPacket
  | 0 => none
  | 1 => netPacket (e.mem 1) gateServiceConn.1 gateServiceConn.2
  | k + 2 =>
    let c := gateServiceCall (e.call k).charid (e.call k).name
    netPacket (e.mem (k + 2)) c.1 c.2

def data (e : Calls) (m : ℕ) : List UInt8 := (e.packet m).elim [] sent

/-- The frames of messages. -/
def frames (e : Calls) (l : List ℕ) : List Frame := l.filterMap fun m => (e.packet m).map frame

end Calls

/-! ### The login service, the stream, and the gate -/

structure Link where
  conn : Connection
  /-- the connection is made, and its user knows it -/
  up : Bool := false
  /-- the messages that have been given to the thread of the server, and those it has taken -/
  made : ℕ := 0
  taken : ℕ := 0
  session : Session
  closed : Bool := false
  /-- the bytes that the session has received -/
  got : ℕ := 0
  handed : List Message := []

inductive Label
  /-- `fresh` and `fresh'` are what `malloc` leaves in a new array -/
  | connected (fresh fresh' : ℕ → Option ℕ)
  | call
  | domsg (fresh : ℕ → Option ℕ)
  | sendMsg
  | turn (w : Write)
  | recv (now : ℤ) (chunks : List (List UInt8))

/-- `add_tcpconnecting`, and `tcpconnection_send` with `tcp_connected` once the connection is made. -/
def connect (c : Connection) (fresh fresh' : ℕ → Option ℕ) : Option Connection :=
  (c.addMsg 0 fresh).bind fun c =>
    { c with sendqueue := c.sendqueue.pop, released := c.released ++ [0] }.addMsg 1 fresh'

namespace Link

/-- `do_tcpconnection_msg` with `tcp4_do_msg`: a message is freed where the connection is closed, and
`_msgid` of a call is one that nobody has set. -/
def domsg (e : Calls) (s : Link) (fresh : ℕ → Option ℕ) : Option Link :=
  let m := s.taken + 2
  let s := { s with taken := s.taken + 1 }
  if ¬ s.conn.isOpen then some s
  else if e.msgid m = SYSMSG_CLOSE_CONNECTION then some { s with conn := { s.conn with isOpen := false } }
  else if e.msgid m = SYSMSG_SETUSERID then some s
  else (s.conn.addMsg m fresh).map fun c => { s with conn := c }

/-- A call of `Recv()` on the gate, with the chunks that its socket returns. -/
def recv (env : Env) (s : Link) (now : ℤ) (chunks : List (List UInt8)) : Option Link :=
  (s.session.recv env now (chunks.map .data ++ [.again]) []).map fun (code, session, handed) =>
    { s with
      session := session, closed := code = .eSocketClose, got := s.got + chunks.flatten.length
      handed := s.handed ++ handed }

/-- What a step does not come to is passed over. -/
def step (e : Calls) (env : Env) (s : Link) : Label → Option Link
  | .connected fresh fresh' =>
    if s.up then some s
    else (connect s.conn fresh fresh').map fun c => { s with conn := c, up := true }
  | .call =>
    if s.up then (e.packet (s.made + 2)).map fun _ => { s with made := s.made + 1 } else some s
  | .domsg fresh => if s.conn.sending ∨ s.made ≤ s.taken then some s else s.domsg e fresh
  | .sendMsg =>
    if s.up then (s.conn.step e.data .sendMsg).map fun c => { s with conn := c } else some s
  | .turn w =>
    if s.up then (s.conn.step e.data (.turn w)).map fun c => { s with conn := c } else some s
  | .recv now chunks =>
    if s.closed ∨ ¬ chunks.flatten <+: s.conn.out.drop s.got then some s else s.recv env now chunks

/-- A connection to the gate whose queue has been reset, and a session that has received nothing. -/
def start (a : ℕ → Option ℕ) (session : Session) : Link where
  conn := .start 1 a
  session := session

/-! ### What is asked -/

/-- What a step has to meet: the assertions for a packet let a name pass; the `_msgid` of a call is none
of the two that the connection keeps for itself; an array does not become full with the head at 0, and
is not too large; the loop is as in `ConnectionSend`; and the chunks are what a socket returns. -/
def Ok (e : Calls) (a : ℕ → Option ℕ) (s : Link) : Label → Prop
  | .connected _ _ => True
  | .call => (e.call s.made).Fits
  | .domsg _ =>
    e.msgid (s.taken + 2) ≠ SYSMSG_CLOSE_CONNECTION ∧ e.msgid (s.taken + 2) ≠ SYSMSG_SETUSERID ∧
    (s.conn.sendqueue.count + 1 = s.conn.sendqueue.size →
      s.conn.sendqueue.head ≠ 0 ∧ 2 * s.conn.sendqueue.size < 1024 * 1024)
  | .sendMsg => True
  | .turn w => Antlib.ConnectionSend.Ok a e.data s.conn (.turn w)
  | .recv _ chunks => Offered (e.frames s.conn.queued) s.got chunks

/-- Whether the chunks are such. -/
instance decidableOffered (frames : List Frame) : ∀ n chunks, Decidable (Offered frames n chunks)
  | _, [] => .isTrue trivial
  | n, c :: chunks =>
    have := decidableOffered frames (n + c.length) chunks
    inferInstanceAs (Decidable ((_ ∧ _) ∧ Offered frames (n + c.length) chunks))

instance (e : Calls) (a : ℕ → Option ℕ) (s : Link) : ∀ o, Decidable (s.Ok e a o)
  | .connected _ _ => .isTrue trivial
  | .call => inferInstanceAs (Decidable (e.call s.made).Fits)
  | .domsg _ => inferInstanceAs (Decidable (_ ∧ _ ∧ (_ → _ ∧ _)))
  | .sendMsg => .isTrue trivial
  | .turn w => inferInstanceAs (Decidable (Antlib.ConnectionSend.Ok a e.data s.conn (.turn w)))
  | .recv _ chunks => inferInstanceAs (Decidable (Offered (e.frames s.conn.queued) s.got chunks))

end Link

/-- The message is the call: a request with the number and the name of a player. -/
structure Asks (c : Call) (m : Message) : Prop where
  content : m.bytes = callContent c.charid c.name
  messageID : m.messageID = CONN_GATE_INFO.toUInt32
  messageType : m.messageType = Request

/-! ### Packets and frames -/

section

variable {e : Calls}

theorem packet_call {k : ℕ} (h : (e.call k).Fits) : ∃ q, e.packet (k + 2) = some q ∧
    netPacket (e.mem (k + 2)) (gateServiceCall (e.call k).charid (e.call k).name).1
      (gateServiceCall (e.call k).charid (e.call k).name).2 = some q :=
  ⟨_, netPacket_some.mpr ⟨fits_gateServiceCall h, rfl⟩, netPacket_some.mpr ⟨fits_gateServiceCall h, rfl⟩⟩

theorem packet_conn (e : Calls) : ∃ q, e.packet 1 = some q ∧
    netPacket (e.mem 1) gateServiceConn.1 gateServiceConn.2 = some q :=
  ⟨_, netPacket_some.mpr ⟨fits_gateServiceConn, rfl⟩, netPacket_some.mpr ⟨fits_gateServiceConn, rfl⟩⟩

/-- Every packet is for the gate, with a type that sessions let pass. -/
theorem exists_netPacket {m : ℕ} {q : SPacket} (h : e.packet m = some q) :
    ∃ mem hd l, netPacket mem hd l = some q ∧ hd.remoteID = 1 ∧ hd.remoteType = eGateServer ∧
      hd.messageType.toUInt32.toUInt8 ≤ SystemMessage := by
  unfold Calls.packet at h
  split at h
  · cases h
  · exact ⟨_, _, _, h, rfl, rfl, by decide⟩
  · exact ⟨_, _, _, h, rfl, rfl, (by decide : (2 : Int32).toUInt32.toUInt8 ≤ SystemMessage)⟩

theorem data_of_packet {m : ℕ} {q : SPacket} (h : e.packet m = some q) : e.data m = (frame q).bytes := by
  obtain ⟨mem, hd, l, hq, -⟩ := exists_netPacket h
  unfold Calls.data
  rw [h, Option.elim_some, bytes_frame hq]

theorem data_ne_nil {m : ℕ} {q : SPacket} (h : e.packet m = some q) : e.data m ≠ [] := by
  rw [data_of_packet h]
  refine List.ne_nil_of_length_pos ?_
  rw [Frame.length_bytes]
  exact lt_of_lt_of_le (by decide) (header_le_size _)

theorem frames_append (l l' : List ℕ) : e.frames (l ++ l') = e.frames l ++ e.frames l' :=
  List.filterMap_append

/-- The stream of the frames is the stream of the messages. -/
theorem flatMap_frames (l : List ℕ) : (e.frames l).flatMap Frame.bytes = l.flatMap e.data := by
  induction l with
  | nil => rfl
  | cons m l ih =>
    unfold Calls.frames at ih ⊢
    cases hq : e.packet m with
    | none =>
      have hnil : e.data m = [] := by
        unfold Calls.data
        rw [hq, Option.elim_none]
      rw [List.filterMap_cons_none (by rw [hq]; rfl), ih, List.flatMap_cons, hnil, List.nil_append]
    | some q =>
      rw [List.filterMap_cons_some (by rw [hq]; rfl), List.flatMap_cons, List.flatMap_cons, ih,
        data_of_packet hq]

theorem mem_frames {l : List ℕ} {f : Frame} (h : f ∈ e.frames l) : ∃ m q, e.packet m = some q ∧ frame q = f := by
  obtain ⟨m, -, hm⟩ := List.mem_filterMap.mp h
  obtain ⟨q, hq, rfl⟩ := Option.map_eq_some_iff.mp hm
  exact ⟨m, q, hq, rfl⟩

/-- The gate: its number, and its type. -/
def IsGate (env : Env) : Prop := env.local_id_ = 1 ∧ env.local_type_ = eGateServer

theorem wellFormed_frames {env : Env} (henv : IsGate env) {l : List ℕ} :
    ∀ f ∈ e.frames l, WellFormed env false f ∧ Sane f := by
  intro f hf
  obtain ⟨m, q, hq, rfl⟩ := mem_frames hf
  obtain ⟨mem, hd, l, hn, hid, htype, hmess⟩ := exists_netPacket hq
  refine ⟨wellFormed_frame (henv.1.trans hid.symm) (henv.2.trans htype.symm) hn, sane_frame hn ?_ ?_ hmess⟩
  · rw [hid]
    decide
  · rw [htype]
    decide

theorem size_frames {l : List ℕ} : ∀ f ∈ e.frames l, f.size ≤ BODY_LENGTH := by
  intro f hf
  obtain ⟨m, q, hq, rfl⟩ := mem_frames hf
  obtain ⟨mem, hd, l, hn, -⟩ := exists_netPacket hq
  exact size_frame hn

end

/-! ### What a session has received -/

section

variable {env : Env} {frames : List Frame} {n : ℕ} {rest : List UInt8} {session : Session}

theorem size_pos (f : Frame) : 0 < f.size := lt_of_lt_of_le (by decide) (header_le_size f)

/-- The stream has become longer. -/
theorem window_append (more : List Frame) (h : Window frames n rest session) (hn : n ≤ total Frame.size frames) :
    Window (frames ++ more) n (rest ++ more.flatMap Frame.bytes) session := by
  obtain ⟨-, hleft, hheld⟩ := append_of_le size_pos more hn
  refine ⟨h.pos.trans hheld.symm, hheld.symm ▸ h.half, ?_⟩
  rw [hleft, List.flatMap_append, ← List.append_assoc, h.stream]

theorem held_le_size {b : ℕ} (hb : ∀ f ∈ frames, f.size ≤ b) (hn : n ≤ total Frame.size frames) :
    held Frame.size frames n ≤ b := by
  cases hl : left Frame.size frames n with
  | nil =>
    rw [held_eq_zero_of_left_nil hn hl]
    exact Nat.zero_le b
  | cons f fs =>
    have hf : f ∈ frames := mem_of_mem_left (hl ▸ List.mem_cons_self)
    exact (held_lt hl).le.trans (hb f hf)

/-- Frames of no more than half a buffer are all moved. -/
theorem movable_of_size (hb : ∀ f ∈ frames, f.size ≤ MAX_RECV_MSG_SIZE / 2) {chunks : List (List UInt8)}
    (hn : n + chunks.flatten.length ≤ total Frame.size frames) : Movable frames n chunks := by
  induction chunks generalizing n with
  | nil => trivial
  | cons c chunks ih =>
    rw [List.flatten_cons, List.length_append, ← Nat.add_assoc] at hn
    exact ⟨held_le_size hb (by omega), ih hn⟩

end

/-! ### What the connection keeps -/

/-- A message is put behind the others, or the connection is closed. -/
theorem addMsg_some {c c' : Connection} {m : ℕ} {fresh : ℕ → Option ℕ} (h : c.addMsg m fresh = some c') :
    c'.out = c.out ∧ (c'.queued = c.queued ++ [m] ∨ c'.queued = c.queued ∧ c'.isOpen = false) := by
  unfold Connection.addMsg at h
  split_ifs at h
  · cases h
    exact ⟨rfl, .inr ⟨rfl, rfl⟩⟩
  · obtain ⟨q, -, rfl⟩ := Option.map_eq_some_iff.mp h
    exact ⟨rfl, .inl rfl⟩

/-- The message of `tcp_cennectserver` is taken off the queue again, and the packet of `gate_service_conn`
is put into it. -/
theorem connect_start (e : Calls) (a fresh fresh' : ℕ → Option ℕ) :
    ∃ c waiting, connect (.start 1 a) fresh fresh' = some c ∧ Sends a e.data c waiting ∧
      c.queued = [0, 1] ∧ c.out = [] ∧ c.isOpen = true := by
  obtain ⟨q, hq, -⟩ := (kept_start a).push fresh 0
    fun h => absurd h (by decide : ¬ (0 : ℤ) + 1 = tcpQueueNode)
  have htype : ¬ (1 : UInt16) = 0 := by decide
  have hsize : q.size = tcpQueueNode := by
    cases hq
    rfl
  have hcount : q.count = 1 := by
    cases hq
    rfl
  have hadd : (Connection.start 1 a).addMsg 0 fresh = some
      { Connection.start 1 a with sendqueue := q, userid := Function.update (fun _ => 0) 0 0, queued := [0] } := by
    unfold Connection.addMsg
    rw [if_neg fun h => htype h.1]
    exact congrArg (Option.map _) hq
  obtain ⟨p, hp, -⟩ := packet_conn e
  obtain ⟨-, -, -, hpopped⟩ := sends_popped (rfl : e.data 0 = []) hadd
  have hroom : q.pop.count + 1 ≠ q.pop.size := by
    show q.count - 1 + 1 ≠ q.size
    rw [hcount, hsize]
    decide
  have hadd' : Antlib.ConnectionSend.Ok a e.data
      { Connection.start 1 a with
        sendqueue := q.pop, userid := Function.update (fun _ => 0) 0 0, queued := [0], released := [0] }
      (.addMsg 1 fresh') :=
    ⟨data_ne_nil hp, (by decide : 1 ∉ [0]), fun h => absurd h hroom⟩
  obtain ⟨c, waiting, hc, hsends⟩ := hpopped.addMsg hadd'
  refine ⟨c, waiting, ?_, hsends, ?_⟩
  · unfold connect
    rw [hadd, Option.bind_some]
    exact hc
  · unfold Connection.addMsg at hc
    rw [if_neg fun h => htype h.1] at hc
    obtain ⟨q', -, rfl⟩ := Option.map_eq_some_iff.mp hc
    exact ⟨rfl, rfl, rfl⟩

/-! ### The invariant -/

/-- The calls whose packets are in the queue of the connection, or have been, are the first ones. -/
structure Queued (e : Calls) (a : ℕ → Option ℕ) (s : Link) : Prop where
  sends : ∃ waiting, Sends a e.data s.conn waiting
  down : s.up = false → s.conn = .start 1 a ∧ s.made = 0
  queued : s.up = true → ∃ k ≤ s.taken, s.conn.queued = List.range (k + 2) ∧
    (s.conn.isOpen = true → k = s.taken)
  taken_le : s.taken ≤ s.made
  fits : ∀ k < s.made, (e.call k).Fits

/-- The session holds what it has of the next frame, and has handed on what the frames before it become. -/
structure Received (e : Calls) (env : Env) (p : Peer) (c : Connection) (session : Session) (got : ℕ)
    (handed : List Message) : Prop where
  window : Window (e.frames c.queued) got ((c.queued.flatMap e.data).drop got) session
  got_le : got ≤ c.out.length
  peer : session.toPeer = (deliverAll env p (taken Frame.size (e.frames c.queued) got)).1
  handed : handed = (deliverAll env p (taken Frame.size (e.frames c.queued) got)).2

def Holds (e : Calls) (env : Env) (a : ℕ → Option ℕ) (p : Peer) (s : Link) : Prop :=
  Queued e a s ∧ Received e env p s.conn s.session s.got s.handed

section

variable {e : Calls} {env : Env} {a : ℕ → Option ℕ} {p : Peer} {s s' : Link}

theorem total_frames (l : List ℕ) : total Frame.size (e.frames l) = (l.flatMap e.data).length := by
  rw [← flatMap_frames, length_flatMap Frame.length_bytes]

theorem holds_start (session : Session) (hpos : session.dwRecvPos = 0) :
    Holds e env a session.toPeer (.start a session) := by
  obtain ⟨htaken, hleft, hheld⟩ := held_zero (e.frames (Link.start a session).conn.queued)
  refine ⟨⟨⟨[], sends_start a e.data 1⟩, fun _ => ⟨rfl, rfl⟩, fun h => (by cases h), le_rfl,
    fun k hk => absurd hk (Nat.not_lt_zero k)⟩, ⟨⟨?_, ?_, ?_⟩, le_rfl, ?_, ?_⟩⟩
  · exact hpos.trans hheld.symm
  · exact hheld.symm ▸ Nat.zero_le _
  · show Lib.Cells.slice session.bufRecv 0 session.dwRecvPos ++ _ = _
    rw [hpos]
    rfl
  · exact congrArg (fun l => (deliverAll env session.toPeer l).1) htaken.symm
  · exact congrArg (fun l => (deliverAll env session.toPeer l).2) htaken.symm

/-- More is queued, and more is out. -/
theorem Received.conn {c c' : Connection} {waiting : List ℕ} {session : Session} {got : ℕ}
    {handed : List Message} (more : List ℕ) (h : Received e env p c session got handed) (hs : Sends a e.data c waiting)
    (hq : c'.queued = c.queued ++ more) (hout : c.out <+: c'.out) :
    Received e env p c' session got handed := by
  have hle : got ≤ (c.queued.flatMap e.data).length := h.got_le.trans hs.handedOver.written.length_le
  have htotal : got ≤ total Frame.size (e.frames c.queued) := by rwa [total_frames]
  obtain ⟨htaken, -, -⟩ := append_of_le size_pos (e.frames more) htotal
  have hwin := window_append (e.frames more) h.window htotal
  rw [flatMap_frames, ← List.drop_append_of_le_length hle, ← List.flatMap_append, ← frames_append, ← hq]
    at hwin
  refine ⟨hwin, h.got_le.trans hout.length_le, ?_, ?_⟩
  · rw [hq, frames_append, htaken]
    exact h.peer
  · rw [hq, frames_append, htaken]
    exact h.handed

theorem Queued.stays {c : Connection} {waiting : List ℕ} (h : Queued e a s) (hup : s.up = true)
    (hs : Sends a e.data c waiting) (hc : Stays s.conn c) : Queued e a { s with conn := c } := by
  obtain ⟨k, hk, hqueued, hopen⟩ := h.queued hup
  refine ⟨⟨waiting, hs⟩, fun hdown => absurd (hup.symm.trans hdown) (by decide), fun _ => ?_, h.taken_le,
    h.fits⟩
  exact ⟨k, hk, hc.queued.trans hqueued, fun ho => hopen (hc.isOpen ho)⟩

/-! ### The steps -/

theorem Holds.connected (h : Holds e env a p s) (fresh fresh' : ℕ → Option ℕ) :
    ∃ s', s.step e env (.connected fresh fresh') = some s' ∧ Holds e env a p s' := by
  rw [Link.step]
  split_ifs with hup
  · exact ⟨s, rfl, h⟩
  · obtain ⟨hq, hr⟩ := h
    obtain ⟨hstart, hmade⟩ := hq.down (Bool.eq_false_iff.mpr hup)
    obtain ⟨c, waiting, hc, hs, hqueued, hout, hopen⟩ := connect_start e a fresh fresh'
    rw [hstart, hc]
    have htaken : s.taken = 0 := Nat.le_zero.mp (hmade ▸ hq.taken_le)
    refine ⟨_, rfl, ⟨⟨waiting, hs⟩, fun h => (by cases h), fun _ => ?_, hq.taken_le, hq.fits⟩, ?_⟩
    · exact ⟨0, Nat.zero_le _, hqueued, fun _ => htaken.symm⟩
    · obtain ⟨waiting', hs'⟩ := hq.sends
      refine hr.conn [0, 1] hs' ?_ ?_
      · rw [hqueued, hstart]
        rfl
      · rw [hstart]
        exact List.nil_prefix

theorem Holds.call (h : Holds e env a p s) (hfits : (e.call s.made).Fits) :
    ∃ s', s.step e env .call = some s' ∧ Holds e env a p s' := by
  rw [Link.step]
  split_ifs with hup
  · obtain ⟨hq, hr⟩ := h
    obtain ⟨q, hpacket, -⟩ := packet_call hfits
    rw [hpacket]
    refine ⟨_, rfl, ⟨hq.sends, fun hdown => ?_, hq.queued, hq.taken_le.trans (Nat.le_succ _),
      fun k hk => ?_⟩, hr⟩
    · exact absurd (hup.symm.trans hdown) (by decide)
    · rcases Nat.lt_succ_iff_lt_or_eq.mp hk with hk | rfl
      · exact hq.fits k hk
      · exact hfits
  · exact ⟨s, rfl, h⟩

/-- The thread of the server puts the packet of a call behind the others, or frees it. -/
theorem Holds.domsg (h : Holds e env a p s) {fresh : ℕ → Option ℕ} (hok : s.Ok e a (.domsg fresh)) :
    ∃ s', s.step e env (.domsg fresh) = some s' ∧ Holds e env a p s' := by
  rw [Link.step]
  split_ifs with hpass
  · exact ⟨s, rfl, h⟩
  · obtain ⟨hq, hr⟩ := h
    obtain ⟨hclose, huser, hfull⟩ := hok
    have hmade : s.taken < s.made := Nat.lt_of_not_le fun hle => hpass (.inr hle)
    have hup : s.up = true := by
      cases hup : s.up with
      | true => rfl
      | false =>
        have := (hq.down hup).2
        omega
    obtain ⟨waiting, hs⟩ := hq.sends
    obtain ⟨k, hk, hqueued, hopen⟩ := hq.queued hup
    unfold Link.domsg
    dsimp only
    by_cases hclosed : s.conn.isOpen = true
    · rw [if_neg (by simpa using hclosed), if_neg hclose, if_neg huser]
      obtain rfl : k = s.taken := hopen hclosed
      obtain ⟨q, hpacket, -⟩ := packet_call (hq.fits _ hmade)
      have hnew : s.taken + 2 ∉ s.conn.queued := by
        rw [hqueued, List.mem_range]
        omega
      have hadd : Antlib.ConnectionSend.Ok a e.data s.conn (.addMsg (s.taken + 2) fresh) :=
        ⟨data_ne_nil hpacket, hnew, hfull⟩
      obtain ⟨c, waiting', hc, hs'⟩ := hs.addMsg hadd
      obtain ⟨hout, hcases⟩ := addMsg_some hc
      rw [hc]
      refine ⟨_, rfl, ⟨⟨waiting', hs'⟩, fun hdown => absurd (hup.symm.trans hdown) (by decide),
        fun _ => ?_, hmade, hq.fits⟩, ?_⟩
      · rcases hcases with hcons | ⟨hsame, hshut⟩
        · refine ⟨s.taken + 1, le_rfl, ?_, fun _ => rfl⟩
          rw [hcons, hqueued, ← List.range_succ]
        · exact ⟨s.taken, Nat.le_succ _, hsame.trans hqueued, fun ho => absurd (hshut.symm.trans ho) (by decide)⟩
      · rcases hcases with hcons | ⟨hsame, -⟩
        · exact hr.conn _ hs hcons (hout ▸ List.prefix_rfl)
        · exact hr.conn [] hs (by rw [hsame, List.append_nil]) (hout ▸ List.prefix_rfl)
    · rw [if_pos (by simpa using hclosed)]
      refine ⟨_, rfl, ⟨⟨waiting, hs⟩, fun hdown => absurd (hup.symm.trans hdown) (by decide),
        fun _ => ⟨k, hk.trans (Nat.le_succ _), hqueued, fun ho => absurd ho hclosed⟩, hmade, hq.fits⟩, hr⟩

/-- A step of the loop that sends. -/
theorem Holds.conn (h : Holds e env a p s) (hup : s.up = true) {o : Antlib.ConnectionSend.Label}
    (ho : ∀ m fresh, o ≠ .addMsg m fresh) (hok : Antlib.ConnectionSend.Ok a e.data s.conn o) :
    ∃ c, s.conn.step e.data o = some c ∧ Holds e env a p { s with conn := c } := by
  obtain ⟨hq, hr⟩ := h
  obtain ⟨waiting, hs⟩ := hq.sends
  obtain ⟨c, waiting', hc, hs'⟩ := hs.step hok
  have hstays := step_stays ho hc
  refine ⟨c, hc, hq.stays hup hs' hstays, hr.conn [] hs ?_ hstays.out⟩
  rw [hstays.queued, List.append_nil]

/-- A call of `Recv()` hands on the frames that its chunks complete. -/
theorem Holds.recv (henv : IsGate env) (hp : p.security = false) (h : Holds e env a p s) {now : ℤ}
    {chunks : List (List UInt8)} (hok : Offered (e.frames s.conn.queued) s.got chunks) :
    ∃ s', s.step e env (.recv now chunks) = some s' ∧ Holds e env a p s' := by
  rw [Link.step]
  split_ifs with hpass
  · exact ⟨s, rfl, h⟩
  · obtain ⟨hq, hr⟩ := h
    obtain ⟨waiting, hs⟩ := hq.sends
    have hpre : chunks.flatten <+: s.conn.out.drop s.got := by
      by_contra hno
      exact hpass (.inr hno)
    have hout := hs.handedOver.written
    have hlen : s.got + chunks.flatten.length ≤ s.conn.out.length := by
      have := hpre.length_le
      have := hr.got_le
      rw [List.length_drop] at *
      omega
    have htotal : s.got + chunks.flatten.length ≤ total Frame.size (e.frames s.conn.queued) := by
      rw [total_frames]
      exact hlen.trans hout.length_le
    have hstream : (s.conn.queued.flatMap e.data).drop s.got = chunks.flatten ++
        (s.conn.queued.flatMap e.data).drop (s.got + chunks.flatten.length) := by
      obtain ⟨more, hmore⟩ := hpre.trans (hout.drop s.got)
      rw [← List.drop_drop, ← hmore, List.drop_left]
    have hsec : s.session.security = false := by
      rw [hr.peer, deliverAll_security, hp]
    have hwin := hr.window
    rw [hstream] at hwin
    obtain ⟨code, session, hrecv, hpeer, hwin'⟩ := recv_spec now chunks s.got s.session []
      (hsec.symm ▸ wellFormed_frames henv) (window_iff.mp hwin) hok
      (movable_of_size (fun f hf => (size_frames f hf).trans (by decide)) htotal)
      (Nat.lt_of_le_of_lt htotal (Nat.lt_add_of_pos_right (by decide)))
    unfold Link.recv
    rw [hrecv]
    refine ⟨_, rfl, ⟨hq.sends, hq.down, hq.queued, hq.taken_le, hq.fits⟩, window_iff.mpr hwin', hlen, ?_, ?_⟩
    · dsimp only
      rw [hpeer, hr.peer, taken_add, deliverAll_append]
      rfl
    · dsimp only
      rw [hr.handed, hr.peer, taken_add, deliverAll_append, List.nil_append]
      rfl

theorem Holds.step (henv : IsGate env) (hp : p.security = false) (h : Holds e env a p s) {o : Label}
    (hok : s.Ok e a o) : ∃ s', s.step e env o = some s' ∧ Holds e env a p s' := by
  cases o with
  | connected fresh fresh' => exact h.connected fresh fresh'
  | call => exact h.call hok
  | domsg fresh => exact h.domsg hok
  | sendMsg =>
    rw [Link.step]
    split_ifs with hup
    · obtain ⟨c, hc, h'⟩ := h.conn hup (o := .sendMsg) (by simp) trivial
      rw [hc]
      exact ⟨_, rfl, h'⟩
    · exact ⟨s, rfl, h⟩
  | turn w =>
    rw [Link.step]
    split_ifs with hup
    · obtain ⟨c, hc, h'⟩ := h.conn hup (o := .turn w) (by simp) hok
      rw [hc]
      exact ⟨_, rfl, h'⟩
    · exact ⟨s, rfl, h⟩
  | recv now chunks => exact h.recv henv hp hok

end

/-! ### What the gate gets -/

section

variable {e : Calls}

/-- The frame of a call. -/
def Calls.frame (e : Calls) (k : ℕ) : Frame := ((e.packet (k + 2)).map GateFrames.frame).getD ⟨{}, []⟩

theorem frames_call {k : ℕ} (h : (e.call k).Fits) : e.frames [k + 2] = [e.frame k] := by
  obtain ⟨q, hq, -⟩ := packet_call h
  unfold Calls.frames Calls.frame
  rw [List.filterMap_cons_some (by rw [hq]; rfl), hq]
  rfl

theorem frame_call {k : ℕ} (h : (e.call k).Fits) :
    (e.frame k).header.messageID = CONN_GATE_INFO.toUInt32 ∧ (e.frame k).header.messageType = Request ∧
      (e.frame k).payload = callContent (e.call k).charid (e.call k).name := by
  obtain ⟨q, hpacket, hq⟩ := packet_call h
  obtain ⟨-, -, -, -, hid, htype, -⟩ := readHeader_netPacket hq
  have hf : e.frame k = GateFrames.frame q := by
    unfold Calls.frame
    rw [hpacket]
    rfl
  rw [hf]
  refine ⟨hid, htype, ?_⟩
  unfold Frame.payload
  rw [if_neg (by rw [security_header hq]; decide), content_frame hq, payload_gateServiceCall h]

/-- Of the frames of the messages that have been queued, those of the calls are handed on. -/
theorem filter_frames {j : ℕ} (h : ∀ k < j, (e.call k).Fits) :
    ((e.frames (List.range (j + 2))).filter fun f => f.header.messageType ≠ ConnMessage) =
      (List.range j).map e.frame := by
  induction j with
  | zero =>
    obtain ⟨q, hpacket, hq⟩ := packet_conn e
    obtain ⟨-, -, -, -, -, htype, -⟩ := readHeader_netPacket hq
    have hone : e.frames (List.range 2) = [GateFrames.frame q] := by
      show List.filterMap _ [0, 1] = _
      rw [List.filterMap_cons_none rfl, List.filterMap_cons_some (by rw [hpacket]; rfl)]
      rfl
    have hconn : (GateFrames.frame q).header.messageType = ConnMessage := htype
    rw [hone, List.filter_cons_of_neg (by simpa using hconn)]
    rfl
  | succ j ih =>
    have htype := (frame_call (h j (Nat.lt_succ_self j))).2.1
    rw [show j + 1 + 2 = (j + 2) + 1 by omega, List.range_succ, frames_append, List.filter_append,
      ih fun k hk => h k (Nat.lt_succ_of_lt hk), frames_call (h j (Nat.lt_succ_self j)),
      List.filter_cons_of_pos (by rw [htype]; decide), List.range_succ, List.map_append]
    rfl

theorem asks_of_carries {k : ℕ} {m : Message} (h : (e.call k).Fits) (hc : Carries (e.frame k) m) :
    Asks (e.call k) m := by
  obtain ⟨hid, htype, hpayload⟩ := frame_call h
  exact ⟨hc.bytes.trans hpayload, hc.messageID.trans hid, hc.messageType.trans htype⟩

theorem forall_asks {n : ℕ} {handed : List Message} (h : ∀ k < n, (e.call k).Fits)
    (hc : List.Forall₂ Carries ((List.range n).map e.frame) handed) :
    List.Forall₂ Asks ((List.range n).map e.call) handed := by
  rw [List.forall₂_map_left_iff] at hc ⊢
  have hboth := (List.forall₂_and_left _ _).mpr ⟨fun k hk => h k (List.mem_range.mp hk), hc⟩
  exact hboth.imp fun k m hm => asks_of_carries hm.1 hm.2

end

/-- Nothing is under way: all that has been made has gone through the queues, is sent, and received. -/
def Link.Through (s : Link) : Prop :=
  s.up = true ∧ s.conn.isOpen = true ∧ s.taken = s.made ∧ s.conn.released = s.conn.queued ∧
    s.got = s.conn.out.length

section

variable {e : Calls} {env : Env} {a : ℕ → Option ℕ} {p : Peer} {s : Link}

/-- What is handed on is the first calls that have been made. -/
theorem Holds.asks (henv : IsGate env) (h : Holds e env a p s) :
    ∃ n ≤ s.made, List.Forall₂ Asks ((List.range n).map e.call) s.handed ∧ (s.Through → n = s.made) := by
  obtain ⟨hq, hr⟩ := h
  obtain ⟨waiting, hs⟩ := hq.sends
  have hcarry := deliverAll_carries p (taken Frame.size (e.frames s.conn.queued) s.got)
    fun f hf => (wellFormed_frames henv f (by
      rw [← @taken_append_left _ Frame.size (e.frames s.conn.queued) s.got]
      exact List.mem_append_left _ hf)).1
  rw [← hr.handed] at hcarry
  cases hup : s.up with
  | false =>
    obtain ⟨hstart, hmade⟩ := hq.down hup
    refine ⟨0, Nat.zero_le _, ?_, fun hall => absurd (hall.1.symm.trans hup) (by decide)⟩
    have hnone : e.frames s.conn.queued = [] := by
      rw [hstart]
      rfl
    rw [hnone] at hcarry
    exact forall_asks (fun k hk => absurd hk (Nat.not_lt_zero k)) hcarry
  | true =>
    obtain ⟨k, hk, hqueued, hopen⟩ := hq.queued hup
    have hkm : k ≤ s.made := hk.trans hq.taken_le
    have hpre : taken Frame.size (e.frames s.conn.queued) s.got <+: e.frames s.conn.queued :=
      ⟨_, taken_append_left _ _⟩
    have hfilter := hpre.filter fun f => decide (f.header.messageType ≠ ConnMessage)
    have hall : s.Through → taken Frame.size (e.frames s.conn.queued) s.got = e.frames s.conn.queued := by
      rintro ⟨-, -, -, hreleased, hgot⟩
      have hlen := hs.handedOver.all
      rw [hreleased, ← total_frames, ← hgot] at hlen
      have hmore := @taken_append_left _ Frame.size (e.frames s.conn.queued) s.got
      rwa [left_eq_nil_iff.mpr hlen, List.append_nil] at hmore
    have hfits : ∀ i < k, (e.call i).Fits := fun i hi => hq.fits i (hi.trans_le hkm)
    have hrange := filter_frames hfits
    rw [← hqueued] at hrange
    have htake := List.prefix_iff_eq_take.mp (hrange ▸ hfilter)
    rw [← List.map_take, List.take_range] at htake
    rw [htake] at hcarry
    refine ⟨_, (Nat.min_le_right _ _).trans hkm, forall_asks (fun i hi => ?_) hcarry, fun hthrough => ?_⟩
    · exact hfits i (hi.trans_le (Nat.min_le_right _ _))
    · rw [hall hthrough, hrange, List.length_map, List.length_range, Nat.min_self, hopen hthrough.2.1]
      exact hthrough.2.2.1

/-- The players 7 and 8, `bob` and `al`. -/
def twoCalls : Calls where
  call k := if k = 0 then ⟨7, [98, 111, 98]⟩ else ⟨8, [97, 108]⟩

def gate : Env := { gameServer with local_type_ := eGateServer }

def gateSession : Session := { bufRecv := fun _ => 0 }

/-- Two calls, of which the packets are cut where they are sent and where they are received. -/
def twoCallsRun : List Label :=
  [.connected (fun _ => none) (fun _ => none), .sendMsg, .turn (.sent 20), .call,
    .domsg fun _ => none, .recv 1 [(twoCalls.data 1).take 20], .call, .sendMsg, .turn (.sent 100), .turn (.sent 30),
    .recv 2 [(twoCalls.data 1).drop 20 ++ (twoCalls.data 2).take 30], .domsg fun _ => none, .sendMsg,
    .turn (.sent 100), .turn (.sent 100), .turn (.sent 100),
    .recv 3 [(twoCalls.data 2).drop 30, twoCalls.data 3]]

end

end ChatShow.CSLoginService.GateLink
