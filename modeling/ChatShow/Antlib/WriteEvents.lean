import ChatShow.Antlib.ConnectionSend
import ChatShow.Antlib.TcpConnections
import ChatShow.Lib.EdgeEvents

/-! # When a connection can write

`do_tcpconnection_msg`, `tcpconnection_send`, and what `epoll_run` does of an `EPOLLOUT`. The sockets are
watched with `EPOLLET`: an event that is told is not told again, and the next one has to be due whenever a
message waits. `EPOLLOUT` is asked for with the first message behind an empty queue, and no longer where
the queue has become empty. A connection that is being made asks for it from the start, and goes on to do
so where its first message is sent in part, although its state is `TCPSTATE_NOTHNG` then.

What a protocol makes of a message and of a connection that is made is a parameter, the messages that it
adds. Reading adds none; where it closes the socket, as an `EPOLLERR` and the timeout do, it is a `close`. -/

namespace ChatShow.Antlib.WriteEvents

open ChatShow.Lib.Runs ChatShow.Lib.EdgeEvents ChatShow.Antlib.SendQueue ChatShow.Antlib.SendQueueFifo
open ChatShow.Antlib.ConnectionSend
open ChatShow.Antlib.TcpConnections (TcpState)

/-! ### The connection and its events -/

structure State where
  conn : Connection
  state : TcpState
  watch : Watch

/-- A message, and what `malloc` leaves in an array that is made for it. -/
abbrev Added := ℕ × (ℕ → Option ℕ)

/-- `room` is what the kernel finds where it looks at the socket. -/
inductive Label
  /-- a message for the connection, of which `_do_msg` makes others -/
  | domsg (msgs : List Added) (room : Bool)
  /-- `epoll_wait`, with what `_connected` adds where it is called, or `none` where `tcp_connected_check`
  finds an error -/
  | wait (room other : Bool) (made : Option (List Added))
  | turn (w : Write)
  | drained
  | close

/-- `tcpconnection_add_msg` of each. -/
def addMsgs (data : ℕ → List UInt8) (c : Connection) (msgs : List Added) : Option Connection :=
  run (Connection.step data) c (msgs.map fun p => .addMsg p.1 p.2)

/-- The message at the head is taken off the queue, and is the user's. -/
def popped (c : Connection) (m : ℕ) : Connection :=
  { c with sendqueue := c.sendqueue.pop, released := c.released ++ [m] }

namespace State

/-- What `epoll_run` does when `tcpconnection_send` returns. -/
def finish (s : State) : State :=
  if s.conn.sendqueue.count = 0 ∧ s.conn.isOpen then { s with state := .nothng, watch := s.watch.unask }
  else s

/-- `_tcpconnection_send_msg` up to its loop. -/
def sendMsg (s : State) : State :=
  let s := { s with conn := s.conn.sendMsg }
  if s.conn.sending then s else s.finish

/-- `tcpconnection_send` up to the loop. -/
def send (data : ℕ → List UInt8) (s : State) (made : Option (List Added)) : Option State :=
  if s.state = .connecting then
    if 0 < s.conn.sendqueue.count then
      s.conn.sendqueue.first.bind fun m =>
        match made with
        | none => some { s with conn := { popped s.conn m with isOpen := false } }
        | some msgs =>
          (addMsgs data (popped s.conn m) msgs).map fun c => sendMsg { s with conn := c, state := .nothng }
    else none
  else some s.sendMsg

/-- What a turn of the loop leaves of the events. -/
def wrote (data : ℕ → List UInt8) (s : State) (w : Write) : Watch :=
  match s.conn.sendqueue.first, w with
  | some m, .sent n => s.watch.wrote (decide ((data m).length - s.conn.userid m ≤ n))
  | _, _ => s.watch

def turn (data : ℕ → List UInt8) (s : State) (w : Write) : State :=
  let s := { s with conn := s.conn.turn data w, watch := s.wrote data w }
  if s.conn.sending then s else s.finish

/-- A socket that is closed is not found again, and what the thread does not come to is passed over. -/
def step (data : ℕ → List UInt8) (s : State) : Label → Option State
  | .domsg msgs room =>
    if s.conn.sending ∨ ¬ s.conn.isOpen then some s
    else (addMsgs data s.conn msgs).map fun c =>
      if s.state = .nothng ∧ 0 < c.sendqueue.size then
        { conn := c, state := .send, watch := s.watch.ask room }
      else { s with conn := c }
  | .wait room other made =>
    if s.conn.sending ∨ ¬ s.conn.isOpen then some s
    else
      let s' := { s with watch := (s.watch.wait room other).2 }
      if (s.watch.wait room other).1 then s'.send data made else some s'
  | .turn w => some (if s.conn.sending then s.turn data w else s)
  | .drained => some { s with watch := s.watch.drained }
  | .close => some (if s.conn.sending then s else { s with conn := { s.conn with isOpen := false } })

/-- `add_tcpconnection`. -/
def accepted (a : ℕ → Option ℕ) : State := { conn := .start 0 a, state := .nothng, watch := {} }

/-- `add_tcpconnecting`, with the message 0 and a socket that is not connected yet. -/
def connecting (a fresh : ℕ → Option ℕ) (room : Bool) : Option State :=
  ((Connection.start 1 a).addMsg 0 fresh).map fun c =>
    { conn := c, state := .connecting, watch := Watch.ask {} room }

end State

/-! ### What is asked -/

/-- What a step has to meet: the messages and the loop are as in `ConnectionSend`, and nobody has the id
of a connection that is being made. -/
def Ok (a : ℕ → Option ℕ) (data : ℕ → List UInt8) (s : State) : Label → Prop
  | .domsg msgs _ => s.state ≠ .connecting ∧
    Along (Connection.step data) (ConnectionSend.Ok a data) s.conn (msgs.map fun p => .addMsg p.1 p.2)
  | .wait _ _ made => s.state = .connecting → ∀ msgs ∈ made, ∀ m ∈ s.conn.sendqueue.first,
    Along (Connection.step data) (ConnectionSend.Ok a data) (popped s.conn m)
      (msgs.map fun p => .addMsg p.1 p.2)
  | .turn w => ConnectionSend.Ok a data s.conn (.turn w)
  | .drained => True
  | .close => True

instance (a : ℕ → Option ℕ) (data : ℕ → List UInt8) (s : State) : ∀ o, Decidable (Ok a data s o)
  | .domsg _ _ => inferInstanceAs (Decidable (_ ∧ _))
  | .wait _ _ made => inferInstanceAs (Decidable (_ → ∀ msgs ∈ made, ∀ m ∈ s.conn.sendqueue.first, _))
  | .turn w => inferInstanceAs (Decidable (ConnectionSend.Ok a data s.conn (.turn w)))
  | .drained => .isTrue trivial
  | .close => .isTrue trivial

/-- A connection that is accepted, or that is being made; no byte of the message 0 is for the socket. -/
inductive Begun (a : ℕ → Option ℕ) (data : ℕ → List UInt8) : State → Prop
  | accepted : Begun a data (.accepted a)
  | connecting {fresh : ℕ → Option ℕ} {room : Bool} {s : State} (hdata : data 0 = [])
    (h : State.connecting a fresh room = some s) : Begun a data s

/-! ### The invariant -/

/-- What holds while the socket is open. A connection that is being made has the message 0 and no other. -/
structure Waits (a : ℕ → Option ℕ) (data : ℕ → List UInt8) (s : State) : Prop where
  begun : s.state = .connecting → s.conn.sending = false ∧ data 0 = [] ∧
    ∃ fresh, (Connection.start 1 a).addMsg 0 fresh = some s.conn
  sends : s.state ≠ .connecting → ∃ waiting, Sends a data s.conn waiting
  asked : s.watch.asked = true ↔
    s.conn.sending = true ∨ s.state ≠ .nothng ∨ 0 < s.conn.sendqueue.count
  owes : s.conn.sending = false → s.watch.asked = true → s.watch.Owes

def Holds (a : ℕ → Option ℕ) (data : ℕ → List UInt8) (s : State) : Prop :=
  s.conn.isOpen = true → Waits a data s

section

variable {a fresh : ℕ → Option ℕ} {data : ℕ → List UInt8} {c c' : Connection} {waiting : List ℕ}

theorem addMsg_sending {m : ℕ} (h : c.addMsg m fresh = some c') : c'.sending = c.sending := by
  unfold Connection.addMsg at h
  split_ifs at h
  · cases h
    rfl
  · obtain ⟨q, -, rfl⟩ := Option.map_eq_some_iff.mp h
    rfl

/-- What is added waits behind the others, and the loop is not begun. -/
theorem sends_addMsgs {msgs : List Added} (h : Sends a data c waiting) (hidle : c.sending = false)
    (hok : Along (Connection.step data) (ConnectionSend.Ok a data) c (msgs.map fun p => .addMsg p.1 p.2)) :
    ∃ c' waiting', addMsgs data c msgs = some c' ∧ Sends a data c' waiting' ∧ c'.sending = false := by
  induction msgs generalizing c waiting with
  | nil => exact ⟨c, waiting, rfl, h, hidle⟩
  | cons p msgs ih =>
    obtain ⟨hp, hrest⟩ := hok
    obtain ⟨c₁, waiting₁, hc, h₁⟩ := h.addMsg hp
    have hstep : c.step data (.addMsg p.1 p.2) = some c₁ := by
      rw [Connection.step, hidle]
      exact hc
    obtain ⟨c', waiting', hrun, h'⟩ := ih h₁ ((addMsg_sending hc).trans hidle) (hrest c₁ hstep)
    exact ⟨c', waiting', run_cons_eq hstep hrun, h'⟩

/-- The first message of a connection that is made is taken off its queue, which is empty then. -/
theorem sends_popped (hdata : data 0 = []) (h : (Connection.start 1 a).addMsg 0 fresh = some c) :
    c.sendqueue.first = some 0 ∧ 0 < c.sendqueue.count ∧ c.queued = [0] ∧
      Sends a data (popped c 0) [] := by
  obtain ⟨q, hq, hkept⟩ := (kept_start a).push fresh 0
    fun h => absurd h (by decide : ¬ (0 : ℤ) + 1 = tcpQueueNode)
  have hsize : q.size = tcpQueueNode := by
    cases hq
    rfl
  unfold Connection.addMsg at h
  rw [if_neg fun h => absurd h.1 (by decide : ¬ (1 : UInt16) = 0)] at h
  obtain ⟨q', hq', rfl⟩ := Option.map_eq_some_iff.mp h
  obtain rfl : q = q' := Option.some.inj (hq.symm.trans hq')
  refine ⟨hkept.holds.first, ?_, rfl, ⟨hkept.pop (.inl hsize), rfl, List.nodup_singleton 0, ?_, ?_, ?_⟩⟩
  · show (0 : ℤ) < q.count
    rw [hkept.holds.count]
    exact Int.natCast_pos.mpr (Nat.succ_pos _)
  · show [] = List.flatMap data [0] ++ []
    rw [List.flatMap_singleton, hdata]
    rfl
  · exact fun _ h => absurd h List.not_mem_nil
  · exact fun _ h => absurd h List.not_mem_nil

/-- A loop that ends with messages left, and the socket open, has written less than there was. -/
theorem turn_short {w : Write} (h : Sends a data c waiting) (hsending : c.sending = true)
    (hends : (c.turn data w).sending = false) (hopen : (c.turn data w).isOpen = true)
    (hleft : (c.turn data w).sendqueue.count ≠ 0) :
    ∃ m n, c.sendqueue.first = some m ∧ w = .sent n ∧ n < (data m).length - c.userid m := by
  unfold Connection.turn at hends hopen hleft
  cases hfirst : c.sendqueue.first with
  | none =>
    rw [hfirst] at hleft
    cases waiting with
    | nil => exact absurd h.kept.holds.count hleft
    | cons m _ => cases hfirst.symm.trans h.kept.holds.first
  | some m =>
    rw [hfirst] at hends hopen hleft
    dsimp only at hends hopen hleft
    split_ifs at hends hopen hleft with ho
    · unfold Connection.write at hends hopen
      cases w with
      | error => cases hopen
      | sent n =>
        refine ⟨m, n, rfl, rfl, ?_⟩
        by_contra hn
        unfold tcpWrite at hends hopen
        dsimp only at hends hopen
        by_cases hzero : (data m).length - c.userid m = 0
        · rw [if_pos hzero] at hopen
          cases hopen
        · -- all of it is taken, and the loop goes on
          rw [if_neg hzero, Nat.min_eq_right (Nat.le_of_not_lt hn)] at hends
          dsimp only at hends
          rw [if_neg hzero, if_pos (by omega)] at hends
          exact absurd (hsending.symm.trans hends) (by decide)
    · exact absurd hopen ho

variable {s : State}

theorem sendMsg_eq (h : Sends a data s.conn waiting) :
    s.sendMsg = { s with conn := { s.conn with sending := true } } := by
  have hsize : s.conn.sendqueue.size ≠ 0 := by
    have := h.kept.holds.size
    unfold tcpQueueNode at this
    omega
  unfold State.sendMsg Connection.sendMsg
  rw [decide_eq_true hsize]
  rfl

theorem waits_sendMsg (h : Sends a data s.conn waiting) (hstate : s.state ≠ .connecting)
    (hasked : s.watch.asked = true) : Waits a data s.sendMsg := by
  rw [sendMsg_eq h]
  refine ⟨fun hc => absurd hc hstate, fun _ => ⟨waiting, h.congr rfl rfl rfl rfl rfl⟩, ?_, fun h => ?_⟩
  · exact iff_of_true hasked (.inl rfl)
  · cases h

/-! ### The steps -/

theorem Holds.domsg {msgs : List Added} {room : Bool} (h : Holds a data s)
    (hok : Ok a data s (.domsg msgs room)) :
    ∃ s', s.step data (.domsg msgs room) = some s' ∧ Holds a data s' := by
  rw [State.step]
  split_ifs with hpass
  · exact ⟨s, rfl, h⟩
  · obtain ⟨hidle, hopen⟩ := not_or.mp hpass
    have hidle := Bool.eq_false_iff.mpr hidle
    have hw := h (not_not.mp hopen)
    obtain ⟨waiting, hs⟩ := hw.sends hok.1
    obtain ⟨c', waiting', hc, hs', hidle'⟩ := sends_addMsgs hs hidle hok.2
    rw [hc, Option.map_some]
    refine ⟨_, rfl, fun _ => ?_⟩
    split_ifs with hask
    · refine ⟨fun hc => (by cases hc), fun _ => ⟨waiting', hs'⟩, ?_, fun _ _ => Watch.owes_ask room⟩
      exact iff_of_true rfl (.inr (.inl fun h => by cases h))
    · -- the event has been asked for before
      have hsize : 0 < c'.sendqueue.size := Nat.lt_of_lt_of_le (by decide) hs'.kept.holds.size
      have hstate : s.state ≠ .nothng := fun h => hask ⟨h, hsize⟩
      refine ⟨fun hc => absurd hc hok.1, fun _ => ⟨waiting', hs'⟩, ?_, fun _ => hw.owes hidle⟩
      exact iff_of_true (hw.asked.mpr (.inr (.inl hstate))) (.inr (.inl hstate))

/-- The event is told: the loop is begun, or the socket is closed. -/
theorem Waits.send {made : Option (List Added)} {room other : Bool} {w : Watch} (h : Waits a data s)
    (hasked : w.asked = true) (hok : Ok a data s (.wait room other made)) :
    ∃ s', State.send data { s with watch := w } made = some s' ∧ Holds a data s' ∧ s'.watch = w ∧
      (s'.conn.isOpen = true → s'.conn.sending = true ∧ s'.state ≠ .connecting) := by
  unfold State.send
  by_cases hc : s.state = .connecting
  · obtain ⟨hidle, hdata, fresh, hmade⟩ := h.begun hc
    obtain ⟨hfirst, hcount, -, hpopped⟩ := sends_popped hdata hmade
    rw [if_pos hc, if_pos hcount, hfirst, Option.bind_some]
    cases made with
    | none => exact ⟨_, rfl, fun ho => (by cases ho), rfl, fun ho => by cases ho⟩
    | some msgs =>
      obtain ⟨c', waiting', hrun, hs', -⟩ := sends_addMsgs hpopped hidle (hok hc msgs rfl 0 hfirst)
      have heq := sendMsg_eq (s := { conn := c', state := .nothng, watch := w }) hs'
      dsimp only
      rw [hrun, Option.map_some]
      refine ⟨_, rfl, fun _ => waits_sendMsg hs' (fun h => by cases h) hasked, ?_, fun _ => ?_⟩
      · rw [heq]
      · rw [heq]
        exact ⟨rfl, fun h => by cases h⟩
  · obtain ⟨waiting, hs⟩ := h.sends hc
    have heq := sendMsg_eq (s := { s with watch := w }) hs
    rw [if_neg hc]
    refine ⟨_, rfl, fun _ => waits_sendMsg hs hc hasked, ?_, fun _ => ?_⟩
    · rw [heq]
    · rw [heq]
      exact ⟨rfl, hc⟩

theorem Holds.wait {made : Option (List Added)} {room other : Bool} (h : Holds a data s)
    (hok : Ok a data s (.wait room other made)) :
    ∃ s', s.step data (.wait room other made) = some s' ∧ Holds a data s' := by
  rw [State.step]
  split_ifs with hpass htold
  · exact ⟨s, rfl, h⟩
  · obtain ⟨hidle, hopen⟩ := not_or.mp hpass
    have hw := h (not_not.mp hopen)
    obtain ⟨s', hs', hholds, -⟩ :=
      hw.send ((Watch.asked_wait room other).trans (Watch.wait_told htold).1) hok
    exact ⟨s', hs', hholds⟩
  · obtain ⟨hidle, hopen⟩ := not_or.mp hpass
    have hw := h (not_not.mp hopen)
    refine ⟨_, rfl, fun _ => ⟨hw.begun, hw.sends, ?_, fun _ hasked => ?_⟩⟩
    · rw [Watch.asked_wait]
      exact hw.asked
    · rw [Watch.asked_wait] at hasked
      exact (hw.owes (Bool.eq_false_iff.mpr hidle) hasked).wait (Bool.eq_false_iff.mpr htold)

theorem asked_wrote (w : Write) : (s.wrote data w).asked = s.watch.asked := by
  unfold State.wrote
  split <;> rfl

theorem turn_conn (s : State) (w : Write) : (s.turn data w).conn = s.conn.turn data w := by
  unfold State.turn State.finish
  dsimp only
  split_ifs <;> rfl

theorem Holds.turn {w : Write} (h : Holds a data s) (hsending : s.conn.sending = true)
    (hok : Ok a data s (.turn w)) : Holds a data (s.turn data w) := by
  intro hopen
  rw [turn_conn] at hopen
  have hw := h ((turn_stays s.conn data w).isOpen hopen)
  have hstate : s.state ≠ .connecting := fun hc => absurd (hsending.symm.trans (hw.begun hc).1) (by decide)
  obtain ⟨waiting, hs⟩ := hw.sends hstate
  obtain ⟨waiting', hs'⟩ := hs.turn hsending hok
  have hbefore : s.watch.asked = true := hw.asked.mpr (.inl hsending)
  have hasked : (s.wrote data w).asked = true := (asked_wrote w).trans hbefore
  unfold State.turn
  dsimp only
  split_ifs with hmore
  · refine ⟨fun hc => absurd hc hstate, fun _ => ⟨waiting', hs'⟩, iff_of_true hasked (.inl hmore), ?_⟩
    exact fun h => absurd (hmore.symm.trans h) (by decide)
  · unfold State.finish
    dsimp only
    split_ifs with hempty
    · refine ⟨fun hc => (by cases hc), fun _ => ⟨waiting', hs'⟩, ?_, fun _ h => (by cases h)⟩
      refine iff_of_false (fun h => by cases h) ?_
      rintro (h | h | h)
      · exact hmore h
      · exact h rfl
      · exact Int.ne_of_gt h hempty.1
    · have hleft : (s.conn.turn data w).sendqueue.count ≠ 0 := fun h0 => hempty ⟨h0, hopen⟩
      obtain ⟨m, n, hfirst, rfl, hlt⟩ := turn_short hs hsending (Bool.eq_false_iff.mpr hmore) hopen hleft
      refine ⟨fun hc => absurd hc hstate, fun _ => ⟨waiting', hs'⟩, iff_of_true hasked (.inr (.inr ?_)), ?_⟩
      · have := hs'.kept.holds.count
        show 0 < (s.conn.turn data (.sent n)).sendqueue.count
        omega
      · intro _ _
        show (s.wrote data (.sent n)).Owes
        unfold State.wrote
        rw [hfirst]
        dsimp only
        rw [decide_eq_false (by omega)]
        exact Watch.owes_wrote hbefore

theorem Holds.step {o : Label} (h : Holds a data s) (hok : Ok a data s o) :
    ∃ s', s.step data o = some s' ∧ Holds a data s' := by
  cases o with
  | domsg msgs room => exact h.domsg hok
  | wait room other made => exact h.wait hok
  | turn w =>
    rw [State.step]
    split_ifs with hsending
    · exact ⟨_, rfl, h.turn hsending hok⟩
    · exact ⟨s, rfl, h⟩
  | drained =>
    refine ⟨_, rfl, fun hopen => ?_⟩
    obtain ⟨hbegun, hsends, hasked, howes⟩ := h hopen
    exact ⟨hbegun, hsends, hasked, fun hidle h => (howes hidle h).drained⟩
  | close =>
    rw [State.step]
    split_ifs with hsending
    · exact ⟨s, rfl, h⟩
    · exact ⟨_, rfl, fun hopen => by cases hopen⟩

theorem Begun.holds (h : Begun a data s) : Holds a data s := by
  cases h with
  | accepted =>
    refine fun _ => ⟨fun h => (by cases h), fun _ => ⟨[], sends_start a data 0⟩, ?_, fun _ h => (by cases h)⟩
    refine iff_of_false (fun h => by cases h) ?_
    rintro (h | h | h)
    · cases h
    · exact h rfl
    · exact absurd h (Int.lt_irrefl 0)
  | connecting hdata hmade =>
    obtain ⟨c, hc, rfl⟩ := Option.map_eq_some_iff.mp hmade
    refine fun _ => ⟨fun _ => ⟨addMsg_sending hc, hdata, _, hc⟩, fun h => absurd rfl h, ?_, fun _ _ => ?_⟩
    · exact iff_of_true rfl (.inr (.inl fun h => by cases h))
    · exact Watch.owes_ask _

end

/-! ### Runs -/

/-- `add_tcpconnecting`, with the message 0 and a socket that `connect` has connected. -/
def State.connectedAtOnce (a fresh : ℕ → Option ℕ) : Option State :=
  ((Connection.start 1 a).addMsg 0 fresh).map fun c => { conn := c, state := .nothng, watch := {} }

/-- No event is asked for, and the message that `_connected` is to have waits: as long as nobody sends to
the connection, which nobody knows of, it is neither called nor is anything sent. -/
theorem connectedAtOnce_waits {a fresh : ℕ → Option ℕ} {data : ℕ → List UInt8} {s₀ s : State} {l : List Label}
    (h₀ : State.connectedAtOnce a fresh = some s₀) (hl : ∀ o ∈ l, ∀ msgs room, o ≠ .domsg msgs room)
    (h : run (State.step data) s₀ l = some s) :
    s.conn.queued = [0] ∧ s.conn.released = [] ∧ s.conn.out = [] ∧ ¬ s.watch.Owes := by
  have hinv := run_inv_along
    (P := fun s => s.conn.sending = false ∧ s.watch.asked = false ∧ s.conn.queued = [0] ∧
      s.conn.released = [] ∧ s.conn.out = [])
    (G := fun _ _ => True) ?_ h hl ?_ ?_
  · obtain ⟨-, hasked, hqueued, hreleased, hout⟩ := hinv
    exact ⟨hqueued, hreleased, hout, fun howes => absurd (hasked.symm.trans howes.1) (by decide)⟩
  · rintro s o s' ⟨hidle, hasked, hconn⟩ ho - hstep
    cases o with
    | domsg msgs room => exact absurd rfl (ho msgs room)
    | wait room other made =>
      rw [State.step] at hstep
      split_ifs at hstep with hpass htold
      · cases hstep
        exact ⟨hidle, hasked, hconn⟩
      · exact absurd ((Watch.wait_told htold).1.symm.trans hasked) (by decide)
      · cases hstep
        exact ⟨hidle, (Watch.asked_wait room other).trans hasked, hconn⟩
    | turn w =>
      rw [State.step, hidle] at hstep
      cases hstep
      exact ⟨hidle, hasked, hconn⟩
    | drained =>
      cases hstep
      exact ⟨hidle, hasked, hconn⟩
    | close =>
      rw [State.step, hidle, if_neg Bool.false_ne_true] at hstep
      cases hstep
      exact ⟨hidle, hasked, hconn⟩
  · exact along_of_take fun _ _ _ _ => trivial
  · obtain ⟨c, hc, rfl⟩ := Option.map_eq_some_iff.mp h₀
    unfold Connection.addMsg at hc
    rw [if_neg fun h => absurd h.1 (by decide : ¬ (1 : UInt16) = 0)] at hc
    obtain ⟨q, -, rfl⟩ := Option.map_eq_some_iff.mp hc
    exact ⟨rfl, rfl, rfl, rfl, rfl⟩

end ChatShow.Antlib.WriteEvents
