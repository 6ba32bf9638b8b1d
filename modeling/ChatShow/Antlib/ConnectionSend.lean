import ChatShow.Antlib.SendQueueFifo
import ChatShow.Lib.Runs
import Mathlib.Data.List.Nodup

/-! # What a connection sends

`tcpconnection_add_msg` and `_tcpconnection_send_msg`. A turn of the loop of `_tcpconnection_send_msg` is a
step, in which `tcp_write` takes some of the bytes that are left of a message. Messages are numbers, in
the order in which they were made; `_userid` of a message counts its bytes that are sent. `none` is an
`ASSERT` that fails. A connection is looked at once it is connected. -/

namespace ChatShow.Antlib.ConnectionSend

open ChatShow.Lib.Runs ChatShow.Antlib.SendQueue ChatShow.Antlib.SendQueueFifo

/-! ### The connection -/

structure Connection where
  sendqueue : TcpQueue
  type : UInt16 := 0
  isOpen : Bool := true
  /-- `_userid` of each message -/
  userid : ℕ → ℕ := fun _ => 0
  /-- `_tcpconnection_send_msg` is in its loop -/
  sending : Bool := false
  /-- what the socket has taken -/
  out : List UInt8 := []
  /-- the messages that `_sended_msg` has been called with -/
  released : List ℕ := []
  /-- the messages that have been put into the queue -/
  queued : List ℕ := []
  /-- the messages that have been freed as the queue was full -/
  refused : List ℕ := []

/-- What `send` does: it takes no more than so many bytes, and none where it would wait, or fails. -/
inductive Write
  | sent (n : ℕ)
  | error
deriving DecidableEq

inductive Label
  /-- `fresh` is what `malloc` leaves in a new array -/
  | addMsg (m : ℕ) (fresh : ℕ → Option ℕ)
  | sendMsg
  | turn (w : Write)

/-- `tcp_write` of so many bytes: how many are taken, or `none` where the socket is closed. -/
def tcpWrite (len : ℕ) : Write → Option ℕ
  | .sent n => if len = 0 then none else some (min n len)
  | .error => none

namespace Connection

/-- `tcpconnection_add_msg`. -/
def addMsg (c : Connection) (m : ℕ) (fresh : ℕ → Option ℕ) : Option Connection :=
  if c.type = 0 ∧ tcpQueueNode ≤ c.sendqueue.count then
    some { c with isOpen := false, refused := c.refused ++ [m] }
  else
    (pushWith c.sendqueue fresh m).map fun q =>
      { c with sendqueue := q, userid := Function.update c.userid m 0, queued := c.queued ++ [m] }

/-- `_tcpconnection_send_msg` up to its loop. -/
def sendMsg (c : Connection) : Connection := { c with sending := decide (c.sendqueue.size ≠ 0) }

/-- A turn of the loop with the message `m` at the head, of which `data` are the bytes. -/
def write (c : Connection) (data : List UInt8) (m : ℕ) (w : Write) : Connection :=
  let off := c.userid m
  match tcpWrite (data.length - off) w with
  | none => { c with isOpen := false, sending := false }
  | some len =>
    let c := { c with out := c.out ++ (data.drop off).take len }
    if len = 0 then { c with sending := false }
    else if len + off = data.length then
      { c with released := c.released ++ [m], sendqueue := c.sendqueue.pop }
    else { c with userid := Function.update c.userid m (off + len), sending := false }

/-- The loop: it ends where there is no message, or no socket. -/
def turn (data : ℕ → List UInt8) (c : Connection) (w : Write) : Connection :=
  match c.sendqueue.first with
  | none => { c with sending := false }
  | some m => if c.isOpen then c.write (data m) m w else { c with sending := false }

/-- A thread does one thing after the other: what it does not come to is passed over. -/
def step (data : ℕ → List UInt8) (c : Connection) : Label → Option Connection
  | .addMsg m fresh => if c.sending then some c else c.addMsg m fresh
  | .sendMsg => if c.sending ∨ ¬ c.isOpen then some c else some c.sendMsg
  | .turn w => if c.sending then some (c.turn data w) else some c

/-- A connection whose queue has been reset. -/
def start (type : UInt16) (a : ℕ → Option ℕ) : Connection :=
  { type := type, sendqueue := SendQueueFifo.start a }

end Connection

/-! ### What is asked -/

/-- The socket has taken the bytes of the messages in their order, and the messages that have been
released are those that have been taken to the end. -/
structure Delivered (data : ℕ → List UInt8) (c : Connection) : Prop where
  written : c.out <+: c.queued.flatMap data
  order : c.released <+: c.queued
  all : (c.released.flatMap data).length ≤ c.out.length
  next : ∀ m, c.released ++ [m] <+: c.queued →
    c.out.length < ((c.released ++ [m]).flatMap data).length

/-- The rest of the message `m` is taken. -/
def Ends (data : ℕ → List UInt8) (c : Connection) (m : ℕ) (w : Write) : Prop :=
  tcpWrite ((data m).length - c.userid m) w = some ((data m).length - c.userid m)

instance (data : ℕ → List UInt8) (c : Connection) (m : ℕ) (w : Write) : Decidable (Ends data c m w) :=
  inferInstanceAs (Decidable (_ = _))

/-- What a step has to meet: a message is not empty and is queued once, an array does not become full
with the head at 0, and is not too large; the loop comes to an empty queue only where the slot of its
head has not been used, and the head does not go round in a larger array. -/
def Ok (a : ℕ → Option ℕ) (data : ℕ → List UInt8) (c : Connection) : Label → Prop
  | .addMsg m _ => data m ≠ [] ∧ m ∉ c.queued ∧
    (c.sendqueue.count + 1 = c.sendqueue.size →
      c.sendqueue.head ≠ 0 ∧ 2 * c.sendqueue.size < 1024 * 1024)
  | .sendMsg => True
  | .turn w => c.sending = true → c.isOpen = true →
    if c.sendqueue.count = 0 then c.queued.length < tcpQueueNode ∧ a c.queued.length = none
    else (∀ m ∈ c.sendqueue.first, Ends data c m w) →
      c.sendqueue.size = tcpQueueNode ∨ c.sendqueue.head + 1 ≠ tcpQueueNode

instance (a : ℕ → Option ℕ) (data : ℕ → List UInt8) (c : Connection) : ∀ o, Decidable (Ok a data c o)
  | .addMsg m _ => inferInstanceAs (Decidable (data m ≠ [] ∧ m ∉ c.queued ∧ (_ → _)))
  | .sendMsg => .isTrue trivial
  | .turn w => inferInstanceAs (Decidable (_ → _ →
      if c.sendqueue.count = 0 then c.queued.length < tcpQueueNode ∧ a c.queued.length = none
      else (∀ m ∈ c.sendqueue.first, Ends data c m w) →
        c.sendqueue.size = tcpQueueNode ∨ c.sendqueue.head + 1 ≠ tcpQueueNode))

/-! ### The invariant -/

/-- The messages that wait, of which the first may have been sent in part. -/
structure Sends (a : ℕ → Option ℕ) (data : ℕ → List UInt8) (c : Connection) (waiting : List ℕ) :
    Prop where
  kept : Kept a c.sendqueue waiting c.queued.length
  queued : c.queued = c.released ++ waiting
  nodup : c.queued.Nodup
  out : c.out = c.released.flatMap data ++ waiting.head?.elim [] fun m => (data m).take (c.userid m)
  left : ∀ m ∈ waiting, c.userid m < (data m).length
  later : ∀ m ∈ waiting.tail, c.userid m = 0

theorem Sends.handedOver {a : ℕ → Option ℕ} {data : ℕ → List UInt8} {c : Connection} {waiting : List ℕ}
    (h : Sends a data c waiting) : Delivered data c := by
  rcases h with ⟨-, hqueued, -, hout, hleft, -⟩
  cases waiting with
  | nil =>
    rw [List.append_nil] at hqueued
    rw [List.head?_nil, Option.elim_none, List.append_nil] at hout
    refine ⟨?_, ?_, ?_, fun m hm => ?_⟩
    · exact ⟨[], by rw [List.append_nil, hout, hqueued]⟩
    · exact ⟨[], by rw [List.append_nil, hqueued]⟩
    · exact Nat.le_of_eq (by rw [hout])
    · have := hm.length_le
      rw [hqueued, List.length_append, List.length_singleton] at this
      omega
  | cons m waiting =>
    rw [List.head?_cons, Option.elim_some] at hout
    have hlt := hleft m List.mem_cons_self
    refine ⟨?_, ⟨_, hqueued.symm⟩, ?_, fun m' hm => ?_⟩
    · rw [hout, hqueued, List.flatMap_append, List.flatMap_cons]
      exact List.prefix_append_right_inj _ |>.mpr ((List.take_prefix _ _).trans (List.prefix_append _ _))
    · rw [hout, List.length_append]
      exact Nat.le_add_right _ _
    · have hm' : m' = m := by
        rw [hqueued, List.prefix_append_right_inj] at hm
        exact (List.cons_prefix_cons.mp hm).1
      rw [hout, hm', List.flatMap_append, List.flatMap_singleton, List.length_append, List.length_append,
        List.length_take]
      omega

theorem sends_start (a : ℕ → Option ℕ) (data : ℕ → List UInt8) (type : UInt16) :
    Sends a data (.start type a) [] where
  kept := kept_start a
  queued := rfl
  nodup := List.nodup_nil
  out := rfl
  left _ h := absurd h List.not_mem_nil
  later _ h := absurd h List.not_mem_nil

section

variable {a : ℕ → Option ℕ} {data : ℕ → List UInt8} {c : Connection} {waiting : List ℕ}

/-- What is not looked at may be anything. -/
theorem Sends.congr {c' : Connection} (h : Sends a data c waiting)
    (hqueue : c'.sendqueue = c.sendqueue) (huserid : c'.userid = c.userid) (hout : c'.out = c.out)
    (hreleased : c'.released = c.released) (hqueued : c'.queued = c.queued) : Sends a data c' waiting where
  kept := by rw [hqueue, hqueued]; exact h.kept
  queued := by rw [hqueued, hreleased]; exact h.queued
  nodup := by rw [hqueued]; exact h.nodup
  out := by rw [hout, hreleased, huserid]; exact h.out
  left := by rw [huserid]; exact h.left
  later := by rw [huserid]; exact h.later

/-- A message waits behind the others, and nothing of it has been sent. -/
theorem Sends.push {m : ℕ} {q : TcpQueue} (h : Sends a data c waiting) (hne : data m ≠ [])
    (hnew : m ∉ c.queued) (hkept : Kept a q (waiting ++ [m]) (c.queued.length + 1)) :
    Sends a data { c with sendqueue := q, userid := Function.update c.userid m 0, queued := c.queued ++ [m] }
      (waiting ++ [m]) := by
  have hother : ∀ m' ∈ waiting, Function.update c.userid m 0 m' = c.userid m' := by
    refine fun m' hm' => Function.update_of_ne ?_ _ _
    rintro rfl
    exact hnew (by rw [h.queued]; exact List.mem_append_right _ hm')
  refine ⟨?_, ?_, ?_, ?_, fun m' hm' => ?_, fun m' hm' => ?_⟩
  · dsimp only
    rw [List.length_append]
    exact hkept
  · dsimp only
    rw [h.queued, List.append_assoc]
  · exact List.nodup_append'.mpr ⟨h.nodup, List.nodup_singleton m, by simpa using hnew⟩
  · dsimp only
    rw [h.out]
    cases waiting with
    | nil =>
      rw [List.nil_append, List.head?_nil, List.head?_cons, Option.elim_none, Option.elim_some,
        Function.update_self, List.take_zero]
    | cons m₁ waiting =>
      rw [List.cons_append, List.head?_cons, List.head?_cons, Option.elim_some, Option.elim_some,
        hother m₁ List.mem_cons_self]
  · dsimp only
    rcases List.mem_append.mp hm' with hm' | hm'
    · rw [hother m' hm']
      exact h.left m' hm'
    · rw [List.mem_singleton.mp hm', Function.update_self]
      exact List.length_pos_of_ne_nil hne
  · dsimp only
    cases waiting with
    | nil => cases hm'
    | cons m₁ waiting =>
      rw [List.cons_append, List.tail_cons] at hm'
      rcases List.mem_append.mp hm' with hm' | hm'
      · rw [hother m' (List.mem_cons_of_mem _ hm')]
        exact h.later m' hm'
      · rw [List.mem_singleton.mp hm', Function.update_self]

theorem Sends.addMsg (h : Sends a data c waiting) {m : ℕ} {fresh : ℕ → Option ℕ}
    (hok : Ok a data c (.addMsg m fresh)) :
    ∃ c' waiting', c.addMsg m fresh = some c' ∧ Sends a data c' waiting' := by
  obtain ⟨hne, hnew, hfull⟩ := hok
  unfold Connection.addMsg
  by_cases hrefused : c.type = 0 ∧ tcpQueueNode ≤ c.sendqueue.count
  · rw [if_pos hrefused]
    exact ⟨_, waiting, rfl, h.congr rfl rfl rfl rfl rfl⟩
  · rw [if_neg hrefused]
    obtain ⟨q, hpush, hkept⟩ := h.kept.push fresh m hfull
    rw [hpush]
    exact ⟨_, _, rfl, h.push hne hnew hkept⟩

theorem tcpWrite_le {n len : ℕ} {w : Write} (h : tcpWrite n w = some len) : len ≤ n := by
  cases w with
  | sent k =>
    unfold tcpWrite at h
    dsimp only at h
    split_ifs at h
    cases h
    exact Nat.min_le_right _ _
  | error => cases h

/-- The message at the head is through: the next one has not been begun. -/
theorem Sends.pop {m len : ℕ} {out : List UInt8} (h : Sends a data c (m :: waiting))
    (hpop : c.sendqueue.size = tcpQueueNode ∨ c.sendqueue.head + 1 ≠ tcpQueueNode)
    (hout : out = c.out ++ ((data m).drop (c.userid m)).take len) (hall : len + c.userid m = (data m).length) :
    Sends a data { c with out := out, released := c.released ++ [m], sendqueue := c.sendqueue.pop }
      waiting := by
  have hold := h.out
  rw [List.head?_cons, Option.elim_some] at hold
  refine ⟨h.kept.pop hpop, ?_, h.nodup, ?_, fun m' hm' => ?_, fun m' hm' => ?_⟩
  · dsimp only
    rw [h.queued, List.append_assoc]
    rfl
  · dsimp only
    have hrest : (waiting.head?.elim [] fun m => (data m).take (c.userid m)) = [] := by
      cases waiting with
      | nil => rfl
      | cons m₁ waiting =>
        rw [List.head?_cons, Option.elim_some, h.later m₁ List.mem_cons_self, List.take_zero]
    rw [hrest, hout, hold, List.flatMap_append, List.flatMap_singleton, List.append_nil, List.append_assoc,
      ← List.take_add, Nat.add_comm, hall, List.take_length]
  · exact h.left m' (List.mem_cons_of_mem _ hm')
  · exact h.later m' (List.mem_of_mem_tail hm')

/-- More of the message at the head has been taken, and not all of it. -/
theorem Sends.part {m len : ℕ} {out : List UInt8} {sending : Bool} (h : Sends a data c (m :: waiting))
    (hout : out = c.out ++ ((data m).drop (c.userid m)).take len) (hlen : len + c.userid m < (data m).length) :
    Sends a data { c with out := out, userid := Function.update c.userid m (c.userid m + len)
                          sending := sending } (m :: waiting) := by
  have hnot : m ∉ waiting := by
    have hnodup := h.nodup
    rw [h.queued] at hnodup
    exact (List.nodup_cons.mp (List.nodup_append'.mp hnodup).2.1).1
  have hother : ∀ m' ∈ waiting, Function.update c.userid m (c.userid m + len) m' = c.userid m' :=
    fun m' hm' => Function.update_of_ne (ne_of_mem_of_not_mem hm' hnot) _ _
  have hold := h.out
  rw [List.head?_cons, Option.elim_some] at hold
  refine ⟨h.kept, h.queued, h.nodup, ?_, fun m' hm' => ?_, fun m' hm' => ?_⟩
  · dsimp only
    rw [List.head?_cons, Option.elim_some, Function.update_self, hout, hold, List.append_assoc,
      ← List.take_add]
  · dsimp only
    rcases List.mem_cons.mp hm' with rfl | hm'
    · rw [Function.update_self]
      omega
    · rw [hother m' hm']
      exact h.left m' (List.mem_cons_of_mem _ hm')
  · dsimp only
    rw [hother m' hm']
    exact h.later m' hm'

theorem Sends.write {m : ℕ} (h : Sends a data c (m :: waiting)) (w : Write)
    (hok : Ends data c m w →
      c.sendqueue.size = tcpQueueNode ∨ c.sendqueue.head + 1 ≠ tcpQueueNode) :
    ∃ waiting', Sends a data (c.write (data m) m w) waiting' := by
  have hlt := h.left m List.mem_cons_self
  unfold Connection.write
  dsimp only
  cases hw : tcpWrite ((data m).length - c.userid m) w with
  | none => exact ⟨_, h.congr rfl rfl rfl rfl rfl⟩
  | some len =>
    have hle := tcpWrite_le hw
    dsimp only
    by_cases hzero : len = 0
    · rw [if_pos hzero, hzero, List.take_zero, List.append_nil]
      exact ⟨_, h.congr rfl rfl rfl rfl rfl⟩
    rw [if_neg hzero]
    by_cases hall : len + c.userid m = (data m).length
    · rw [if_pos hall]
      have hends : Ends data c m w := by
        unfold Ends
        rw [hw, show len = (data m).length - c.userid m by omega]
      exact ⟨waiting, h.pop (hok hends) rfl hall⟩
    · rw [if_neg hall]
      exact ⟨m :: waiting, h.part rfl (by omega)⟩

theorem turn_of_closed (hopen : c.isOpen = false) (w : Write) :
    c.turn data w = { c with sending := false } := by
  unfold Connection.turn
  rw [hopen]
  cases c.sendqueue.first with
  | none => rfl
  | some m => rfl

/-- A turn that comes to the empty queue ends the loop. -/
theorem Sends.turn_of_empty (h : Sends a data c []) (hsending : c.sending = true) {w : Write}
    (hok : Ok a data c (.turn w)) : c.turn data w = { c with sending := false } := by
  rcases Bool.eq_false_or_eq_true c.isOpen with hopen | hopen
  · have hempty : c.sendqueue.count = 0 := h.kept.holds.count
    have hunused := hok hsending hopen
    rw [if_pos hempty] at hunused
    unfold Connection.turn
    rw [h.kept.first_of_empty hunused.1 hunused.2]
  · exact turn_of_closed hopen w

/-- A turn with a message gives the socket as much of it as it takes. -/
theorem Sends.turn_out {m : ℕ} (h : Sends a data c (m :: waiting)) (hopen : c.isOpen = true) (n : ℕ) :
    (c.turn data (.sent n)).out.length =
      c.out.length + min n (((c.released ++ [m]).flatMap data).length - c.out.length) := by
  have hlt := h.left m List.mem_cons_self
  have hout := congrArg List.length h.out
  rw [List.head?_cons, Option.elim_some, List.length_append, List.length_take] at hout
  have hlen : (((c.released ++ [m]).flatMap data).length - c.out.length) =
      (data m).length - c.userid m := by
    rw [List.flatMap_append, List.flatMap_singleton, List.length_append]
    omega
  unfold Connection.turn Connection.write
  rw [h.kept.holds.first, hlen]
  dsimp only
  rw [hopen, if_pos rfl, tcpWrite, if_neg (by omega)]
  dsimp only
  have htaken : (((data m).drop (c.userid m)).take (min n ((data m).length - c.userid m))).length =
      min n ((data m).length - c.userid m) := by
    rw [List.length_take, List.length_drop]
    omega
  split_ifs <;> dsimp only <;> rw [List.length_append, htaken]

theorem Sends.turn (h : Sends a data c waiting) (hsending : c.sending = true) {w : Write}
    (hok : Ok a data c (.turn w)) : ∃ waiting', Sends a data (c.turn data w) waiting' := by
  cases hopen : c.isOpen with
  | false =>
    rw [turn_of_closed hopen]
    exact ⟨waiting, h.congr rfl rfl rfl rfl rfl⟩
  | true =>
    cases waiting with
    | nil =>
      rw [h.turn_of_empty hsending hok]
      exact ⟨[], h.congr rfl rfl rfl rfl rfl⟩
    | cons m waiting =>
      have hcount := h.kept.holds.count
      have hfirst := h.kept.holds.first
      have hwrap := hok hsending hopen
      rw [if_neg (by rw [hcount, List.length_cons]; omega), hfirst] at hwrap
      unfold Connection.turn
      rw [hfirst, hopen]
      exact h.write w fun hends => hwrap fun m' hm' => by cases hm'; exact hends

theorem Sends.step (h : Sends a data c waiting) {o : Label} (hok : Ok a data c o) :
    ∃ c' waiting', c.step data o = some c' ∧ Sends a data c' waiting' := by
  cases o with
  | addMsg m fresh =>
    rw [Connection.step]
    split_ifs
    · exact ⟨c, waiting, rfl, h⟩
    · exact h.addMsg hok
  | sendMsg =>
    rw [Connection.step]
    split_ifs
    · exact ⟨c, waiting, rfl, h⟩
    · exact ⟨_, waiting, rfl, h.congr rfl rfl rfl rfl rfl⟩
  | turn w =>
    rw [Connection.step]
    split_ifs with hsending
    · obtain ⟨waiting', h'⟩ := h.turn hsending hok
      exact ⟨_, waiting', rfl, h'⟩
    · exact ⟨c, waiting, rfl, h⟩

end

/-! ### What the steps leave -/

/-- What a step leaves of a connection: no message is put into the queue, nothing that is out comes back,
and a socket that is closed is not opened. -/
structure Stays (c c' : Connection) : Prop where
  queued : c'.queued = c.queued
  out : c.out <+: c'.out
  isOpen : c'.isOpen = true → c.isOpen = true

theorem write_stays (c : Connection) (data : List UInt8) (m : ℕ) (w : Write) : Stays c (c.write data m w) := by
  unfold Connection.write
  dsimp only
  split
  · exact ⟨rfl, List.prefix_rfl, fun h => by cases h⟩
  · split_ifs
    · exact ⟨rfl, List.prefix_append _ _, id⟩
    · exact ⟨rfl, List.prefix_append _ _, id⟩
    · exact ⟨rfl, List.prefix_append _ _, id⟩

theorem turn_stays (c : Connection) (data : ℕ → List UInt8) (w : Write) : Stays c (c.turn data w) := by
  unfold Connection.turn
  split
  · exact ⟨rfl, List.prefix_rfl, id⟩
  · split_ifs
    · exact write_stays c _ _ w
    · exact ⟨rfl, List.prefix_rfl, id⟩

theorem step_stays {c c' : Connection} {data : ℕ → List UInt8} {o : Label}
    (ho : ∀ m fresh, o ≠ .addMsg m fresh) (h : c.step data o = some c') : Stays c c' := by
  cases o with
  | addMsg m fresh => exact absurd rfl (ho m fresh)
  | sendMsg =>
    rw [Connection.step] at h
    split_ifs at h
    · cases h
      exact ⟨rfl, List.prefix_rfl, id⟩
    · cases h
      exact ⟨rfl, List.prefix_rfl, id⟩
  | turn w =>
    rw [Connection.step] at h
    split_ifs at h
    · cases h
      exact turn_stays c data w
    · cases h
      exact ⟨rfl, List.prefix_rfl, id⟩

/-! ### Runs -/

/-- **What is queued is sent in order and released once**, in a run whose steps all meet the condition.
A turn gives the socket as much as it takes of the first message that has not been released, and where
there is none it ends the loop. -/
theorem delivered_of_ok (a : ℕ → Option ℕ) (data : ℕ → List UInt8) (type : UInt16) (l : List Label)
    (h : Along (Connection.step data) (Ok a data) (.start type a) l) :
    ∃ c, run (Connection.step data) (.start type a) l = some c ∧ Delivered data c ∧
      (∀ m n, c.released ++ [m] <+: c.queued → c.isOpen = true →
        (c.turn data (.sent n)).out.length =
          c.out.length + min n (((c.released ++ [m]).flatMap data).length - c.out.length)) ∧
      ∀ w, c.released = c.queued → c.sending = true → Ok a data c (.turn w) →
        c.turn data w = { c with sending := false } := by
  obtain ⟨c, hrun, waiting, hsends⟩ := run_total_along (P := fun c => ∃ waiting, Sends a data c waiting)
    (fun c o ⟨waiting, hs⟩ hok => by
      obtain ⟨c', waiting', hstep, hs'⟩ := hs.step hok
      exact ⟨c', hstep, waiting', hs'⟩) h ⟨[], sends_start a data type⟩
  have hqueued := hsends.queued
  refine ⟨c, hrun, hsends.handedOver, fun m n hnext hopen => ?_, fun w hall hsending hok => ?_⟩
  · rw [hqueued, List.prefix_append_right_inj] at hnext
    obtain ⟨rest, rfl⟩ := hnext
    exact hsends.turn_out hopen n
  · obtain rfl : waiting = [] := by
      rw [← hall] at hqueued
      exact List.self_eq_append_right.mp hqueued
    exact hsends.turn_of_empty hsending hok

/-- Two messages of two bytes, of which the first goes in two parts. -/
theorem delivered_of_ok_two :
    ∃ c, run (Connection.step fun _ => [1, 2]) (.start 1 fun _ => none)
        [.addMsg 0 fun _ => none, .addMsg 1 fun _ => none, .sendMsg, .turn (.sent 1), .sendMsg,
          .turn (.sent 1), .turn (.sent 5), .turn (.sent 5)] = some c ∧ Delivered (fun _ => [1, 2]) c :=
  let ⟨c, hrun, h, _⟩ := delivered_of_ok (fun _ => none) (fun _ => [1, 2]) 1 _ (by decide)
  ⟨c, hrun, h⟩

/-- The array has a message of the last connection, and it is sent although nothing is queued. -/
theorem not_delivered_left :
    ∃ c, run (Connection.step fun _ => [1, 2]) (.start 1 fun j => if j = 0 then some 7 else none)
        [.sendMsg, .turn (.sent 2)] = some c ∧ ¬ Delivered (fun _ => [1, 2]) c := by
  refine ⟨_, rfl, fun h => ?_⟩
  have := h.written.length_le
  revert this
  decide

end ChatShow.Antlib.ConnectionSend
