import ChatShow.CommBase.CircleBuffer
import ChatShow.CommBase.MessageManager
import ChatShow.Lib.Maps
import ChatShow.Lib.Runs

/-! # The dispatcher

A `DispatchBase` with the threads that work on it: the threads in `AddSendMessage`, the send loop
with `CSessionMgr::AddMessage`, and the loop that times requests out and dispatches the messages
received. In a `DispatchMessage` one thread runs both loops in turn; in a `SingleDispatchThread` the
second is `ProcessMessage`, which another thread calls. Messages that the application makes are
objects with a number, and messages received are values. A label is a critical section, or a
stretch of a thread that touches no more than one shared thing. What a handler sends it sends as a
thread of its own, and its clocks and whether it throws are parts of the labels. Clocks do not wrap.
`registered`, `calls` and `offered` are histories, and so are the tokens in `Loop.timeouts`. -/

namespace ChatShow.CommBase.DispatchMessage

open ChatShow.CommBase.NetWorkConfig ChatShow.CommBase.CircleBuffer
open ChatShow.CommBase.MessageManager ChatShow.Lib.Maps Std

/-! ### Handlers -/

/-- `HandlerManager`: a handler is a number, and a null pointer `none`. -/
structure HandlerManager where
  messageHandler : ℕ → Option ℕ
  requestHandler : ℕ → Option ℕ
  ackHandler : ℕ → Option ℕ

namespace HandlerManager

/-- A lookup in one of the three vectors, which have 32 * 1024 places. -/
def lookup (table : ℕ → Option ℕ) (id : UInt32) : Option ℕ :=
  if id.toNat ≥ 32 * 1024 then none else table id.toNat

def getMessageHandler (h : HandlerManager) (_type : UInt8) (id : UInt32) : Option ℕ :=
  lookup h.messageHandler id

def getRequestHandler (h : HandlerManager) (_type : UInt8) (id : UInt32) : Option ℕ :=
  lookup h.requestHandler id

def getAckHandler (h : HandlerManager) (_type : UInt8) (id : UInt32) : Option ℕ :=
  lookup h.ackHandler id

end HandlerManager

/-- What the dispatcher runs on. `block` is what stands in a block that `malloc` returns, and
`single` whether the dispatcher is a `SingleDispatchThread`. -/
structure Env where
  local_type_ : UInt8
  handlers : HandlerManager
  md5 : MD5
  block : ℕ → UInt8
  single : Bool

/-- A call that `Dispatch` makes. -/
inductive Call
  | handle_Message (handler : ℕ) (message : Message)
  | handle_Request (handler : ℕ) (request : Message)
  | handle_Ack (handler : ℕ) (ack : Message)
  | on_connect_failed (message : Message)
  | on_channel_error (message : Message)
  | on_new_channel_build (message : Message)

def Call.isAck : Call → Bool
  | handle_Ack _ _ => true
  | _ => false

def Call.isSystem : Call → Bool
  | on_connect_failed _ => true
  | on_channel_error _ => true
  | on_new_channel_build _ => true
  | _ => false

def Call.message : Call → Message
  | handle_Message _ message => message
  | handle_Request _ request => request
  | handle_Ack _ ack => ack
  | on_connect_failed message => message
  | on_channel_error message => message
  | on_new_channel_build message => message

/-- A message that a session or the context hands over. Nobody has set its errno. -/
abbrev Received := { message : Message // message.errno = 0 }

/-- A message that has come in is no timeout. -/
theorem errno_received (message : Received) :
    message.1.errno ≠ NetWorkRet.eReqTimeOut.code := by
  rw [message.2]
  decide

/-! ### The members of `DispatchBase` -/

structure AckItem where
  token : Int32
  req : ℕ
  time : ℕ
deriving DecidableEq

structure DispatchBase where
  deque : List Received := []
  sendDeque : TreeMap ℤ (List ℕ) := ∅
  timeOut : TreeMap Int32 AckItem := ∅
  token : Int32 := 1
  timeNow : ℕ := 0

/-- `GetToken`: a token, and `m_token` after it. -/
def getToken (token : Int32) : Int32 × Int32 := if token < 0 then (1, 2) else (token, token + 1)

namespace DispatchBase

/-- The first half of `AddSendMessage`. -/
def pushSend (d : DispatchBase) (channelID : ℤ) (message : ℕ) : DispatchBase :=
  { d with
    sendDeque := d.sendDeque.insert channelID
      (match d.sendDeque[channelID]? with
      | none => [message]
      | some q => q ++ [message]) }

/-- `AddAckTimeOut`, but for its `SetReqID`. -/
def addAckTimeOut (d : DispatchBase) (message : ℕ) (timeout : UInt16) (now : ℕ) :
    AckItem × DispatchBase :=
  let tmp := getToken d.token
  let item := { token := tmp.1, req := message, time := now + timeout.toNat * 1000 }
  (item, { d with token := tmp.2, timeOut := d.timeOut.insert tmp.1 item })

def delAckTimeOut (d : DispatchBase) (message : Message) : NetWorkRet × Message × DispatchBase :=
  match d.timeOut[message.reqID]? with
  | some item =>
    (.eNetSuccess, { message with req := some item.req },
      { d with timeOut := d.timeOut.erase message.reqID })
  | none => (.eTokenErr, message, d)

/-- The message that tells of the timeout of a request. -/
def timeOutMe (block : ℕ → UInt8) (req : Message) (m : ℕ) : Message :=
  let head : packetHeader :=
    { messageID := req.messageID
      messageType := Ack
      remoteType := req.remoteType
      remoteID := req.remoteID }
  { ({ content := block, errno := NetWorkRet.eReqTimeOut.code, req := some m } : Message).setHead
      head with channelID := req.channelID, loopIndex := req.loopIndex }

/-- The entries whose time has come leave `m_timeOut`; a message for each goes to `tTimeOut`. -/
def takeTimeOut (d : DispatchBase) (block : ℕ → UInt8) (heap : ℕ → Message) (now : ℕ) :
    List (Int32 × Message) × DispatchBase :=
  ((d.timeOut.toList.filter fun e => e.2.time ≤ now).map fun e =>
      (e.1, timeOutMe block (heap e.2.req) e.2.req),
    { d with timeOut := eraseAll d.timeOut (keysOf d.timeOut fun item => item.time ≤ now) })

/-- The end of `Dispatch` for an `Ack`. -/
def callAck (env : Env) (message : Message) : Option Call :=
  (env.handlers.getAckHandler env.local_type_ message.messageID).map (.handle_Ack · message)

/-- `Dispatch`: the call that it makes. -/
def dispatch (env : Env) (d : DispatchBase) (message : Message) : Option Call × DispatchBase :=
  if message.messageType = SimpleMessage then
    ((env.handlers.getMessageHandler env.local_type_ message.messageID).map
      (.handle_Message · message), d)
  else if message.messageType = Request then
    ((env.handlers.getRequestHandler env.local_type_ message.messageID).map
      (.handle_Request · message), d)
  else if message.messageType = Ack then
    if message.errno ≠ NetWorkRet.eReqTimeOut.code then
      let r := d.delAckTimeOut message
      if r.1 ≠ .eNetSuccess then (none, r.2.2) else (callAck env r.2.1, r.2.2)
    else (callAck env message, d)
  else if message.messageType = SystemMessage then
    if message.messageID = eConnFailMessage then (some (.on_connect_failed message), d)
    else if message.messageID = eConnErrMessage then (some (.on_channel_error message), d)
    else if message.messageID = eConnBuildSuccess then (some (.on_new_channel_build message), d)
    else (none, d)
  else (none, d)

theorem dispatch_ack {env : Env} {d : DispatchBase} {message : Message}
    (ht : message.messageType = Ack) :
    d.dispatch env message =
      if message.errno ≠ NetWorkRet.eReqTimeOut.code then
        let r := d.delAckTimeOut message
        if r.1 ≠ .eNetSuccess then (none, r.2.2) else (callAck env r.2.1, r.2.2)
      else (callAck env message, d) := by
  have h1 : message.messageType ≠ SimpleMessage := by rw [ht]; decide
  have h2 : message.messageType ≠ Request := by rw [ht]; decide
  unfold dispatch
  rw [if_neg h1, if_neg h2, if_pos ht]

/-- A reply whose token is not registered does nothing. -/
theorem dispatch_of_none {env : Env} {d : DispatchBase} {message : Message}
    (ht : message.messageType = Ack) (he : message.errno ≠ NetWorkRet.eReqTimeOut.code)
    (h : d.timeOut[message.reqID]? = none) : d.dispatch env message = (none, d) := by
  have hd : d.delAckTimeOut message = (.eTokenErr, message, d) := by
    unfold delAckTimeOut
    rw [h]
  have hc : NetWorkRet.eTokenErr ≠ .eNetSuccess := by decide
  rw [dispatch_ack ht, if_pos he, hd]
  exact if_pos hc

/-- A reply takes the entry of its token. -/
theorem dispatch_of_some {env : Env} {d : DispatchBase} {message : Message} {item : AckItem}
    (ht : message.messageType = Ack) (he : message.errno ≠ NetWorkRet.eReqTimeOut.code)
    (h : d.timeOut[message.reqID]? = some item) :
    d.dispatch env message = (callAck env { message with req := some item.req },
      { d with timeOut := d.timeOut.erase message.reqID }) := by
  have hd : d.delAckTimeOut message = (.eNetSuccess, { message with req := some item.req },
      { d with timeOut := d.timeOut.erase message.reqID }) := by
    unfold delAckTimeOut
    rw [h]
  rw [dispatch_ack ht, if_pos he, hd]
  exact if_neg (not_not.mpr rfl)

theorem dispatch_of_timeout {env : Env} {d : DispatchBase} {message : Message}
    (ht : message.messageType = Ack) (he : message.errno = NetWorkRet.eReqTimeOut.code) :
    d.dispatch env message = (callAck env message, d) := by
  rw [dispatch_ack ht, if_neg (not_not.mpr he)]

theorem dispatch_of_not_ack {env : Env} {d : DispatchBase} {message : Message}
    (ht : message.messageType ≠ Ack) :
    (d.dispatch env message).2 = d ∧
      ∀ call ∈ (d.dispatch env message).1, call.isAck = false := by
  unfold dispatch
  split
  case isTrue =>
    refine ⟨rfl, fun call hc => ?_⟩
    obtain ⟨handler, -, rfl⟩ := Option.map_eq_some_iff.mp hc
    rfl
  case isFalse =>
  split
  case isTrue =>
    refine ⟨rfl, fun call hc => ?_⟩
    obtain ⟨handler, -, rfl⟩ := Option.map_eq_some_iff.mp hc
    rfl
  case isFalse =>
  split_ifs
  all_goals
    refine ⟨rfl, fun call hc => ?_⟩
    cases hc
    try rfl

/-- **The three things `Dispatch` may do:** a reply takes the entry of its token, a timeout takes
none, and all else takes none and calls no `Ack_Handler`. -/
theorem dispatch_eq (env : Env) (d : DispatchBase) (message : Message) :
    (∃ item, message.messageType = Ack ∧ message.errno ≠ NetWorkRet.eReqTimeOut.code ∧
      d.timeOut[message.reqID]? = some item ∧ d.dispatch env message =
        (callAck env { message with req := some item.req },
          { d with timeOut := d.timeOut.erase message.reqID })) ∨
    (message.messageType = Ack ∧ message.errno = NetWorkRet.eReqTimeOut.code ∧
      d.dispatch env message = (callAck env message, d)) ∨
    ((d.dispatch env message).2 = d ∧
      ∀ call ∈ (d.dispatch env message).1, call.isAck = false) := by
  by_cases ht : message.messageType = Ack
  · by_cases he : message.errno = NetWorkRet.eReqTimeOut.code
    · exact Or.inr (Or.inl ⟨ht, he, dispatch_of_timeout ht he⟩)
    · rcases h : d.timeOut[message.reqID]? with _ | item
      · rw [dispatch_of_none ht he h]
        exact Or.inr (Or.inr ⟨rfl, fun call hc => by cases hc⟩)
      · exact Or.inl ⟨item, ht, he, rfl, dispatch_of_some ht he h⟩
  · exact Or.inr (Or.inr (dispatch_of_not_ack ht))

/-- `Dispatch` changes nothing but `m_timeOut`. -/
theorem dispatch_frame (env : Env) (d : DispatchBase) (message : Message) :
    ∃ t, (d.dispatch env message).2 = { d with timeOut := t } := by
  rcases dispatch_eq env d message with ⟨item, -, -, -, h⟩ | ⟨-, -, h⟩ | ⟨h, -⟩
  · exact ⟨_, congrArg Prod.snd h⟩
  · exact ⟨d.timeOut, congrArg Prod.snd h⟩
  · exact ⟨d.timeOut, h⟩

theorem dispatch_sendDeque (env : Env) (d : DispatchBase) (message : Message) :
    (d.dispatch env message).2.sendDeque = d.sendDeque := by
  obtain ⟨t, h⟩ := dispatch_frame env d message
  rw [h]

end DispatchBase

/-! ### Sessions -/

/-- What of a session the sender uses. -/
structure Session where
  remoteID : Int16
  remoteType : UInt8
  security : Bool
  bufSend : CCircleBuff

/-- What `AddMessage` sets in a message before it encrypts it. -/
def Session.prepare (se : Session) (m : Message) : Message :=
  let m := if m.remoteID < 0 then
      { m with remoteID := se.remoteID, remoteType := se.remoteType }
    else m
  if m.security ≠ se.security then { m with security := se.security } else m

/-- A message keeps its token, its type and its id when it is made ready. -/
theorem Session.prepare_encrypt {md5 : MD5} {se : Session} {m m' : Message}
    (h : (se.prepare m).encryptMessage md5 = some m') :
    m'.reqID = m.reqID ∧ m'.messageType = m.messageType ∧ m'.messageID = m.messageID := by
  obtain ⟨content, length, rfl⟩ := Message.encryptMessage_eq h
  dsimp only [prepare]
  by_cases hr : m.remoteID < 0
  · rw [if_pos hr]
    split_ifs <;> exact ⟨rfl, rfl, rfl⟩
  · rw [if_neg hr]
    split_ifs <;> exact ⟨rfl, rfl, rfl⟩

/-- `Write`, as far as the buffer goes. -/
def Session.write (se : Session) (content : ℕ → UInt8) (head : packetHeader) : Session :=
  { se with bufSend := (se.bufSend.writeSend content head).2 }

/-- `m_session` of the session managers, and the sessions. -/
structure Sessions where
  session : TreeMap ℤ ℕ
  object : ℕ → Session

/-! ### The threads -/

/-- A thread in `AddSendMessage`. -/
inductive Adder
  | idle
  /-- the message is in `m_sendDeque` and is to be registered -/
  | queued (message : ℕ)
  /-- the message is in `m_timeOut` and is to learn its token -/
  | registered (message : ℕ) (token : Int32)
deriving DecidableEq

/-- The message that the thread is in `AddSendMessage` with. -/
def Adder.message : Adder → Option ℕ
  | idle => none
  | queued message => some message
  | registered message _ => some message

inductive Sender
  | idle
  /-- `tSendDeque`, from the channel on that comes next -/
  | taken (channels : List (ℤ × List ℕ))
  /-- in `AddMessage` for the session `se` -/
  | sending (se : ℕ) (messages : List ℕ) (channels : List (ℤ × List ℕ))
  /-- in `AddMessage`, with the header of `message`, which is to be written -/
  | header (se : ℕ) (message : ℕ) (head : packetHeader) (messages : List ℕ)
    (channels : List (ℤ × List ℕ))
deriving DecidableEq

/-- The messages that the sender has taken and has not written. -/
def Sender.messages : Sender → List ℕ
  | idle => []
  | taken channels => channels.flatMap Prod.snd
  | sending _ messages channels => messages ++ channels.flatMap Prod.snd
  | header _ message _ messages channels => message :: messages ++ channels.flatMap Prod.snd

inductive Loop
  | idle
  /-- what is left of `tTimeOut`, each message with the token it was registered under -/
  | timeouts (now : ℕ) (rest : List (Int32 × Message))
  /-- to take the messages received -/
  | queue
  | messages (rest : List Received)

/-- The tokens of the requests that have timed out and whose messages are to be dispatched. -/
def Loop.leaving : Loop → List Int32
  | timeouts _ rest => rest.map Prod.fst
  | _ => []

/-- The message that the loop dispatches next. -/
def Loop.next : Loop → Option Message
  | timeouts _ ((_, message) :: _) => some message
  | messages (message :: _) => some message.1
  | _ => none

/-! ### The system -/

structure System extends DispatchBase where
  heap : ℕ → Message
  sessions : Sessions
  adders : ℕ → Adder := fun _ => .idle
  sender : Sender := .idle
  loop : Loop := .idle
  registered : List AckItem := []
  calls : List (Int32 × Call) := []
  offered : List (ℕ × ℕ × packetHeader) := []

inductive Label
  /-- a thread puts a message into `m_sendDeque` -/
  | addSendMessage (t : ℕ) (message : ℕ)
  | addAckTimeOut (t : ℕ) (now : ℕ)
  | setReqID (t : ℕ)
  /-- the sender goes on -/
  | send
  /-- the loop begins, at `bnow` -/
  | sweep (bnow : ℕ)
  /-- the loop dispatches its next message, whose handler throws or does not -/
  | dispatch (throws : Bool)
  /-- the loop goes on after the last message of a list -/
  | proceed
  | addMessage (message : List Received)
  /-- what the other threads make of the sessions -/
  | network (sessions : Sessions)

namespace System

variable (env : Env)

/-- The next stretch of the sender. -/
def send (s : System) : Option System :=
  match s.sender with
  | .idle => some { s with sendDeque := ∅, sender := .taken s.sendDeque.toList }
  | .taken [] => some { s with sender := .idle }
  | .taken ((channel, messages) :: channels) =>
    match s.sessions.session[channel]? with
    | none => some { s with sender := .taken channels }
    | some se => some { s with sender := .sending se messages channels }
  | .sending _ [] channels => some { s with sender := .taken channels }
  | .sending se (message :: messages) channels => do
    let m ← ((s.sessions.object se).prepare (s.heap message)).encryptMessage env.md5
    some { s with
      heap := Function.update s.heap message m
      sender := .header se message m.getHead messages channels }
  | .header se message head messages channels =>
    some { s with
      sessions := { s.sessions with
        object := Function.update s.sessions.object se
          ((s.sessions.object se).write (s.heap message).content head) }
      offered := s.offered ++ [(se, message, head)]
      sender := .sending se messages channels }

/-- The loop dispatches a message. After an exception it starts again, but that `ProcessMessage`
goes on with the next message received. -/
def dispatch (s : System) (throws : Bool) : Option System :=
  match s.loop with
  | .timeouts now ((k, message) :: rest) =>
    let r := s.toDispatchBase.dispatch env message
    some { s with
      toDispatchBase := r.2
      calls := s.calls ++ r.1.toList.map (k, ·)
      loop := if throws ∧ r.1.isSome then .idle else .timeouts now rest }
  | .messages (message :: rest) =>
    let r := s.toDispatchBase.dispatch env message.1
    some { s with
      toDispatchBase := r.2
      calls := s.calls ++ r.1.toList.map (message.1.reqID, ·)
      loop := if throws ∧ r.1.isSome ∧ ¬ env.single then .idle else .messages rest }
  | _ => none

def step (s : System) : Label → Option System
  | .addSendMessage t message =>
    match s.adders t with
    | .idle => some { s with
        toDispatchBase := s.toDispatchBase.pushSend (s.heap message).channelID message
        adders := Function.update s.adders t
          (if (s.heap message).messageType = Request then .queued message else .idle) }
    | _ => none
  | .addAckTimeOut t now =>
    match s.adders t with
    | .queued message =>
      let r := s.toDispatchBase.addAckTimeOut message (s.heap message).timeout now
      some { s with
        toDispatchBase := r.2
        adders := Function.update s.adders t (.registered message r.1.token)
        registered := s.registered ++ [r.1] }
    | _ => none
  | .setReqID t =>
    match s.adders t with
    | .registered message token => some { s with
        heap := Function.update s.heap message { s.heap message with reqID := token }
        adders := Function.update s.adders t .idle }
    | _ => none
  | .send => s.send env
  | .sweep bnow =>
    match s.loop with
    | .idle =>
      if bnow / 1000 - s.timeNow > 1000 then
        let r := s.toDispatchBase.takeTimeOut env.block s.heap (bnow / 1000)
        some { s with toDispatchBase := r.2, loop := .timeouts (bnow / 1000) r.1 }
      else some { s with loop := .queue }
    | _ => none
  | .dispatch throws => s.dispatch env throws
  | .proceed =>
    match s.loop with
    | .timeouts now [] => some { s with timeNow := now, loop := .queue }
    | .queue => some { s with deque := [], loop := .messages s.deque }
    | .messages [] => some { s with loop := .idle }
    | _ => none
  | .addMessage message => some { s with deque := s.deque ++ message }
  | .network sessions => some { s with sessions := sessions }

/-- A dispatcher as it is made, with the messages the application is going to send. -/
def new (heap : ℕ → Message) (sessions : Sessions) : System :=
  { heap := heap, sessions := sessions }

/-! ### What a step does -/

/-- The steps, each with what it has found. -/
inductive Taken (s : System) : Label → System → Prop
  | pushed (t message : ℕ) (h : s.adders t = .idle) :
    Taken s (.addSendMessage t message) { s with
      toDispatchBase := s.toDispatchBase.pushSend (s.heap message).channelID message
      adders := Function.update s.adders t
        (if (s.heap message).messageType = Request then .queued message else .idle) }
  | registered (t now message : ℕ) (h : s.adders t = .queued message)
      (r : AckItem × DispatchBase)
      (hr : s.toDispatchBase.addAckTimeOut message (s.heap message).timeout now = r) :
    Taken s (.addAckTimeOut t now) { s with
      toDispatchBase := r.2
      adders := Function.update s.adders t (.registered message r.1.token)
      registered := s.registered ++ [r.1] }
  | setReqID (t message : ℕ) (token : Int32) (h : s.adders t = .registered message token) :
    Taken s (.setReqID t) { s with
      heap := Function.update s.heap message { s.heap message with reqID := token }
      adders := Function.update s.adders t .idle }
  | take (h : s.sender = .idle) :
    Taken s .send { s with sendDeque := ∅, sender := .taken s.sendDeque.toList }
  | sent (h : s.sender = .taken []) : Taken s .send { s with sender := .idle }
  | noSession (channel : ℤ) (messages : List ℕ) (channels : List (ℤ × List ℕ))
      (h : s.sender = .taken ((channel, messages) :: channels))
      (hse : s.sessions.session[channel]? = none) :
    Taken s .send { s with sender := .taken channels }
  | session (channel : ℤ) (messages : List ℕ) (channels : List (ℤ × List ℕ)) (se : ℕ)
      (h : s.sender = .taken ((channel, messages) :: channels))
      (hse : s.sessions.session[channel]? = some se) :
    Taken s .send { s with sender := .sending se messages channels }
  | channelSent (se : ℕ) (channels : List (ℤ × List ℕ)) (h : s.sender = .sending se [] channels) :
    Taken s .send { s with sender := .taken channels }
  | getHead (se message : ℕ) (messages : List ℕ) (channels : List (ℤ × List ℕ)) (m : Message)
      (h : s.sender = .sending se (message :: messages) channels)
      (hm : ((s.sessions.object se).prepare (s.heap message)).encryptMessage env.md5 = some m) :
    Taken s .send { s with
      heap := Function.update s.heap message m
      sender := .header se message m.getHead messages channels }
  | write (se message : ℕ) (head : packetHeader) (messages : List ℕ)
      (channels : List (ℤ × List ℕ)) (h : s.sender = .header se message head messages channels) :
    Taken s .send { s with
      sessions := { s.sessions with
        object := Function.update s.sessions.object se
          ((s.sessions.object se).write (s.heap message).content head) }
      offered := s.offered ++ [(se, message, head)]
      sender := .sending se messages channels }
  | closed (bnow : ℕ) (h : s.loop = .idle) (hb : ¬ bnow / 1000 - s.timeNow > 1000) :
    Taken s (.sweep bnow) { s with loop := .queue }
  | swept (bnow : ℕ) (h : s.loop = .idle) (hb : bnow / 1000 - s.timeNow > 1000)
      (r : List (Int32 × Message) × DispatchBase)
      (hr : s.toDispatchBase.takeTimeOut env.block s.heap (bnow / 1000) = r) :
    Taken s (.sweep bnow) { s with toDispatchBase := r.2, loop := .timeouts (bnow / 1000) r.1 }
  | timeout (throws : Bool) (now : ℕ) (k : Int32) (message : Message)
      (rest : List (Int32 × Message)) (h : s.loop = .timeouts now ((k, message) :: rest))
      (r : Option Call × DispatchBase) (hr : s.toDispatchBase.dispatch env message = r) :
    Taken s (.dispatch throws) { s with
      toDispatchBase := r.2
      calls := s.calls ++ r.1.toList.map (k, ·)
      loop := if throws ∧ r.1.isSome then .idle else .timeouts now rest }
  | message (throws : Bool) (message : Received) (rest : List Received)
      (h : s.loop = .messages (message :: rest)) (r : Option Call × DispatchBase)
      (hr : s.toDispatchBase.dispatch env message.1 = r) :
    Taken s (.dispatch throws) { s with
      toDispatchBase := r.2
      calls := s.calls ++ r.1.toList.map (message.1.reqID, ·)
      loop := if throws ∧ r.1.isSome ∧ ¬ env.single then .idle else .messages rest }
  | timedOut (now : ℕ) (h : s.loop = .timeouts now []) :
    Taken s .proceed { s with timeNow := now, loop := .queue }
  | takeMessages (h : s.loop = .queue) :
    Taken s .proceed { s with deque := [], loop := .messages s.deque }
  | dispatched (h : s.loop = .messages []) : Taken s .proceed { s with loop := .idle }
  | addMessage (message : List Received) :
    Taken s (.addMessage message) { s with deque := s.deque ++ message }
  | network (sessions : Sessions) : Taken s (.network sessions) { s with sessions := sessions }

variable {env}

theorem send_taken {s s' : System} (h : s.send env = some s') : Taken env s .send s' := by
  unfold send at h
  split at h
  case h_1 hs =>
    cases h
    exact .take hs
  case h_2 hs =>
    cases h
    exact .sent hs
  case h_3 channel messages channels hs =>
    split at h
    case h_1 hse =>
      cases h
      exact .noSession channel messages channels hs hse
    case h_2 se hse =>
      cases h
      exact .session channel messages channels se hs hse
  case h_4 se channels hs =>
    cases h
    exact .channelSent se channels hs
  case h_5 se message messages channels hs =>
    obtain ⟨m, hm, h⟩ := Option.bind_eq_some_iff.mp h
    cases h
    exact .getHead se message messages channels m hs hm
  case h_6 se message head messages channels hs =>
    cases h
    exact .write se message head messages channels hs

theorem dispatch_taken {s s' : System} {throws : Bool} (h : s.dispatch env throws = some s') :
    Taken env s (.dispatch throws) s' := by
  unfold dispatch at h
  split at h
  case h_1 now k message rest hs =>
    cases h
    exact .timeout throws now k message rest hs _ rfl
  case h_2 message rest hs =>
    cases h
    exact .message throws message rest hs _ rfl
  case h_3 => cases h

/-- **Every step is one of these.** -/
theorem step_taken {s s' : System} {a : Label} (h : step env s a = some s') :
    Taken env s a s' := by
  cases a with
  | addSendMessage t message =>
    dsimp only [step] at h
    split at h
    case h_1 hs =>
      cases h
      exact .pushed t message hs
    case h_2 => cases h
  | addAckTimeOut t now =>
    dsimp only [step] at h
    split at h
    case h_1 message hs =>
      cases h
      exact .registered t now message hs _ rfl
    case h_2 => cases h
  | setReqID t =>
    dsimp only [step] at h
    split at h
    case h_1 message token hs =>
      cases h
      exact .setReqID t message token hs
    case h_2 => cases h
  | send => exact send_taken h
  | sweep bnow =>
    dsimp only [step] at h
    split at h
    case h_1 hs =>
      split at h
      case isTrue hb =>
        cases h
        exact .swept bnow hs hb _ rfl
      case isFalse hb =>
        cases h
        exact .closed bnow hs hb
    case h_2 => cases h
  | dispatch throws => exact dispatch_taken h
  | proceed =>
    dsimp only [step] at h
    split at h
    case h_1 now hs =>
      cases h
      exact .timedOut now hs
    case h_2 hs =>
      cases h
      exact .takeMessages hs
    case h_3 hs =>
      cases h
      exact .dispatched hs
    case h_4 => cases h
  | addMessage message =>
    cases h
    exact .addMessage message
  | network sessions =>
    cases h
    exact .network sessions

end System

/-! ### A dispatcher for runs on fixed inputs -/

/-- The message id 5 has an `Ack_Handler`, and no other handler is there. -/
def env₅ : Env where
  local_type_ := 1
  handlers :=
    { messageHandler := fun _ => none
      requestHandler := fun _ => none
      ackHandler := fun
        | 5 => some 0
        | _ => none }
  md5 := zeroMD5
  block := fun _ => 0
  single := false

/-- All messages are requests with the id 5 that go to the channel 7. -/
def requests₅ (_ : ℕ) : Message :=
  { content := fun _ => 0, channelID := 7, messageID := 5, messageType := Request }

/-- The channel 7 has a session. -/
def sessions₇ : Sessions where
  session := TreeMap.ofList [((7 : ℤ), 0)]
  object := fun _ =>
    { remoteID := 1, remoteType := 2, security := false, bufSend := CCircleBuff.new 1024 fun _ => 0 }

end ChatShow.CommBase.DispatchMessage
