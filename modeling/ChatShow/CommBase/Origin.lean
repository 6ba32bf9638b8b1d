import ChatShow.CommBase.EpollMain
import ChatShow.CommBase.SessionBooks

/-! # Where the messages that are dispatched come from

A dispatcher dispatches what it gets from `SystemErr` and from the epoll loops, and what it makes
itself when a request times out: `Inv`, which every step keeps (`inv_step`), for any property `P` that
every message has which a loop hands over. -/

namespace ChatShow.CommBase.Origin

open ChatShow.CommBase.NetWorkConfig ChatShow.CommBase.MessageManager
open ChatShow.CommBase.NetContext ChatShow.CommBase.EpollMain
open ChatShow.CommBase.DispatchMessage
  (Received Call DispatchBase System env₅ requests₅ sessions₇)
open ChatShow.CommBase.SessionManager (SessionMgr Session gateEnv anyAddr)
open ChatShow.Lib.Runs

/-! ### What a dispatcher dispatches -/

/-- The type and the id of an event, which is what an `on_..` function is called for. -/
def IsEvent (message : Message) : Prop :=
  message.messageType = SystemMessage ∧
    message.messageID ∈ [eConnFailMessage, eConnErrMessage, eConnBuildSuccess]

instance (message : Message) : Decidable (IsEvent message) := by
  unfold IsEvent
  infer_instance

/-- The type of a message that a handler is called for. -/
def IsHandled (message : Message) : Prop := message.messageType ∈ [SimpleMessage, Request, Ack]

/-- The call is one that `Dispatch` makes for the message. -/
structure Made (call : Call) (message : Message) : Prop where
  same : ∃ req, call.message = { message with req := req }
  system : call.isSystem = true → call.message = message ∧ IsEvent message
  handler : call.isSystem = false → IsHandled message

theorem made_callAck {env : DispatchMessage.Env} {message m : Message} {call : Call}
    (ht : message.messageType = Ack) (hm : ∃ req, m = { message with req := req })
    (h : call ∈ DispatchBase.callAck env m) : Made call message := by
  obtain ⟨handler, -, rfl⟩ := Option.map_eq_some_iff.mp h
  exact ⟨hm, nofun, fun _ => by rw [IsHandled, ht]; decide⟩

theorem made_dispatch {env : DispatchMessage.Env} {d : DispatchBase} {message : Message}
    {call : Call} (h : call ∈ (d.dispatch env message).1) : Made call message := by
  by_cases hack : message.messageType = Ack
  · by_cases he : message.errno = NetWorkRet.eReqTimeOut.code
    · rw [DispatchBase.dispatch_of_timeout hack he] at h
      exact made_callAck hack ⟨message.req, rfl⟩ h
    · rcases hi : d.timeOut[message.reqID]? with _ | item
      · rw [DispatchBase.dispatch_of_none hack he hi] at h
        cases h
      · rw [DispatchBase.dispatch_of_some hack he hi] at h
        exact made_callAck hack ⟨_, rfl⟩ h
  unfold DispatchBase.dispatch at h
  split at h
  case isTrue ht =>
    obtain ⟨handler, -, rfl⟩ := Option.map_eq_some_iff.mp h
    exact ⟨⟨_, rfl⟩, nofun, fun _ => by rw [IsHandled, ht]; decide⟩
  case isFalse =>
  split at h
  case isTrue ht =>
    obtain ⟨handler, -, rfl⟩ := Option.map_eq_some_iff.mp h
    exact ⟨⟨_, rfl⟩, nofun, fun _ => by rw [IsHandled, ht]; decide⟩
  case isFalse =>
  split at h
  case isTrue ht =>
    split_ifs at h with h1 h2 h3
    · cases h
      exact ⟨⟨_, rfl⟩, fun _ => ⟨rfl, ht, by rw [h1]; decide⟩, nofun⟩
    · cases h
      exact ⟨⟨_, rfl⟩, fun _ => ⟨rfl, ht, by rw [h2]; decide⟩, nofun⟩
    · cases h
      exact ⟨⟨_, rfl⟩, fun _ => ⟨rfl, ht, by rw [h3]; decide⟩, nofun⟩
    · cases h
  case isFalse => cases h

/-- The call is for a timeout, or for a message with `R`. -/
def Sent (R : Message → Prop) (call : Call) : Prop :=
  (call.isSystem = false ∧ call.message.errno = NetWorkRet.eReqTimeOut.code) ∨
    ∃ m, R m ∧ Made call m

/-- What the dispatcher has got, and what it has dispatched, are messages with `R` and timeouts. -/
structure Sourced (R : Message → Prop) (d : System) : Prop where
  deque : ∀ m ∈ d.deque, R m.1
  timeouts : ∀ now rest, d.loop = .timeouts now rest → ∀ e ∈ rest,
    e.2.messageType = Ack ∧ e.2.errno = NetWorkRet.eReqTimeOut.code
  messages : ∀ rest, d.loop = .messages rest → ∀ m ∈ rest, R m.1
  calls : ∀ e ∈ d.calls, Sent R e.2

namespace Sourced

variable {R R' : Message → Prop} {env : DispatchMessage.Env} {d d' : System}

theorem mono (h : Sourced R d) (hR : ∀ m, R m → R' m) : Sourced R' d where
  deque m hm := hR _ (h.deque m hm)
  timeouts := h.timeouts
  messages rest hr m hm := hR _ (h.messages rest hr m hm)
  calls e he := by
    rcases h.calls e he with ht | ⟨m, hm, hmade⟩
    · exact Or.inl ht
    · exact Or.inr ⟨m, hR m hm, hmade⟩

/-- What concerns only the sender and the threads in `AddSendMessage`. -/
theorem frame (h : Sourced R d) (hd : d'.deque = d.deque) (hl : d'.loop = d.loop)
    (hc : d'.calls = d.calls) : Sourced R d' := by
  constructor
  · rw [hd]
    exact h.deque
  · rw [hl]
    exact h.timeouts
  · rw [hl]
    exact h.messages
  · rw [hc]
    exact h.calls

/-- The dispatcher gets messages. -/
theorem push (h : Sourced R d) {messages : List Received} (hm : ∀ m ∈ messages, R m.1) :
    Sourced R { d with deque := d.deque ++ messages } where
  deque m hmem := (List.mem_append.mp hmem).elim (h.deque m) (hm m)
  timeouts := h.timeouts
  messages := h.messages
  calls := h.calls

/-- The messages for the requests that have timed out. -/
theorem takeTimeOut {block : ℕ → UInt8} {heap : ℕ → Message} {now : ℕ} {e : Int32 × Message}
    (he : e ∈ (d.toDispatchBase.takeTimeOut block heap now).1) :
    e.2.messageType = Ack ∧ e.2.errno = NetWorkRet.eReqTimeOut.code := by
  obtain ⟨item, -, rfl⟩ := List.mem_map.mp he
  exact ⟨rfl, rfl⟩

/-- The message of a timeout is dispatched. -/
theorem sent_timeout {message : Message} {call : Call} (ht : message.messageType = Ack)
    (he : message.errno = NetWorkRet.eReqTimeOut.code) (hc : Made call message) : Sent R call := by
  obtain ⟨req, hsame⟩ := hc.same
  refine Or.inl ⟨?_, by rw [hsame]; exact he⟩
  rcases hsys : call.isSystem with _ | _
  · rfl
  · exact absurd (ht.symm.trans (hc.system hsys).2.1) (by decide)

theorem calls_append (h : Sourced R d) {k : Int32} {message : Message}
    (hm : ∀ call, Made call message → Sent R call) {e : Int32 × Call}
    (he : e ∈ d.calls ++ (d.toDispatchBase.dispatch env message).1.toList.map (k, ·)) :
    Sent R e.2 := by
  rcases List.mem_append.mp he with he | he
  · exact h.calls e he
  · obtain ⟨call, hc, rfl⟩ := List.mem_map.mp he
    exact hm call (made_dispatch (Option.mem_toList.mp hc))

theorem step (h : Sourced R d) {a : DispatchMessage.Label} (ha : ∀ messages, a ≠ .addMessage messages)
    (hs : d.step env a = some d') : Sourced R d' := by
  cases DispatchMessage.System.step_taken hs with
  | pushed | setReqID | take | sent | noSession | session | channelSent | getHead | write | network =>
    exact h.frame rfl rfl rfl
  | registered t now message ht r hr =>
    subst hr
    exact h.frame rfl rfl rfl
  | closed bnow hl =>
    exact ⟨h.deque, nofun, nofun, h.calls⟩
  | swept bnow hl hb r hr =>
    subst hr
    refine ⟨h.deque, fun now rest hrest e he => ?_, nofun, h.calls⟩
    cases hrest
    exact takeTimeOut he
  | timeout throws now k message rest hl r hr =>
    subst hr
    obtain ⟨t, hd⟩ := DispatchBase.dispatch_frame env d.toDispatchBase message
    obtain ⟨ht, he⟩ := h.timeouts now _ hl _ List.mem_cons_self
    refine ⟨?_, fun now' rest' hrest => ?_, fun rest' hrest => ?_,
      fun e => calls_append h fun call => sent_timeout ht he⟩
    · rw [hd]
      exact h.deque
    · dsimp only at hrest
      split_ifs at hrest
      cases hrest
      exact fun e hmem => h.timeouts now _ hl e (List.mem_cons_of_mem _ hmem)
    · dsimp only at hrest
      split_ifs at hrest
  | message throws message rest hl r hr =>
    subst hr
    obtain ⟨t, hd⟩ := DispatchBase.dispatch_frame env d.toDispatchBase message.1
    have hm := h.messages _ hl message List.mem_cons_self
    refine ⟨?_, fun now' rest' hrest => ?_, fun rest' hrest => ?_,
      fun e => calls_append h fun call hc => Or.inr ⟨message.1, hm, hc⟩⟩
    · rw [hd]
      exact h.deque
    · dsimp only at hrest
      split_ifs at hrest
    · dsimp only at hrest
      split_ifs at hrest
      cases hrest
      exact fun m hmem => h.messages _ hl m (List.mem_cons_of_mem _ hmem)
  | timedOut now hl => exact ⟨h.deque, nofun, nofun, h.calls⟩
  | takeMessages hl =>
    refine ⟨fun m hm => absurd hm List.not_mem_nil, nofun, fun rest hrest => ?_, h.calls⟩
    cases hrest
    exact h.deque
  | dispatched hl => exact ⟨h.deque, nofun, nofun, h.calls⟩
  | addMessage message => exact absurd rfl (ha message)

end Sourced

/-! ### The histories of the managers -/

/-- Events and promotions are only added. -/
structure Grows (s s' : SessionMgr) : Prop where
  events : s.events ⊆ s'.events
  promoted : s.promoted ⊆ s'.promoted

namespace Grows

open ChatShow.CommBase.SessionBooks

variable {env : SessionManager.Env} {s s' s₁ : SessionMgr}

theorem of_eq (he : s'.events = s.events) (hp : s'.promoted = s.promoted) : Grows s s' :=
  ⟨he ▸ List.Subset.refl _, hp ▸ List.Subset.refl _⟩

theorem rfl : Grows s s := of_eq (Eq.refl _) (Eq.refl _)

theorem trans (h : Grows s s₁) (h' : Grows s₁ s') : Grows s s' :=
  ⟨List.Subset.trans h.events h'.events, List.Subset.trans h.promoted h'.promoted⟩

/-- What has been done to a state with the same histories. -/
theorem congr (h : Grows s₁ s') (he : s₁.events = s.events) (hp : s₁.promoted = s.promoted) :
    Grows s s' :=
  ⟨he ▸ h.events, hp ▸ h.promoted⟩

theorem systemErr (fd : ℤ) (lid : Int16) (ltype : UInt8) (rid : Int16) (rtype : UInt8) (err : ℤ)
    (addr : Inet_Addr) : Grows s (s.systemErr fd lid ltype rid rtype err addr) :=
  ⟨List.subset_append_left .., List.Subset.refl _⟩

theorem deleteSessionEx {fd err : ℤ} (h : s.deleteSessionEx env fd err = some s') : Grows s s' := by
  unfold SessionMgr.deleteSessionEx at h
  split at h
  case h_1 o ht =>
    cases h
    exact of_eq (Eq.refl _) (Eq.refl _)
  case h_2 =>
    split at h
    case h_1 o hs =>
      obtain ⟨conf, -, h⟩ := Option.bind_eq_some_iff.mp h
      cases h
      exact systemErr ..
    case h_2 =>
      cases h
      exact rfl

theorem deleteSession (fd : ℤ) : Grows s (s.deleteSession fd) := by
  rcases deleteSession_cases (s := s) fd with ⟨o, -, he⟩ | ⟨o, -, -, he⟩ | ⟨-, -, he⟩
  all_goals
    rw [he]
    exact of_eq (Eq.refl _) (Eq.refl _)

theorem write {message : Message} {ctl : Bool} (h : s.write env message ctl = some s') :
    Grows s s' := by
  unfold SessionMgr.write at h
  split at h
  case h_1 =>
    cases h
    exact rfl
  case h_2 o ho =>
    obtain ⟨m, -, h⟩ := Option.bind_eq_some_iff.mp h
    dsimp only at h
    split at h
    case isTrue => exact (deleteSessionEx h).congr (Eq.refl _) (Eq.refl _)
    case isFalse =>
      cases h
      exact of_eq (Eq.refl _) (Eq.refl _)

theorem answer {se : SessionManager.Session} {message : Message} {ctl : Bool}
    (h : s.answer env se message ctl = some s') : Grows s s' := by
  have hreply : ∀ id, s.reply env se message.channelID id ctl = some s' → Grows s s' := by
    intro id hr
    obtain ⟨config, -, hr⟩ := Option.bind_eq_some_iff.mp hr
    obtain ⟨m, -, hr⟩ := Option.bind_eq_some_iff.mp hr
    exact write hr
  unfold SessionMgr.answer at h
  split_ifs at h
  · exact hreply _ h
  · exact hreply _ h
  · cases h
    exact rfl

theorem connectSuccess {message m' : Message} {ctl : Bool} {res : NetWorkRet}
    (h : s.connectSuccess env message ctl = some (res, m', s')) : Grows s s' := by
  unfold SessionMgr.connectSuccess at h
  split at h
  case h_1 =>
    cases h
    exact rfl
  case h_2 o ht =>
    obtain ⟨⟨res', m'', se, g⟩, -, h⟩ := Option.bind_eq_some_iff.mp h
    dsimp only at h
    split at h
    case isTrue =>
      cases h
      exact of_eq (Eq.refl _) (Eq.refl _)
    case isFalse =>
      obtain ⟨s₁, h₁, h⟩ := Option.bind_eq_some_iff.mp h
      cases h
      have hpromoted := answer h₁
      exact ⟨hpromoted.events, fun i hi => hpromoted.promoted (List.mem_append_left _ hi)⟩

theorem tick (loop : ℕ) (nowTime : ℤ) : Grows s (s.tick env loop nowTime) := by
  have hfold : ∀ (late : List ℤ) (s : SessionMgr),
      Grows s (late.foldl SessionMgr.deleteSession s) := by
    intro late
    induction late with
    | nil => exact fun _ => rfl
    | cons fd late ih => exact fun s => (deleteSession fd).trans (ih _)
  unfold SessionMgr.tick
  dsimp only
  split_ifs
  · exact (hfold _ _).congr (Eq.refl _) (Eq.refl _)
  · exact of_eq (Eq.refl _) (Eq.refl _)

theorem readCommd {sock now : ℤ} {addr : Inet_Addr} {index type : UInt8}
    (h : s.readCommd env sock addr index type now = some s') : Grows s s' := by
  obtain ⟨config, -, h⟩ := Option.bind_eq_some_iff.mp h
  cases h
  unfold SessionMgr.addTimerSessionEx
  split
  case isTrue => exact of_eq (Eq.refl _) (Eq.refl _)
  case isFalse =>
  split
  case isFalse => exact of_eq (Eq.refl _) (Eq.refl _)
  case isTrue =>
  split
  all_goals exact of_eq (Eq.refl _) (Eq.refl _)

theorem step {a : SessionManager.Label} (h : s.step env a = some s') : Grows s s' := by
  cases a with
  | accept sock =>
    dsimp only [SessionMgr.step] at h
    split_ifs at h
    cases h
    exact of_eq (Eq.refl _) (Eq.refl _)
  | addTimerSessionEx sock addr index type now =>
    dsimp only [SessionMgr.step] at h
    split_ifs at h
    exact (readCommd h).congr (Eq.refl _) (Eq.refl _)
  | connectSuccess message ctl =>
    obtain ⟨⟨res, m', s''⟩, hc, rfl⟩ := Option.map_eq_some_iff.mp h
    exact connectSuccess hc
  | deleteSession fd =>
    cases h
    exact deleteSession fd
  | deleteSessionEx fd err => exact deleteSessionEx h
  | tick loop nowTime =>
    cases h
    exact tick loop nowTime

end Grows

/-! ### What the dispatchers get -/

section
variable {env : Env} {s s' s₁ : Network} {new : List (ℕ × Message)}

/-- The message tells of an event of the managers. -/
def Local (env : Env) (s : Network) (message : Message) : Prop :=
  ∃ con ∈ s.mgr.events, message = systemErr env.mgr.block con

/-- What comes to the dispatchers are events, and messages with their sessions from `new`, which are
handed over. -/
structure Feeds (env : Env) (new : List (ℕ × Message)) (s s' : Network) : Prop where
  grows : Grows s.mgr s'.mgr
  handed : s'.handed = s.handed ++ new
  dispatch : ∀ i, ∃ messages : List Received,
    (∀ m ∈ messages, Local env s' m.1 ∨ ∃ o, (o, m.1) ∈ new) ∧
    s'.dispatch i = { s.dispatch i with deque := (s.dispatch i).deque ++ messages }

namespace Feeds

/-- Nothing comes to the dispatchers. -/
theorem of_grows (h : Grows s.mgr s'.mgr) (hd : s'.dispatch = s.dispatch)
    (hh : s'.handed = s.handed) : Feeds env [] s s' where
  grows := h
  handed := hh.trans (List.append_nil _).symm
  dispatch i := by
    refine ⟨[], fun m hm => absurd hm List.not_mem_nil, ?_⟩
    rw [hd, List.append_nil]

theorem trans (h : Feeds env new s s₁) (h' : Feeds env [] s₁ s') : Feeds env new s s' where
  grows := h.grows.trans h'.grows
  handed := by rw [h'.handed, List.append_nil, h.handed]
  dispatch i := by
    obtain ⟨messages, hm, he⟩ := h.dispatch i
    obtain ⟨messages', hm', he'⟩ := h'.dispatch i
    refine ⟨messages ++ messages', fun m hmem => ?_, ?_⟩
    · rcases List.mem_append.mp hmem with hmem | hmem
      · rcases hm m hmem with ⟨con, hcon, hc⟩ | ho
        · exact Or.inl ⟨con, h'.grows.events hcon, hc⟩
        · exact Or.inr ho
      · rcases hm' m hmem with hl | ⟨o, ho⟩
        · exact Or.inl hl
        · exact absurd ho List.not_mem_nil
    · rw [he', he, List.append_assoc]

theorem push {index : ℤ} {messages : List Received} (hg : Grows s.mgr s'.mgr)
    (hh : s'.handed = s.handed ++ new) (hd : s'.dispatch = (s.push env index messages).dispatch)
    (hm : ∀ m ∈ messages, Local env s' m.1 ∨ ∃ o, (o, m.1) ∈ new) : Feeds env new s s' where
  grows := hg
  handed := hh
  dispatch i := by
    rw [hd]
    dsimp only [Network.push]
    rcases eq_or_ne i ((index % 18446744073709551616).toNat % env.blockThread) with rfl | hne
    · exact ⟨messages, hm, Function.update_self ..⟩
    · refine ⟨[], fun m hmem => absurd hmem List.not_mem_nil, ?_⟩
      rw [Function.update_of_ne hne, List.append_nil]

/-- Events are told. -/
theorem tell {mgr : SessionMgr} (h : Grows s.mgr mgr) : Feeds env [] s (s.tell env mgr) := by
  have hfold : ∀ (events : List SystemMessageCon) (s : Network), events ⊆ s.mgr.events →
      Feeds env [] s (events.foldl
        (fun s con => s.push env con.channel.toInt [⟨systemErr env.mgr.block con, rfl⟩]) s) := by
    intro events
    induction events with
    | nil => exact fun s _ => of_grows .rfl rfl rfl
    | cons con events ih =>
      intro s hs
      have hpush : Feeds env [] s
          (s.push env con.channel.toInt [⟨systemErr env.mgr.block con, rfl⟩]) := by
        refine push .rfl (List.append_nil _).symm rfl fun m hm => ?_
        rw [List.mem_singleton.mp hm]
        exact Or.inl ⟨con, hs List.mem_cons_self, rfl⟩
      exact hpush.trans (ih _ (List.subset_of_cons_subset hs))
  have hmgr : Feeds env [] s { s with mgr := mgr } := of_grows h rfl rfl
  exact hmgr.trans (hfold _ _ (List.drop_subset _ _))

theorem setRecv (o : ℕ) (se : SessionRecv.Session) : Feeds env [] s (s.setRecv o se) :=
  of_grows (.of_eq rfl rfl) rfl rfl

theorem setReader (loop : ℕ) (r : Reader) : Feeds env [] s (s.setReader loop r) :=
  of_grows .rfl rfl rfl

theorem addMessage {o : ℕ} {message : Message} {ctl : Bool} {ret : ℤ}
    (h : s.addMessage env o message ctl = some (ret, s')) : Feeds env [] s s' := by
  unfold Network.addMessage at h
  split at h
  case isFalse =>
    cases h
    exact of_grows .rfl rfl rfl
  case isTrue =>
    obtain ⟨⟨res, m', mgr⟩, hc, h⟩ := Option.bind_eq_some_iff.mp h
    have ht : Feeds env [] s (s.tell env mgr) := tell (.connectSuccess hc)
    dsimp only at h
    split at h
    case isTrue =>
      cases h
      exact ht.trans (of_grows (.deleteSession _) rfl rfl)
    case isFalse =>
    split at h
    case isTrue =>
      cases h
      exact ht.trans (tell (.systemErr ..))
    case isFalse =>
      cases h
      exact ht

theorem receive {o : ℕ} {m : Option Received} {ctl : Bool} {messages : List Received}
    (h : s.receive env o m ctl = some (messages, s')) :
    Feeds env [] s s' ∧ ∀ m' ∈ messages, some m' = m := by
  rcases m with _ | m
  · cases h
    exact ⟨of_grows .rfl rfl rfl, fun m' hm => absurd hm List.not_mem_nil⟩
  · obtain ⟨⟨ret, s₁⟩, hadd, h⟩ := Option.bind_eq_some_iff.mp h
    cases h
    refine ⟨addMessage hadd, fun m' hm => ?_⟩
    split_ifs at hm
    · rw [List.mem_singleton.mp hm]
    · exact absurd hm List.not_mem_nil

theorem close {loop o : ℕ} (h : s.close env loop o = some s') : Feeds env [] s s' := by
  obtain ⟨mgr, hd, h⟩ := Option.bind_eq_some_iff.mp h
  cases h
  exact (tell (.deleteSessionEx hd)).trans (setReader ..)

theorem turn {loop : ℕ} {block : ℕ → UInt8} {ctl : Bool} (h : s.turn env loop block ctl = some s') :
    Feeds env [] s s' := by
  unfold Network.turn at h
  split at h
  case h_2 => cases h
  case h_1 o vec tmpHead nLeftSize last hr =>
  obtain ⟨found, hf, h⟩ := Option.bind_eq_some_iff.mp h
  cases found with
  | rest =>
    cases h
    exact (setRecv ..).trans (setReader ..)
  | refused =>
    dsimp only at h
    split at h
    case isTrue => exact close h
    case isFalse =>
      cases h
      exact (setRecv ..).trans (setReader ..)
  | packet head =>
    obtain ⟨m, -, h⟩ := Option.bind_eq_some_iff.mp h
    obtain ⟨⟨messages, s₁⟩, hrec, h⟩ := Option.bind_eq_some_iff.mp h
    have hs₁ : Feeds env [] s s₁ := (setRecv ..).trans (receive hrec).1
    dsimp only at h
    split at h
    case isTrue =>
      cases h
      exact hs₁.trans ((setRecv ..).trans (setReader ..))
    case isFalse =>
      cases h
      exact hs₁.trans (setReader ..)

theorem recv {loop : ℕ} {ret : SessionRecv.RecvRet} (h : s.recv env loop ret = some s') :
    Feeds env [] s s' := by
  unfold Network.recv at h
  split at h
  case h_2 => cases h
  case h_1 o vec hr =>
  dsimp only at h
  split at h
  case h_1 => exact close h
  case h_2 bytes =>
    split at h
    case isTrue => cases h
    case isFalse =>
      cases h
      exact (setRecv ..).trans (setReader ..)
  case h_3 =>
    cases h
    exact setReader ..

end Feeds

/-- What a step hands to the dispatchers. -/
def handedBy (s : Network) : Label → List (ℕ × Message)
  | .hand loop _ =>
    match s.reader loop with
    | .handing o vec => vec.map fun m => (o, m.1)
    | _ => []
  | _ => []

theorem Feeds.hand {loop : ℕ} {now : ℤ} (h : s.hand env loop now = some s') :
    Feeds env (handedBy s (.hand loop now)) s s' := by
  unfold Network.hand at h
  split at h
  case h_2 => cases h
  case h_1 o vec hr =>
  have hpush : Feeds env (handedBy s (.hand loop now)) s
      { s.push env (s.mgr.object o).accSock vec with
        handed := s.handed ++ vec.map fun (m : Received) => (o, m.1) } := by
    refine push .rfl ?_ rfl fun m hm => Or.inr ⟨o, ?_⟩
    · rw [handedBy, hr]
    · rw [handedBy, hr]
      exact List.mem_map.mpr ⟨m, hm, rfl⟩
  dsimp only at h
  split at h
  case isTrue => exact hpush.trans ((setRecv ..).trans (close h))
  case isFalse =>
    cases h
    exact hpush.trans ((setRecv ..).trans (setReader ..))

/-- **What a step does for the dispatchers:** one of them goes on, or they get messages. -/
theorem step_cases {a : Label} (h : s.step env a = some s') :
    (∃ i b d, (∀ messages, b ≠ .addMessage messages) ∧ (s.dispatch i).step env.dispatch b = some d ∧
      s' = { s with dispatch := Function.update s.dispatch i d }) ∨
    Feeds env (handedBy s a) s s' := by
  cases a with
  | manager a =>
    refine Or.inr ?_
    dsimp only [Network.step] at h
    split at h
    case h_1 => cases h
    case h_2 =>
      obtain ⟨mgr, hm, rfl⟩ := Option.map_eq_some_iff.mp h
      exact .tell (.step hm)
  | epoll loop fd =>
    refine Or.inr ?_
    dsimp only [Network.step] at h
    split at h
    case h_1 =>
      cases h
      exact .setReader ..
    case h_2 => cases h
  | recv loop ret => exact Or.inr (.recv h)
  | turn loop block ctl => exact Or.inr (.turn h)
  | hand loop now => exact Or.inr (.hand h)
  | dispatcher i b =>
    refine Or.inl ?_
    dsimp only [Network.step] at h
    split at h
    case h_1 => cases h
    case h_2 hb =>
      obtain ⟨d, hd, rfl⟩ := Option.map_eq_some_iff.mp h
      exact ⟨i, b, d, hb, hd, rfl⟩

/-! ### The invariant -/

theorem Local.mono {message : Message} (hg : Grows s.mgr s'.mgr) (h : Local env s message) :
    Local env s' message := by
  obtain ⟨con, hcon, he⟩ := h
  exact ⟨con, hg.events hcon, he⟩

/-- The dispatchers dispatch events and what has been handed to them, and what has been handed to
them has `P`. -/
structure Inv (env : Env) (P : SessionMgr → ℕ → Message → Prop) (s : Network) : Prop where
  dispatch : ∀ i, Sourced (fun m => Local env s m ∨ ∃ o, (o, m) ∈ s.handed) (s.dispatch i)
  handed : ∀ e ∈ s.handed, P s.mgr e.1 e.2

variable {P : SessionMgr → ℕ → Message → Prop}

theorem inv_step {a : Label} (hP : ∀ mgr mgr' o m, Grows mgr mgr' → P mgr o m → P mgr' o m)
    (h : Inv env P s) (ha : ∀ e ∈ handedBy s a, P s.mgr e.1 e.2) (hs : s.step env a = some s') :
    Inv env P s' := by
  rcases step_cases hs with ⟨i, b, d, hb, hd, rfl⟩ | hf
  · refine ⟨fun j => ?_, h.handed⟩
    dsimp only
    rcases eq_or_ne j i with rfl | hne
    · rw [Function.update_self]
      exact (h.dispatch j).step hb hd
    · rw [Function.update_of_ne hne]
      exact h.dispatch j
  · constructor
    · intro i
      obtain ⟨messages, hm, he⟩ := hf.dispatch i
      rw [he]
      refine ((h.dispatch i).mono ?_).push fun m hmem => ?_
      · rintro m (hl | ⟨o, ho⟩)
        · exact Or.inl (hl.mono hf.grows)
        · exact Or.inr ⟨o, hf.handed ▸ List.mem_append_left _ ho⟩
      · rcases hm m hmem with hl | ⟨o, ho⟩
        · exact Or.inl hl
        · exact Or.inr ⟨o, hf.handed ▸ List.mem_append_right _ ho⟩
    · intro e he
      rw [hf.handed] at he
      refine hP _ _ _ _ hf.grows ?_
      rcases List.mem_append.mp he with he | he
      · exact h.handed e he
      · exact ha e he

theorem inv_new (object : ℕ → SessionManager.Session) (clock : ℕ → ℤ × Int32) (heap : ℕ → Message)
    (sessions : DispatchMessage.Sessions) : Inv env P (.new object clock heap sessions) where
  dispatch _ := ⟨fun _ h => absurd h List.not_mem_nil, nofun, nofun,
    fun _ h => absurd h List.not_mem_nil⟩
  handed _ h := absurd h List.not_mem_nil

end

/-! ### A gate for runs on fixed inputs -/

/-- The gate of `gateEnv` with a handler for the simple message 5. -/
def gateNet : Env where
  mgr := gateEnv
  dispatch := { env₅ with
    handlers := { env₅.handlers with messageHandler := env₅.handlers.ackHandler } }
  blockThread := 1

/-- Nobody has connected to it. -/
def quiet : Network :=
  .new (fun _ => Session.new (fun _ => 0) 0 0 anyAddr false) (fun _ => (0, 0)) requests₅ sessions₇

/-- A frame to the gate from a server. -/
def frame (id : UInt32) (type : UInt8) (content : List UInt8) : List UInt8 :=
  packetHeader.encode
    { length := Int32.ofNat content.length, remoteType := 1, remoteID := 1, localType := 2
      messageID := id, messageType := type } ++ content

/-- A peer connects and sends `frames`, and the dispatcher dispatches `n` messages. -/
def sent (frames : List (List UInt8)) (n : ℕ) : List Label :=
  [.manager (.accept 5), .manager (.addTimerSessionEx 5 anyAddr 0 eAcceptEpoll 0), .epoll 0 5,
    .recv 0 (.data frames.flatten)] ++
  frames.map (fun _ => .turn 0 (fun _ => 0) true) ++
  [.recv 0 .again, .turn 0 (fun _ => 0) true, .hand 0 0,
    .dispatcher 0 (.sweep 0), .dispatcher 0 .proceed] ++
  List.replicate n (.dispatcher 0 (.dispatch false))

end ChatShow.CommBase.Origin
