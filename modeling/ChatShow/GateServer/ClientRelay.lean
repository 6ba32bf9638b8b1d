import ChatShow.GameServer.Players
import ChatShow.GateServer.ChannelReuse

/-! # Requests that the gate relays

The gate sends `MSG_REQ_C2GT_CLIENTIN` and `MSG_REQ_C2GT_SYN_ATTR` of a client on to the game server of
its player, with the character as the time of the message, and keeps the request for the answer. The
game server answers the first of them where the player is in its cache, and never the second; the cases
of `Handle_Ack` at the gate do not have the first, and a timeout is not told to the client. So no
request that is relayed is answered, and nobody logs in (`relayed_unanswered`). -/

namespace ChatShow.GateServer.ClientRelay

open ChatShow.CommBase ChatShow.GameServer ChatShow.GameServer.Players
open ChatShow.GateServer.ServerManager ChatShow.GateServer.ChannelReuse ChatShow.Lib.Runs

def MSG_REQ_C2GT_PLAYERINFO : Int32 := 1003
def MSG_REQ_C2GT_CLIENTIN : Int32 := 1011
def MSG_REQ_C2GT_SYN_ATTR : Int32 := 1013
def MSG_REQ_GT2GM_SYN_ATTR : Int32 := 1014

/-- A request of a client. -/
inductive Body
  | clientIn (ret : Int64)
  | synAttr (attr : List SynCharAttr)

/-- The id under which it is sent on. -/
def Body.messageID : Body → Int32
  | .clientIn _ => MSG_REQ_GT2GM_CLIENTIN
  | .synAttr _ => MSG_REQ_GT2GM_SYN_ATTR

/-- A request that has been sent on: the channel of its `requestAct`, and the character. -/
structure Relayed where
  channel : ℤ
  body : Body
  gsChannel : ℤ
  messageTime : Int64

/-- An answer, or a timeout. -/
structure AckMessage where
  messageID : Int32
  timeOut : Bool
  content : Option Content := none

/-- A message to a client, and the request that it is sent for. -/
structure Reply where
  request : Option ℕ
  channel : ℤ
  messageID : Int32
  content : Option Content

/-- The gate, and the game server of each of its channels. Requests have the numbers of their places in
`asked`. -/
structure Relay where
  gate : ServerConHandler := {}
  game : ℤ → PlayerMessage := fun _ => {}
  asked : List Relayed := []
  /-- those that the gate waits for -/
  waiting : List ℕ := []
  /-- those that are on their way, and the answers to them -/
  toGame : List ℕ := []
  acks : List (ℕ × AckMessage) := []
  replies : List Reply := []
  /-- the calls of `PlayerLogin`, with the request that was answered -/
  logins : List (ℕ × Int64) := []

inductive Event
  | client (channel : ℤ) (body : Body)
  /-- a game server handles a request; the gate is on its channel `channel` -/
  | deliver (k : ℕ) (channel : ℤ)
  | ack (k : ℕ) (now : ℕ)
  | timeOut (i : ℕ) (now : ℕ)
  /-- anything else that a game server, or the gate, does -/
  | game (gsChannel : ℤ) (a : Players.Label)
  | gate (a : ServerManager.Label)

namespace Relay

def reply (s : Relay) (m : Reply) : Relay := { s with replies := s.replies ++ [m] }

/-! ### The requests -/

def relay (s : Relay) (r : Relayed) : Relay :=
  { s with
    asked := s.asked ++ [r]
    waiting := s.waiting ++ [s.asked.length]
    toGame := s.toGame ++ [s.asked.length] }

/-- The handlers of the two requests. -/
def request (s : Relay) (channel : ℤ) : Body → Relay
  | .clientIn ret =>
    match getGSChannelAndCharIDByChannelEx s.gate channel with
    | some (gsChannel, charid) => s.relay ⟨channel, .clientIn ret, gsChannel, charid⟩
    | none => s.reply ⟨none, channel, MSG_REQ_C2GT_CLIENTIN, some (.retInt (-1))⟩
  | .synAttr attr =>
    match getGSChannelAndCharIDByChannel s.gate channel with
    | some (gsChannel, charid) => s.relay ⟨channel, .synAttr attr, gsChannel, charid⟩
    | none => s

/-- What a game server does with a request. -/
def handled (game : PlayerMessage) (channel : ℤ) (r : Relayed) : PlayerMessage :=
  match r.body with
  | .clientIn ret => game.clientIn channel r.messageTime ret
  | .synAttr attr => game.synAttr r.messageTime attr

/-- A message that goes back to the gate as an answer. -/
def answer : Sent → Option AckMessage
  | .back msgtype msgid _ content =>
    if msgtype = msgType NetWorkConfig.Ack then some ⟨msgid, false, some content⟩ else none
  | _ => none

/-- The answers that a game server has sent since. -/
def answers (game game' : PlayerMessage) : List AckMessage :=
  (game'.sent.drop game.sent.length).filterMap answer

def deliver (s : Relay) (i : ℕ) (r : Relayed) (channel : ℤ) : Relay :=
  let game := handled (s.game r.gsChannel) channel r
  { s with
    game := Function.update s.game r.gsChannel game
    acks := s.acks ++ (answers (s.game r.gsChannel) game).map (i, ·) }

/-! ### The answers -/

/-- The character of the request is the time of the message. -/
def ackPlayerInfo (s : Relay) (r : Relayed) (ack : AckMessage) : Relay :=
  if ack.timeOut then s
  else
    match s.gate.getClientChannelByCharID r.messageTime with
    | some channel => s.reply ⟨none, channel, MSG_REQ_C2GT_PLAYERINFO, ack.content⟩
    | none => s

/-- The number in the answer to `MSG_REQ_GT2GM_CLIENTIN`. -/
def AckMessage.ret (ack : AckMessage) : Int64 :=
  match ack.content with
  | some (.retInt ret) => ret
  | _ => 0

/-- Where the login fails the player is to exit, and the client gets no answer. -/
def ackClientIn (s : Relay) (i : ℕ) (r : Relayed) (ack : AckMessage) (now : ℕ) : Relay :=
  if ack.timeOut then s
  else
    let ret := AckMessage.ret ack
    let m : Reply := ⟨some i, r.channel, MSG_REQ_C2GT_CLIENTIN, some (.retInt ret)⟩
    if 0 < ret then
      let login := s.gate.playerLogin ret now
      let s := { s with gate := login.2, logins := s.logins ++ [(i, ret)] }
      if login.1 then s.reply m else s
    else s.reply m

def ackSynAttr (s : Relay) (i : ℕ) (r : Relayed) (ack : AckMessage) : Relay :=
  if ack.timeOut then s
  else s.reply ⟨some i, r.channel, MSG_REQ_C2GT_SYN_ATTR, ack.content⟩

/-- The cases of `CharactorLogin::Handle_Ack`. -/
def ackCases : List Int32 := [MSG_REQ_GT2GM_PLAYERINFO, MSG_REQ_GT2GM_SYN_ATTR]

/-- The function for the answers with an id. -/
def onAck (s : Relay) (i : ℕ) (r : Relayed) (ack : AckMessage) (now : ℕ) : Relay :=
  if ack.messageID = MSG_REQ_GT2GM_PLAYERINFO then s.ackPlayerInfo r ack
  else if ack.messageID = MSG_REQ_GT2GM_CLIENTIN then s.ackClientIn i r ack now
  else if ack.messageID = MSG_REQ_GT2GM_SYN_ATTR then s.ackSynAttr i r ack
  else s

def handleAck (s : Relay) (i : ℕ) (r : Relayed) (ack : AckMessage) (now : ℕ) : Relay :=
  if ack.messageID ∈ ackCases then s.onAck i r ack now else s

/-- An answer, or the timeout, of a request that the gate waits for. -/
def complete (s : Relay) (i : ℕ) (ack : AckMessage) (now : ℕ) : Relay :=
  match s.asked[i]? with
  | some r =>
    if i ∈ s.waiting then ({ s with waiting := s.waiting.erase i } : Relay).handleAck i r ack now else s
  | none => s

/-- `PlayerLogin`, which only the function for the answers to `MSG_REQ_GT2GM_CLIENTIN` calls. -/
def isLogin : ServerManager.Label → Bool
  | .playerLogin _ _ => true
  | _ => false

variable (byteSize : Dependence.CharDefine.SaveTypeInfo → ℕ)

def step (s : Relay) : Event → Option Relay
  | .client channel body => some (s.request channel body)
  | .deliver k channel => do
    let i ← s.toGame[k]?
    let r ← s.asked[i]?
    some (({ s with toGame := s.toGame.eraseIdx k } : Relay).deliver i r channel)
  | .ack k now => do
    let e ← s.acks[k]?
    some (({ s with acks := s.acks.eraseIdx k } : Relay).complete e.1 e.2 now)
  | .timeOut i now => do
    let r ← s.asked[i]?
    some (s.complete i ⟨r.body.messageID, true, none⟩ now)
  | .game gsChannel a =>
    ((s.game gsChannel).step byteSize a).map fun game =>
      { s with game := Function.update s.game gsChannel game }
  | .gate a =>
    if isLogin a then none else (s.gate.step a).map fun gate => { s with gate := gate }

end Relay

variable {byteSize : Dependence.CharDefine.SaveTypeInfo → ℕ} {s s' : Relay}

/-- How many messages a client has got for a request. -/
def replies (s : Relay) (i : ℕ) : ℕ := s.replies.countP fun m => m.request = some i

/-- The characters that were logged in for a request. -/
def logins (s : Relay) (i : ℕ) : List Int64 := (s.logins.filter fun e => e.1 = i).map Prod.snd

/-! ### What a game server answers -/

theorem answers_same {game game' : PlayerMessage} (h : game'.sent = game.sent) :
    Relay.answers game game' = [] := by
  unfold Relay.answers
  rw [h, List.drop_length]
  rfl

theorem answers_send {game game' : PlayerMessage} {m : Sent} (h : game'.sent = game.sent ++ [m]) :
    Relay.answers game game' = (Relay.answer m).toList := by
  unfold Relay.answers
  rw [h, List.drop_left, List.filterMap_cons]
  rcases Relay.answer m with _ | ack
  · rfl
  · rfl

theorem sent_clientIn (game : PlayerMessage) (channel : ℤ) (charID ret : Int64) :
    (game.clientIn channel charID ret).sent = game.sent ∨
      (game.clientIn channel charID ret).sent = game.sent ++
        [.back (msgType NetWorkConfig.Ack) MSG_REQ_GT2GM_CLIENTIN (game.request channel) (.retInt ret)] := by
  unfold PlayerMessage.clientIn
  dsimp only
  split
  · exact Or.inl rfl
  · split
    · exact Or.inr rfl
    · exact Or.inl rfl

theorem sent_synAttr (game : PlayerMessage) (charID : Int64) (attr : List SynCharAttr) :
    (game.synAttr charID attr).sent = game.sent := by
  unfold PlayerMessage.synAttr
  dsimp only
  split
  · rfl
  · rfl

/-- The answers to requests that were sent on are those to `MSG_REQ_GT2GM_CLIENTIN`. -/
theorem answers_handled (game : PlayerMessage) (channel : ℤ) (r : Relayed) :
    ∀ ack ∈ Relay.answers game (Relay.handled game channel r),
      ack.messageID = MSG_REQ_GT2GM_CLIENTIN := by
  intro ack hack
  unfold Relay.handled at hack
  cases hb : r.body with
  | clientIn ret =>
    rw [hb] at hack
    rcases sent_clientIn game channel r.messageTime ret with hsent | hsent
    · rw [answers_same hsent] at hack
      cases hack
    · rw [answers_send hsent] at hack
      cases List.mem_singleton.mp hack
      rfl
  | synAttr attr =>
    rw [hb] at hack
    rw [answers_same (sent_synAttr game r.messageTime attr)] at hack
    cases hack

/-! ### What the gate makes of it -/

/-- There is no case for it. -/
theorem handleAck_clientIn (i : ℕ) (r : Relayed) {ack : AckMessage} (now : ℕ)
    (h : ack.messageID = MSG_REQ_GT2GM_CLIENTIN) : s.handleAck i r ack now = s := by
  unfold Relay.handleAck
  rw [h, if_neg (by decide)]

/-- No function says anything to a client when its request was not answered in time. -/
theorem handleAck_timeOut (i : ℕ) (r : Relayed) {ack : AckMessage} (now : ℕ) (h : ack.timeOut = true) :
    s.handleAck i r ack now = s := by
  unfold Relay.handleAck Relay.onAck
  split_ifs
  · unfold Relay.ackPlayerInfo
    rw [if_pos h]
  · unfold Relay.ackClientIn
    rw [if_pos h]
  · unfold Relay.ackSynAttr
    rw [if_pos h]
  · rfl
  · rfl

/-- Nothing has been said to a client about a request that was sent on, and nothing will be. -/
structure Mute (s : Relay) : Prop where
  acks : ∀ e ∈ s.acks, e.2.messageID = MSG_REQ_GT2GM_CLIENTIN
  replies : ∀ m ∈ s.replies, m.request = none
  logins : s.logins = []

theorem Mute.of_eq (h : Mute s) (ha : ∀ e ∈ s'.acks, e.2.messageID = MSG_REQ_GT2GM_CLIENTIN)
    (hr : s'.replies = s.replies) (hl : s'.logins = s.logins) : Mute s' where
  acks := ha
  replies := by rw [hr]; exact h.replies
  logins := hl.trans h.logins

theorem mute_complete (h : Mute s) (i : ℕ) {ack : AckMessage} (now : ℕ)
    (hack : ack.messageID = MSG_REQ_GT2GM_CLIENTIN ∨ ack.timeOut = true) : Mute (s.complete i ack now) := by
  unfold Relay.complete
  split
  · split_ifs
    · rcases hack with hack | hack
      · rw [handleAck_clientIn _ _ now hack]
        exact h.of_eq h.acks rfl rfl
      · rw [handleAck_timeOut _ _ now hack]
        exact h.of_eq h.acks rfl rfl
    · exact h
  · exact h

theorem mute_request (h : Mute s) (channel : ℤ) (body : Body) : Mute (s.request channel body) := by
  unfold Relay.request
  cases body with
  | clientIn ret =>
    dsimp only
    split
    · exact h.of_eq h.acks rfl rfl
    · refine ⟨h.acks, fun m hm => ?_, h.logins⟩
      rcases List.mem_append.mp hm with hm | hm
      · exact h.replies m hm
      · rw [List.mem_singleton.mp hm]
  | synAttr attr =>
    dsimp only
    split
    · exact h.of_eq h.acks rfl rfl
    · exact h

theorem mute_step {e : Event} (h : Mute s) (hs : s.step byteSize e = some s') : Mute s' := by
  cases e with
  | client channel body => cases hs; exact mute_request h channel body
  | deliver k channel =>
    obtain ⟨i, _, hs⟩ := Option.bind_eq_some_iff.mp hs
    obtain ⟨r, _, hs⟩ := Option.bind_eq_some_iff.mp hs
    cases hs
    refine h.of_eq (fun e he => ?_) rfl rfl
    rcases List.mem_append.mp he with he | he
    · exact h.acks e he
    · obtain ⟨ack, hack, rfl⟩ := List.mem_map.mp he
      exact answers_handled _ channel r ack hack
  | ack k now =>
    obtain ⟨e, he, hs⟩ := Option.bind_eq_some_iff.mp hs
    cases hs
    have hrest : Mute { s with acks := s.acks.eraseIdx k } :=
      h.of_eq (fun e he => h.acks e (List.mem_of_mem_eraseIdx he)) rfl rfl
    exact mute_complete hrest e.1 now (Or.inl (h.acks e (List.mem_of_getElem? he)))
  | timeOut i now =>
    obtain ⟨r, _, hs⟩ := Option.bind_eq_some_iff.mp hs
    cases hs
    exact mute_complete h i now (Or.inr rfl)
  | game gsChannel a =>
    obtain ⟨game, _, rfl⟩ := Option.map_eq_some_iff.mp hs
    exact h.of_eq h.acks rfl rfl
  | gate a =>
    unfold Relay.step at hs
    dsimp only at hs
    split_ifs at hs
    obtain ⟨gate, _, rfl⟩ := Option.map_eq_some_iff.mp hs
    exact h.of_eq h.acks rfl rfl

/-- **No request that is sent on to a game server is ever answered, and none makes the gate log a player
in**, in whatever order requests, answers and timeouts come. -/
theorem relayed_unanswered {l : List Event} (h : run (Relay.step byteSize) {} l = some s) :
    ∀ i < s.asked.length, replies s i = 0 ∧ logins s i = [] := by
  have hmute : Mute s := run_inv (P := Mute) (fun _ _ _ h hs => mute_step h hs) h
    ⟨nofun, nofun, rfl⟩
  intro i _
  constructor
  · refine List.countP_eq_zero.mpr fun m hm => ?_
    rw [hmute.replies m hm]
    exact of_decide_eq_false rfl
  · unfold logins
    rw [hmute.logins]
    rfl

/-- The game server 3 has a player in its cache, and its client comes on the channel 5. -/
def playerComes (charid : UInt64) : List Event :=
  (ServerConHandler.announced [charid]).map .gate ++ (PlayerMessage.comes ⟨0, 1⟩ charid.toInt64).map (.game 3) ++
    [.gate (.playerInfo {} charid.toInt64 5 [])]

/-- The game server lets the player in, and its answer comes; then the player gets new attributes, for which
no answer comes. -/
def asks : List Event :=
  playerComes 7 ++ [.client 5 (.clientIn 7), .deliver 0 1, .ack 0 0, .client 5 (.synAttr []), .deliver 0 1,
    .timeOut 1 0]

theorem relayed_unanswered_asks : ∃ s, run (Relay.step fun _ => 0) {} asks = some s ∧
    s.asked.length = 2 ∧ ∀ i < s.asked.length, replies s i = 0 ∧ logins s i = [] := by
  obtain ⟨s, hs⟩ := Option.isSome_iff_exists.mp
    (by decide +kernel : (run (Relay.step fun _ => 0) {} asks).isSome)
  have hlen : s.asked.length = 2 := by
    cases hs
    decide +kernel
  exact ⟨s, hs, hlen, relayed_unanswered hs⟩

/-- Both requests are done with, the player is in, and the client has got no answer. -/
theorem relay_mute : ∃ s, run (Relay.step fun _ => 0) {} asks = some s ∧
    s.asked.map (fun r => (r.channel, r.messageTime)) = [(5, 7), (5, 7)] ∧
    (s.game 3).allPlayer[(7 : Int64)]?.isSome ∧ s.waiting = [] ∧ s.toGame = [] ∧ s.acks.length = 0 ∧
    replies s 0 ≠ 1 ∧ (logins s 0).length ≠ 1 ∧ replies s 1 ≠ 1 := by
  obtain ⟨s, hs⟩ := Option.isSome_iff_exists.mp
    (by decide +kernel : (run (Relay.step fun _ => 0) {} asks).isSome)
  refine ⟨s, hs, ?_⟩
  cases hs
  decide +kernel

end ChatShow.GateServer.ClientRelay
