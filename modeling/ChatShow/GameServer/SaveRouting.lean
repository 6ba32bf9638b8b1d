import ChatShow.CommBase.Groups
import ChatShow.GameServer.Players
import ChatShow.GameServer.ServerManager

/-! # Where a player is saved

The answer to `MSG_REQ_GM2DB_PLAYERINFO` makes a player and gives it the channel that its saves go to.
The channel is asked for with `GetID` of the player before `InitBaseInfo` has set it, so that it is that
of the server `0xffff` and not of the player's own (`routed_iff`), and `-1` where there is no such server:
`Message_Facade::Send` drops what is sent there.

`BindGroupChannel` is a parameter. It takes a channel of a DBServer to one of its group
(`valid_bindSession`). -/

namespace ChatShow.GameServer.SaveRouting

open ChatShow.CommBase.Groups ChatShow.Dependence.CharDefine ChatShow.GameServer.Players
open ChatShow.GameServer.SavePlayer ChatShow.GameServer.ServerManager ChatShow.Lib.Maps

def MAX_EPOLL_fd : Int32 := 10000

/-- `GET_SERVER_CHARID`. -/
def getServerCharid (m : Int64) : Int64 := (m >>> 48) &&& 0xffff

/-- `GetDBChannelBySvrID`, and `none` where the item is a null pointer. -/
def getDBChannelBySvrID (h : ServerConHandler) (id : Int32) : Option ℤ :=
  match h.dbSvr[id]? with
  | none => some (-1)
  | some none => none
  | some (some o) => some (h.object o).channelID

/-- `Message_Facade::Send`: the channel whose dispatcher gets the message, if any. -/
def messageSend (channelID : Int32) : Option Int32 :=
  if channelID < 0 ∨ MAX_EPOLL_fd ≤ channelID then none else some channelID

/-- A channel that messages can be sent to. -/
def Valid (channel : ℤ) : Prop := 0 ≤ channel ∧ channel < MAX_EPOLL_fd.toInt

instance (channel : ℤ) : Decidable (Valid channel) := inferInstanceAs (Decidable (_ ∧ _))

/-! ### The answer that makes a player -/

section

variable (bind : ℤ → ℤ → Int32)

/-- What `SetDBChannelID` is called with. -/
def dbChannel (h : ServerConHandler) (mesReq : Message) (player : OnlinePlayer) : Option Int32 :=
  (getDBChannelBySvrID h (getServerCharid player.id).toInt32).map (bind mesReq.channel)

/-- The handler of the answer to `MSG_REQ_GM2DB_PLAYERINFO`, with the servers. -/
def ackPlayerInfo (h : ServerConHandler) (s : PlayerMessage) (act : StringIntAct) (timeOut : Bool)
    (content : PlayerInfo) (mem : Flags) (now : UInt64) : Option PlayerMessage :=
  if timeOut ∨ s.isOnline (content.bsinfo.getD default).charid then
    -- there is no player to give a channel to
    s.playerInfoAck act timeOut content mem (-1) now
  else do
    let mesReq ← act.mesReq
    let dbChannelID ← dbChannel bind h mesReq (OnlinePlayer.alloc mem)
    s.playerInfoAck act timeOut content mem dbChannelID now

end

/-! ### The saves of a player -/

/-- What is done to a player that there is. -/
inductive Use
  | setTypeValue (attr : List SynCharAttr)
  | saveAllPlayer (sendData : SaveDataInfo) (flag isDel : Bool)

variable (byteSize : SaveTypeInfo → ℕ)

def use (p : OnlinePlayer) : Use → OnlinePlayer × List SaveCall
  | .setTypeValue attr => (p.setTypeValue attr, [])
  | .saveAllPlayer sendData flag isDel =>
    let r := p.toPlayer.saveAllPlayer byteSize sendData flag isDel
    ({ p with toPlayer := r.1 }, r.2.2)

/-- All that the saves of a player call. -/
def calls (p : OnlinePlayer) : List Use → List SaveCall
  | [] => []
  | a :: l => (use byteSize p a).2 ++ calls (use byteSize p a).1 l

/-- The message of a call, and the channel that it is built for. -/
def message : SaveCall → Option (SaveTypeInfo × Int32)
  | .sendSimple info dbChannelID => some (info, dbChannelID)
  | .sendRequest info _ _ dbChannelID => some (info, dbChannelID)
  | .dealWithSaveResult _ => none

/-- The player has the channel of the DBServer of its id, where it can be sent to, and every message of
its saves goes there. -/
structure Routed (bind : ℤ → ℤ → Int32) (h : ServerConHandler) (mesReq : Message) (p : OnlinePlayer)
    (charid : Int64) : Prop where
  channel : ∀ c, getDBChannelBySvrID h (getServerCharid charid).toInt32 = some c → Valid c →
    p.dbChannelID = bind mesReq.channel c
  handed : ∀ c, getDBChannelBySvrID h (getServerCharid charid).toInt32 = some c → Valid c →
    ∀ l, ∀ call ∈ calls byteSize p l, ∀ info channel, message call = some (info, channel) →
      messageSend channel = some (bind mesReq.channel c)

theorem message_sendAll {p : Player} {sendData : SaveDataInfo} {isDel : Bool}
    {infoVec : List SaveTypeInfo} {call : SaveCall} (h : call ∈ p.sendAll sendData isDel infoVec) :
    ∃ info, message call = some (info, p.dbChannelID) := by
  induction infoVec with
  | nil => cases h
  | cons info infoVec ih =>
    rw [Player.sendAll] at h
    rcases List.mem_cons.mp h with rfl | h
    · split_ifs <;> exact ⟨_, rfl⟩
    · exact ih h

theorem message_saveAllPlayer {p : Player} {sendData : SaveDataInfo} {flag isDel : Bool}
    {call : SaveCall} (h : call ∈ (p.saveAllPlayer byteSize sendData flag isDel).2.2)
    {info : SaveTypeInfo} {channel : Int32} (hm : message call = some (info, channel)) :
    channel = p.dbChannelID := by
  rcases mem_saveAllPlayer byteSize h rfl with h | rfl | rfl
  · obtain ⟨info', hm'⟩ := message_sendAll h
    rw [hm] at hm'
    cases hm'
    rfl
  · cases hm
    rfl
  · cases hm

theorem setTypeValue_dbChannelID (p : OnlinePlayer) (attr : List SynCharAttr) :
    (p.setTypeValue attr).dbChannelID = p.dbChannelID := by
  unfold OnlinePlayer.setTypeValue
  induction attr generalizing p with
  | nil => rfl
  | cons a attr ih =>
    rw [List.foldl_cons, ih]
    unfold OnlinePlayer.setAttr
    rcases a.type with _ | type
    · rfl
    · cases type <;> rfl

theorem saveAllPlayer_dbChannelID (p : Player) (sendData : SaveDataInfo) (flag isDel : Bool) :
    (p.saveAllPlayer byteSize sendData flag isDel).1.dbChannelID = p.dbChannelID := by
  unfold Player.saveAllPlayer Player.releasePlayer
  dsimp only
  split_ifs <;> rfl

/-- All messages of a player have the channel that it was given. -/
theorem message_calls {l : List Use} {p : OnlinePlayer} {call : SaveCall}
    (h : call ∈ calls byteSize p l) {info : SaveTypeInfo} {channel : Int32}
    (hm : message call = some (info, channel)) : channel = p.dbChannelID := by
  induction l generalizing p with
  | nil => cases h
  | cons a l ih =>
    rw [calls] at h
    rcases List.mem_append.mp h with h | h
    · cases a with
      | setTypeValue attr => cases h
      | saveAllPlayer sendData flag isDel => exact message_saveAllPlayer byteSize h hm
    · have hkeep : (use byteSize p a).1.dbChannelID = p.dbChannelID := by
        cases a with
        | setTypeValue attr => exact setTypeValue_dbChannelID p attr
        | saveAllPlayer sendData flag isDel =>
          exact saveAllPlayer_dbChannelID byteSize p.toPlayer sendData flag isDel
      exact (ih h).trans hkeep

/-! ### Which channel it is -/

theorem messageSend_of_valid {channel : Int32} (h : Valid channel.toInt) :
    messageSend channel = some channel := by
  obtain ⟨hpos, hlt⟩ := h
  unfold messageSend
  rw [if_neg]
  rw [not_or, Int32.not_lt, Int32.not_le, Int32.le_iff_toInt_le, Int32.lt_iff_toInt_lt]
  exact ⟨hpos, hlt⟩

/-- The server that the id of a new player has. -/
theorem getServerCharid_alloc (mem : Flags) :
    (getServerCharid (OnlinePlayer.alloc mem).id).toInt32 = 0xffff :=
  (show (getServerCharid (-1)).toInt32 = 0xffff by decide +kernel)

variable {bind : ℤ → ℤ → Int32} {h : ServerConHandler} {s s' : PlayerMessage} {act : StringIntAct}
  {content : PlayerInfo} {mem : Flags} {now : UInt64} {mesReq : Message}

/-- The player that an answer makes. -/
theorem ackPlayerInfo_new
    (hs : ackPlayerInfo bind h s act false content mem now = some s')
    (hnew : s.isOnline (content.bsinfo.getD default).charid = false)
    (hreq : act.mesReq = some mesReq) :
    ∃ c, getDBChannelBySvrID h 0xffff = some c ∧
      s'.playerCache[(content.bsinfo.getD default).charid]? = some
        { bFlag := true, time := now
          playerCache := PlayerMessage.loadPlayer act mesReq (content.bsinfo.getD default) mem
            (bind mesReq.channel c) } := by
  unfold ackPlayerInfo at hs
  rw [hnew, if_neg (by decide), hreq] at hs
  unfold dbChannel at hs
  rw [getServerCharid_alloc] at hs
  cases hc : getDBChannelBySvrID h 0xffff with
  | none =>
    rw [hc] at hs
    cases hs
  | some c =>
    rw [hc] at hs
    refine ⟨c, rfl, ?_⟩
    cases PlayerMessage.answered (show s.playerInfoAck act false content mem _ now = some s' from hs) with
    | late ht => cases ht
    | there _ hon =>
      rw [hnew] at hon
      cases hon
    | cached _ _ hreq' =>
      rw [hreq] at hreq'
      cases hreq'
      exact get_insert_self _ _ _

theorem loadPlayer_dbChannelID (act : StringIntAct) (mesReq : Message) (bsinfo : BaseInfo)
    (mem : Flags) (dbChannelID : Int32) :
    (PlayerMessage.loadPlayer act mesReq bsinfo mem dbChannelID).dbChannelID = dbChannelID := by
  unfold PlayerMessage.loadPlayer
  dsimp only
  split_ifs <;> rfl

/-- The DBServer of the player has no channel, or that of the server `0xffff` is bound to the same. -/
def SameChannel (bind : ℤ → ℤ → Int32) (h : ServerConHandler) (mesReq : Message) (charid : Int64) :
    Prop :=
  ∀ c c', getDBChannelBySvrID h (getServerCharid charid).toInt32 = some c → Valid c →
    getDBChannelBySvrID h 0xffff = some c' → bind mesReq.channel c' = bind mesReq.channel c

/-- **A player that an answer makes is saved where it belongs** just when the server `0xffff` has the
same channel. -/
theorem routed_iff (hbind : ∀ key c, Valid c → Valid (bind key c).toInt)
    (hs : ackPlayerInfo bind h s act false content mem now = some s')
    (hnew : s.isOnline (content.bsinfo.getD default).charid = false)
    (hreq : act.mesReq = some mesReq) :
    ∃ cache p, s'.playerCache[(content.bsinfo.getD default).charid]? = some cache ∧
      cache.playerCache = some p ∧
      (Routed byteSize bind h mesReq p (content.bsinfo.getD default).charid ↔
        SameChannel bind h mesReq (content.bsinfo.getD default).charid) := by
  obtain ⟨c₀, hc₀, hget⟩ := ackPlayerInfo_new hs hnew hreq
  refine ⟨_, _, hget, rfl, ?_⟩
  have hp := loadPlayer_dbChannelID act mesReq (content.bsinfo.getD default) mem
    (bind mesReq.channel c₀)
  constructor
  · intro hrouted c c' hc hv hc'
    rw [hc₀] at hc'
    cases hc'
    rw [← hp]
    exact hrouted.channel c hc hv
  · intro hsame
    constructor
    · intro c hc hv
      rw [hp]
      exact hsame c c₀ hc hv hc₀
    · intro c hc hv l call hcall info channel hm
      rw [message_calls byteSize hcall hm, hp, hsame c c₀ hc hv hc₀]
      exact messageSend_of_valid (hbind _ _ hv)

/-- `BindGroupChannel` binds to a channel of the group, or leaves the channel as it is. -/
theorem valid_bindSession {g : GroupSession}
    (hg : ∀ (group : ℤ) (info : GroupSessionInfo), g.groupChannel[group]? = some info →
      ∀ c ∈ info.channel, Valid c) (key : ℤ) {c : ℤ} (hc : Valid c) :
    Valid (Int32.ofInt (g.bindSession key c)).toInt := by
  have hv : Valid (g.bindSession key c) := by
    unfold GroupSession.bindSession
    split_ifs
    · exact hc
    · cases hi : g.groupChannel[c]? with
      | none => exact hc
      | some info =>
        dsimp only
        cases hch : info.getChannel (Int32.ofInt key) with
        | none => exact hc
        | some channel => exact hg c info hi channel (List.mem_of_getElem? hch)
  have hlt : g.bindSession key c < 10000 := hv.2
  have hpos : 0 ≤ g.bindSession key c := hv.1
  rwa [Int32.toInt_ofInt_of_le (by omega) (by omega)]

/-! ### A player of the server `1` -/

/-- The DBServer `1` is there on the channel 5, and its group has the channels 5 and 6. -/
def servers : ServerConHandler :=
  { dbSvr := (∅ : IdMap).insert 1 (some 0), object := fun _ => { channelID := 5 }, made := 1 }

def groups : GroupSession :=
  { groupChannel := (∅ : Std.TreeMap ℤ GroupSessionInfo).insert 5 { channel := [5, 6], count := 2 } }

def bindGroups (key c : ℤ) : Int32 := Int32.ofInt (groups.bindSession key c)

theorem bindGroups_valid (key c : ℤ) (hc : Valid c) : Valid (bindGroups key c).toInt := by
  refine valid_bindSession (fun group info hi => ?_) key hc
  unfold groups at hi
  rw [get_insert] at hi
  split_ifs at hi
  · cases hi
    decide +kernel
  · rw [Std.TreeMap.getElem?_emptyc] at hi
    cases hi

def login (charid : Int64) : PlayerInfo := { bsinfo := some { charid := charid } }

def loginAct : StringIntAct := { mesReq := some ⟨0, 3⟩ }

theorem routed_iff_login :
    ∃ s', ackPlayerInfo bindGroups servers {} loginAct false (login (createCharidGS 1 7)) {} 0 =
      some s' ∧
    ∃ cache p, s'.playerCache[createCharidGS 1 7]? = some cache ∧ cache.playerCache = some p ∧
      (Routed (fun _ => 0) bindGroups servers ⟨0, 3⟩ p (createCharidGS 1 7) ↔
        SameChannel bindGroups servers ⟨0, 3⟩ (createCharidGS 1 7)) :=
  have hack : ackPlayerInfo bindGroups servers {} loginAct false (login (createCharidGS 1 7)) {} 0 =
    some _ := rfl
  ⟨_, hack, routed_iff (fun _ => 0) bindGroups_valid hack rfl rfl⟩

/-- The saves of that player go to the channel `-1`, and are dropped. -/
theorem login_dropped :
    ∃ s' cache p, ackPlayerInfo bindGroups servers {} loginAct false (login (createCharidGS 1 7)) {} 0
        = some s' ∧
      s'.playerCache[createCharidGS 1 7]? = some cache ∧ cache.playerCache = some p ∧
      getDBChannelBySvrID servers 1 = some 5 ∧ p.dbChannelID = -1 ∧
      (calls (fun _ => 0) p [.saveAllPlayer {} true true]).map (fun call =>
        (message call).bind fun m => messageSend m.2) = [none] ∧
      ¬ Routed (fun _ => 0) bindGroups servers ⟨0, 3⟩ p (createCharidGS 1 7) := by
  refine ⟨_, _, _, rfl, rfl, rfl, by decide +kernel, by decide +kernel, by decide +kernel, ?_⟩
  intro hrouted
  have hchannel := hrouted.channel 5 (by decide +kernel) (by decide +kernel)
  exact absurd hchannel (by decide +kernel)

end ChatShow.GameServer.SaveRouting
