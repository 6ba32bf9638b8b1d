import ChatShow.CommBase.NetWorkConfig
import ChatShow.GameServer.SavePlayer
import ChatShow.Lib.Maps
import ChatShow.Lib.Runs

/-! # The players of the game server

`PlayerMessage`: a player that the DBServer has sent is in `m_PlayerCache` until its client comes in,
and in `m_allPlayer` from then on; `m_saveDataList` has the requests that are answered once a save is
acknowledged. A handler is a step, and `none` is a fault: a null pointer is used. `saves` has the
saves that the DBServer has not answered yet: its answer comes in any order, and whether it is an
acknowledgement or a timeout is not looked at. `sent` is the history of what is sent. The players
have no timer, as nothing sets the flag of their last structure. -/

namespace ChatShow.GameServer.Players

open ChatShow.CommBase.NetWorkConfig ChatShow.Dependence.CharDefine
open ChatShow.Dependence.CharDefine.ECharBaseStruct ChatShow.GameServer.SavePlayer
open ChatShow.Lib.Maps ChatShow.Lib.Runs Std

def MSG_REQ_GT2GM_PLAYERINFO : Int32 := 1004
def MSG_REQ_GT2GM_CLIENTIN : Int32 := 1010
def MSG_REQ_GT2GM_PLAYEREXIT : Int32 := 1012

/-- A message type, as the `int` of a `SaveDataInfo`. -/
def msgType (type : UInt8) : Int32 := Int32.ofNat type.toNat

/-- A request that has been received: its number, and the channel it came on. -/
structure Message where
  id : ℕ
  channel : ℤ
deriving DecidableEq

/-- What a request to the DBServer carries along. -/
structure StringIntAct where
  mesReq : Option Message
  mesDataf : Int64 := 0
  mesDatas : Int64 := 0
  mesDatafo : List UInt8 := []
deriving DecidableEq

/-! ### A player -/

/-- A player with what it has of its client. -/
structure OnlinePlayer extends Player where
  channelID : ℤ := -1
  ip : List UInt8 := []

/-- The flags of a player that has just been allocated, which its constructor does not set. -/
structure Flags where
  dirtyData : ECharBaseStruct → Bool := fun _ => false
  initpartData : ECharBaseStruct → Bool := fun _ => false

inductive ECharAttrType
  | eCharName
  | eWchatName
  | eHeadPhoto
  | eCharSex
  | eCountry
  | eProvince
  | eCity
  | eCharSignature
  | eCharMoney
  | eCharTurnMoney
  | eQRCode
  | ePhone
  | eYear
  | eMonth
  | eDay
deriving DecidableEq

structure SynCharAttr where
  /-- `none` for a number that is not in `ECharAttrType` -/
  type : Option ECharAttrType
  attrInt : Int64 := 0
  attrStr : List UInt8 := []

/-- `CharBaseInfo` has the fields of `BaseInfo`. -/
abbrev CharBaseInfo := BaseInfo

namespace OnlinePlayer

/-- `ObjectFactory::AllocObject(ePlayer)`. -/
def alloc (mem : Flags) : OnlinePlayer :=
  { id := -1, dirtyData := mem.dirtyData, initpartData := mem.initpartData }

/-- `InitBaseInfo`: `SetMoney` is called with the month, and `SetMonth` is not. -/
def initBaseInfo (p : OnlinePlayer) (info : BaseInfo) : OnlinePlayer :=
  { p with
    id := info.charid
    name := info.charname
    wchatname := info.wchatname
    head := info.head
    sex := info.sex
    country := info.country
    province := info.province
    city := info.city
    signature := info.signature
    money := info.month.toUInt32
    turnmoney := info.turnmoney.toUInt32
    qrcode := info.qrcode
    phone := info.phone
    year := info.year
    day := info.day
    initpartData := Function.update p.initpartData eBaseInfo true }

/-- `SetCharBaseInfo` sets what `SetBaseInfo` does. -/
def setCharBaseInfo (p : OnlinePlayer) : CharBaseInfo := p.toPlayer.setBaseInfo

/-- A turn of the loop of `SetTypeValue`. -/
def setAttr (p : OnlinePlayer) (a : SynCharAttr) : OnlinePlayer :=
  match a.type with
  | some .eCharName => { p with name := a.attrStr }
  | some .eWchatName => { p with wchatname := a.attrStr }
  | some .eHeadPhoto => { p with head := a.attrStr }
  | some .eCharSex => { p with sex := a.attrInt ≠ 0 }
  | some .eCountry => { p with country := a.attrInt.toInt32 }
  | some .eProvince => { p with province := a.attrInt.toInt32 }
  | some .eCity => { p with city := a.attrInt.toInt32 }
  | some .eCharSignature => { p with signature := a.attrStr }
  | some .eCharTurnMoney => { p with turnmoney := a.attrInt.toInt32.toUInt32 }
  | some .eQRCode => { p with qrcode := a.attrStr }
  | some .ePhone => { p with phone := a.attrStr }
  | some .eYear => { p with year := a.attrInt.toInt32 }
  | some .eMonth => { p with month := a.attrInt.toInt32 }
  | some .eDay => { p with day := a.attrInt.toInt32 }
  | some .eCharMoney => p
  | none => p

def setTypeValue (p : OnlinePlayer) (attr : List SynCharAttr) : OnlinePlayer := attr.foldl setAttr p

end OnlinePlayer

/-! ### The state -/

structure PlayerCache where
  bFlag : Bool := false
  time : UInt64 := 0
  playerCache : Option OnlinePlayer := none

/-- The `message` and the `content` of a `SaveDataInfo`: either both are set, or both are null. -/
structure Reply where
  message : Message
  content : Int64

/-- An entry of `m_saveDataList`. -/
structure SaveData where
  info : SaveDataInfo
  reply : Option Reply

inductive Content
  | retInt (ret : Int64)
  | charBaseInfo (info : CharBaseInfo)

inductive Sent
  /-- `MSG_REQ_GM2DB_PLAYERINFO` -/
  | load (charid : Int64) (act : StringIntAct)
  /-- `MSG_SIM_GT2GM_SAVE_PLAYERINFO` -/
  | saveSimple (info : SaveTypeInfo) (dbChannelID : Int32)
  /-- `MSG_REQ_GS2DB_SAVE_PLAYERDATA` -/
  | saveRequest (info : SaveTypeInfo) (dbChannelID : Int32)
  /-- `MSG_SIM_GM2GT_PLAYER_EXIT` -/
  | playerExit (charid : Int64) (channel : ℤ)
  /-- a message for who has sent a request -/
  | back (msgtype msgid : Int32) (message : Message) (content : Content)

/-- A save that the DBServer has not answered: the `IntAct` of the request, and the request of a gate
that it was started for. -/
structure Save where
  charID : Int64
  exit : Option ℕ

structure PlayerMessage where
  allPlayer : TreeMap Int64 (Option OnlinePlayer) := ∅
  playerCache : TreeMap Int64 PlayerCache := ∅
  saveDataList : TreeMap Int64 SaveData := ∅
  saves : List Save := []
  sent : List Sent := []
  /-- what the requests for a player to the DBServer carry -/
  loads : List StringIntAct := []
  /-- the requests of gates so far -/
  received : ℕ := 0
  /-- those that let a player exit -/
  exited : List ℕ := []
  /-- those that the DBServer has answered with a player that was not there, or not in time -/
  loaded : List ℕ := []

inductive Label
  /-- `MSG_REQ_GT2GM_PLAYERINFO`, and whether the DBServer of the player is there -/
  | playerInfo (channel : ℤ) (charid : Int64) (ip : List UInt8) (dbSvr : Bool)
  /-- the answer to `MSG_REQ_GM2DB_PLAYERINFO`: `dbChannelID` is what `BindGroupChannel` returns -/
  | playerInfoAck (act : StringIntAct) (timeOut : Bool) (content : PlayerInfo) (mem : Flags)
      (dbChannelID : Int32) (now : UInt64)
  /-- the answer to one of the saves, or its timeout -/
  | saveAck (i : ℕ)
  | clientIn (channel : ℤ) (charID ret : Int64)
  | playerExit (channel : ℤ) (charid : Int64)
  | synAttr (charID : Int64) (attr : List SynCharAttr)
  | removeDelayPlayer (now : UInt64)

namespace PlayerMessage

/-! ### The handlers -/

def send (s : PlayerMessage) (m : Sent) : PlayerMessage := { s with sent := s.sent ++ [m] }

/-- The request that is handled. -/
def request (s : PlayerMessage) (channel : ℤ) : Message := ⟨s.received, channel⟩

/-- A request is received. -/
def receive (s : PlayerMessage) : PlayerMessage := { s with received := s.received + 1 }

def isOnline (s : PlayerMessage) (charid : Int64) : Bool :=
  s.playerCache[charid]?.isSome || s.allPlayer[charid]?.isSome

def addSendDataCach (s : PlayerMessage) (charID : Int64) (sendData : SaveData) : PlayerMessage :=
  match s.saveDataList[charID]? with
  | none => { s with saveDataList := s.saveDataList.insert charID sendData }
  | some _ => s

def dealWithSaveResult (s : PlayerMessage) (data : SaveData) : PlayerMessage :=
  let count : ℤ := data.info.count - 1
  if 0 < count then s
  else
    match data.reply with
    | none => s
    | some r =>
      if data.info.msgtype = msgType Request ∨ data.info.msgtype = msgType Ack then
        s.send (.back data.info.msgtype data.info.msgid r.message (.retInt r.content))
      else s

/-- A call of `SaveAllPlayer`, with what the `SaveDataInfo` has to answer. -/
def saveCall (reply : Option Reply) (s : PlayerMessage) : SaveCall → PlayerMessage
  | .sendSimple info dbChannelID => s.send (.saveSimple info dbChannelID)
  | .sendRequest info charID sendData dbChannelID =>
    let s := s.addSendDataCach charID ⟨sendData, reply⟩
    { s.send (.saveRequest info dbChannelID) with
      saves := s.saves ++ [⟨charID, reply.map fun r => r.message.id⟩] }
  | .dealWithSaveResult sendData => s.dealWithSaveResult ⟨sendData, reply⟩

variable (byteSize : SaveTypeInfo → ℕ)

/-- `SaveAllPlayer(sendData, true, true)`, of a player that is not used any more. -/
def saveAllPlayer (s : PlayerMessage) (p : OnlinePlayer) (sendData : SaveDataInfo)
    (reply : Option Reply) : PlayerMessage :=
  (p.toPlayer.saveAllPlayer byteSize sendData true true).2.2.foldl (saveCall reply) s

def playerInfo (s : PlayerMessage) (channel : ℤ) (charid : Int64) (ip : List UInt8)
    (dbSvr : Bool) : PlayerMessage :=
  let act : StringIntAct := { mesReq := some (s.request channel), mesDatafo := ip }
  let s := s.receive
  if s.isOnline charid then s
  else if ¬ dbSvr then s
  else { s.send (.load (getPlayerCharid charid) act) with loads := s.loads ++ [act] }

/-- A request for a player is done with. -/
def done (s : PlayerMessage) (act : StringIntAct) : PlayerMessage :=
  { s with loaded := s.loaded ++ (act.mesReq.map Message.id).toList }

/-- The player that is made of an answer of the DBServer. -/
def loadPlayer (act : StringIntAct) (mesReq : Message) (bsinfo : BaseInfo) (mem : Flags)
    (dbChannelID : Int32) : OnlinePlayer :=
  let player : OnlinePlayer :=
    { OnlinePlayer.alloc mem with channelID := mesReq.channel, dbChannelID := dbChannelID }
  let player := player.initBaseInfo bsinfo
  if act.mesDataf = 0 then { player with ip := act.mesDatafo } else player

def playerInfoAck (s : PlayerMessage) (act : StringIntAct) (timeOut : Bool) (content : PlayerInfo)
    (mem : Flags) (dbChannelID : Int32) (now : UInt64) : Option PlayerMessage :=
  if timeOut then some (s.done act)
  else
    let bsinfo := content.bsinfo.getD default
    if s.isOnline bsinfo.charid then some s
    else
      match act.mesReq with
      | none => none
      | some mesReq =>
        let player := loadPlayer act mesReq bsinfo mem dbChannelID
        let cache : PlayerCache := { bFlag := true, time := now, playerCache := some player }
        let s := { s.done act with playerCache := s.playerCache.insert bsinfo.charid cache }
        -- the player is sent to the gate if there is no request to answer
        if act.mesReq = none then
          some (s.send (.back (msgType Ack) MSG_REQ_GT2GM_PLAYERINFO mesReq
            (.charBaseInfo player.setCharBaseInfo)))
        else some s

/-- The handler of the answer to `MSG_REQ_GS2DB_SAVE_PLAYERDATA`. -/
def saveAck (s : PlayerMessage) (charID : Int64) : PlayerMessage :=
  match s.saveDataList[charID]? with
  | none => s
  | some data =>
    { s.dealWithSaveResult data with saveDataList := s.saveDataList.erase charID }

def clientIn (s : PlayerMessage) (channel : ℤ) (charID ret : Int64) : PlayerMessage :=
  let message := s.request channel
  let s := s.receive
  match s.allPlayer[charID]? with
  | some _ => s
  | none =>
    match s.playerCache[charID]? with
    | some it =>
      { s.send (.back (msgType Ack) MSG_REQ_GT2GM_CLIENTIN message (.retInt ret)) with
        playerCache := s.playerCache.erase charID
        allPlayer := s.allPlayer.insert charID it.playerCache }
    | none => s

/-- The save of a player that exits, which the request waits for. -/
def saveExit (s : PlayerMessage) (p : OnlinePlayer) (message : Message) (charid : Int64) :
    PlayerMessage :=
  s.saveAllPlayer byteSize p { msgtype := msgType Ack, msgid := MSG_REQ_GT2GM_PLAYEREXIT }
    (some ⟨message, charid⟩)

def playerExit (s : PlayerMessage) (channel : ℤ) (charid : Int64) : Option PlayerMessage :=
  let message := s.request channel
  let s := { s.receive with exited := s.exited ++ [s.received] }
  match s.playerCache[charid]? with
  | some ite => do
    let p ← ite.playerCache
    let s := s.saveExit byteSize p message charid
    some { s with playerCache := s.playerCache.erase charid }
  | none =>
    match s.allPlayer[charid]? with
    | some it => do
      let p ← it
      let s := s.saveExit byteSize p message charid
      some { s with allPlayer := s.allPlayer.erase charid }
    | none =>
      some (s.send (.back (msgType Ack) MSG_REQ_GT2GM_PLAYEREXIT message (.retInt charid)))

def synAttr (s : PlayerMessage) (charID : Int64) (attr : List SynCharAttr) : PlayerMessage :=
  let s := s.receive
  match s.allPlayer[charID]? with
  | some (some player) =>
    { s with allPlayer := s.allPlayer.insert charID (some (player.setTypeValue attr)) }
  | _ => s

/-- Whether `RemoveDelayPlayer` removes a player of the cache. -/
def PlayerCache.delayed (it : PlayerCache) (now : UInt64) : Bool :=
  now - it.time > if it.bFlag then 60 * 1000 else 15 * 1000

/-- A turn of the loop of `RemoveDelayPlayer`. -/
def removeDelay (now : UInt64) (s : PlayerMessage) (e : Int64 × PlayerCache) :
    Option PlayerMessage :=
  if PlayerCache.delayed e.2 now then do
    let player ← e.2.playerCache
    let s := s.saveAllPlayer byteSize player {} none
    let s := s.send (.playerExit player.id player.channelID)
    some { s with playerCache := s.playerCache.erase e.1 }
  else some s

def removeDelayPlayer (s : PlayerMessage) (now : UInt64) : Option PlayerMessage :=
  run (removeDelay byteSize now) s s.playerCache.toList

def step (s : PlayerMessage) : Label → Option PlayerMessage
  | .playerInfo channel charid ip dbSvr => some (s.playerInfo channel charid ip dbSvr)
  | .playerInfoAck act timeOut content mem dbChannelID now =>
    if act ∈ s.loads then s.playerInfoAck act timeOut content mem dbChannelID now else none
  | .saveAck i =>
    match s.saves[i]? with
    | some save => some ({ s with saves := s.saves.eraseIdx i }.saveAck save.charID)
    | none => none
  | .clientIn channel charID ret => some (s.clientIn channel charID ret)
  | .playerExit channel charid => s.playerExit byteSize channel charid
  | .synAttr charID attr => some (s.synAttr charID attr)
  | .removeDelayPlayer now => s.removeDelayPlayer byteSize now

/-! ### What an answer of the DBServer does -/

section

variable {s s' : PlayerMessage} {act : StringIntAct} {timeOut : Bool} {content : PlayerInfo}
  {mem : Flags} {dbChannelID : Int32} {now : UInt64}

/-- An answer is late, or for a player that is there, or brings a player into the cache. -/
inductive Answered (s : PlayerMessage) (act : StringIntAct) (timeOut : Bool) (content : PlayerInfo)
    (mem : Flags) (dbChannelID : Int32) (now : UInt64) : PlayerMessage → Prop
  | late (ht : timeOut = true) : Answered s act timeOut content mem dbChannelID now (s.done act)
  | there (ht : timeOut = false) (hon : s.isOnline (content.bsinfo.getD default).charid = true) :
      Answered s act timeOut content mem dbChannelID now s
  | cached {mesReq : Message} (ht : timeOut = false)
      (hon : s.isOnline (content.bsinfo.getD default).charid = false)
      (hreq : act.mesReq = some mesReq) :
      Answered s act timeOut content mem dbChannelID now
        { s.done act with
          playerCache := s.playerCache.insert (content.bsinfo.getD default).charid
            { bFlag := true, time := now
              playerCache := loadPlayer act mesReq (content.bsinfo.getD default) mem dbChannelID } }

/-- Where a player comes into the cache there is a request, and nothing is sent. -/
theorem answered (h : s.playerInfoAck act timeOut content mem dbChannelID now = some s') :
    Answered s act timeOut content mem dbChannelID now s' := by
  unfold playerInfoAck at h
  cases ht : timeOut with
  | true =>
    rw [if_pos ht] at h
    cases h
    exact .late rfl
  | false =>
    rw [if_neg (by rw [ht]; decide)] at h
    dsimp only at h
    cases hon : s.isOnline (content.bsinfo.getD default).charid with
    | true =>
      rw [if_pos hon] at h
      cases h
      exact .there rfl hon
    | false =>
      rw [if_neg (by rw [hon]; decide)] at h
      rcases hreq : act.mesReq with _ | mesReq
      · rw [hreq] at h
        cases h
      · rw [hreq] at h
        cases h
        exact .cached rfl hon hreq

theorem loadPlayer_id (act : StringIntAct) (mesReq : Message) (bsinfo : BaseInfo) (mem : Flags)
    (dbChannelID : Int32) : (loadPlayer act mesReq bsinfo mem dbChannelID).id = bsinfo.charid := by
  unfold loadPlayer
  dsimp only
  split_ifs
  · rfl
  · rfl

theorem loadPlayer_initpartData (act : StringIntAct) (mesReq : Message) (bsinfo : BaseInfo)
    (mem : Flags) (dbChannelID : Int32) :
    (loadPlayer act mesReq bsinfo mem dbChannelID).initpartData eBaseInfo = true := by
  unfold loadPlayer OnlinePlayer.initBaseInfo
  dsimp only
  split_ifs
  · exact Function.update_self eBaseInfo true (OnlinePlayer.alloc mem).initpartData
  · exact Function.update_self eBaseInfo true (OnlinePlayer.alloc mem).initpartData

end

/-! ### What a save leaves -/

/-- All but the saves, their list and what has been sent is as it was. -/
structure Saves (s s' : PlayerMessage) : Prop where
  allPlayer : s'.allPlayer = s.allPlayer
  playerCache : s'.playerCache = s.playerCache
  loads : s'.loads = s.loads
  received : s'.received = s.received
  exited : s'.exited = s.exited
  loaded : s'.loaded = s.loaded

variable {byteSize} {s s' : PlayerMessage}

theorem saves_self : Saves s s := ⟨rfl, rfl, rfl, rfl, rfl, rfl⟩

theorem Saves.trans {s'' : PlayerMessage} (h : Saves s s') (h' : Saves s' s'') : Saves s s'' :=
  ⟨h'.allPlayer.trans h.allPlayer, h'.playerCache.trans h.playerCache, h'.loads.trans h.loads,
    h'.received.trans h.received, h'.exited.trans h.exited, h'.loaded.trans h.loaded⟩

theorem saves_send (m : Sent) : Saves s (s.send m) := ⟨rfl, rfl, rfl, rfl, rfl, rfl⟩

theorem saves_addSendDataCach (charID : Int64) (sendData : SaveData) :
    Saves s (s.addSendDataCach charID sendData) := by
  unfold addSendDataCach
  split
  · exact ⟨rfl, rfl, rfl, rfl, rfl, rfl⟩
  · exact saves_self

theorem saves_dealWithSaveResult (data : SaveData) : Saves s (s.dealWithSaveResult data) := by
  unfold dealWithSaveResult
  dsimp only
  split_ifs
  · exact saves_self
  · split
    · exact saves_self
    · exact saves_send _
  · split
    · exact saves_self
    · exact saves_self

theorem saves_saveCall (reply : Option Reply) (call : SaveCall) : Saves s (saveCall reply s call) := by
  cases call with
  | sendSimple info dbChannelID => exact saves_send _
  | sendRequest info charID sendData dbChannelID =>
    have h := saves_addSendDataCach (s := s) charID ⟨sendData, reply⟩
    exact ⟨h.allPlayer, h.playerCache, h.loads, h.received, h.exited, h.loaded⟩
  | dealWithSaveResult sendData => exact saves_dealWithSaveResult _

theorem saves_foldl (reply : Option Reply) (calls : List SaveCall) :
    Saves s (calls.foldl (saveCall reply) s) := by
  induction calls generalizing s with
  | nil => exact saves_self
  | cons call calls ih =>
    rw [List.foldl_cons]
    exact (saves_saveCall reply call).trans ih

theorem saves_saveAllPlayer (byteSize : SaveTypeInfo → ℕ) (s : PlayerMessage) (p : OnlinePlayer)
    (sendData : SaveDataInfo) (reply : Option Reply) :
    Saves s (s.saveAllPlayer byteSize p sendData reply) := saves_foldl reply _

theorem saves_saveExit (byteSize : SaveTypeInfo → ℕ) (s : PlayerMessage) (p : OnlinePlayer)
    (message : Message) (charid : Int64) : Saves s (s.saveExit byteSize p message charid) :=
  saves_saveAllPlayer byteSize s p _ _

/-! ### Runs to begin with -/

/-- The DBServer answers the request `m` for a player in time. -/
def comes (m : Message) (charid : Int64) : List Label :=
  [.playerInfo m.channel charid [] true,
    .playerInfoAck { mesReq := some m } false { bsinfo := some { charid := charid } } {} 5 0]

end PlayerMessage

end ChatShow.GameServer.Players
