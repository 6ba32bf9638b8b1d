import ChatShow.Dependence.CharDefine

/-! # Saving a player

`Player::SaveAllPlayer` collects the dirty structures of a player into messages for the DBServer. The
size of a message is protobuf's, a parameter. What the function calls is returned as a list: the
messages that it sends, and `dealWithSaveResult` where there was nothing to send. -/

namespace ChatShow.GameServer.SavePlayer

open ChatShow.Dependence.CharDefine ChatShow.Dependence.CharDefine.ECharBaseStruct

/-! ### The friends -/

def eGoodsFriends : Int32 := 1
def eBlackFriends : Int32 := 2

structure FriendStruct where
  type : Int32 := 0
  charid : Int64 := 0
  friendname : List UInt8 := []
  sex : UInt8 := 0
  point : Int32 := 0

structure FriendMgr where
  goodFriends : List FriendStruct := []
  blackFriends : List FriendStruct := []
  receiveCounts : Int16 := 0
  sendCounts : Int16 := 0

/-- A turn of either loop of `GetFriendsInfo`. -/
def FriendStruct.friendInfo (type : Int32) (it : FriendStruct) : FriendInfo where
  type := type
  charid := getPlayerCharid it.charid
  friendname := cStr it.friendname
  sex := some (Int32.ofNat it.sex.toNat)

/-- `GetFriendsInfo`, into an empty list. -/
def FriendMgr.getFriendsInfo (f : FriendMgr) : FriendInfoList where
  friends := f.goodFriends.map (FriendStruct.friendInfo eGoodsFriends) ++
    f.blackFriends.map (FriendStruct.friendInfo eBlackFriends)
  receiveCounts := some f.receiveCounts.toInt32
  sendCounts := some f.sendCounts.toInt32

/-! ### The player -/

structure Player where
  id : Int64 := 0
  name : List UInt8 := []
  sex : Bool := false
  dbChannelID : Int32 := -1
  wchatname : List UInt8 := []
  head : List UInt8 := []
  country : Int32 := 0
  province : Int32 := 0
  city : Int32 := 0
  signature : List UInt8 := []
  money : UInt32 := 0
  turnmoney : UInt32 := 0
  qrcode : List UInt8 := []
  phone : List UInt8 := []
  year : Int32 := 0
  month : Int32 := 0
  day : Int32 := 0
  friendMgr : FriendMgr := {}
  dirtyData : ECharBaseStruct → Bool
  initpartData : ECharBaseStruct → Bool
  /-- whether the timer is valid -/
  timerID : Bool := false

/-- `SetBaseInfo`: the base data of the player as a message. -/
def Player.setBaseInfo (p : Player) : BaseInfo where
  charid := p.id
  charname := p.name
  wchatname := p.wchatname
  head := p.head
  sex := p.sex
  country := p.country
  province := p.province
  city := p.city
  signature := p.signature
  money := p.money.toInt32
  turnmoney := p.turnmoney.toInt32
  qrcode := p.qrcode
  phone := p.phone
  year := p.year
  month := p.month
  day := p.day

/-- What the player holds of a structure. -/
def Player.inMemory (p : Player) : (i : ECharBaseStruct) → Content i
  | eBaseInfo => p.setBaseInfo
  | eFriendInfo => p.friendMgr.getFriendsInfo

def Player.releasePlayer (p : Player) : Player :=
  if p.timerID then { p with timerID := false } else p

/-! ### `SaveAllPlayer` -/

structure SaveDataInfo where
  msgtype : Int32 := 0
  msgid : Int32 := 0
  count : ℕ := 0

/-- What `SaveAllPlayer` calls: the two `SendToSaveData`, the one for a request with the entry it
makes in the list of waiting saves, and `dealWithSaveResult`. -/
inductive SaveCall
  | sendSimple (info : SaveTypeInfo) (dbChannelID : Int32)
  | sendRequest (info : SaveTypeInfo) (charID : Int64) (sendData : SaveDataInfo)
      (dbChannelID : Int32)
  | dealWithSaveResult (sendData : SaveDataInfo)

/-- The message that a call sends. -/
def SaveCall.info : SaveCall → Option SaveTypeInfo
  | sendSimple info _ => some info
  | sendRequest info _ _ _ => some info
  | dealWithSaveResult _ => none

/-- The variables of the loop: the bits of the message, the message, and those that are full. -/
structure Collected where
  type : UInt64 := 0
  info : SaveTypeInfo := {}
  infoVec : List SaveTypeInfo := []
  dirtyData : ECharBaseStruct → Bool

/-- The message that is put into the vector: the bits and the id are set. -/
def Collected.packet (c : Collected) (p : Player) : SaveTypeInfo :=
  { c.info with type := c.type, id := getPlayerCharid p.id, isdel := false }

/-- A message that is large enough goes into the vector, and the next one is begun. -/
def Collected.flush (c : Collected) (p : Player) : Collected :=
  { c with type := 0, info := {}, infoVec := c.infoVec ++ [c.packet p] }

/-- The bit of a structure is set, and the structure is clean. -/
def Collected.mark (c : Collected) (i : ECharBaseStruct) : Collected :=
  { c with type := setBit c.type i, dirtyData := Function.update c.dirtyData i false }

variable (byteSize : SaveTypeInfo → ℕ)

/-- A turn of the loop. The `switch` of the source puts nothing into the message: its case for
`eBaseInfo` is empty, and its default only logs an error. -/
def Player.collect (p : Player) (flag : Bool) (c : Collected) (i : ECharBaseStruct) : Collected :=
  if (c.dirtyData i || flag) && p.initpartData i then
    let c := c.mark i
    if NORMAL_MSG_SEND_SIZE < byteSize c.info then c.flush p else c
  else c

/-- The loop, and the message left after it. -/
def Player.collectAll (p : Player) (flag : Bool) : Collected :=
  let c := all.foldl (p.collect byteSize flag) { dirtyData := p.dirtyData }
  if 0 < c.type then { c with infoVec := c.infoVec ++ [c.packet p], info := {} } else c

/-- The turns of the loop that sends: the last message carries `isDel`. -/
def Player.sendAll (p : Player) (sendData : SaveDataInfo) (isDel : Bool) :
    List SaveTypeInfo → List SaveCall
  | [] => []
  | info :: infoVec =>
    let sendtmpInfo := if infoVec = [] then { info with isdel := isDel } else info
    (if sendData.msgtype = 0 then .sendSimple sendtmpInfo p.dbChannelID
      else .sendRequest sendtmpInfo p.id sendData p.dbChannelID) :: p.sendAll sendData isDel infoVec

/-- `SaveAllPlayer`: the player after it, the save data it passes on, and what it has called. -/
def Player.saveAllPlayer (p : Player) (sendData : SaveDataInfo) (flag isDel : Bool) :
    Player × SaveDataInfo × List SaveCall :=
  let c := p.collectAll byteSize flag
  let sendData := { sendData with count := c.infoVec.length }
  let calls := p.sendAll sendData isDel c.infoVec
  -- going offline is told also where nothing has changed
  let calls := if isDel ∧ sendData.count = 0 then
      calls ++ [.sendRequest { type := 0, id := getPlayerCharid p.id, isdel := isDel } p.id sendData
        p.dbChannelID]
    else calls
  let p := { p with dirtyData := c.dirtyData }
  let p := if flag then p.releasePlayer else p
  let calls := if sendData.count = 0 ∧ 0 < sendData.msgtype then
      calls ++ [.dealWithSaveResult sendData]
    else calls
  (p, sendData, calls)

/-! ### What is saved of a player that exits -/

/-- The number of messages: all the structures go into one, as the message stays empty while they are
collected, unless the empty message is too large. -/
def Player.packets (p : Player) : ℕ :=
  if NORMAL_MSG_SEND_SIZE < byteSize {} then all.countP p.initpartData
  else if all.any p.initpartData then 1 else 0

theorem setBit_pos (type : UInt64) (i : ECharBaseStruct) : 0 < setBit type i := by
  rw [UInt64.pos_iff_ne_zero]
  intro h
  have hbit := hasBit_setBit type i i
  rw [h, hasBit_zero, decide_eq_true rfl, Bool.or_true] at hbit
  cases hbit

theorem collectAll_length (p : Player) :
    (p.collectAll byteSize true).infoVec.length = p.packets byteSize := by
  unfold Player.collectAll Player.packets all Player.collect
  by_cases hsize : NORMAL_MSG_SEND_SIZE < byteSize {}
  · cases hb : p.initpartData eBaseInfo <;> cases hf : p.initpartData eFriendInfo <;>
      simp [hb, hf, hsize, Collected.mark, Collected.flush]
  · -- one bit that is set is enough for a message
    cases hb : p.initpartData eBaseInfo <;> cases hf : p.initpartData eFriendInfo <;>
      simp [hb, hf, hsize, setBit_pos, Collected.mark]

theorem packets_pos {p : Player} (h : p.initpartData eBaseInfo = true) :
    p.packets byteSize ≠ 0 := by
  unfold Player.packets all
  split_ifs with _ hany
  · rw [List.countP_cons_of_pos h]
    exact Nat.succ_ne_zero _
  · exact Nat.one_ne_zero
  · rw [List.any_cons, h, Bool.true_or] at hany
    exact absurd rfl hany

/-- The data that a call passes on. -/
def SaveCall.data : SaveCall → Option SaveDataInfo
  | sendSimple _ _ => none
  | sendRequest _ _ sendData _ => some sendData
  | dealWithSaveResult sendData => some sendData

/-- What a call passes on is what was given, but for the count. -/
theorem data_sendAll {p : Player} {sendData d : SaveDataInfo} {isDel : Bool}
    {infoVec : List SaveTypeInfo} {call : SaveCall} (h : call ∈ p.sendAll sendData isDel infoVec)
    (hd : call.data = some d) : d = sendData := by
  induction infoVec with
  | nil => cases h
  | cons info infoVec ih =>
    rw [Player.sendAll] at h
    by_cases ht : sendData.msgtype = 0
    · rw [if_pos ht] at h
      rcases List.mem_cons.mp h with rfl | h
      · cases hd
      · exact ih h
    · rw [if_neg ht] at h
      rcases List.mem_cons.mp h with rfl | h
      · cases hd
        rfl
      · exact ih h

/-- Everything that a save calls. -/
theorem mem_saveAllPlayer {p : Player} {sendData d : SaveDataInfo} {flag isDel : Bool}
    {call : SaveCall} (h : call ∈ (p.saveAllPlayer byteSize sendData flag isDel).2.2)
    (hd : d = { sendData with count := (p.collectAll byteSize flag).infoVec.length }) :
    call ∈ p.sendAll d isDel (p.collectAll byteSize flag).infoVec ∨
    call = .sendRequest { type := 0, id := getPlayerCharid p.id, isdel := isDel } p.id d
      p.dbChannelID ∨
    call = .dealWithSaveResult d := by
  subst hd
  unfold Player.saveAllPlayer at h
  dsimp only at h
  split_ifs at h
  · rcases List.mem_append.mp h with h | h
    · exact (List.mem_append.mp h).imp_right fun h => Or.inl (List.mem_singleton.mp h)
    · exact Or.inr (Or.inr (List.mem_singleton.mp h))
  · exact (List.mem_append.mp h).imp_right fun h => Or.inr (List.mem_singleton.mp h)
  · exact (List.mem_append.mp h).imp_right fun h => Or.inl (List.mem_singleton.mp h)
  · exact Or.inl h

theorem data_saveAllPlayer {p : Player} {sendData d : SaveDataInfo} {flag isDel : Bool}
    {call : SaveCall} (h : call ∈ (p.saveAllPlayer byteSize sendData flag isDel).2.2)
    (hd : call.data = some d) :
    d = { sendData with count := (p.collectAll byteSize flag).infoVec.length } := by
  rcases mem_saveAllPlayer byteSize h rfl with h | rfl | rfl
  · exact data_sendAll h hd
  · cases hd
    rfl
  · cases hd
    rfl

/-- Where there is something to save, only the messages are sent. -/
theorem saveAllPlayer_of_packets {p : Player} (sendData : SaveDataInfo)
    (h : p.packets byteSize ≠ 0) :
    (p.saveAllPlayer byteSize sendData true true).2.2 =
      p.sendAll { sendData with count := p.packets byteSize } true
        (p.collectAll byteSize true).infoVec := by
  unfold Player.saveAllPlayer
  dsimp only
  rw [collectAll_length, if_neg fun hc => h hc.1, if_neg fun hc => h hc.2]

/-- One message is one request for a save. -/
theorem saveAllPlayer_one {p : Player} {sendData : SaveDataInfo} (h : p.packets byteSize = 1)
    (ht : sendData.msgtype ≠ 0) :
    ∃ info, (p.saveAllPlayer byteSize sendData true true).2.2 =
      [.sendRequest info p.id { sendData with count := 1 } p.dbChannelID] := by
  rw [saveAllPlayer_of_packets byteSize sendData (by rw [h]; exact Nat.one_ne_zero), h]
  have hl := collectAll_length byteSize p
  rw [h] at hl
  obtain ⟨info, hinfo⟩ := List.length_eq_one_iff.mp hl
  rw [hinfo, Player.sendAll, if_pos rfl, if_neg ht]
  exact ⟨_, rfl⟩

/-- A save that answers nothing is told, and not asked for. -/
theorem sendAll_simple {p : Player} {sendData : SaveDataInfo} {isDel : Bool}
    {infoVec : List SaveTypeInfo} {call : SaveCall} (ht : sendData.msgtype = 0)
    (h : call ∈ p.sendAll sendData isDel infoVec) : ∃ info, call = .sendSimple info p.dbChannelID := by
  induction infoVec with
  | nil => cases h
  | cons info infoVec ih =>
    rw [Player.sendAll, if_pos ht] at h
    rcases List.mem_cons.mp h with rfl | h
    · exact ⟨_, rfl⟩
    · exact ih h

end ChatShow.GameServer.SavePlayer
