import ChatShow.CommBase.NetWorkConfig
import ChatShow.GateServer.Timeouts
import ChatShow.Lib.Runs
import Mathlib.Logic.Function.Basic

/-! # The players of the gate server

`ServerConHandler`: `m_client` has the player of a client channel, `m_idClient` that of a character,
and both point to one `sClientItem`, which is an object with a number here; `ConnTimeout` has the
players that may connect. An operation is a step, but that the thread of `ConnTimeout::svr` leaves the
table between its sections: it collects the players that are gone, and then lets them exit one by one.
`closed` is the history of the channels for which `CloseChannel` was called, and `beat` of when a
player has last logged in or was heard of. What is sent is left out. -/

namespace ChatShow.GateServer.ServerManager

open ChatShow.CommBase.NetWorkConfig ChatShow.CommBase.Groups
open ChatShow.GateServer.Timeouts ChatShow.Lib.Maps Std

/-- `MAX_EPOLL_fd`, the length of `m_client`. -/
def MAX_EPOLL_fd : ℤ := 10000

structure ClientItem where
  channelID : ℤ := -1
  group : ℤ := -1
  gsChannelID : ℤ := -1
  ip : List UInt8 := []
  charID : UInt64 := 0xFFFFFFFFFFFFFFFF
  mapID : Int64 := -1
  gsID : UInt16 := 0xFFFF

structure SvrItem where
  channelID : ℤ := -1
  remoteID : Int16 := -1
  remoteType : UInt8 := 0
  ip : List UInt8 := []
  mapPlayer : TreeMap Int64 ℤ := ∅

def SvrItem.getPlayerNum (svr : SvrItem) : ℤ := (svr.mapPlayer.toList.map (·.2)).sum

/-- `CREATE_GSID`, as the `WORD` that it is stored in. -/
def createGSID (t x : Int16) : UInt16 := (t.toUInt16 <<< 8) ||| x.toUInt16

/-- The thread of `ConnTimeout::svr`. -/
inductive Svr
  | idle
  /-- with the channels and the players that are to exit -/
  | exiting (delMap : List ℤ) (lineDel : List Int64)

structure ServerConHandler where
  timeout : ConnTimeout := {}
  client : ℤ → Option ℕ := fun _ => none
  idClient : TreeMap Int64 ℕ := ∅
  object : ℕ → ClientItem := fun _ => {}
  made : ℕ := 0
  gsIDSvr : TreeMap UInt16 SvrItem := ∅
  /-- the channels of `m_loginServer` and `m_worldServer` -/
  loginServer : ℤ := -1
  worldServer : ℤ := -1
  localID : Int16 := -1
  localType : UInt8 := 0
  svr : Svr := .idle
  closed : List ℤ := []
  beat : Int64 → ℕ := fun _ => 0

inductive Label
  | onNewChannelBuild (channel : ℤ) (localID : Int16) (localType : UInt8) (remoteID : Int16)
      (remoteType : UInt8) (ip : List UInt8) (now : ℕ)
  | onChannelError (channel : ℤ) (localID remoteID : Int16) (remoteType : UInt8)
  | addClientTimeOut (charid : UInt64) (now : ℕ)
  | updateClientInfo (groups : GroupSession) (charid : Int64) (channel : ℤ) (ip : List UInt8)
  /-- the handler of `MSG_REQ_C2GT_PLAYERINFO` -/
  | playerInfo (groups : GroupSession) (charid : Int64) (channel : ℤ) (ip : List UInt8)
  | playerLogin (charid : Int64) (now : ℕ)
  | playerExit (channel : ℤ)
  | playerExitEx (charid : Int64)
  | clearPlayerFromServer (gsID : UInt16)
  | closeClientChannel (channel : ℤ)
  | synchHeartBeat (channel : ℤ) (now : ℕ)
  | checkConnect (now : ℕ)
  /-- `svr` collects the players that are gone -/
  | sweep (now : ℕ)
  /-- `svr` goes on with the next of them -/
  | exit

namespace ServerConHandler

/-- `Message_Facade::CloseChannel`. -/
def closeChannel (s : ServerConHandler) (channel : ℤ) : ServerConHandler :=
  { s with closed := s.closed ++ [channel] }

def closeClientChannel (s : ServerConHandler) (channel : ℤ) : ServerConHandler :=
  if 0 ≤ channel ∧ channel < MAX_EPOLL_fd then
    { s with client := Function.update s.client channel none }
  else s

/-- A channel is closed in both ways. -/
def closeBoth (s : ServerConHandler) (channel : ℤ) : ServerConHandler :=
  (s.closeChannel channel).closeClientChannel channel

/-- `GetLeastGameServer`: the first of those with the fewest players. -/
def getLeastGameServer (s : ServerConHandler) : Option SvrItem :=
  s.gsIDSvr.toList.foldl (fun gs e =>
    match gs with
    | none => some e.2
    | some g => if g.getPlayerNum > e.2.getPlayerNum then some e.2 else some g) none

def getClientChannelByCharID (s : ServerConHandler) (charid : Int64) : Option ℤ :=
  match s.idClient[charid]? with
  | some o => if (s.object o).channelID < 0 then none else some (s.object o).channelID
  | none => s.timeout.getClientChannelByCharID charid

def addClientTimeOut (s : ServerConHandler) (charid : UInt64) (now : ℕ) :
    Bool × ServerConHandler :=
  match s.getLeastGameServer with
  | some gaSvr =>
    let r := s.timeout.addTimeout charid.toInt64 (now + CONN_GATESERVER_TIMEOUT * 1000) 0
      (createGSID s.localID gaSvr.remoteID) gaSvr.channelID
    (r.1, { s with timeout := r.2 })
  | none => (false, s)

def updateClientInfo (s : ServerConHandler) (groups : GroupSession) (charid : Int64)
    (channelid : ℤ) (ip : List UInt8) : Bool × ServerConHandler :=
  let r := s.timeout.updatePlayerInfo groups charid channelid ip
  (r.1, { s with timeout := r.2 })

/-- The handler of `MSG_REQ_C2GT_PLAYERINFO`. -/
def playerInfo (s : ServerConHandler) (groups : GroupSession) (charid : Int64) (channel : ℤ)
    (ip : List UInt8) : ServerConHandler :=
  let s := { s with timeout := s.timeout.removeConnect channel }
  let r := s.updateClientInfo groups charid channel ip
  if r.1 then r.2 else r.2.closeBoth channel

def playerLogin (s : ServerConHandler) (charid : Int64) (now : ℕ) : Bool × ServerConHandler :=
  match s.timeout.playerLogin charid now with
  | none => (false, s)
  | some (client, timeout) =>
    let s := { s with timeout := timeout, beat := Function.update s.beat charid now }
    match s.idClient[charid]? with
    | some o =>
      let item := { s.object o with
        group := client.group, gsChannelID := client.gsChannelID, gsID := client.gsID }
      (true, { s with object := Function.update s.object o item })
    | none =>
      let item : ClientItem :=
        { channelID := client.channeid, group := client.group, gsChannelID := client.gsChannelID
          charID := client.charid, gsID := client.gsID, ip := client.ip }
      (true, { s with
        idClient := s.idClient.insert item.charID.toInt64 s.made
        object := Function.update s.object s.made item
        made := s.made + 1
        client := if 0 ≤ item.channelID ∧ item.channelID < MAX_EPOLL_fd then
            Function.update s.client item.channelID (some s.made)
          else s.client })

/-- `PlayerExit` for a channel. -/
def playerExit (s : ServerConHandler) (channel : ℤ) : ServerConHandler :=
  if channel < 0 ∨ channel ≥ MAX_EPOLL_fd then s
  else
    match s.timeout.getGSChannelAndCharIDByChannel channel with
    | some _ => s
    | none => s.closeChannel channel

/-- `ConnTimeout::DelTimeout`, with the channel that it closes. -/
def delTimeout (s : ServerConHandler) (charid : Int64) : ServerConHandler :=
  let r := s.timeout.delTimeout charid
  let s := { s with timeout := r.2 }
  match r.1 with
  | some channel => s.closeBoth channel
  | none => s

/-- A player leaves the map that a game server has it on. -/
def leaveMap (s : ServerConHandler) (serverid : UInt16) (mapid : Int64) : ServerConHandler :=
  match s.gsIDSvr[serverid]? with
  | some svr =>
    match svr.mapPlayer[mapid]? with
    | some n =>
      let svr := { svr with mapPlayer := svr.mapPlayer.insert mapid (if n - 1 < 0 then 0 else n - 1) }
      { s with gsIDSvr := s.gsIDSvr.insert serverid svr }
    | none => s
  | none => s

def playerExitEx (s : ServerConHandler) (charid : Int64) : ServerConHandler :=
  match s.idClient[charid]? with
  | some o =>
    (({ s with idClient := s.idClient.erase charid } : ServerConHandler).delTimeout charid).leaveMap
      (s.object o).gsID (s.object o).mapID
  | none => s.delTimeout charid

def clearPlayerFromServer (s : ServerConHandler) (gsID : UInt16) : ServerConHandler :=
  let r := s.timeout.removePlayerByGsID gsID
  let s := { s with
    idClient := eraseAll s.idClient (keysOf s.idClient fun o => (s.object o).gsID = gsID)
    timeout := r.2 }
  r.1.foldl closeBoth s

def synchHeartBeat (s : ServerConHandler) (channel : ℤ) (now : ℕ) : ServerConHandler :=
  if channel < 0 ∨ channel ≥ MAX_EPOLL_fd then s
  else
    match s.client channel with
    | some o =>
      let charid := (s.object o).charID.toInt64
      { s with
        timeout := s.timeout.synchHeartBeat charid now
        beat := Function.update s.beat charid now }
    | none => s

def onNewChannelBuild (s : ServerConHandler) (channel : ℤ) (localID : Int16) (localType : UInt8)
    (remoteID : Int16) (remoteType : UInt8) (ip : List UInt8) (now : ℕ) : ServerConHandler :=
  let s := if s.localID = -1 then { s with localID := localID, localType := localType } else s
  if remoteType = eClient then
    { s with timeout := s.timeout.clientConnect channel (now + 60000) }
  else if remoteType = eGameServer then
    match s.gsIDSvr[createGSID localID remoteID]? with
    | some _ => s.closeChannel channel
    | none =>
      let item : SvrItem :=
        { channelID := channel, ip := ip, remoteID := remoteID, remoteType := remoteType }
      { s with gsIDSvr := s.gsIDSvr.insert (createGSID localID remoteID) item }
  else if remoteType = eLoginServer then
    if s.loginServer ≠ -1 then s.closeChannel channel else { s with loginServer := channel }
  else if remoteType = eWorldServer then
    if s.worldServer ≠ -1 then s.closeChannel channel else { s with worldServer := channel }
  else s.closeChannel channel

def onChannelError (s : ServerConHandler) (channel : ℤ) (localID remoteID : Int16)
    (remoteType : UInt8) : ServerConHandler :=
  if remoteType = eClient then s.playerExit channel
  else if remoteType = eGameServer then
    let gsID := createGSID localID remoteID
    (({ s with gsIDSvr := s.gsIDSvr.erase gsID } : ServerConHandler).clearPlayerFromServer
      gsID).closeChannel channel
  else if remoteType = eLoginServer then { s.closeChannel channel with loginServer := -1 }
  else if remoteType = eWorldServer then { s.closeChannel channel with worldServer := -1 }
  else s.closeChannel channel

/-- The section of `svr` that looks for players that are gone. -/
def sweep (s : ServerConHandler) (now : ℕ) : Option ServerConHandler :=
  match s.svr with
  | .idle =>
    if s.timeout.timeout.isEmpty then some s
    else
      let r := s.timeout.sweep now
      some { s with timeout := r.2.2, svr := .exiting r.1 r.2.1 }
  | _ => none

/-- `svr` lets the next player exit. -/
def exit (s : ServerConHandler) : Option ServerConHandler :=
  match s.svr with
  | .idle => none
  | .exiting (channel :: delMap) lineDel =>
    some { s.playerExit channel with svr := .exiting delMap lineDel }
  | .exiting [] (charid :: lineDel) =>
    some { s.playerExitEx charid with svr := .exiting [] lineDel }
  | .exiting [] [] => some { s with svr := .idle }

def step (s : ServerConHandler) : Label → Option ServerConHandler
  | .onNewChannelBuild channel localID localType remoteID remoteType ip now =>
    some (s.onNewChannelBuild channel localID localType remoteID remoteType ip now)
  | .onChannelError channel localID remoteID remoteType =>
    some (s.onChannelError channel localID remoteID remoteType)
  | .addClientTimeOut charid now => some (s.addClientTimeOut charid now).2
  | .updateClientInfo groups charid channel ip =>
    some (s.updateClientInfo groups charid channel ip).2
  | .playerInfo groups charid channel ip => some (s.playerInfo groups charid channel ip)
  | .playerLogin charid now => some (s.playerLogin charid now).2
  | .playerExit channel => some (s.playerExit channel)
  | .playerExitEx charid => some (s.playerExitEx charid)
  | .clearPlayerFromServer gsID => some (s.clearPlayerFromServer gsID)
  | .closeClientChannel channel => some (s.closeClientChannel channel)
  | .synchHeartBeat channel now => some (s.synchHeartBeat channel now)
  | .checkConnect now =>
    let r := s.timeout.checkConnect now
    some { s with timeout := r.2, closed := s.closed ++ r.1 }
  | .sweep now => s.sweep now
  | .exit => s.exit

/-! ### What they leave -/

variable {s s' : ServerConHandler}

/-- The players that may connect, where `svr` is, and the beats are as they were. -/
structure Still (s s' : ServerConHandler) : Prop where
  timeout : s'.timeout.timeout = s.timeout.timeout
  svr : s'.svr = s.svr
  beat : s'.beat = s.beat

theorem Still.trans {s'' : ServerConHandler} (h : Still s s') (h' : Still s' s'') : Still s s'' :=
  ⟨h'.timeout.trans h.timeout, h'.svr.trans h.svr, h'.beat.trans h.beat⟩

theorem still_closeClientChannel (channel : ℤ) : Still s (s.closeClientChannel channel) := by
  unfold closeClientChannel
  split_ifs
  · exact ⟨rfl, rfl, rfl⟩
  · exact ⟨rfl, rfl, rfl⟩

theorem still_closeBoth (channel : ℤ) : Still s (s.closeBoth channel) := by
  have h := still_closeClientChannel (s := s.closeChannel channel) channel
  exact ⟨h.timeout, h.svr, h.beat⟩

theorem still_foldl (channels : List ℤ) : Still s (channels.foldl closeBoth s) := by
  induction channels generalizing s with
  | nil => exact ⟨rfl, rfl, rfl⟩
  | cons channel channels ih =>
    rw [List.foldl_cons]
    exact (still_closeBoth channel).trans ih

theorem still_playerLogin {charid : Int64} {now : ℕ} {client : ConnClient} {t : ConnTimeout}
    (h : s.timeout.playerLogin charid now = some (client, t)) :
    Still { s with timeout := t, beat := Function.update s.beat charid now }
      (s.playerLogin charid now).2 := by
  unfold playerLogin
  rw [h]
  dsimp only
  split
  · exact ⟨rfl, rfl, rfl⟩
  · exact ⟨rfl, rfl, rfl⟩

theorem still_leaveMap (serverid : UInt16) (mapid : Int64) :
    Still s (s.leaveMap serverid mapid) := by
  unfold leaveMap
  split
  · split
    · exact ⟨rfl, rfl, rfl⟩
    · exact ⟨rfl, rfl, rfl⟩
  · exact ⟨rfl, rfl, rfl⟩

theorem still_delTimeout (charid : Int64) :
    Still { s with timeout := (s.timeout.delTimeout charid).2 } (s.delTimeout charid) := by
  unfold delTimeout
  dsimp only
  split
  · exact still_closeBoth _
  · exact ⟨rfl, rfl, rfl⟩

theorem still_playerExitEx (charid : Int64) :
    Still { s with timeout := (s.timeout.delTimeout charid).2 } (s.playerExitEx charid) := by
  unfold playerExitEx
  split
  · rename_i o _
    have h := (still_delTimeout (s := { s with idClient := s.idClient.erase charid })
      charid).trans (still_leaveMap (s.object o).gsID (s.object o).mapID)
    exact ⟨h.timeout, h.svr, h.beat⟩
  · exact still_delTimeout charid

theorem still_clearPlayerFromServer (gsID : UInt16) :
    Still { s with timeout := (s.timeout.removePlayerByGsID gsID).2 }
      (s.clearPlayerFromServer gsID) := by
  unfold clearPlayerFromServer
  have h := still_foldl (s := { s with
    idClient := eraseAll s.idClient (keysOf s.idClient fun o => (s.object o).gsID = gsID)
    timeout := (s.timeout.removePlayerByGsID gsID).2 }) (s.timeout.removePlayerByGsID gsID).1
  exact ⟨h.timeout, h.svr, h.beat⟩

/-- And the players are as they were. -/
structure Aside (s s' : ServerConHandler) : Prop extends Still s s' where
  client : s'.client = s.client
  idClient : s'.idClient = s.idClient
  object : s'.object = s.object
  made : s'.made = s.made

theorem aside_self : Aside s s := ⟨⟨rfl, rfl, rfl⟩, rfl, rfl, rfl, rfl⟩

theorem Aside.trans {s'' : ServerConHandler} (h : Aside s s') (h' : Aside s' s'') : Aside s s'' :=
  ⟨h.toStill.trans h'.toStill, h'.client.trans h.client, h'.idClient.trans h.idClient,
    h'.object.trans h.object, h'.made.trans h.made⟩

theorem aside_playerExit (channel : ℤ) : Aside s (s.playerExit channel) := by
  unfold playerExit
  split_ifs
  · exact aside_self
  · split
    · exact aside_self
    · exact ⟨⟨rfl, rfl, rfl⟩, rfl, rfl, rfl, rfl⟩

theorem aside_onNewChannelBuild (channel : ℤ) (localID : Int16) (localType : UInt8)
    (remoteID : Int16) (remoteType : UInt8) (ip : List UInt8) (now : ℕ) :
    Aside s (s.onNewChannelBuild channel localID localType remoteID remoteType ip now) := by
  unfold onNewChannelBuild
  have h : Aside s (if s.localID = -1 then { s with localID := localID, localType := localType }
      else s) := by
    split_ifs
    · exact ⟨⟨rfl, rfl, rfl⟩, rfl, rfl, rfl, rfl⟩
    · exact aside_self
  dsimp only
  generalize (if s.localID = -1 then _ else s) = s₁ at h ⊢
  refine h.trans ?_
  split_ifs
  · exact ⟨⟨rfl, rfl, rfl⟩, rfl, rfl, rfl, rfl⟩
  · split
    · exact ⟨⟨rfl, rfl, rfl⟩, rfl, rfl, rfl, rfl⟩
    · exact ⟨⟨rfl, rfl, rfl⟩, rfl, rfl, rfl, rfl⟩
  all_goals exact ⟨⟨rfl, rfl, rfl⟩, rfl, rfl, rfl, rfl⟩

/-- A game server that is gone takes its players along. -/
theorem still_onChannelError (channel : ℤ) (localID remoteID : Int16) (remoteType : UInt8) :
    (remoteType = eGameServer ∧
      Still { s with
        timeout := (s.timeout.removePlayerByGsID (createGSID localID remoteID)).2 }
        (s.onChannelError channel localID remoteID remoteType)) ∨
    Still s (s.onChannelError channel localID remoteID remoteType) := by
  unfold onChannelError
  split_ifs with _ hg
  · exact Or.inr (aside_playerExit channel).toStill
  · have h := still_clearPlayerFromServer
      (s := { s with gsIDSvr := s.gsIDSvr.erase (createGSID localID remoteID) })
      (createGSID localID remoteID)
    exact Or.inl ⟨hg, ⟨h.timeout, h.svr, h.beat⟩⟩
  all_goals exact Or.inr ⟨rfl, rfl, rfl⟩

/-! ### What a step does to the players that may connect -/

/-- The character and the channel that a step binds. -/
def binding : Label → Option (Int64 × ℤ)
  | .updateClientInfo _ charid channel _ => some (charid, channel)
  | .playerInfo _ charid channel _ => some (charid, channel)
  | _ => none

/-- The game server whose players a step takes away. -/
def cleared : Label → Option UInt16
  | .clearPlayerFromServer gsID => some gsID
  | .onChannelError _ localID remoteID remoteType =>
    if remoteType = eGameServer then some (createGSID localID remoteID) else none
  | _ => none

/-- A step does one thing to the players that may connect, the beats and `svr`. -/
inductive Turn (s : ServerConHandler) : Label → ServerConHandler → Prop
  | still {a : Label} {s' : ServerConHandler} (hs : Still s s') : Turn s a s'
  | added {charid : UInt64} {now : ℕ} {s' : ServerConHandler} (time : ℕ) (mapid : Int64)
      (gsid : UInt16) (group : ℤ)
      (hs : Still { s with
        timeout := (s.timeout.addTimeout charid.toInt64 time mapid gsid group).2 } s') :
      Turn s (.addClientTimeOut charid now) s'
  | bound {a : Label} {charid : Int64} {channel : ℤ} {s' : ServerConHandler}
      (groups : GroupSession) (ip : List UInt8) (ha : binding a = some (charid, channel))
      (hs : Still { s with
        timeout := (s.timeout.updatePlayerInfo groups charid channel ip).2 } s') : Turn s a s'
  | login {charid : Int64} {now : ℕ} {client : ConnClient} {t : ConnTimeout}
      {s' : ServerConHandler} (hl : s.timeout.playerLogin charid now = some (client, t))
      (hs : Still { s with timeout := t, beat := Function.update s.beat charid now } s') :
      Turn s (.playerLogin charid now) s'
  | beat {channel : ℤ} {now : ℕ} {s' : ServerConHandler} (charid : Int64)
      (hs : Still { s with
        timeout := s.timeout.synchHeartBeat charid now
        beat := Function.update s.beat charid now } s') : Turn s (.synchHeartBeat channel now) s'
  | exited {charid : Int64} {s' : ServerConHandler}
      (hs : Still { s with timeout := (s.timeout.delTimeout charid).2 } s') :
      Turn s (.playerExitEx charid) s'
  | cleared {a : Label} {gsID : UInt16} {s' : ServerConHandler} (ha : cleared a = some gsID)
      (hs : Still { s with timeout := (s.timeout.removePlayerByGsID gsID).2 } s') : Turn s a s'
  | swept {now : ℕ} {s' : ServerConHandler}
      (hs : Still { s with
        timeout := (s.timeout.sweep now).2.2
        svr := .exiting (s.timeout.sweep now).1 (s.timeout.sweep now).2.1 } s') :
      Turn s (.sweep now) s'
  | closes {channel : ℤ} {delMap : List ℤ} {lineDel : List Int64} {s' : ServerConHandler}
      (hsvr : s.svr = .exiting (channel :: delMap) lineDel)
      (hs : Still { s with svr := .exiting delMap lineDel } s') : Turn s .exit s'
  | expires {charid : Int64} {lineDel : List Int64} {s' : ServerConHandler}
      (hsvr : s.svr = .exiting [] (charid :: lineDel))
      (hs : Still { s with
        timeout := (s.timeout.delTimeout charid).2, svr := .exiting [] lineDel } s') :
      Turn s .exit s'
  | rests {s' : ServerConHandler} (hsvr : s.svr = .exiting [] [])
      (hs : Still { s with svr := .idle } s') : Turn s .exit s'

theorem still_playerInfo (groups : GroupSession) (charid : Int64) (channel : ℤ) (ip : List UInt8) :
    Still { s with timeout := (s.timeout.updatePlayerInfo groups charid channel ip).2 }
      (s.playerInfo groups charid channel ip) := by
  have ht : ((s.timeout.removeConnect channel).updatePlayerInfo groups charid channel
      ip).2.timeout = (s.timeout.updatePlayerInfo groups charid channel ip).2.timeout := by
    unfold ConnTimeout.updatePlayerInfo ConnTimeout.removeConnect
    dsimp only
    split
    · rfl
    · rfl
  unfold playerInfo updateClientInfo
  dsimp only
  split_ifs
  · exact ⟨ht, rfl, rfl⟩
  · have hs := still_closeBoth (s := { s with
      timeout := ((s.timeout.removeConnect channel).updatePlayerInfo groups charid channel ip).2 })
      channel
    exact ⟨hs.timeout.trans ht, hs.svr, hs.beat⟩

theorem turn_sweep {now : ℕ} (h : s.sweep now = some s') : Turn s (.sweep now) s' := by
  unfold sweep at h
  split at h
  · split_ifs at h
    · cases h
      exact .still ⟨rfl, rfl, rfl⟩
    · cases h
      exact .swept ⟨rfl, rfl, rfl⟩
  · cases h

theorem turn_exit (h : s.exit = some s') : Turn s .exit s' := by
  unfold exit at h
  split at h
  · cases h
  · rename_i channel delMap lineDel hsvr
    cases h
    have hs := aside_playerExit (s := s) channel
    exact .closes hsvr ⟨hs.timeout, rfl, hs.beat⟩
  · rename_i charid lineDel hsvr
    cases h
    have hs := still_playerExitEx (s := s) charid
    exact .expires hsvr ⟨hs.timeout, rfl, hs.beat⟩
  · rename_i hsvr
    cases h
    exact .rests hsvr ⟨rfl, rfl, rfl⟩

theorem turn_step {a : Label} (h : s.step a = some s') : Turn s a s' := by
  cases a with
  | onNewChannelBuild => cases h; exact .still (aside_onNewChannelBuild ..).toStill
  | onChannelError channel localID remoteID remoteType =>
    cases h
    rcases still_onChannelError (s := s) channel localID remoteID remoteType with ⟨hg, hs⟩ | hs
    · exact .cleared (if_pos hg) hs
    · exact .still hs
  | addClientTimeOut charid now =>
    cases h
    unfold addClientTimeOut
    split
    · exact .added _ _ _ _ ⟨rfl, rfl, rfl⟩
    · exact .still ⟨rfl, rfl, rfl⟩
  | updateClientInfo groups charid channel ip =>
    cases h
    exact .bound groups ip rfl ⟨rfl, rfl, rfl⟩
  | playerInfo groups charid channel ip =>
    cases h
    exact .bound groups ip rfl (still_playerInfo groups charid channel ip)
  | playerLogin charid now =>
    cases h
    rcases hl : s.timeout.playerLogin charid now with _ | ⟨client, t⟩
    · unfold playerLogin
      rw [hl]
      exact .still ⟨rfl, rfl, rfl⟩
    · exact .login hl (still_playerLogin hl)
  | playerExit => cases h; exact .still (aside_playerExit _).toStill
  | playerExitEx charid => cases h; exact .exited (still_playerExitEx charid)
  | clearPlayerFromServer gsID => cases h; exact .cleared rfl (still_clearPlayerFromServer gsID)
  | closeClientChannel => cases h; exact .still (still_closeClientChannel _)
  | synchHeartBeat channel now =>
    cases h
    unfold synchHeartBeat
    split_ifs
    · exact .still ⟨rfl, rfl, rfl⟩
    · split
      · exact .beat _ ⟨rfl, rfl, rfl⟩
      · exact .still ⟨rfl, rfl, rfl⟩
  | checkConnect => cases h; exact .still ⟨rfl, rfl, rfl⟩
  | sweep => exact turn_sweep h
  | exit => exact turn_exit h

/-! ### Runs to begin with -/

/-- The game server 1 connects, and characters are announced to the gate. -/
def announced (charids : List UInt64) : List Label :=
  .onNewChannelBuild 3 4 1 1 eGameServer [] 0 :: charids.map fun charid =>
    .addClientTimeOut charid 0

/-- A client says on a channel who it is, and the game server lets it in. -/
def comes (charid : Int64) (channel : ℤ) (now : ℕ) : List Label :=
  [.playerInfo {} charid channel [], .playerLogin charid now]

end ServerConHandler

end ChatShow.GateServer.ServerManager
