import ChatShow.CommBase.NetWorkConfig
import ChatShow.Lib.Maps
import ChatShow.Lib.Runs
import Mathlib.Logic.Function.Basic

/-! # The peers of the game server

`ServerConHandler`: `m_allSvr` has the peers by their channels, but for the path server, which is
`m_pathSvr`; `m_gateSvr` and `m_dbSvr` have gates and DBServers by the id of the server, which a peer
tells in its answer to `MSG_REQ_…_PUSHSERVERID`. The items are objects with numbers, and a pointer in a
map of ids may be null. `closed` is the history of the channels for which `CloseChannel` was called.
What is sent is left out, and so is `m_worldSvr`, which nothing is put into. -/

namespace ChatShow.GameServer.ServerManager

open ChatShow.CommBase.NetWorkConfig ChatShow.Lib.Maps Std

structure SvrItem where
  channelID : ℤ := -1
  remoteID : Int16 := -1
  remoteType : UInt8 := 0
  ip : List UInt8 := []
  serverID : Int32 := -1

def SvrItem.clear (it : SvrItem) : SvrItem := { ip := it.ip }

/-- Servers by their ids. -/
abbrev IdMap := TreeMap Int32 (Option ℕ)

structure ServerConHandler where
  gateSvr : IdMap := ∅
  dbSvr : IdMap := ∅
  managerSvr : IdMap := ∅
  allSvr : TreeMap ℤ ℕ := ∅
  object : ℕ → SvrItem := fun _ => {}
  made : ℕ := 0
  pathSvr : Option SvrItem := none
  localID : Int16 := -1
  localType : UInt8 := 0
  closed : List ℤ := []

namespace ServerConHandler

/-- `Message_Facade::CloseChannel`. -/
def closeChannel (s : ServerConHandler) (channel : ℤ) : ServerConHandler :=
  { s with closed := s.closed ++ [channel] }

/-- The item of a peer that has come. -/
def newItem (channel : ℤ) (remoteID : Int16) (remoteType : UInt8) (ip : List UInt8) : SvrItem :=
  { channelID := channel, ip := ip, remoteID := remoteID, remoteType := remoteType }

/-- The branches of `on_new_channel_build` that put a peer into `m_allSvr`. -/
def register (s : ServerConHandler) (channel : ℤ) (remoteID : Int16) (remoteType : UInt8)
    (ip : List UInt8) : ServerConHandler :=
  match s.allSvr[channel]? with
  | some _ => s.closeChannel channel
  | none =>
    { s with
      allSvr := s.allSvr.insert channel s.made
      object := Function.update s.object s.made (newItem channel remoteID remoteType ip)
      made := s.made + 1 }

def onNewChannelBuild (s : ServerConHandler) (channel : ℤ) (localID : Int16) (localType : UInt8)
    (remoteID : Int16) (remoteType : UInt8) (ip : List UInt8) : ServerConHandler :=
  let s := if s.localID = -1 then { s with localID := localID, localType := localType } else s
  if remoteType = eGateServer then s.register channel remoteID remoteType ip
  else if remoteType = eDBServer then s.register channel remoteID remoteType ip
  else if remoteType = ePathServer then
    match s.pathSvr with
    | some _ => s.closeChannel channel
    | none => { s with pathSvr := some (newItem channel remoteID remoteType ip) }
  else if remoteType = eWorldServer then s.register channel remoteID remoteType ip
  else if remoteType = eManagerServer then s.register channel remoteID remoteType ip
  else s.closeChannel channel

/-- The id of a channel that is in `m_allSvr`. -/
def serverID (s : ServerConHandler) (channel : ℤ) : Option Int32 :=
  s.allSvr[channel]?.map fun o => (s.object o).serverID

/-- An id is taken out of a map, where there is one. -/
def eraseID (m : IdMap) : Option Int32 → IdMap
  | some id => m.erase id
  | none => m

/-- `on_channel_error`. -/
def onChannelError (s : ServerConHandler) (channel : ℤ) (remoteType : UInt8) :
    Option ServerConHandler :=
  let id := s.serverID channel
  if remoteType = eGateServer then
    let s := { s with allSvr := s.allSvr.erase channel, gateSvr := eraseID s.gateSvr id }
    some (s.closeChannel channel)
  else if remoteType = eDBServer then
    let s := { s with allSvr := s.allSvr.erase channel, dbSvr := eraseID s.dbSvr id }
    some (s.closeChannel channel)
  else if remoteType = ePathServer then
    -- the item is cleared, and the pointer to it stays
    s.pathSvr.map fun it => { s with pathSvr := some it.clear }.closeChannel channel
  else if remoteType = eManagerServer then
    let s := { s with allSvr := s.allSvr.erase channel, managerSvr := eraseID s.managerSvr id }
    some (s.closeChannel channel)
  else some (s.closeChannel channel)

/-- The item of the channel that an answer came on, with the id that it tells. -/
def pushed (s : ServerConHandler) (channel : ℤ) (ret : Int64) : Option ℕ × ServerConHandler :=
  match s.allSvr[channel]? with
  | some o =>
    (some o, { s with
      object := Function.update s.object o { s.object o with serverID := ret.toInt32 } })
  | none => (none, s)

/-- The handler of the answer to `MSG_REQ_GT2GM_PUSHSERVERID`. -/
def ackGate (s : ServerConHandler) (channel : ℤ) (timeOut : Bool) (ret : Int64) :
    ServerConHandler :=
  if timeOut then s
  else
    let r := s.pushed channel ret
    { r.2 with gateSvr := r.2.gateSvr.insert ret.toInt32 r.1 }

/-- The handler of the answer to `MSG_REQ_DB2GM_PUSHSERVERID`. -/
def ackDB (s : ServerConHandler) (channel : ℤ) (timeOut : Bool) (ret : Int64) : ServerConHandler :=
  if timeOut then s
  else
    let r := s.pushed channel ret
    { r.2 with dbSvr := r.2.dbSvr.insert ret.toInt32 r.1 }

end ServerConHandler

end ChatShow.GameServer.ServerManager
