import ChatShow.CommBase.Groups
import Mathlib.Data.Int.Basic

/-! # The players that may connect

`ConnTimeout`: an entry of `m_timeout` is a player that the login server has announced, with the
client channel it plays on once it has said so, and the time at which it is taken for gone unless
there is a heart beat. `m_connectList` has the client channels that nobody has come on yet. What the
functions do to channels they return: `Message_Facade::CloseChannel` is called for them, and where it
says so `ServerConHandler::closeClientChannel` as well. Clocks do not wrap, and pointers in the map
are not null. -/

namespace ChatShow.GateServer.Timeouts

open ChatShow.CommBase.Groups ChatShow.Lib.Maps Std

/-- `CLIENT_HEART_BEAT`, in milliseconds. -/
def CLIENT_HEART_BEAT : ℕ := 200 * 1000
/-- `CONN_GATESERVER_TIMEOUT`, in seconds. -/
def CONN_GATESERVER_TIMEOUT : ℕ := 15

structure ConnClient where
  time : ℕ := 0
  charid : UInt64 := 0
  mapID : Int64 := 0
  gsID : UInt16 := 0
  channeid : ℤ := -1
  group : ℤ := -1
  gsChannelID : ℤ := -1
  ip : List UInt8 := []
  isDel : Bool := false
deriving DecidableEq

structure ConnTimeout where
  timeout : TreeMap Int64 ConnClient := ∅
  connectList : TreeMap ℤ ℕ := ∅

namespace ConnTimeout

def getClientChannelByCharID (t : ConnTimeout) (charid : Int64) : Option ℤ :=
  t.timeout[charid]?.map (·.channeid)

/-- `GetGSChannelAndCharIDByChannel`: the first entry with the channel. -/
def getGSChannelAndCharIDByChannel (t : ConnTimeout) (channel : ℤ) : Option (ℤ × Int64) :=
  (t.timeout.toList.find? fun e => e.2.channeid = channel).map fun e =>
    (e.2.gsChannelID, e.2.charid.toInt64)

/-- `UpdatePlayerInfo`, where the groups of connections are `groups`. -/
def updatePlayerInfo (t : ConnTimeout) (groups : GroupSession) (charid : Int64) (channelid : ℤ)
    (ip : List UInt8) : Bool × ConnTimeout :=
  match t.timeout[charid]? with
  | some it =>
    let it := { it with
      channeid := channelid, ip := ip, gsChannelID := groups.bindSession channelid it.group }
    (true, { t with timeout := t.timeout.insert charid it })
  | none => (false, t)

def addTimeout (t : ConnTimeout) (charid : Int64) (time : ℕ) (mapid : Int64) (gsid : UInt16)
    (group : ℤ) : Bool × ConnTimeout :=
  if charid < 0 then (false, t)
  else
    match t.timeout[charid]? with
    | none =>
      let client : ConnClient :=
        { gsID := gsid, mapID := mapid, time := time, charid := charid.toUInt64, group := group
          gsChannelID := group }
      (true, { t with timeout := t.timeout.insert charid client })
    | some _ => (false, t)

/-- `removePlayerByGsID`: the channels that are closed, in both ways. -/
def removePlayerByGsID (t : ConnTimeout) (gsId : UInt16) : List ℤ × ConnTimeout :=
  (((t.timeout.toList.filter fun e => e.2.gsID = gsId).map fun e => e.2.channeid).filter (0 ≤ ·),
    { t with timeout := t.timeout.filterMap fun _ it => if it.gsID = gsId then none else some it })

def synchHeartBeat (t : ConnTimeout) (charid : Int64) (now : ℕ) : ConnTimeout :=
  match t.timeout[charid]? with
  | some it =>
    if it.isDel then t
    else { t with timeout := t.timeout.insert charid { it with time := now + CLIENT_HEART_BEAT } }
  | none => t

/-- `PlayerLogin`: the entry. -/
def playerLogin (t : ConnTimeout) (charid : Int64) (now : ℕ) : Option (ConnClient × ConnTimeout) :=
  match t.timeout[charid]? with
  | some it =>
    let client := { it with time := now + CLIENT_HEART_BEAT }
    some (client, { t with timeout := t.timeout.insert charid client })
  | none => none

/-- `DelTimeout`: the channel that is closed, in both ways. -/
def delTimeout (t : ConnTimeout) (charid : Int64) : Option ℤ × ConnTimeout :=
  match t.timeout[charid]? with
  | some it =>
    (if it.channeid ≥ 0 then some it.channeid else none,
      { t with timeout := t.timeout.erase charid })
  | none => (none, t)

def clientConnect (t : ConnTimeout) (channel : ℤ) (time : ℕ) : ConnTimeout :=
  { t with connectList := t.connectList.insert channel time }

def removeConnect (t : ConnTimeout) (channel : ℤ) : ConnTimeout :=
  { t with connectList := t.connectList.erase channel }

/-- `checkConnect`: the channels that are closed. -/
def checkConnect (t : ConnTimeout) (curTime : ℕ) : List ℤ × ConnTimeout :=
  (keysOf t.connectList fun time => time ≤ curTime,
    { t with connectList := eraseAll t.connectList (keysOf t.connectList fun time =>
      time ≤ curTime) })

/-- Whether `svr` takes a player that is not marked for gone. -/
def expired (now : ℕ) (it : ConnClient) : Bool := it.time ≤ now ∧ ¬ it.isDel ∧ it.gsID > 0

/-- What `svr` makes of an entry. -/
def sweepEntry (now : ℕ) (it : ConnClient) : Option ConnClient :=
  if expired now it then
    if it.channeid ≥ 0 then some { it with isDel := true, time := now + 15000 } else none
  else some it

/-- The section of `svr` that looks for players that are gone: `delMap` and `lineDel`. -/
def sweep (t : ConnTimeout) (now : ℕ) : List ℤ × List Int64 × ConnTimeout :=
  (((t.timeout.toList.filter fun e => expired now e.2).map fun e => e.2.channeid).filter (0 ≤ ·),
    (t.timeout.toList.filter fun e => e.2.time ≤ now ∧ e.2.isDel).map fun e => e.2.charid.toInt64,
    { t with timeout := t.timeout.filterMap fun _ it => sweepEntry now it })

/-! ### What they do to an entry -/

variable {t : ConnTimeout}

theorem get_updatePlayerInfo (groups : GroupSession) (charid : Int64) (channelid : ℤ)
    (ip : List UInt8) (a : Int64) :
    (t.updatePlayerInfo groups charid channelid ip).2.timeout[a]? =
      if charid = a then t.timeout[charid]?.map fun it => { it with
        channeid := channelid, ip := ip, gsChannelID := groups.bindSession channelid it.group }
      else t.timeout[a]? := by
  unfold updatePlayerInfo
  rcases h : t.timeout[charid]? with _ | it
  · split_ifs with he
    · rw [← he]
      exact h
    · rfl
  · exact get_insert ..

/-- Who has an entry keeps it. -/
theorem get_addTimeout_of_some (charid : Int64) (time : ℕ) (mapid : Int64) (gsid : UInt16)
    (group : ℤ) {a : Int64} {it : ConnClient} (h : t.timeout[a]? = some it) :
    (t.addTimeout charid time mapid gsid group).2.timeout[a]? = some it := by
  unfold addTimeout
  split_ifs
  · exact h
  · rcases hc : t.timeout[charid]? with _ | it'
    · rw [← h]
      refine get_insert_of_ne _ _ fun he => ?_
      rw [← he, hc] at h
      cases h
    · exact h

theorem get_removePlayerByGsID (gsId : UInt16) (a : Int64) :
    (t.removePlayerByGsID gsId).2.timeout[a]? =
      t.timeout[a]?.bind fun it => if it.gsID = gsId then none else some it :=
  get_filterMap ..

theorem get_synchHeartBeat (charid : Int64) (now : ℕ) (a : Int64) :
    (t.synchHeartBeat charid now).timeout[a]? =
      if charid = a then t.timeout[charid]?.map fun it =>
        if it.isDel then it else { it with time := now + CLIENT_HEART_BEAT }
      else t.timeout[a]? := by
  unfold synchHeartBeat
  rcases h : t.timeout[charid]? with _ | it
  · split_ifs with he
    · rw [← he]
      exact h
    · rfl
  · dsimp only
    by_cases hd : it.isDel = true
    · rw [if_pos hd, Option.map_some, if_pos hd]
      split_ifs with he
      · rw [← he]
        exact h
      · rfl
    · rw [if_neg hd, Option.map_some, if_neg hd]
      exact get_insert ..

theorem playerLogin_client {charid : Int64} {now : ℕ} {client : ConnClient} {t' : ConnTimeout}
    (h : t.playerLogin charid now = some (client, t')) :
    ∃ it, t.timeout[charid]? = some it ∧ { it with time := now + CLIENT_HEART_BEAT } = client := by
  unfold playerLogin at h
  rcases ht : t.timeout[charid]? with _ | it
  · rw [ht] at h
    cases h
  · rw [ht] at h
    cases h
    exact ⟨it, rfl, rfl⟩

theorem get_playerLogin {charid : Int64} {now : ℕ} {client : ConnClient} {t' : ConnTimeout}
    (h : t.playerLogin charid now = some (client, t')) (a : Int64) :
    t'.timeout[a]? =
      if charid = a then t.timeout[charid]?.map fun it => { it with time := now + CLIENT_HEART_BEAT }
      else t.timeout[a]? := by
  unfold playerLogin at h
  rcases ht : t.timeout[charid]? with _ | it
  · rw [ht] at h
    cases h
  · rw [ht] at h
    cases h
    exact get_insert ..

theorem get_delTimeout (charid a : Int64) :
    (t.delTimeout charid).2.timeout[a]? = if charid = a then none else t.timeout[a]? := by
  unfold delTimeout
  rcases h : t.timeout[charid]? with _ | it
  · split_ifs with he
    · rw [← he]
      exact h
    · rfl
  · exact get_erase ..

theorem get_sweep (now : ℕ) (a : Int64) :
    (t.sweep now).2.2.timeout[a]? = t.timeout[a]?.bind (sweepEntry now) :=
  get_filterMap ..

/-! ### The character of an entry -/

/-- An entry is that of its character. -/
def Keyed (t : ConnTimeout) : Prop :=
  ∀ (a : Int64) it, t.timeout[a]? = some it → it.charid.toInt64 = a

/-- Where the entries are of characters that had one before, or of a new one. -/
theorem Keyed.from {t' : ConnTimeout} (h : Keyed t) (hfrom : ∀ (a : Int64) it,
    t'.timeout[a]? = some it → ∃ it', t.timeout[a]? = some it' ∧ it'.charid = it.charid) :
    Keyed t' := by
  intro a it hit
  obtain ⟨it', hit', hc⟩ := hfrom a it hit
  rw [← hc]
  exact h a it' hit'

theorem keyed_addTimeout (h : Keyed t) (charid : Int64) (time : ℕ) (mapid : Int64) (gsid : UInt16)
    (group : ℤ) : Keyed (t.addTimeout charid time mapid gsid group).2 := by
  unfold addTimeout
  split_ifs
  · exact h
  · split
    · intro a it hit
      dsimp only at hit
      rw [get_insert] at hit
      split_ifs at hit with he
      · cases hit
        exact (Int64.toInt64_toUInt64 _).trans he
      · exact h a it hit
    · exact h

theorem keyed_updatePlayerInfo (h : Keyed t) (groups : GroupSession) (charid : Int64)
    (channelid : ℤ) (ip : List UInt8) :
    Keyed (t.updatePlayerInfo groups charid channelid ip).2 := by
  refine h.from fun a it hit => ?_
  rw [get_updatePlayerInfo] at hit
  split_ifs at hit with he
  · obtain ⟨it', hit', rfl⟩ := Option.map_eq_some_iff.mp hit
    exact ⟨it', he ▸ hit', rfl⟩
  · exact ⟨it, hit, rfl⟩

theorem keyed_removePlayerByGsID (h : Keyed t) (gsId : UInt16) :
    Keyed (t.removePlayerByGsID gsId).2 := by
  refine h.from fun a it hit => ?_
  rw [get_removePlayerByGsID] at hit
  obtain ⟨it', hit', he⟩ := Option.bind_eq_some_iff.mp hit
  split_ifs at he
  cases he
  exact ⟨it, hit', rfl⟩

theorem keyed_synchHeartBeat (h : Keyed t) (charid : Int64) (now : ℕ) :
    Keyed (t.synchHeartBeat charid now) := by
  refine h.from fun a it hit => ?_
  rw [get_synchHeartBeat] at hit
  split_ifs at hit with he
  · obtain ⟨it', hit', rfl⟩ := Option.map_eq_some_iff.mp hit
    refine ⟨it', he ▸ hit', ?_⟩
    split_ifs
    · rfl
    · rfl
  · exact ⟨it, hit, rfl⟩

theorem keyed_playerLogin {charid : Int64} {now : ℕ} {client : ConnClient} {t' : ConnTimeout}
    (h : Keyed t) (hl : t.playerLogin charid now = some (client, t')) : Keyed t' := by
  refine h.from fun a it hit => ?_
  rw [get_playerLogin hl] at hit
  split_ifs at hit with he
  · obtain ⟨it', hit', rfl⟩ := Option.map_eq_some_iff.mp hit
    exact ⟨it', he ▸ hit', rfl⟩
  · exact ⟨it, hit, rfl⟩

theorem keyed_delTimeout (h : Keyed t) (charid : Int64) : Keyed (t.delTimeout charid).2 := by
  refine h.from fun a it hit => ?_
  rw [get_delTimeout] at hit
  split_ifs at hit
  exact ⟨it, hit, rfl⟩

theorem keyed_sweep (h : Keyed t) (now : ℕ) : Keyed (t.sweep now).2.2 := by
  refine h.from fun a it hit => ?_
  rw [get_sweep] at hit
  obtain ⟨it', hit', he⟩ := Option.bind_eq_some_iff.mp hit
  unfold sweepEntry at he
  split_ifs at he
  · cases he
    exact ⟨it', hit', rfl⟩
  · cases he
    exact ⟨it, hit', rfl⟩

end ConnTimeout

end ChatShow.GateServer.Timeouts
