import ChatShow.CommBase.NetWorkConfig
import ChatShow.Lib.Maps

/-! # Groups of connections

`GroupSession`: the connections of one server to another form a group. `m_group` has the id of the
group for a key that is packed from the type and the id of the server, and the id of a group is its
first channel; `m_groupChannel` has the channels of a group. -/

namespace ChatShow.CommBase.Groups

open ChatShow.Lib.Maps Std

/-- `GroupSessionInfo`, without `slot`, which nothing reads. -/
structure GroupSessionInfo where
  channel : List ℤ := []
  count : UInt8 := 0
deriving DecidableEq

namespace GroupSessionInfo

/-- `GetChannel`: the key is made a `size_t` for the remainder. -/
def getChannel (info : GroupSessionInfo) (key : Int32) : Option ℤ :=
  info.channel[(key.toInt % 18446744073709551616).toNat % info.channel.length]?

/-- `DeleteChannel`: whether there are channels left. -/
def deleteChannel (info : GroupSessionInfo) (channelID : ℤ) : Bool × GroupSessionInfo :=
  (!(info.channel.erase channelID).isEmpty, { info with channel := info.channel.erase channelID })

theorem getChannel_mem {info : GroupSessionInfo} (key : Int32) (h : info.channel ≠ []) :
    ∃ channel, info.getChannel key = some channel ∧ channel ∈ info.channel := by
  have hlt : (key.toInt % 18446744073709551616).toNat % info.channel.length <
      info.channel.length := Nat.mod_lt _ (List.length_pos_iff.mpr h)
  exact ⟨_, List.getElem?_eq_getElem hlt, List.getElem_mem hlt⟩

end GroupSessionInfo

structure GroupSession where
  group : TreeMap UInt16 ℤ := ∅
  groupChannel : TreeMap ℤ GroupSessionInfo := ∅

/-- The key of `m_group`. -/
def groupKey (type : UInt8) (id : Int16) : UInt16 := (type.toUInt16 <<< 8) ||| id.toUInt16

namespace GroupSession

/-- `m_groupChannel[group]`, which makes an entry where there is none. -/
def entry (g : GroupSession) (group : ℤ) : GroupSessionInfo × GroupSession :=
  match g.groupChannel[group]? with
  | some info => (info, g)
  | none => ({}, { g with groupChannel := g.groupChannel.insert group {} })

/-- `AddGroupSession`: what it returns, `isSuccess`, and the groups after it. -/
def addGroupSession (g : GroupSession) (type : UInt8) (id : Int16) (channel : ℤ) (count : UInt8) :
    ℤ × Bool × GroupSession :=
  match g.group[groupKey type id]? with
  | none =>
    (channel, count.toNat = 1,
      { group := g.group.insert (groupKey type id) channel
        groupChannel := g.groupChannel.insert channel { channel := [channel], count := count } })
  | some group =>
    let (info, g) := g.entry group
    if info.channel.length ≥ info.count.toNat then (-2, false, g)
    else
      (group, info.channel.length = info.count.toNat - 1,
        { g with groupChannel :=
          g.groupChannel.insert group { info with channel := info.channel ++ [channel] } })

/-- The first key in `m_group` with the value `group` goes. -/
def eraseGroup (m : TreeMap UInt16 ℤ) (group : ℤ) : TreeMap UInt16 ℤ :=
  match m.toList.find? fun e => e.2 = group with
  | none => m
  | some e => m.erase e.1

def deleteGroupSession (g : GroupSession) (group channel : ℤ) : GroupSession :=
  match g.groupChannel[group]? with
  | none => g
  | some info =>
    let r := info.deleteChannel channel
    { group := if r.1 then g.group else eraseGroup g.group group
      groupChannel := g.groupChannel.insert group r.2 }

/-- `BindSession`: the channel of the group for a key, or the id of the group where there is no such
group or it has no channel. -/
def bindSession (g : GroupSession) (key group : ℤ) : ℤ :=
  if group < 0 ∨ key < 0 then group
  else
    match g.groupChannel[group]? with
    | none => group
    | some info => (info.getChannel (Int32.ofInt key)).getD group

/-! ### What they do to the maps -/

theorem get_eraseGroup {m : TreeMap UInt16 ℤ} {group : ℤ} {k : UInt16} (hk : m[k]? = some group)
    (hinj : ∀ (k k' : UInt16) (g : ℤ), m[k]? = some g → m[k']? = some g → k = k') (k' : UInt16) :
    (eraseGroup m group)[k']? = if k = k' then none else m[k']? := by
  rcases hf : m.toList.find? (fun e => e.2 = group) with _ | e
  · have hne := List.find?_eq_none.mp hf _ (TreeMap.mem_toList_iff_getElem?_eq_some.mpr hk)
    exact absurd (decide_eq_true rfl) hne
  · have heg : e.2 = group := by simpa using List.find?_some hf
    have hget := TreeMap.mem_toList_iff_getElem?_eq_some.mp (List.mem_of_find?_eq_some hf)
    have hek : e.1 = k := hinj _ _ _ hget (heg ▸ hk)
    rw [eraseGroup, hf, ← hek]
    exact get_erase ..

theorem bindSession_of_some {g : GroupSession} {key group : ℤ} {info : GroupSessionInfo}
    (hg : 0 ≤ group) (hkey : 0 ≤ key) (hi : g.groupChannel[group]? = some info)
    (hc : info.channel ≠ []) : g.bindSession key group ∈ info.channel := by
  obtain ⟨channel, hch, hmem⟩ := GroupSessionInfo.getChannel_mem (Int32.ofInt key) hc
  have hneg : ¬ (group < 0 ∨ key < 0) := by omega
  rw [bindSession, if_neg hneg, hi]
  dsimp only
  rw [hch]
  exact hmem

end GroupSession

end ChatShow.CommBase.Groups
