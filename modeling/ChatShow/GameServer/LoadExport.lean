import ChatShow.GameServer.DirtyData
import Mathlib.Data.List.TakeWhile

/-! # What is loaded into a player, and what is exported

`SetBaseInfo` exports what `InitBaseInfo` has loaded but for the month, which is loaded into the money
(`initBaseInfo_iff`). `SetFriendsInfo` sorts the friends by their type into two vectors, and
`GetFriendsInfo` exports the one behind the other: nothing is lost or doubled, as long as there are no
more friends than fit, and another round changes nothing (`friends_exported`). -/

namespace ChatShow.GameServer.LoadExport

open ChatShow.Dependence.CharDefine ChatShow.Dependence.CharDefine.ECharBaseStruct
open ChatShow.GameServer.DirtyData ChatShow.GameServer.Players ChatShow.GameServer.SavePlayer

/-! ### The base data -/

theorem initBaseInfo_setBaseInfo (p : OnlinePlayer) :
    p.initBaseInfo p.toPlayer.setBaseInfo = { p with
      money := p.month.toUInt32
      initpartData := Function.update p.initpartData eBaseInfo true } := rfl

/-- **What is loaded is exported as it was, and what is exported is loaded as it was, just where the money
is the month**; for a player that has just been made the month is 0. -/
theorem initBaseInfo_iff (info : BaseInfo) (p : OnlinePlayer) :
    ((p.initBaseInfo info).toPlayer.setBaseInfo = info ↔
      info.money = info.month ∧ info.month = p.month) ∧
    (p.initBaseInfo p.toPlayer.setBaseInfo =
        { p with initpartData := Function.update p.initpartData eBaseInfo true } ↔
      p.money = p.month.toUInt32) := by
  refine ⟨?_, ?_⟩
  · rw [initBaseInfo_base, loaded_eq_iff]
  · rw [initBaseInfo_setBaseInfo]
    constructor
    · intro h
      exact (congrArg (fun p => p.toPlayer.money) h).symm
    · intro h
      rw [← h]

/-- A new player, with 50 coins and born in July, has 7 coins and no month. -/
theorem initBaseInfo_crossed :
    ((OnlinePlayer.alloc {}).initBaseInfo { money := 50, month := 7 }).toPlayer.setBaseInfo =
      { money := 7, month := 0 } ∧
    ((OnlinePlayer.alloc {}).initBaseInfo { money := 50, month := 7 }).toPlayer.setBaseInfo ≠
      { money := 50, month := 7 } := by
  decide

/-! ### The friends -/

/-- What a turn of `SetFriendsInfo` makes of an entry; the sex is a `BYTE`. -/
def friendStruct (friendInfo : FriendInfo) : FriendStruct where
  charid := getPlayerCharid friendInfo.charid
  friendname := friendInfo.friendname
  sex := (friendInfo.sex.getD 0).toUInt32.toUInt8

def addFriend (f : FriendMgr) (friendInfo : FriendInfo) : FriendMgr :=
  if friendInfo.type = eGoodsFriends then
    if Int16.ofNat f.goodFriends.length ≥ 100 then f
    else { f with goodFriends := f.goodFriends ++ [friendStruct friendInfo] }
  else if friendInfo.type = eBlackFriends then
    { f with blackFriends := f.blackFriends ++ [friendStruct friendInfo] }
  else f

/-- `SetFriendsInfo`, with the flag of the player that it sets. -/
def setFriendsInfo (p : Player) (friendInfoList : FriendInfoList) : Player :=
  { p with
    friendMgr := { friendInfoList.friends.foldl addFriend p.friendMgr with
      receiveCounts := (friendInfoList.receiveCounts.getD 0).toInt16
      sendCounts := (friendInfoList.sendCounts.getD 0).toInt16 }
    dirtyData := Function.update p.dirtyData eFriendInfo true }

/-- The entries of a type, in their order. -/
def ofType (type : Int32) (l : List FriendInfo) : List FriendInfo := l.filter (·.type = type)

/-- What is kept of an entry: the sex as a byte, and no point. -/
def kept (friendInfo : FriendInfo) : FriendInfo where
  type := friendInfo.type
  charid := getPlayerCharid friendInfo.charid
  friendname := friendInfo.friendname
  sex := some (Int32.ofNat (friendInfo.sex.getD 0).toUInt32.toUInt8.toNat)

/-- The lists of friends that the server makes: each entry is a friend or in the black list, no name has
a NUL, and the friends fit. -/
structure Valid (l : List FriendInfo) : Prop where
  types : ∀ e ∈ l, e.type = eGoodsFriends ∨ e.type = eBlackFriends
  names : ∀ e ∈ l, 0 ∉ e.friendname
  fits : (ofType eGoodsFriends l).length ≤ 100

theorem kept_type (e : FriendInfo) : (kept e).type = e.type := by unfold kept; rfl

theorem kept_friendname (e : FriendInfo) : (kept e).friendname = e.friendname := by unfold kept; rfl

variable {l : List FriendInfo} {f : FriendMgr} {e : FriendInfo}

theorem full_iff {n : ℕ} (h : n ≤ 100) : Int16.ofNat n ≥ 100 ↔ n = 100 := by
  have h100 : (100 : Int16).toInt = 100 := by decide
  rw [ge_iff_le, Int16.le_iff_toInt_le, Int16.toInt_ofNat_of_lt (by omega), h100]
  omega

/-- The loop sorts the entries by their types. -/
theorem foldl_addFriend (hl : f.goodFriends.length + (ofType eGoodsFriends l).length ≤ 100) :
    l.foldl addFriend f = { f with
      goodFriends := f.goodFriends ++ (ofType eGoodsFriends l).map friendStruct
      blackFriends := f.blackFriends ++ (ofType eBlackFriends l).map friendStruct } := by
  induction l generalizing f with
  | nil => simp [ofType]
  | cons e l ih =>
    rw [List.foldl_cons]
    by_cases hg : e.type = eGoodsFriends
    · have hof : ofType eGoodsFriends (e :: l) = e :: ofType eGoodsFriends l :=
        List.filter_cons_of_pos (decide_eq_true hg)
      have hob : ofType eBlackFriends (e :: l) = ofType eBlackFriends l :=
        List.filter_cons_of_neg (by rw [hg]; decide)
      rw [hof, List.length_cons] at hl
      have hadd : addFriend f e = { f with goodFriends := f.goodFriends ++ [friendStruct e] } := by
        unfold addFriend
        rw [if_pos hg, if_neg]
        rw [full_iff (by omega)]
        omega
      rw [hadd, ih (by rw [List.length_append, List.length_singleton]; omega), hof, hob,
        List.map_cons, List.append_assoc, List.singleton_append]
    · have hog : ofType eGoodsFriends (e :: l) = ofType eGoodsFriends l :=
        List.filter_cons_of_neg (by rwa [decide_eq_true_iff])
      rw [hog] at hl ⊢
      by_cases hb : e.type = eBlackFriends
      · have hob : ofType eBlackFriends (e :: l) = e :: ofType eBlackFriends l :=
          List.filter_cons_of_pos (decide_eq_true hb)
        have hadd : addFriend f e = { f with blackFriends := f.blackFriends ++ [friendStruct e] } := by
          unfold addFriend
          rw [if_neg hg, if_pos hb]
        rw [hadd, @ih { f with blackFriends := f.blackFriends ++ [friendStruct e] } hl, hob, List.map_cons, List.append_assoc, List.singleton_append]
      · have hob : ofType eBlackFriends (e :: l) = ofType eBlackFriends l :=
          List.filter_cons_of_neg (by rwa [decide_eq_true_iff])
        have hadd : addFriend f e = f := by
          unfold addFriend
          rw [if_neg hg, if_neg hb]
        rw [hadd, ih hl, hob]

theorem friendInfo_friendStruct {type : Int32} (ht : e.type = type) (hn : 0 ∉ e.friendname) :
    (friendStruct e).friendInfo type = kept e := by
  have hname : cStr e.friendname = e.friendname :=
    List.takeWhile_eq_self_iff.mpr fun x hx => decide_eq_true fun h0 => hn (h0 ▸ hx)
  unfold FriendStruct.friendInfo friendStruct kept
  dsimp only
  rw [getPlayerCharid_getPlayerCharid, hname, ht]

theorem byte_ofNat (b : UInt8) : (Int32.ofNat b.toNat).toUInt32.toUInt8 = b := by
  have h : (Int32.ofNat b.toNat).toUInt32 = UInt32.ofNat b.toNat := rfl
  rw [h, UInt32.toUInt8_ofNat', UInt8.ofNat_toNat]

/-- What is kept of an entry is kept of it again. -/
theorem kept_kept (e : FriendInfo) : kept (kept e) = kept e := by
  unfold kept
  dsimp only
  rw [getPlayerCharid_getPlayerCharid, Option.getD_some, byte_ofNat]

theorem ofType_map_kept (type : Int32) (l : List FriendInfo) :
    ofType type (l.map kept) = (ofType type l).map kept := by
  unfold ofType
  rw [List.filter_map]
  refine congrArg (List.map kept) (List.filter_congr fun e _ => ?_)
  rw [Function.comp_apply, kept_type]

theorem ofType_append (type : Int32) (l l' : List FriendInfo) :
    ofType type (l ++ l') = ofType type l ++ ofType type l' := List.filter_append l l'

theorem ofType_ofType (type : Int32) (l : List FriendInfo) :
    ofType type (ofType type l) = ofType type l := by
  unfold ofType
  rw [List.filter_filter]
  simp only [Bool.and_self]

theorem ofType_ofType_of_ne {type type' : Int32} (h : type ≠ type') (l : List FriendInfo) :
    ofType type (ofType type' l) = [] := by
  unfold ofType
  rw [List.filter_filter, List.filter_eq_nil_iff]
  intro e _ hand
  rw [Bool.and_eq_true, decide_eq_true_iff, decide_eq_true_iff] at hand
  exact h (hand.1.symm.trans hand.2)

/-- What is exported of the friends that were loaded. -/
theorem getFriendsInfo_setFriendsInfo {p : Player} {lst : FriendInfoList} (hp : p.friendMgr = {})
    (hv : Valid lst.friends) :
    (setFriendsInfo p lst).friendMgr.getFriendsInfo =
      { friends := (ofType eGoodsFriends lst.friends ++ ofType eBlackFriends lst.friends).map kept
        receiveCounts := some (lst.receiveCounts.getD 0).toInt16.toInt32
        sendCounts := some (lst.sendCounts.getD 0).toInt16.toInt32 } := by
  have hmap : ∀ type, ((ofType type lst.friends).map friendStruct).map
      (FriendStruct.friendInfo type) = (ofType type lst.friends).map kept := by
    intro type
    rw [List.map_map]
    refine List.map_congr_left fun e he => ?_
    obtain ⟨hmem, ht⟩ := List.mem_filter.mp he
    exact friendInfo_friendStruct (of_decide_eq_true ht) (hv.names e hmem)
  unfold setFriendsInfo FriendMgr.getFriendsInfo
  rw [hp, foldl_addFriend (by rw [List.length_nil, Nat.zero_add]; exact hv.fits)]
  dsimp only
  rw [List.nil_append, List.nil_append, hmap, hmap, List.map_append]

/-- The exported list is one that can be loaded. -/
theorem valid_kept (hv : Valid l) :
    Valid ((ofType eGoodsFriends l ++ ofType eBlackFriends l).map kept) := by
  have hmem : ∀ e ∈ (ofType eGoodsFriends l ++ ofType eBlackFriends l).map kept,
      ∃ e' ∈ l, kept e' = e := by
    intro e he
    obtain ⟨e', he', rfl⟩ := List.mem_map.mp he
    refine ⟨e', ?_, rfl⟩
    rcases List.mem_append.mp he' with h | h
    · exact List.mem_of_mem_filter h
    · exact List.mem_of_mem_filter h
  refine ⟨fun e he => ?_, fun e he => ?_, ?_⟩
  · obtain ⟨e', he', rfl⟩ := hmem e he
    rw [kept_type]
    exact hv.types e' he'
  · obtain ⟨e', he', rfl⟩ := hmem e he
    rw [kept_friendname]
    exact hv.names e' he'
  · rw [ofType_map_kept, List.length_map, ofType_append, ofType_ofType,
      ofType_ofType_of_ne (by decide), List.append_nil]
    exact hv.fits

/-- **The friends that were loaded are exported in their order, and behind them the black list in its
order**; none is lost or doubled, and what was exported is exported again when it is loaded. -/
theorem friends_exported {p p' : Player} {lst : FriendInfoList} (hp : p.friendMgr = {})
    (hp' : p'.friendMgr = {}) (hv : Valid lst.friends) :
    (setFriendsInfo p lst).friendMgr.getFriendsInfo =
      { friends := (ofType eGoodsFriends lst.friends ++ ofType eBlackFriends lst.friends).map kept
        receiveCounts := some (lst.receiveCounts.getD 0).toInt16.toInt32
        sendCounts := some (lst.sendCounts.getD 0).toInt16.toInt32 } ∧
    (setFriendsInfo p lst).friendMgr.getFriendsInfo.friends.Perm (lst.friends.map kept) ∧
    (setFriendsInfo p' (setFriendsInfo p lst).friendMgr.getFriendsInfo).friendMgr.getFriendsInfo =
      (setFriendsInfo p lst).friendMgr.getFriendsInfo := by
  have hexp := getFriendsInfo_setFriendsInfo hp hv
  refine ⟨hexp, ?_, ?_⟩
  · rw [hexp]
    refine List.Perm.map kept ?_
    have hblack : ofType eBlackFriends lst.friends =
        lst.friends.filter (fun e => !decide (e.type = eGoodsFriends)) := by
      refine List.filter_congr fun e he => ?_
      rcases hv.types e he with h | h
      · rw [h]
        rfl
      · rw [h]
        rfl
    rw [hblack]
    exact List.filter_append_perm _ _
  · rw [hexp, getFriendsInfo_setFriendsInfo hp' (valid_kept hv)]
    dsimp only
    rw [ofType_map_kept, ofType_map_kept, ofType_append, ofType_append, ofType_ofType, ofType_ofType,
      ofType_ofType_of_ne (by decide), ofType_ofType_of_ne (by decide), List.append_nil,
      List.nil_append, ← List.map_append, List.map_map]
    simp only [Option.getD_some, Int16.toInt16_toInt32, Function.comp_def, kept_kept]

/-- A friend, one in the black list, and another friend. -/
def threeFriends : FriendInfoList where
  friends := [{ type := eGoodsFriends, charid := 7, friendname := [97], sex := some 1 },
    { type := eBlackFriends, charid := 8, friendname := [98], sex := some 0 },
    { type := eGoodsFriends, charid := 281474976710665, friendname := [99], sex := some 1 }]
  receiveCounts := some 3
  sendCounts := some 4

/-- A player as the factory makes it. -/
def newPlayer : Player := (OnlinePlayer.alloc {}).toPlayer

theorem friends_exported_three :
    (setFriendsInfo newPlayer threeFriends).friendMgr.getFriendsInfo =
      { friends := [{ type := eGoodsFriends, charid := 7, friendname := [97], sex := some 1 },
          { type := eGoodsFriends, charid := 9, friendname := [99], sex := some 1 },
          { type := eBlackFriends, charid := 8, friendname := [98], sex := some 0 }]
        receiveCounts := some 3
        sendCounts := some 4 } :=
  (@friends_exported newPlayer newPlayer _ rfl rfl ⟨by decide, by decide, by decide⟩).1.trans
    (by decide)

/-- A friend whose sex is no byte, with a point. -/
def farFriend : FriendInfo where
  type := eGoodsFriends
  charid := 7
  sex := some 257
  point := some 5

/-- It is exported with another sex and without the point. -/
theorem friends_narrowed :
    (setFriendsInfo newPlayer { friends := [farFriend] }).friendMgr.getFriendsInfo.friends =
      [{ farFriend with sex := some 1, point := none }] ∧
    (setFriendsInfo newPlayer { friends := [farFriend] }).friendMgr.getFriendsInfo.friends ≠
      [farFriend] := by
  decide

end ChatShow.GameServer.LoadExport
