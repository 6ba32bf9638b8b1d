import ChatShow.Dependence.CharDefine
import ChatShow.Lib.Maps

/-! # The structures of a cached player

`CStructTemplate` is a structure of a player in the cache: a message, null until the player is
loaded, and whether it is dirty. `PlayerDBMgr` has one of each. The database is its table `RoleInfo`,
and what it makes of a statement is a parameter. `none` is a fault: a null message is used. -/

namespace ChatShow.DBServer.PlayerDBManager

open ChatShow.Dependence.CharDefine ChatShow.Dependence.CharDefine.ECharBaseStruct
open ChatShow.Lib.Maps Std

/-! ### The database -/

/-- The table `RoleInfo`: the row of each `CharID`. -/
abbrev RoleInfo := TreeMap Int64 BaseInfo

/-- What becomes of a statement: it is carried out, it reports an error, or it throws. -/
inductive SqlOutcome
  | success
  | error
  | exception
deriving DecidableEq

/-- The row that `update RoleInfo set …` leaves: every column but `CharID`. -/
def updated (row info : BaseInfo) : BaseInfo :=
  { info with
    charid := row.charid
    charname := cStr info.charname
    wchatname := cStr info.wchatname
    head := cStr info.head
    signature := cStr info.signature
    qrcode := cStr info.qrcode
    phone := cStr info.phone }

/-- `update RoleInfo set … where CharID = GET_PLAYER_CHARID(charid)`. -/
def updateRoleInfo (db : RoleInfo) (info : BaseInfo) : RoleInfo :=
  match db[getPlayerCharid info.charid]? with
  | none => db
  | some row => db.insert (getPlayerCharid info.charid) (updated row info)

/-! ### `CStructTemplate` -/

/-- A structure of the cache, with the message of its type. -/
structure CStructTemplate (type : ECharBaseStruct) where
  content : Option (Content type) := none
  flag : Bool := false

/-- What a save returns, and the statement that was carried out. -/
structure SaveRet where
  res : ℤ
  stmt : Option BaseInfo := none

/-- `SavePlayerBaseInfo`. What `Execute` returns is not looked at. -/
def savePlayerBaseInfo (o : SqlOutcome) (info : BaseInfo) : SaveRet :=
  match o with
  | .success => ⟨0, some info⟩
  | .error => ⟨0, none⟩
  | .exception => ⟨-1, none⟩

/-- `Save`, and the structure after it. -/
def CStructTemplate.save (o : SqlOutcome) :
    {type : ECharBaseStruct} → CStructTemplate type → SaveRet × CStructTemplate type
  | eBaseInfo, s =>
    if ¬ s.flag then (⟨1, none⟩, s)
    else
      match s.content with
      | none => (⟨-1, none⟩, s)
      | some info =>
        let r := savePlayerBaseInfo o info
        (r, if r.res = 0 then { s with flag := false } else s)
  | eFriendInfo, s => (⟨-1, none⟩, s)

/-- `AddContent(Message *)`: the message of the structure is overwritten. -/
def CStructTemplate.addContent {type : ECharBaseStruct} (s : CStructTemplate type)
    (content : Content type) : Option (CStructTemplate type) := do
  let _ ← s.content
  some { content := some content, flag := true }

/-- `AddContent(Smart_Ptr<Message> &)`: the structure gets another message. -/
def CStructTemplate.setContent {type : ECharBaseStruct} (s : CStructTemplate type)
    (content : Option (Content type)) : CStructTemplate type :=
  { s with content := content }

/-! ### `PlayerDBMgr` -/

/-- The structures of a player: the constructor makes one of each type. -/
abbrev PlayerDBMgr := (i : ECharBaseStruct) → CStructTemplate i

namespace PlayerDBMgr

def new : PlayerDBMgr := fun _ => {}

def setFlag (p : PlayerDBMgr) (i : ECharBaseStruct) (flag : Bool) : PlayerDBMgr :=
  Function.update p i { p i with flag := flag }

/-- `AddStruct` with a message to copy. -/
def addStruct (p : PlayerDBMgr) (i : ECharBaseStruct) (content : Content i) :
    Option PlayerDBMgr := do
  let s ← (p i).addContent content
  some (Function.update p i s)

/-- `AddStruct` with a message to hold. -/
def setStruct (p : PlayerDBMgr) (i : ECharBaseStruct) (content : Option (Content i)) :
    PlayerDBMgr :=
  Function.update p i ((p i).setContent content)

/-- The variables of the loop of `SavePlayerStruct`. -/
structure Saving where
  res : ℤ := 0
  count : ℕ := 0
  mgr : PlayerDBMgr
  db : RoleInfo

/-- A turn of the loop. -/
def saveStruct (o : SqlOutcome) (v : Saving) (i : ECharBaseStruct) : Saving :=
  let r := (v.mgr i).save o
  { res := r.1.res
    count := if r.1.res = -1 then v.count + 1 else v.count
    mgr := Function.update v.mgr i r.2
    db := match r.1.stmt with
      | none => v.db
      | some info => updateRoleInfo v.db info }

/-- `SavePlayerStruct`: its result, the structures and the table after it. -/
def savePlayerStruct (o : SqlOutcome) (p : PlayerDBMgr) (db : RoleInfo) :
    ℤ × PlayerDBMgr × RoleInfo :=
  let v := all.foldl (saveStruct o) { mgr := p, db := db }
  (if 0 < v.count then -1 else v.res, v.mgr, v.db)

/-- `GetPlayerInfo`: the base data, with the group of the server in the id. -/
def getPlayerInfo (svrID : Int64) (p : PlayerDBMgr) : Option PlayerInfo := do
  let bsinfo ← (p eBaseInfo).content
  some { bsinfo := some { bsinfo with charid := createCharidGS svrID bsinfo.charid } }

/-- `GetPlayerInfo(id, content)`. -/
def getStruct (p : PlayerDBMgr) (i : ECharBaseStruct) : Option (Content i) := (p i).content

end PlayerDBMgr

/-! ### What saving does -/

theorem save_clean (o : SqlOutcome) {s : CStructTemplate eBaseInfo} (h : s.flag = false) :
    s.save o = (⟨1, none⟩, s) :=
  if_pos (by rw [h]; decide)

theorem save_null (o : SqlOutcome) {s : CStructTemplate eBaseInfo} (h : s.flag = true)
    (hc : s.content = none) : s.save o = (⟨-1, none⟩, s) := by
  refine (if_neg (by rw [h]; decide)).trans ?_
  rw [hc]

theorem save_dirty (o : SqlOutcome) {s : CStructTemplate eBaseInfo} {info : BaseInfo}
    (h : s.flag = true) (hc : s.content = some info) :
    s.save o = (savePlayerBaseInfo o info,
      if (savePlayerBaseInfo o info).res = 0 then { s with flag := false } else s) := by
  refine (if_neg (by rw [h]; decide)).trans ?_
  rw [hc]

/-- A save leaves the message alone. -/
@[simp] theorem save_content (o : SqlOutcome) {i : ECharBaseStruct} (s : CStructTemplate i) :
    (s.save o).2.content = s.content := by
  cases i with
  | eBaseInfo =>
    cases h : s.flag with
    | false => rw [save_clean o h]
    | true =>
      cases hc : s.content with
      | none => rw [save_null o h hc, hc]
      | some info =>
        rw [save_dirty o h hc]
        dsimp only
        split_ifs <;> exact hc
  | eFriendInfo => rfl

/-- The table after the base data has been saved. -/
def savedRole (o : SqlOutcome) (s : CStructTemplate eBaseInfo) (db : RoleInfo) : RoleInfo :=
  match (s.save o).1.stmt with
  | none => db
  | some info => updateRoleInfo db info

/-- **`SavePlayerStruct` saves the base data, and always reports an error**: that of the friends,
which no case of `Save` is for. -/
theorem savePlayerStruct_eq (o : SqlOutcome) (p : PlayerDBMgr) (db : RoleInfo) :
    p.savePlayerStruct o db =
      (-1, Function.update p eBaseInfo ((p eBaseInfo).save o).2,
        savedRole o (p eBaseInfo) db) := by
  have hfriend : Function.update p eBaseInfo ((p eBaseInfo).save o).2 eFriendInfo =
      p eFriendInfo := Function.update_of_ne (by decide) _ _
  unfold PlayerDBMgr.savePlayerStruct all
  simp only [List.foldl_cons, List.foldl_nil, PlayerDBMgr.saveStruct, hfriend]
  have hsave : ((p eFriendInfo).save o) = (⟨-1, none⟩, p eFriendInfo) := rfl
  rw [hsave, if_pos rfl, if_pos (Nat.succ_pos _)]
  refine congrArg (Prod.mk (-1)) (congrArg₂ Prod.mk ?_ rfl)
  rw [← hfriend, Function.update_eq_self]

/-- Saving a player leaves all its messages alone. -/
theorem savePlayerStruct_content (o : SqlOutcome) (p : PlayerDBMgr) (db : RoleInfo)
    (i : ECharBaseStruct) : ((p.savePlayerStruct o db).2.1 i).content = (p i).content := by
  rw [savePlayerStruct_eq]
  cases i with
  | eBaseInfo =>
    dsimp only
    rw [Function.update_self, save_content]
  | eFriendInfo => rfl

end ChatShow.DBServer.PlayerDBManager
