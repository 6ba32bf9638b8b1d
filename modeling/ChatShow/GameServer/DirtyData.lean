import ChatShow.DBServer.SaveChain
import ChatShow.GameServer.Players
import Mathlib.Data.List.Induction

/-! # The dirty flag of the base data

A player is loaded by `InitBaseInfo`, changed by `SetTypeValue` and saved by its timer. `carried` is the
base data of the last save that had it, or of the load before any save. Nothing sets the flag of the
base data: `SetTypeValue` does not, and neither does `InitBaseInfo`, which gives the month to `SetMoney`.
So a change is noticed only where the flag is set already, as the memory of the player may have it, and
the flags are right along a run just when no step changes the base data of a player whose flag is clear
(`tracked_iff`). -/

namespace ChatShow.GameServer.DirtyData

open ChatShow.DBServer.SaveChain ChatShow.Dependence.CharDefine
open ChatShow.Dependence.CharDefine.ECharBaseStruct ChatShow.GameServer.Players
open ChatShow.GameServer.SavePlayer ChatShow.Lib.Runs

/-! ### Steps -/

structure Tracking where
  p : OnlinePlayer
  carried : BaseInfo
  /-- whether a save has had the base data -/
  saved : Bool := false
  /-- whether nothing has changed since a save -/
  clean : Bool := false

inductive Act
  /-- `MSG_REQ_GT2GM_SYN_ATTR` -/
  | synAttr (attr : List SynCharAttr)
  /-- `SaveAllPlayer` of the timer -/
  | save
  | initBaseInfo (info : BaseInfo)

namespace Tracking

/-- A player that has been loaded, into memory that was `mem`. -/
def load (mem : Flags) (info : BaseInfo) : Tracking where
  p := (OnlinePlayer.alloc mem).initBaseInfo info
  carried := info

def base (s : Tracking) : BaseInfo := s.p.toPlayer.setBaseInfo

def dirty (s : Tracking) : Bool := s.p.dirtyData eBaseInfo

variable (byteSize : SaveTypeInfo → ℕ)

/-- The messages of a save by the timer. -/
def sent (s : Tracking) : List SaveTypeInfo :=
  infos (s.p.toPlayer.saveAllPlayer byteSize {} false false).2.2

/-- The player is changed, or as it was. -/
def change (s : Tracking) (p : OnlinePlayer) : Tracking :=
  { s with p := p, clean := s.clean && p.toPlayer.setBaseInfo = s.base }

def step (s : Tracking) : Act → Option Tracking
  | .synAttr attr => some (s.change (s.p.setTypeValue attr))
  | .save =>
    let p := { s.p with toPlayer := (s.p.toPlayer.saveAllPlayer byteSize {} false false).1 }
    if Bits (s.sent byteSize) eBaseInfo then
      some { p := p, carried := s.base, saved := true, clean := true }
    else some { s with p := p, clean := true }
  | .initBaseInfo info =>
    let s' := s.change (s.p.initBaseInfo info)
    some (if s.saved then s' else { s' with carried := info })

/-- Where the base data is not what has been carried, it is dirty and the next save has it; and it is
not dirty where nothing has changed since a save. -/
structure Tracked (s : Tracking) : Prop where
  lost : s.base ≠ s.carried → s.dirty = true ∧ Bits (s.sent byteSize) eBaseInfo
  clear : s.clean = true → s.dirty = false

end Tracking

/-! ### What `SetTypeValue` changes -/

/-- A value of an attribute. -/
inductive Value
  | str (s : List UInt8)
  | bool (b : Bool)
  | int (n : Int32)
deriving DecidableEq

/-- The attributes that `SetTypeValue` sets: it has no case for `eCharMoney`. -/
def attrs : List ECharAttrType :=
  [.eCharName, .eWchatName, .eHeadPhoto, .eCharSex, .eCountry, .eProvince, .eCity, .eCharSignature,
    .eCharTurnMoney, .eQRCode, .ePhone, .eYear, .eMonth, .eDay]

/-- What the base data has for an attribute. -/
def valueOf (base : BaseInfo) : ECharAttrType → Value
  | .eCharName => .str base.charname
  | .eWchatName => .str base.wchatname
  | .eHeadPhoto => .str base.head
  | .eCharSex => .bool base.sex
  | .eCountry => .int base.country
  | .eProvince => .int base.province
  | .eCity => .int base.city
  | .eCharSignature => .str base.signature
  | .eCharMoney => .int base.money
  | .eCharTurnMoney => .int base.turnmoney
  | .eQRCode => .str base.qrcode
  | .ePhone => .str base.phone
  | .eYear => .int base.year
  | .eMonth => .int base.month
  | .eDay => .int base.day

/-- What a message brings for an attribute of a type. -/
def SynCharAttr.value (a : SynCharAttr) : ECharAttrType → Value
  | .eCharName | .eWchatName | .eHeadPhoto | .eCharSignature | .eQRCode | .ePhone => .str a.attrStr
  | .eCharSex => .bool (a.attrInt ≠ 0)
  | _ => .int a.attrInt.toInt32

/-- The attribute of a type that is set last. -/
def lastOf (attr : List SynCharAttr) (t : ECharAttrType) : Option SynCharAttr :=
  (attr.filter fun a => a.type = some t).getLast?

/-- Every attribute that is set is what it was. -/
def Same (base : BaseInfo) (attr : List SynCharAttr) : Prop :=
  ∀ t ∈ attrs, ∀ a, lastOf attr t = some a → SynCharAttr.value a t = valueOf base t

/-- A turn of the loop sets the attribute of its type, and no other. -/
theorem valueOf_setAttr (p : OnlinePlayer) (a : SynCharAttr) {t : ECharAttrType} (ht : t ∈ attrs) :
    valueOf (p.setAttr a).toPlayer.setBaseInfo t =
      if a.type = some t then SynCharAttr.value a t else valueOf p.toPlayer.setBaseInfo t := by
  obtain ⟨type, n, s⟩ := a
  cases type with
  | none => rfl
  | some type =>
    cases type <;> cases t <;> first
      | rfl
      | exact absurd ht (by decide)

theorem lastOf_append (attr : List SynCharAttr) (a : SynCharAttr) (t : ECharAttrType) :
    lastOf (attr ++ [a]) t = if a.type = some t then some a else lastOf attr t := by
  unfold lastOf
  rw [List.filter_append]
  split_ifs with h
  · rw [List.filter_cons_of_pos (by simpa using h), List.getLast?_append, List.filter_nil,
      List.getLast?_singleton]
    rfl
  · rw [List.filter_cons_of_neg (by simpa using h), List.filter_nil, List.append_nil]

/-- The loop leaves every attribute at the last value for it. -/
theorem valueOf_setTypeValue (p : OnlinePlayer) (attr : List SynCharAttr) {t : ECharAttrType}
    (ht : t ∈ attrs) :
    valueOf (p.setTypeValue attr).toPlayer.setBaseInfo t =
      match lastOf attr t with
      | some a => SynCharAttr.value a t
      | none => valueOf p.toPlayer.setBaseInfo t := by
  induction attr using List.reverseRecOn with
  | nil => rfl
  | append_singleton attr a ih =>
    unfold OnlinePlayer.setTypeValue at ih ⊢
    rw [List.foldl_append, List.foldl_cons, List.foldl_nil, valueOf_setAttr _ _ ht, ih,
      lastOf_append]
    split_ifs <;> rfl

/-- The other data is not touched. -/
theorem setTypeValue_rest (p : OnlinePlayer) (attr : List SynCharAttr) :
    (p.setTypeValue attr).toPlayer.setBaseInfo.charid = p.toPlayer.setBaseInfo.charid ∧
    (p.setTypeValue attr).toPlayer.setBaseInfo.money = p.toPlayer.setBaseInfo.money ∧
    (p.setTypeValue attr).dirtyData = p.dirtyData ∧
    (p.setTypeValue attr).initpartData = p.initpartData := by
  unfold OnlinePlayer.setTypeValue
  induction attr generalizing p with
  | nil => exact ⟨rfl, rfl, rfl, rfl⟩
  | cons a attr ih =>
    obtain ⟨hid, hmoney, hdirty, hinit⟩ := ih (p.setAttr a)
    rw [List.foldl_cons, hid, hmoney, hdirty, hinit]
    unfold OnlinePlayer.setAttr
    rcases a.type with _ | type
    · exact ⟨rfl, rfl, rfl, rfl⟩
    · cases type <;> exact ⟨rfl, rfl, rfl, rfl⟩

theorem base_ext {b b' : BaseInfo} (hid : b.charid = b'.charid) (hmoney : b.money = b'.money)
    (h : ∀ t ∈ attrs, valueOf b t = valueOf b' t) : b = b' := by
  obtain ⟨⟩ := b
  obtain ⟨⟩ := b'
  simp_all [attrs, valueOf]

/-- `SetTypeValue` changes nothing where every attribute is what it was. -/
theorem setTypeValue_base_iff (p : OnlinePlayer) (attr : List SynCharAttr) :
    (p.setTypeValue attr).toPlayer.setBaseInfo = p.toPlayer.setBaseInfo ↔
      Same p.toPlayer.setBaseInfo attr := by
  obtain ⟨hid, hmoney, -, -⟩ := setTypeValue_rest p attr
  constructor
  · intro h t ht a ha
    have hval := valueOf_setTypeValue p attr ht
    rw [h, ha] at hval
    exact hval.symm
  · intro h
    refine base_ext hid hmoney fun t ht => ?_
    rw [valueOf_setTypeValue p attr ht]
    cases ha : lastOf attr t with
    | none => rfl
    | some a => exact h t ht a ha

/-! ### Steps that are noticed -/

/-- The base data after `InitBaseInfo`. -/
def loaded (p : OnlinePlayer) (info : BaseInfo) : BaseInfo :=
  { info with money := info.month, month := p.month }

theorem initBaseInfo_base (p : OnlinePlayer) (info : BaseInfo) :
    (p.initBaseInfo info).toPlayer.setBaseInfo = loaded p info := rfl

theorem loaded_eq_iff (p : OnlinePlayer) (info : BaseInfo) :
    loaded p info = info ↔ info.money = info.month ∧ info.month = p.month := by
  unfold loaded
  constructor
  · intro h
    exact ⟨(congrArg BaseInfo.money h).symm, (congrArg BaseInfo.month h).symm⟩
  · rintro ⟨hmoney, hmonth⟩
    rw [← hmonth]
    obtain ⟨⟩ := info
    cases hmoney
    rfl

/-- The flag is set, or the step changes nothing: the attributes are what they were, or the player is
what the message has, whose month is the player's money before a save. -/
def Noticed (s : Tracking) : Act → Prop
  | .synAttr attr => s.dirty = true ∨ Same s.base attr
  | .save => True
  | .initBaseInfo info => s.dirty = true ∨
      if s.saved then loaded s.p info = s.base else info.money = info.month ∧ info.month = s.p.month

/-- The load leaves the player as the message has it, or the memory has the flag. -/
def Loaded (mem : Flags) (info : BaseInfo) : Prop :=
  mem.dirtyData eBaseInfo = true ∨ info.money = info.month ∧ info.month = 0

namespace Tracking

/-- The loop of `SaveAllPlayer` clears the flag of what it saves. -/
theorem collectAll_dirtyData (byteSize : SaveTypeInfo → ℕ) (p : Player)
    (h : p.initpartData eBaseInfo = true) :
    (p.collectAll byteSize false).dirtyData eBaseInfo = false := by
  have hbase (c : Collected) :
      (p.collect byteSize false c eBaseInfo).dirtyData eBaseInfo = false := by
    have hmark : (c.mark eBaseInfo).dirtyData eBaseInfo = false := rfl
    unfold Player.collect
    rw [h, Bool.or_false, Bool.and_true]
    dsimp only
    split_ifs with hdirty
    · exact hmark
    · exact hmark
    · exact Bool.eq_false_iff.mpr hdirty
  have hfriend (c : Collected) : (p.collect byteSize false c eFriendInfo).dirtyData eBaseInfo =
      c.dirtyData eBaseInfo := by
    have hmark : (c.mark eFriendInfo).dirtyData eBaseInfo = c.dirtyData eBaseInfo := rfl
    unfold Player.collect
    dsimp only
    split_ifs
    · exact hmark
    · exact hmark
    · rfl
  unfold Player.collectAll all
  rw [List.foldl_cons, List.foldl_cons, List.foldl_nil]
  dsimp only
  split_ifs
  · exact (hfriend _).trans (hbase _)
  · exact (hfriend _).trans (hbase _)

variable (byteSize : SaveTypeInfo → ℕ)

/-- The next save has the base data just where it is dirty. -/
theorem bits_sent {s : Tracking} (h : s.p.initpartData eBaseInfo = true) :
    Bits (s.sent byteSize) eBaseInfo ↔ s.dirty = true := by
  unfold sent
  rw [(sent_spec byteSize s.p.toPlayer {} false false).1, Saved, h, Bool.or_false, Bool.and_true]
  rfl

theorem tracked_def {s : Tracking} (h : s.p.initpartData eBaseInfo = true) :
    Tracked byteSize s ↔
      (s.dirty = true ∨ s.base = s.carried) ∧ (s.clean = true → s.dirty = false) := by
  constructor
  · rintro ⟨hlost, hclear⟩
    exact ⟨(em (s.base = s.carried)).elim Or.inr fun hne => Or.inl (hlost hne).1, hclear⟩
  · rintro ⟨hdirty, hclear⟩
    refine ⟨fun hne => ?_, hclear⟩
    have hset := hdirty.resolve_right hne
    exact ⟨hset, (bits_sent byteSize h).mpr hset⟩

theorem clean_change {s : Tracking} {p : OnlinePlayer} (h : (s.change p).clean = true) :
    s.clean = true :=
  (Bool.and_eq_true_iff.mp h).1

/-- A change of a player that is tracked is tracked where it is none, or the flag is set. -/
theorem tracked_change {s : Tracking} (ht : Tracked byteSize s)
    (hs : s.p.initpartData eBaseInfo = true) {p : OnlinePlayer}
    (hp : p.initpartData eBaseInfo = true) (hdirty : p.dirtyData eBaseInfo = s.dirty) :
    Tracked byteSize (s.change p) ↔ s.dirty = true ∨ p.toPlayer.setBaseInfo = s.base := by
  rw [tracked_def byteSize (s := s.change p) hp]
  obtain ⟨hbase, hclear⟩ := (tracked_def byteSize hs).mp ht
  have hkeep : (s.change p).dirty = s.dirty := hdirty
  rw [hkeep, and_iff_left fun hc => hclear (clean_change hc)]
  change s.dirty = true ∨ p.toPlayer.setBaseInfo = s.carried ↔ _
  by_cases hd : s.dirty = true
  · rw [or_iff_left_of_imp fun _ => hd, or_iff_left_of_imp fun _ => hd]
  · rw [or_iff_right hd, or_iff_right hd, hbase.resolve_left hd]

/-- A step leads to a state that is tracked just where it is noticed. -/
theorem tracked_step (s : Tracking) (a : Act) (hs : s.p.initpartData eBaseInfo = true)
    (ht : Tracked byteSize s) :
    ∃ s', step byteSize s a = some s' ∧ s'.p.initpartData eBaseInfo = true ∧
      (Noticed s a ↔ Tracked byteSize s') := by
  cases a with
  | synAttr attr =>
    obtain ⟨-, -, hdirty, hinit⟩ := setTypeValue_rest s.p attr
    have hp : (s.p.setTypeValue attr).initpartData eBaseInfo = true := by rw [hinit, hs]
    refine ⟨_, rfl, hp, ?_⟩
    rw [tracked_change byteSize ht hs hp (congrFun hdirty _)]
    exact or_congr_right (setTypeValue_base_iff s.p attr).symm
  | save =>
    have hbase : (s.p.toPlayer.saveAllPlayer byteSize {} false false).1.setBaseInfo = s.base := rfl
    have hclean := collectAll_dirtyData byteSize s.p.toPlayer hs
    unfold step
    dsimp only
    split_ifs with hbits
    · refine ⟨_, rfl, hs, iff_of_true trivial ((tracked_def byteSize (by exact hs)).mpr ?_)⟩
      exact ⟨Or.inr hbase, fun _ => hclean⟩
    · rw [bits_sent byteSize hs] at hbits
      refine ⟨_, rfl, hs, iff_of_true trivial ((tracked_def byteSize (by exact hs)).mpr ?_)⟩
      exact ⟨Or.inr (((tracked_def byteSize hs).mp ht).1.resolve_left hbits), fun _ => hclean⟩
  | initBaseInfo info =>
    have hp : (s.p.initBaseInfo info).initpartData eBaseInfo = true := rfl
    have hchange := tracked_change byteSize ht hs hp rfl
    unfold step Noticed
    dsimp only
    cases hsaved : s.saved with
    | true =>
      refine ⟨_, rfl, hp, ?_⟩
      rw [if_pos rfl, if_pos rfl, hchange, initBaseInfo_base]
    | false =>
      refine ⟨_, rfl, hp, ?_⟩
      rw [if_neg Bool.false_ne_true, if_neg Bool.false_ne_true, tracked_def byteSize (by exact hp),
        ← loaded_eq_iff]
      exact (and_iff_left fun hc => ht.clear (clean_change hc)).symm

theorem tracked_load (mem : Flags) (info : BaseInfo) :
    Tracked byteSize (load mem info) ↔ Loaded mem info := by
  have hnew (hc : (load mem info).clean = true) : (load mem info).dirty = false :=
    absurd hc Bool.false_ne_true
  rw [tracked_def byteSize (show (load mem info).p.initpartData eBaseInfo = true from rfl),
    and_iff_left hnew]
  exact or_congr_right (loaded_eq_iff (OnlinePlayer.alloc mem) info)

end Tracking

/-- **No change is lost** in any state of a run just when the load and every step are noticed. -/
theorem tracked_iff (byteSize : SaveTypeInfo → ℕ) (mem : Flags) (info : BaseInfo) (l : List Act) :
    (∀ l' s', l' <+: l → run (Tracking.step byteSize) (.load mem info) l' = some s' →
      s'.Tracked byteSize) ↔
    Loaded mem info ∧ Along (Tracking.step byteSize) Noticed (.load mem info) l := by
  rw [← Tracking.tracked_load byteSize]
  constructor
  · intro h
    have hload := h [] _ List.nil_prefix rfl
    exact ⟨hload, (along_iff (Tracking.tracked_step byteSize) l rfl hload).mp h⟩
  · rintro ⟨hload, hl⟩
    exact (along_iff (Tracking.tracked_step byteSize) l rfl hload).mpr hl

/-- A player that moves to another city between two saves. -/
theorem city_lost :
    ∃ s, run (Tracking.step fun _ => 0) (.load {} {})
        [.save, .synAttr [⟨some .eCity, 7, []⟩]] = some s ∧
      s.base.city = 7 ∧ s.carried.city = 0 ∧ s.dirty = false ∧ s.sent (fun _ => 0) = [] ∧
      ¬ s.Tracked fun _ => 0 := by
  refine ⟨_, rfl, by decide +kernel, by decide +kernel, by decide +kernel, by decide +kernel, ?_⟩
  rintro ⟨hlost, -⟩
  exact absurd (hlost (by decide +kernel)).1 (by decide +kernel)

end ChatShow.GameServer.DirtyData
