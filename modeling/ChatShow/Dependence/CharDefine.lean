import Std.Data.TreeMap.Lemmas
import Mathlib.Data.Int.Notation
import Mathlib.Tactic.Common

/-! # The data of a player

The messages of `PlayerInfo.proto`, the parts of a player that are saved on their own, and the
character ids. The upper 16 bits of a character id are the group of servers, the lower 48 are the
id in the database, `getPlayerCharid` takes the group off. Strings are lists of bytes. -/

namespace ChatShow.Dependence.CharDefine

/-! ### Character ids -/

/-- `GET_PLAYER_CHARID`. -/
def getPlayerCharid (m : Int64) : Int64 := (m <<< 16) >>> 16

/-- `CREATE_CHARID_GS`. -/
def createCharidGS (x t : Int64) : Int64 := (x <<< 48) ||| t

theorem sshiftRight_shiftLeft (x : BitVec 64) : (x <<< 16).sshiftRight 16 <<< 16 = x <<< 16 := by
  refine BitVec.eq_of_getLsbD_eq fun i hi => ?_
  rw [BitVec.getLsbD_shiftLeft, BitVec.getLsbD_sshiftRight, BitVec.getLsbD_shiftLeft,
    BitVec.getLsbD_shiftLeft]
  by_cases h : i < 16
  · simp [h]
  · have h1 : 16 + (i - 16) = i := by omega
    have h2 : ¬ 64 ≤ i - 16 := by omega
    simp [h, hi, h1, h2]

/-- The group is taken off once. -/
@[simp] theorem getPlayerCharid_getPlayerCharid (m : Int64) :
    getPlayerCharid (getPlayerCharid m) = getPlayerCharid m := by
  unfold getPlayerCharid
  rw [← Int64.toBitVec_inj]
  simp only [Int64.toBitVec_shiftLeft, Int64.toBitVec_shiftRight]
  exact congrArg (BitVec.sshiftRight · 16) (sshiftRight_shiftLeft m.toBitVec)

/-! ### The messages -/

structure BaseInfo where
  charid : Int64 := 0
  charname : List UInt8 := []
  wchatname : List UInt8 := []
  head : List UInt8 := []
  sex : Bool := false
  country : Int32 := 0
  province : Int32 := 0
  city : Int32 := 0
  signature : List UInt8 := []
  money : Int32 := 0
  turnmoney : Int32 := 0
  qrcode : List UInt8 := []
  phone : List UInt8 := []
  year : Int32 := 0
  month : Int32 := 0
  day : Int32 := 0
deriving DecidableEq, Inhabited

structure FriendInfo where
  type : Int32 := 0
  charid : Int64 := 0
  friendname : List UInt8 := []
  sex : Option Int32 := none
  point : Option Int32 := none
deriving DecidableEq, Inhabited

structure FriendInfoList where
  friends : List FriendInfo := []
  inwho : List Int64 := []
  inGroup : List Int64 := []
  receiveCounts : Option Int32 := none
  sendCounts : Option Int32 := none
deriving DecidableEq, Inhabited

/-- The dirty data of a player: bit `i` of `type` stands for the structure `i`. -/
structure SaveTypeInfo where
  type : UInt64 := 0
  id : Int64 := 0
  isdel : Bool := false
  bsinfo : Option BaseInfo := none
deriving DecidableEq, Inhabited

structure PlayerInfo where
  bsinfo : Option BaseInfo := none
  friendlist : Option FriendInfoList := none
deriving DecidableEq, Inhabited

/-- `set_…(s.c_str())`: the string up to its first NUL. -/
def cStr (s : List UInt8) : List UInt8 := s.takeWhile (· ≠ 0)

/-! ### The structures -/

inductive ECharBaseStruct
  | eBaseInfo
  | eFriendInfo
deriving DecidableEq, Inhabited

namespace ECharBaseStruct

/-- The loops up to `eCharStructMax` run through these. -/
def all : List ECharBaseStruct := [eBaseInfo, eFriendInfo]

/-- The number of the structure in the source. -/
def index : ECharBaseStruct → UInt64
  | eBaseInfo => 0
  | eFriendInfo => 1

/-- The message that a structure is saved in. -/
abbrev Content : ECharBaseStruct → Type
  | eBaseInfo => BaseInfo
  | eFriendInfo => FriendInfoList

end ECharBaseStruct

open ECharBaseStruct

/-- `(type >> i) & 0x1`. -/
def hasBit (type : UInt64) (i : ECharBaseStruct) : Bool := (type >>> i.index) &&& 1 ≠ 0

/-- `type | (1 << i)`. -/
def setBit (type : UInt64) (i : ECharBaseStruct) : UInt64 := type ||| (1 <<< i.index)

theorem hasBit_eq_testBit (type : UInt64) (i : ECharBaseStruct) :
    hasBit type i = type.toNat.testBit i.index.toNat := by
  have hone : ∀ x : UInt64, decide (x &&& 1 ≠ 0) = decide (x.toNat % 2 = 1) := fun x => by
    congr 1
    rw [Ne, ← UInt64.toNat_inj, UInt64.toNat_and]
    simp
  unfold hasBit
  rw [hone, UInt64.toNat_shiftRight, Nat.testBit_eq_decide_div_mod_eq, Nat.shiftRight_eq_div_pow]
  cases i <;> rfl

theorem hasBit_setBit (type : UInt64) (i j : ECharBaseStruct) :
    hasBit (setBit type i) j = (hasBit type j || decide (i = j)) := by
  rw [hasBit_eq_testBit, hasBit_eq_testBit]
  unfold setBit
  rw [UInt64.toNat_or, Nat.testBit_or]
  congr 1
  cases i <;> cases j <;> decide

@[simp] theorem hasBit_zero (i : ECharBaseStruct) : hasBit 0 i = false := by
  cases i <;> rfl

/-! ### Times, in milliseconds -/

def SAVE_CHARCACHE_TODB : ℕ := 1 * 60 * 1000
def DELETE_CHARCACHE_TIMEOUT : ℕ := 2 * 60 * 1000

def NORMAL_MSG_SEND_SIZE : ℕ := 1024 * 32

end ChatShow.Dependence.CharDefine
