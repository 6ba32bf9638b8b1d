import ChatShow.DBServer.CharMemCache
import ChatShow.Lib.Runs

/-! # The threads of the cache

The threads of the DBServer and the thread of `CacheTimeOut` take turns at the critical sections of
the cache. `Pc` says between which sections a thread is, `exec` is a section of a thread, and `sweep`
one of the thread of `CacheTimeOut`. The login handler, for `GM2DB_PLAYERINFO`, looks for the player
in the cache, reads its row if it is not there, inserts it and schedules it, copies the player and
calls off its removal. Clocks and what the database does are parts of the labels. -/

namespace ChatShow.DBServer.CacheSystem

open ChatShow.Dependence.CharDefine ChatShow.Dependence.CharDefine.ECharBaseStruct
open ChatShow.DBServer.PlayerDBManager ChatShow.DBServer.CharMemCache ChatShow.Lib.Maps Std

/-! ### The threads -/

/-- What a thread is about to do: `ret` is the id of a login request. -/
inductive Pc
  | idle
  /-- a login that has not found the player -/
  | missed (ret : Int64)
  /-- a login that has read the row of the player -/
  | loaded (ret : Int64) (player : PlayerDBMgr)
  /-- `AddNewPlayer` has inserted the player and is to schedule it, for a login or not -/
  | inserted (charid : Int64) (ret : Option Int64)
  /-- a login that is to copy the player -/
  | cached (ret : Int64)
  /-- `GetPlayerInfo` has copied the player and is to call off its removal -/
  | served (charid : Int64)
  /-- `SaveCacheAndDelete(charid)` has removed the player and is to delete its timeout -/
  | erased (charid : Int64)

/-- What becomes of `getRoleInfo`: it reads, it catches an exception, or there is no connection. -/
inductive SelectOutcome
  | row
  | caught
  | throws
deriving DecidableEq

/-- The critical sections of the threads. Those of a login come first, then those of the functions of
the cache called on their own. -/
inductive Op
  | isPlayerInCache (ret : Int64)
  | getRoleInfo (o : SelectOutcome)
  | insertPlayer
  | addCacheTimeout (now : ℕ)
  | copyPlayerInfo
  | delCacheTime
  | saveToCache (now : ℕ) (o : SqlOutcome) (info : SaveTypeInfo)
  | addNewPlayer (charid : Int64) (player : Option PlayerDBMgr)
  | getPlayerInfo (charid : Int64)
  | getStruct (i : ECharBaseStruct) (charid : Int64)
  | saveAndErase (o : SqlOutcome) (charid : Int64)
  | deleteTimeout
  | saveCacheAndDeleteAll (o : Int64 → SqlOutcome) (chars : List Int64)

/-- The sections of a login. -/
def Op.isLogin : Op → Bool
  | isPlayerInCache _ => true
  | getRoleInfo _ => true
  | insertPlayer => true
  | addCacheTimeout _ => true
  | copyPlayerInfo => true
  | delCacheTime => true
  | _ => false

def Op.isSave : Op → Bool
  | saveToCache _ _ _ => true
  | _ => false

/-- `getRoleInfo`: the structures of a new player, the base data from its row if there is one. -/
def getRoleInfo (db : RoleInfo) (playerID : Int64) (player : PlayerDBMgr) : PlayerDBMgr :=
  match db[getPlayerCharid playerID]? with
  | none => player
  | some row => player.setStruct eBaseInfo (some row)

variable (svrID : Int64)

/-- A section of a thread: the store and the thread after it. -/
def exec (s : Store) : Pc → Op → Option (Store × Pc)
  | .idle, .isPlayerInCache ret =>
    some (s, if s.isPlayerInCache (getPlayerCharid ret) then .cached ret else .missed ret)
  | .missed ret, .getRoleInfo .row =>
    some (s, .loaded ret (getRoleInfo s.roleInfo ret PlayerDBMgr.new))
  | .missed ret, .getRoleInfo .caught => some (s, .loaded ret PlayerDBMgr.new)
  | .missed _, .getRoleInfo .throws => some (s, .idle)
  | .loaded ret player, .insertPlayer =>
    some (s.insertPlayer (getPlayerCharid ret) (some player),
      .inserted (getPlayerCharid ret) (some ret))
  | .inserted charid ret, .addCacheTimeout now =>
    some (s.addCacheTimeout charid (now + SAVE_CHARCACHE_TODB), ret.elim .idle .cached)
  | .cached ret, .copyPlayerInfo => do
    let info ← s.copyPlayerInfo svrID ret
    some (s, if info.isSome then .served ret else .idle)
  | .served charid, .delCacheTime => some (s.delCacheTime charid, .idle)
  | .idle, .saveToCache now o info => do
    let s ← s.saveToCache now o info
    some (s, .idle)
  | .idle, .addNewPlayer charid player =>
    some (s.insertPlayer charid player, .inserted charid none)
  | .idle, .getPlayerInfo charid => do
    let info ← s.copyPlayerInfo svrID charid
    some (s, if info.isSome then .served charid else .idle)
  | .idle, .getStruct i charid => do
    let content ← s.copyStruct i charid
    some (s, if content.isSome then .served charid else .idle)
  | .idle, .saveAndErase o charid => do
    let (found, s) ← s.saveAndErase o charid
    some (s, if found then .erased charid else .idle)
  | .erased charid, .deleteTimeout => some (s.deleteTimeout charid, .idle)
  | .idle, .saveCacheAndDeleteAll o chars => some (s.saveCacheAndDeleteAll o chars, .idle)
  | _, _ => none

/-! ### The thread of `CacheTimeOut` -/

/-- What the thread has collected and is still to save, or to save and remove. -/
inductive Sweep
  | idle
  | collected (timeout deltimeout : List Int64)
  | saved (deltimeout : List Int64)

/-- The players that the thread is to remove. -/
def Sweep.deltimeout : Sweep → List Int64
  | idle => []
  | collected _ deltimeout => deltimeout
  | saved deltimeout => deltimeout

inductive SweepOp
  | collect (now : ℕ)
  | saveCacheToDB (o : Int64 → SqlOutcome)
  | saveCacheAndDelete (o : Int64 → SqlOutcome)

/-- A section of `svr`. -/
def sweep (s : Store) : Sweep → SweepOp → Option (Store × Sweep)
  | .idle, .collect now =>
    some ((s.collectTimeout now).1, .collected (s.collectTimeout now).2.1 (s.collectTimeout now).2.2)
  | .collected timeout deltimeout, .saveCacheToDB o =>
    some (s.saveCacheToDB o timeout, .saved deltimeout)
  | .saved deltimeout, .saveCacheAndDelete o => some (s.saveCacheAndDeleteAll o deltimeout, .idle)
  | _, _ => none

/-! ### The system -/

structure System where
  store : Store := {}
  sweep : Sweep := .idle
  threads : ℕ → Pc := fun _ => .idle

inductive Label
  | thread (t : ℕ) (op : Op)
  | sweep (op : SweepOp)

/-- A thread, or the thread of `CacheTimeOut`, takes a section. -/
def step (s : System) : Label → Option System
  | .thread t op => do
    let (store, pc) ← exec svrID s.store (s.threads t) op
    some { s with store := store, threads := Function.update s.threads t pc }
  | .sweep op => do
    let (store, sw) ← sweep s.store s.sweep op
    some { s with store := store, sweep := sw }

/-! ### What a section does -/

/-- The sections of a thread, with what each has found. -/
inductive Taken (s : Store) : Pc → Op → Store → Pc → Prop
  | isPlayerInCache (ret : Int64) :
    Taken s .idle (.isPlayerInCache ret) s
      (if s.isPlayerInCache (getPlayerCharid ret) then .cached ret else .missed ret)
  | getRow (ret : Int64) :
    Taken s (.missed ret) (.getRoleInfo .row) s
      (.loaded ret (getRoleInfo s.roleInfo ret PlayerDBMgr.new))
  | getCaught (ret : Int64) :
    Taken s (.missed ret) (.getRoleInfo .caught) s (.loaded ret PlayerDBMgr.new)
  | getThrows (ret : Int64) : Taken s (.missed ret) (.getRoleInfo .throws) s .idle
  | insertPlayer (ret : Int64) (player : PlayerDBMgr) :
    Taken s (.loaded ret player) .insertPlayer
      (s.insertPlayer (getPlayerCharid ret) (some player))
      (.inserted (getPlayerCharid ret) (some ret))
  | addCacheTimeout (charid : Int64) (ret : Option Int64) (now : ℕ) :
    Taken s (.inserted charid ret) (.addCacheTimeout now)
      (s.addCacheTimeout charid (now + SAVE_CHARCACHE_TODB)) (ret.elim .idle .cached)
  | copyPlayerInfo (ret : Int64) (info : Option PlayerInfo)
      (h : s.copyPlayerInfo svrID ret = some info) :
    Taken s (.cached ret) .copyPlayerInfo s (if info.isSome then .served ret else .idle)
  | delCacheTime (charid : Int64) :
    Taken s (.served charid) .delCacheTime (s.delCacheTime charid) .idle
  | saveToCache (now : ℕ) (o : SqlOutcome) (info : SaveTypeInfo) (s' : Store)
      (h : s.saveToCache now o info = some s') :
    Taken s .idle (.saveToCache now o info) s' .idle
  | addNewPlayer (charid : Int64) (player : Option PlayerDBMgr) :
    Taken s .idle (.addNewPlayer charid player) (s.insertPlayer charid player)
      (.inserted charid none)
  | getPlayerInfo (charid : Int64) (info : Option PlayerInfo)
      (h : s.copyPlayerInfo svrID charid = some info) :
    Taken s .idle (.getPlayerInfo charid) s (if info.isSome then .served charid else .idle)
  | getStruct (i : ECharBaseStruct) (charid : Int64) (content : Option (Content i))
      (h : s.copyStruct i charid = some content) :
    Taken s .idle (.getStruct i charid) s (if content.isSome then .served charid else .idle)
  | saveAndErase (o : SqlOutcome) (charid : Int64) (found : Bool) (s' : Store)
      (h : s.saveAndErase o charid = some (found, s')) :
    Taken s .idle (.saveAndErase o charid) s' (if found then .erased charid else .idle)
  | deleteTimeout (charid : Int64) :
    Taken s (.erased charid) .deleteTimeout (s.deleteTimeout charid) .idle
  | saveCacheAndDeleteAll (o : Int64 → SqlOutcome) (chars : List Int64) :
    Taken s .idle (.saveCacheAndDeleteAll o chars) (s.saveCacheAndDeleteAll o chars) .idle

variable {svrID}

theorem exec_taken {s s' : Store} {pc pc' : Pc} {op : Op}
    (h : exec svrID s pc op = some (s', pc')) : Taken svrID s pc op s' pc' := by
  revert h
  fun_cases exec svrID s pc op
  all_goals intro h
  case case7 ret =>
    obtain ⟨info, hi, h⟩ := Option.bind_eq_some_iff.mp h
    cases h
    exact .copyPlayerInfo ret info hi
  case case9 now o info =>
    obtain ⟨s₁, hs, h⟩ := Option.bind_eq_some_iff.mp h
    cases h
    exact .saveToCache now o info _ hs
  case case11 charid =>
    obtain ⟨info, hi, h⟩ := Option.bind_eq_some_iff.mp h
    cases h
    exact .getPlayerInfo charid info hi
  case case12 i charid =>
    obtain ⟨content, hc, h⟩ := Option.bind_eq_some_iff.mp h
    cases h
    exact .getStruct i charid content hc
  case case13 o charid =>
    obtain ⟨⟨found, s₁⟩, hs, h⟩ := Option.bind_eq_some_iff.mp h
    cases h
    exact .saveAndErase o charid found _ hs
  all_goals cases h
  all_goals constructor

theorem step_thread {s s' : System} {t : ℕ} {op : Op} (h : step svrID s (.thread t op) = some s') :
    ∃ store pc, Taken svrID s.store (s.threads t) op store pc ∧
      s' = { s with store := store, threads := Function.update s.threads t pc } := by
  unfold step at h
  obtain ⟨⟨store, pc⟩, he, h⟩ := Option.bind_eq_some_iff.mp h
  exact ⟨store, pc, exec_taken he, (Option.some.inj h).symm⟩

/-- A step of the thread of `CacheTimeOut`. -/
theorem step_sweep {s s' : System} {op : SweepOp} (h : step svrID s (.sweep op) = some s') :
    (∃ now, op = .collect now ∧ s.sweep = .idle ∧ s' = { s with
        store := (s.store.collectTimeout now).1
        sweep := .collected (s.store.collectTimeout now).2.1 (s.store.collectTimeout now).2.2 }) ∨
    (∃ o timeout deltimeout, op = .saveCacheToDB o ∧ s.sweep = .collected timeout deltimeout ∧
      s' = { s with store := s.store.saveCacheToDB o timeout, sweep := .saved deltimeout }) ∨
    ∃ o deltimeout, op = .saveCacheAndDelete o ∧ s.sweep = .saved deltimeout ∧
      s' = { s with store := s.store.saveCacheAndDeleteAll o deltimeout, sweep := .idle } := by
  unfold step sweep at h
  obtain ⟨⟨store, sw⟩, he, h⟩ := Option.bind_eq_some_iff.mp h
  cases h
  split at he
  · rename_i now hs
    cases he
    exact Or.inl ⟨now, rfl, hs, rfl⟩
  · rename_i timeout deltimeout o hs
    cases he
    exact Or.inr (Or.inl ⟨o, timeout, deltimeout, rfl, hs, rfl⟩)
  · rename_i deltimeout o hs
    cases he
    exact Or.inr (Or.inr ⟨o, deltimeout, rfl, hs, rfl⟩)
  · cases he

/-- The other threads stay where they are. -/
theorem threads_of_ne {threads : ℕ → Pc} {t t' : ℕ} {pc : Pc} (h : t' ≠ t) :
    Function.update threads t pc t' = threads t' :=
  Function.update_of_ne h _ _

end ChatShow.DBServer.CacheSystem
