import ChatShow.DBServer.PlayerDBManager

/-! # The cache of the players

`CCharMemCache` holds the players that are loaded, and its `CacheTimeOut` says when each is to be
saved and when one that has logged out is to be removed. Every function here is a critical section
of the source, or a whole operation made of them. `none` is a fault: a null pointer is used. The
times are in milliseconds. -/

namespace ChatShow.DBServer.CharMemCache

open ChatShow.Dependence.CharDefine ChatShow.Dependence.CharDefine.ECharBaseStruct
open ChatShow.DBServer.PlayerDBManager ChatShow.Lib.Maps Std

structure CacheTimeOut where
  cacheTime : TreeMap Int64 ℕ := ∅
  delCacheTime : TreeMap Int64 ℕ := ∅

/-- The cache, its timeouts, and the table that it caches. -/
structure Store where
  timeout : CacheTimeOut := {}
  allPlayer : TreeMap Int64 (Option PlayerDBMgr) := ∅
  roleInfo : RoleInfo := ∅

namespace Store

/-! ### The timeouts -/

def addCacheTimeout (s : Store) (charid : Int64) (time : ℕ) : Store :=
  { s with timeout := { s.timeout with cacheTime := s.timeout.cacheTime.insert charid time } }

def addDelCacheTimeout (s : Store) (charid : Int64) (time : ℕ) : Store :=
  { s with timeout := { s.timeout with delCacheTime := s.timeout.delCacheTime.insert charid time } }

def deleteTimeout (s : Store) (charid : Int64) : Store :=
  { s with timeout := { s.timeout with cacheTime := s.timeout.cacheTime.erase charid } }

def delCacheTime (s : Store) (charid : Int64) : Store :=
  { s with timeout := { s.timeout with delCacheTime := s.timeout.delCacheTime.erase charid } }

/-- What `svr` takes off the timeouts in one turn: the players to save, and those to remove. Where
both maps are empty it waits, which changes nothing. -/
def collectTimeout (s : Store) (nowTime : ℕ) : Store × List Int64 × List Int64 :=
  let deltimeout := keysOf s.timeout.delCacheTime (· ≤ nowTime)
  let cacheTime := eraseAll s.timeout.cacheTime deltimeout
  let timeout := keysOf cacheTime (· ≤ nowTime)
  ({ s with
      timeout := {
        cacheTime := cacheTime.map fun _ t => if t ≤ nowTime then nowTime + SAVE_CHARCACHE_TODB else t
        delCacheTime := eraseAll s.timeout.delCacheTime deltimeout } },
    timeout, deltimeout)

/-! ### The players -/

/-- The section of `AddNewPlayer` that inserts. -/
def insertPlayer (s : Store) (charid : Int64) (player : Option PlayerDBMgr) : Store :=
  { s with allPlayer := s.allPlayer.insert charid player }

def addNewPlayer (s : Store) (charid : Int64) (player : Option PlayerDBMgr) (now : ℕ) : Store :=
  (s.insertPlayer charid player).addCacheTimeout charid (now + SAVE_CHARCACHE_TODB)

def isPlayerInCache (s : Store) (charid : Int64) : Bool := s.allPlayer[charid]?.isSome

/-- A player saves its structures. -/
def savePlayer (s : Store) (o : SqlOutcome) (charid : Int64) (mgr : PlayerDBMgr) : Store :=
  let r := mgr.savePlayerStruct o s.roleInfo
  { s with allPlayer := s.allPlayer.insert charid (some r.2.1), roleInfo := r.2.2 }

/-- `SaveCacheToDB(chars)`. The outcome of the statement for each player is a parameter. -/
def saveCacheToDB (o : Int64 → SqlOutcome) (s : Store) : List Int64 → Store
  | [] => s
  | c :: chars =>
    match s.allPlayer[c]? with
    | some (some mgr) => saveCacheToDB o (s.savePlayer (o c) c mgr) chars
    | _ => saveCacheToDB o s chars

/-- A player is removed. -/
def erasePlayer (s : Store) (charid : Int64) : Store :=
  { s with allPlayer := s.allPlayer.erase charid }

/-- `SaveCacheAndDelete(chars)`. -/
def saveCacheAndDeleteAll (o : Int64 → SqlOutcome) (s : Store) : List Int64 → Store
  | [] => s
  | c :: chars =>
    match s.allPlayer[c]? with
    | none => saveCacheAndDeleteAll o s chars
    | some none => saveCacheAndDeleteAll o (s.erasePlayer c) chars
    | some (some mgr) => saveCacheAndDeleteAll o ((s.savePlayer (o c) c mgr).erasePlayer c) chars

/-- The section of `SaveCacheAndDelete(charid)` that saves and removes, and whether it has found the
player. -/
def saveAndErase (s : Store) (o : SqlOutcome) (charid : Int64) : Option (Bool × Store) :=
  match s.allPlayer[charid]? with
  | none => some (false, s)
  | some it => do
    let mgr ← it
    some (true, (s.savePlayer o charid mgr).erasePlayer charid)

/-- `SaveCacheAndDelete(charid)`. -/
def saveCacheAndDelete (s : Store) (o : SqlOutcome) (charid : Int64) : Option Store := do
  let (found, s) ← s.saveAndErase o charid
  some (if found then s.deleteTimeout charid else s)

/-- The turns of the loop of `SaveToCache` over the bits: the base data is overwritten, and for any
other structure nothing is done. -/
def overwrite (info : SaveTypeInfo) (it : Option PlayerDBMgr) (i : ECharBaseStruct) :
    Option (Option PlayerDBMgr) :=
  if hasBit info.type i then
    match i with
    | eBaseInfo => do
      let mgr ← it
      let mgr ← mgr.addStruct eBaseInfo (info.bsinfo.getD {})
      some (some mgr)
    | eFriendInfo => some it
  else some it

/-- `SaveToCache`. -/
def saveToCache (s : Store) (now : ℕ) (o : SqlOutcome) (info : SaveTypeInfo) : Option Store :=
  let charid := getPlayerCharid info.id
  match s.allPlayer[charid]? with
  | none => some s
  | some it => do
    let it ← all.foldlM (overwrite info) it
    let s := { s with allPlayer := s.allPlayer.insert charid it }
    if info.isdel then do
      let mgr ← it
      let s := s.addDelCacheTimeout charid (now + DELETE_CHARCACHE_TIMEOUT)
      some (s.savePlayer o charid (mgr.setFlag eBaseInfo true))
    else some s

/-- The section of `GetPlayerInfo(charid, info)` that copies: what it has found, if anything. -/
def copyPlayerInfo (s : Store) (svrID charid : Int64) : Option (Option PlayerInfo) :=
  match s.allPlayer[charid]? with
  | none => some none
  | some it => do
    let mgr ← it
    let info ← mgr.getPlayerInfo svrID
    some (some info)

/-- `GetPlayerInfo(charid, info)`. -/
def getPlayerInfo (s : Store) (svrID charid : Int64) : Option (Option PlayerInfo × Store) := do
  let info ← s.copyPlayerInfo svrID charid
  some (info, if info.isSome then s.delCacheTime charid else s)

/-- The section of `GetPlayerInfo(id, charid, content)` that copies. -/
def copyStruct (s : Store) (i : ECharBaseStruct) (charid : Int64) : Option (Option (Content i)) :=
  match s.allPlayer[charid]? with
  | none => some none
  | some it => do
    let mgr ← it
    let content ← mgr.getStruct i
    some (some content)

end Store

/-! ### What `SaveToCache` does -/

/-- A player of the cache after a message with dirty data. -/
def overwritten (info : SaveTypeInfo) (mgr : PlayerDBMgr) : Option PlayerDBMgr :=
  if hasBit info.type eBaseInfo then mgr.addStruct eBaseInfo (info.bsinfo.getD {}) else some mgr

theorem overwrite_friend (info : SaveTypeInfo) (it : Option PlayerDBMgr) :
    Store.overwrite info it eFriendInfo = some it := by
  unfold Store.overwrite
  split_ifs <;> rfl

theorem overwrite_null (info : SaveTypeInfo) :
    all.foldlM (Store.overwrite info) none =
      if hasBit info.type eBaseInfo then none else some none := by
  unfold all
  rw [List.foldlM_cons, Store.overwrite]
  split_ifs with h <;> simp [overwrite_friend]

theorem overwrite_all (info : SaveTypeInfo) (mgr : PlayerDBMgr) :
    all.foldlM (Store.overwrite info) (some mgr) = (overwritten info mgr).map some := by
  unfold all overwritten
  rw [List.foldlM_cons, Store.overwrite]
  split_ifs with h
  · cases hadd : mgr.addStruct eBaseInfo (info.bsinfo.getD {}) with
    | none => simp [hadd]
    | some mgr' => simp [hadd, overwrite_friend]
  · simp [overwrite_friend]

/-- **What `SaveToCache` does with the message of a player in the cache.** -/
theorem saveToCache_eq {s : Store} (now : ℕ) (o : SqlOutcome) {info : SaveTypeInfo}
    {mgr : PlayerDBMgr} (h : s.allPlayer[getPlayerCharid info.id]? = some (some mgr)) :
    s.saveToCache now o info = (overwritten info mgr).map fun mgr' =>
      let s' := s.insertPlayer (getPlayerCharid info.id) (some mgr')
      if info.isdel then
        (s'.addDelCacheTimeout (getPlayerCharid info.id) (now + DELETE_CHARCACHE_TIMEOUT)).savePlayer
          o (getPlayerCharid info.id) (mgr'.setFlag eBaseInfo true)
      else s' := by
  unfold Store.saveToCache
  dsimp only
  rw [h]
  dsimp only
  rw [overwrite_all]
  cases overwritten info mgr with
  | none => rfl
  | some mgr' =>
    simp only [Option.map_some, Option.bind_eq_bind, Option.bind_some]
    split_ifs <;> rfl

theorem saveToCache_of_absent {s : Store} (now : ℕ) (o : SqlOutcome) {info : SaveTypeInfo}
    (h : s.allPlayer[getPlayerCharid info.id]? = none) : s.saveToCache now o info = some s := by
  unfold Store.saveToCache
  dsimp only
  rw [h]

/-- The timeouts after `SaveToCache` with a player of the cache. -/
def delTimeout (t : CacheTimeOut) (now : ℕ) (info : SaveTypeInfo) : CacheTimeOut :=
  if info.isdel then
    { t with delCacheTime :=
        t.delCacheTime.insert (getPlayerCharid info.id) (now + DELETE_CHARCACHE_TIMEOUT) }
  else t

theorem setFlag_content (mgr : PlayerDBMgr) (j i : ECharBaseStruct) (flag : Bool) :
    ((mgr.setFlag j flag) i).content = (mgr i).content := by
  unfold PlayerDBMgr.setFlag
  by_cases h : i = j
  · subst h
    rw [Function.update_self]
  · rw [Function.update_of_ne h]

theorem overwritten_base {info : SaveTypeInfo} {mgr mgr' : PlayerDBMgr}
    (h : overwritten info mgr = some mgr') :
    (mgr' eBaseInfo).content =
      if hasBit info.type eBaseInfo then some (info.bsinfo.getD {}) else (mgr eBaseInfo).content := by
  unfold overwritten at h
  split_ifs at h ⊢ with hb
  · unfold PlayerDBMgr.addStruct CStructTemplate.addContent at h
    cases hc : (mgr eBaseInfo).content with
    | none => rw [hc] at h; cases h
    | some base =>
      rw [hc] at h
      cases h
      rw [Function.update_self]
  · cases h
    rfl

/-- **What `SaveToCache` leaves.** No other player changes, the base data is overwritten if the
message has its bit, and the player is to be removed if the message says so. -/
theorem saveToCache_spec {s s' : Store} {now : ℕ} {o : SqlOutcome} {info : SaveTypeInfo}
    {it : Option PlayerDBMgr} (hget : s.allPlayer[getPlayerCharid info.id]? = some it)
    (h : s.saveToCache now o info = some s') :
    s'.timeout = delTimeout s.timeout now info ∧
    ∃ it', (∀ a, s'.allPlayer[a]? = if getPlayerCharid info.id = a then some it' else
        s.allPlayer[a]?) ∧
      it'.map (fun mgr => (mgr eBaseInfo).content) =
        if hasBit info.type eBaseInfo then some (some (info.bsinfo.getD {}))
        else it.map fun mgr => (mgr eBaseInfo).content := by
  cases it with
  | none =>
    -- a null pointer, which only a message without base data and `isdel` leaves alone
    unfold Store.saveToCache at h
    dsimp only at h
    rw [hget] at h
    dsimp only at h
    rw [overwrite_null] at h
    by_cases hb : hasBit info.type eBaseInfo
    · rw [if_pos hb, Option.bind_eq_bind, Option.bind_none] at h
      cases h
    · rw [if_neg hb, Option.bind_eq_bind, Option.bind_some] at h
      by_cases hd : info.isdel
      · rw [if_pos hd] at h
        cases h
      · rw [if_neg hd] at h
        cases h
        unfold delTimeout
        rw [if_neg hd, if_neg hb]
        exact ⟨rfl, none, fun a => get_insert _ _ _ _, rfl⟩
  | some mgr =>
    rw [saveToCache_eq now o hget, Option.map_eq_some_iff] at h
    obtain ⟨mgr', hov, rfl⟩ := h
    have hbase : (some mgr').map (fun mgr => (mgr eBaseInfo).content) =
        if hasBit info.type eBaseInfo then some (some (info.bsinfo.getD {}))
        else (some mgr).map fun mgr => (mgr eBaseInfo).content := by
      rw [Option.map_some, overwritten_base hov]
      split_ifs <;> rfl
    unfold delTimeout
    dsimp only
    by_cases hd : info.isdel
    · rw [if_pos hd, if_pos hd]
      refine ⟨rfl, some ((mgr'.setFlag eBaseInfo true).savePlayerStruct o s.roleInfo).2.1,
        fun a => ?_, ?_⟩
      · refine (get_insert _ _ _ _).trans (ite_congr rfl (fun _ => rfl) fun ha => ?_)
        exact get_insert_of_ne _ _ ha
      · rw [Option.map_some, savePlayerStruct_content, setFlag_content]
        exact hbase
    · rw [if_neg hd, if_neg hd]
      exact ⟨rfl, some mgr', fun a => get_insert _ _ _ _, hbase⟩

/-- The timeouts after `SaveToCache`: those of a player that is not cached do not change. -/
theorem saveToCache_timeout {s s' : Store} {now : ℕ} {o : SqlOutcome} {info : SaveTypeInfo}
    (h : s.saveToCache now o info = some s') :
    s'.timeout = s.timeout ∨ s'.timeout = delTimeout s.timeout now info := by
  cases hget : s.allPlayer[getPlayerCharid info.id]? with
  | none =>
    rw [saveToCache_of_absent now o hget] at h
    cases h
    exact Or.inl rfl
  | some it => exact Or.inr (saveToCache_spec hget h).1

theorem saveToCache_of_ne {s s' : Store} {now : ℕ} {o : SqlOutcome} {info : SaveTypeInfo}
    (h : s.saveToCache now o info = some s') {c : Int64} (hne : getPlayerCharid info.id ≠ c) :
    s'.allPlayer[c]? = s.allPlayer[c]? := by
  cases hget : s.allPlayer[getPlayerCharid info.id]? with
  | none =>
    rw [saveToCache_of_absent now o hget] at h
    cases h
    rfl
  | some it =>
    obtain ⟨-, it', hit', -⟩ := saveToCache_spec hget h
    rw [hit', if_neg hne]

/-- `SaveToCache` brings no player into the cache, and removes none. -/
theorem saveToCache_cached {s s' : Store} {now : ℕ} {o : SqlOutcome} {info : SaveTypeInfo}
    (h : s.saveToCache now o info = some s') (c : Int64) :
    s'.allPlayer[c]?.isSome = s.allPlayer[c]?.isSome := by
  by_cases he : getPlayerCharid info.id = c
  · subst he
    cases hget : s.allPlayer[getPlayerCharid info.id]? with
    | none =>
      rw [saveToCache_of_absent now o hget] at h
      cases h
      rw [hget]
    | some it =>
      obtain ⟨-, it', hit', -⟩ := saveToCache_spec hget h
      rw [hit', if_pos rfl]
      rfl
  · rw [saveToCache_of_ne h he]

/-! ### What saving and removing do -/

theorem savePlayer_erasePlayer_get (s : Store) (o : SqlOutcome) (c a : Int64)
    (mgr : PlayerDBMgr) :
    ((s.savePlayer o c mgr).erasePlayer c).allPlayer[a]? =
      if c = a then none else s.allPlayer[a]? := by
  unfold Store.erasePlayer Store.savePlayer
  dsimp only
  rw [get_erase, get_insert]
  split_ifs <;> rfl

theorem saveCacheAndDeleteAll_get (o : Int64 → SqlOutcome) (s : Store) (chars : List Int64)
    (a : Int64) :
    (s.saveCacheAndDeleteAll o chars).allPlayer[a]? =
      if a ∈ chars then none else s.allPlayer[a]? := by
  induction chars generalizing s with
  | nil => rfl
  | cons c chars ih =>
    have herase : ∀ s' : Store, s'.allPlayer[a]? = (if c = a then none else s.allPlayer[a]?) →
        (s'.saveCacheAndDeleteAll o chars).allPlayer[a]? =
          if a ∈ c :: chars then none else s.allPlayer[a]? := fun s' hs' => by
      rw [ih, hs', ite_mem_cons]
    unfold Store.saveCacheAndDeleteAll
    split
    · rename_i hnone
      refine herase s ?_
      split_ifs with hc
      · rw [← hc, hnone]
      · rfl
    · exact herase _ (get_erase _ _ _)
    · exact herase _ (savePlayer_erasePlayer_get _ _ _ _ _)

theorem saveCacheAndDelete_get {o : SqlOutcome} {s s' : Store} {c : Int64}
    (h : s.saveCacheAndDelete o c = some s') (a : Int64) :
    s'.allPlayer[a]? = if a ∈ [c] then none else s.allPlayer[a]? := by
  unfold Store.saveCacheAndDelete Store.saveAndErase at h
  rw [ite_mem_cons, if_neg List.not_mem_nil]
  cases hget : s.allPlayer[c]? with
  | none =>
    rw [hget] at h
    obtain rfl : s = s' := Option.some.inj h
    split_ifs with hc
    · rw [← hc, hget]
    · rfl
  | some it =>
    cases it with
    | none => rw [hget] at h; cases h
    | some mgr =>
      rw [hget] at h
      obtain rfl : ((s.savePlayer o c mgr).erasePlayer c).deleteTimeout c = s' := Option.some.inj h
      exact savePlayer_erasePlayer_get _ _ _ _ _

@[simp] theorem saveCacheAndDeleteAll_timeout (o : Int64 → SqlOutcome) (s : Store)
    (chars : List Int64) : (s.saveCacheAndDeleteAll o chars).timeout = s.timeout := by
  induction chars generalizing s with
  | nil => rfl
  | cons c chars ih =>
    unfold Store.saveCacheAndDeleteAll
    split <;> exact ih _

theorem saveCacheToDB_spec (o : Int64 → SqlOutcome) (s : Store) (chars : List Int64) :
    (s.saveCacheToDB o chars).timeout = s.timeout ∧
    ∀ a : Int64, (s.saveCacheToDB o chars).allPlayer[a]?.isSome = s.allPlayer[a]?.isSome := by
  induction chars generalizing s with
  | nil => exact ⟨rfl, fun a => rfl⟩
  | cons c chars ih =>
    unfold Store.saveCacheToDB
    split
    · rename_i mgr hget
      refine ⟨(ih _).1, fun a => ((ih _).2 a).trans ?_⟩
      unfold Store.savePlayer
      dsimp only
      rw [get_insert]
      split_ifs with hc
      · rw [← hc, hget]
        rfl
      · rfl
    · exact ih s

/-! ### What the sweep collects -/

theorem mem_deltimeout {s : Store} {now : ℕ} {c : Int64} :
    c ∈ (s.collectTimeout now).2.2 ↔ ∃ d, s.timeout.delCacheTime[c]? = some d ∧ d ≤ now := by
  unfold Store.collectTimeout
  dsimp only
  rw [mem_keysOf]
  simp only [decide_eq_true_eq]

theorem collectTimeout_cacheTime (s : Store) (now : ℕ) (c : Int64) :
    (s.collectTimeout now).1.timeout.cacheTime[c]? =
      if c ∈ (s.collectTimeout now).2.2 then none
      else s.timeout.cacheTime[c]?.map fun d =>
        if d ≤ now then now + SAVE_CHARCACHE_TODB else d := by
  refine (get_map _ _ _).trans ?_
  rw [get_eraseAll]
  exact apply_ite (Option.map _) _ _ _

theorem collectTimeout_delCacheTime (s : Store) (now : ℕ) (c : Int64) :
    (s.collectTimeout now).1.timeout.delCacheTime[c]? =
      if c ∈ (s.collectTimeout now).2.2 then none else s.timeout.delCacheTime[c]? :=
  get_eraseAll _ _ _

/-- A player that is due is saved, unless it is removed. -/
theorem mem_timeout {s : Store} {now d : ℕ} {c : Int64} (hd : s.timeout.cacheTime[c]? = some d)
    (hnow : d ≤ now) (hc : c ∉ (s.collectTimeout now).2.2) : c ∈ (s.collectTimeout now).2.1 := by
  unfold Store.collectTimeout at hc ⊢
  dsimp only at hc ⊢
  rw [mem_keysOf]
  refine ⟨d, ?_, decide_eq_true hnow⟩
  rw [get_eraseAll, if_neg hc, hd]

end ChatShow.DBServer.CharMemCache
