import ChatShow.DBServer.CacheSystem

/-! # A player that logs in again stays in the cache

A login that finds its player in the cache calls off the removal that a logout has asked for, but in
a second section, and the thread of `CacheTimeOut` may have collected the player before. `Kept` is
what holds of a player that was copied for a login: it is in the cache, it is not about to be
removed, and where its removal is still asked for a login is about to call it off. It stays so
until the player is saved with the delete flag again, unless the removal gets between the sections
(`relogged_stays`). -/

namespace ChatShow.DBServer.Relogin

open ChatShow.Dependence.CharDefine ChatShow.Dependence.CharDefine.ECharBaseStruct
open ChatShow.DBServer.PlayerDBManager ChatShow.DBServer.CharMemCache ChatShow.Lib.Maps
open ChatShow.DBServer.CacheSystem ChatShow.Lib.Runs Std

variable {svrID : Int64}

/-! ### The steps considered -/

/-- Logins, saves, and the thread of `CacheTimeOut`. -/
def InScope : Label → Prop
  | .thread _ op => op.isLogin || op.isSave
  | .sweep _ => True

/-- A save of the player with the delete flag. -/
def DelSave (c : Int64) : Label → Prop
  | .thread _ (.saveToCache _ _ info) => info.isdel ∧ getPlayerCharid info.id = c
  | _ => False

/-- The removal of the player does not get between the sections of a login: the player is not copied
once it is collected for removal, and not collected once it is copied and before its removal is
called off. -/
def Undisturbed (c : Int64) (s : System) : Label → Prop
  | .thread t .copyPlayerInfo => s.threads t = .cached c → c ∉ s.sweep.deltimeout
  | .sweep (.collect now) =>
    (∃ t, s.threads t = .served c) → c ∉ (s.store.collectTimeout now).2.2
  | _ => True

/-! ### What the sections keep -/

/-- A login or a save removes no player. -/
theorem taken_keeps {s s' : Store} {pc pc' : Pc} {op : Op} (h : Taken svrID s pc op s' pc')
    (hop : op.isLogin || op.isSave) {c : Int64} (hc : s.isPlayerInCache c) :
    s'.isPlayerInCache c := by
  unfold Store.isPlayerInCache at hc ⊢
  cases h with
  | insertPlayer ret player =>
    refine (congrArg Option.isSome (get_insert _ _ _ _)).trans ?_
    split_ifs
    · rfl
    · exact hc
  | saveToCache now o info s' h => exact (saveToCache_cached h c).trans hc
  | isPlayerInCache | getRow | getCaught | getThrows | addCacheTimeout | copyPlayerInfo
    | delCacheTime => exact hc
  | addNewPlayer | getPlayerInfo | getStruct | saveAndErase | deleteTimeout
    | saveCacheAndDeleteAll => cases hop

/-- A login or a save that asks for no removal of the player leaves none that was not asked for, and a
login that has copied the player calls it off. -/
theorem taken_delCacheTime {s s' : Store} {pc pc' : Pc} {op : Op} (h : Taken svrID s pc op s' pc')
    (hop : op.isLogin || op.isSave) {c : Int64}
    (hdel : ∀ now o info, op = .saveToCache now o info →
      ¬ (info.isdel ∧ getPlayerCharid info.id = c))
    (hc : s'.timeout.delCacheTime[c]?.isSome) :
    s.timeout.delCacheTime[c]?.isSome ∧ pc ≠ .served c := by
  cases h with
  | delCacheTime charid =>
    have hget : (s.delCacheTime charid).timeout.delCacheTime[c]? =
        if charid = c then none else s.timeout.delCacheTime[c]? := get_erase _ _ _
    rw [hget] at hc
    split_ifs at hc with he
    · cases hc
    · exact ⟨hc, fun hp => he (Pc.served.inj hp)⟩
  | saveToCache now o info s' h =>
    refine ⟨?_, fun hp => by cases hp⟩
    rcases saveToCache_timeout h with ht | ht
    · rw [← ht]
      exact hc
    · rw [ht, delTimeout] at hc
      split_ifs at hc with hd
      · have hne : getPlayerCharid info.id ≠ c := fun he => hdel now o info rfl ⟨hd, he⟩
        rwa [get_insert_of_ne _ _ hne] at hc
      · exact hc
  | isPlayerInCache | getRow | getCaught | getThrows | insertPlayer | addCacheTimeout
    | copyPlayerInfo => exact ⟨hc, fun hp => by cases hp⟩
  | addNewPlayer | getPlayerInfo | getStruct | saveAndErase | deleteTimeout
    | saveCacheAndDeleteAll => cases hop

/-! ### The invariant -/

/-- The player is in the cache, it is not about to be removed, and where its removal is asked for, a
login is about to call it off. -/
structure Kept (c : Int64) (s : System) : Prop where
  cached : s.store.isPlayerInCache c
  safe : c ∉ s.sweep.deltimeout
  served : s.store.timeout.delCacheTime[c]?.isSome → ∃ t, s.threads t = .served c

/-- The copy for a login makes it so. -/
theorem kept_copy {c : Int64} {s s' : System} {t : ℕ} (ht : s.threads t = .cached c)
    (hc : s.store.isPlayerInCache c) (hg : c ∉ s.sweep.deltimeout)
    (h : step svrID s (.thread t .copyPlayerInfo) = some s') : Kept c s' := by
  obtain ⟨store, pc, htaken, rfl⟩ := step_thread h
  rw [ht] at htaken
  cases htaken with
  | copyPlayerInfo _ info hi =>
    refine ⟨hc, hg, fun _ => ⟨t, ?_⟩⟩
    have hsome : info.isSome := by
      unfold Store.copyPlayerInfo at hi
      unfold Store.isPlayerInCache at hc
      cases hget : s.store.allPlayer[c]? with
      | none => rw [hget] at hc; cases hc
      | some it =>
        rw [hget] at hi
        obtain ⟨mgr, -, hi⟩ := Option.bind_eq_some_iff.mp hi
        obtain ⟨info', -, hi⟩ := Option.bind_eq_some_iff.mp hi
        cases hi
        rfl
    dsimp only
    rw [Function.update_self, if_pos hsome]

/-- **A step keeps a copied player**, if it asks for no removal of it and the removal does not get
between the sections. -/
theorem kept_step {c : Int64} {s s' : System} {a : Label} (hs : Kept c s) (ha : InScope a)
    (hdel : ¬ DelSave c a) (hg : Undisturbed c s a) (h : step svrID s a = some s') : Kept c s' := by
  obtain ⟨hcached, hsafe, hserved⟩ := hs
  cases a with
  | thread t op =>
    obtain ⟨store, pc, htaken, rfl⟩ := step_thread h
    refine ⟨taken_keeps htaken ha hcached, hsafe, fun hd => ?_⟩
    obtain ⟨hd', hpc⟩ := taken_delCacheTime htaken ha
      (fun now o info he => by subst he; exact hdel) hd
    obtain ⟨t', ht'⟩ := hserved hd'
    -- the login that is about to call the removal off is not the thread that takes the step
    have hne : t' ≠ t := by rintro rfl; exact hpc ht'
    exact ⟨t', (threads_of_ne hne).trans ht'⟩
  | sweep op =>
    rcases step_sweep h with ⟨now, rfl, -, rfl⟩ | ⟨o, timeout, deltimeout, rfl, hsw, rfl⟩ |
      ⟨o, deltimeout, rfl, hsw, rfl⟩
    · have hout : c ∉ (s.store.collectTimeout now).2.2 := fun hin => by
        obtain ⟨d, hd, -⟩ := mem_deltimeout.mp hin
        exact hg (hserved (by rw [hd]; rfl)) hin
      refine ⟨hcached, hout, fun hd => hserved ?_⟩
      dsimp only at hd
      rwa [collectTimeout_delCacheTime, if_neg hout] at hd
    · refine ⟨?_, ?_, ?_⟩
      · exact ((saveCacheToDB_spec o s.store timeout).2 c).trans hcached
      · rw [hsw] at hsafe
        exact hsafe
      · intro hd
        dsimp only at hd
        rw [(saveCacheToDB_spec o s.store timeout).1] at hd
        exact hserved hd
    · rw [hsw] at hsafe
      refine ⟨?_, List.not_mem_nil, ?_⟩
      · unfold Store.isPlayerInCache
        dsimp only
        rw [saveCacheAndDeleteAll_get]
        exact (congrArg Option.isSome (if_neg hsafe)).trans hcached
      · intro hd
        dsimp only at hd
        rw [saveCacheAndDeleteAll_timeout] at hd
        exact hserved hd

/-- **A player that has logged in again stays in the cache.** From any state of the threads on, after
a login has copied the player, in every run of logins, saves and the thread of `CacheTimeOut`
without a save of the player with the delete flag: if the removal of the player does not get between
the sections of a login, the player is in the cache, and a save of its base data overwrites what
the cache has of it. -/
theorem relogged_stays (c : Int64) (s s' : System) (t : ℕ) (ht : s.threads t = .cached c)
    (hc : s.store.isPlayerInCache c) (l : List Label)
    (hl : ∀ a ∈ l, InScope a ∧ ¬ DelSave c a)
    (hg : Along (step svrID) (Undisturbed c) s (.thread t .copyPlayerInfo :: l))
    (h : run (step svrID) s (.thread t .copyPlayerInfo :: l) = some s') :
    s'.store.isPlayerInCache c ∧
    ∀ now o info store, getPlayerCharid info.id = c → hasBit info.type eBaseInfo →
      s'.store.saveToCache now o info = some store →
      ∃ mgr, store.allPlayer[c]? = some (some mgr) ∧
        (mgr eBaseInfo).content = some (info.bsinfo.getD {}) := by
  obtain ⟨s₁, h₁, h₂⟩ := run_cons_some.mp h
  have hkept : Kept c s' := run_inv_along (fun s a s' hs ha hg h => kept_step hs ha.1 ha.2 hg h) h₂ hl
    (hg.2 s₁ h₁) (kept_copy ht hc (hg.1 ht) h₁)
  refine ⟨hkept.cached, fun now o info store hid hb hsave => ?_⟩
  subst hid
  obtain ⟨it, hget⟩ := Option.isSome_iff_exists.mp hkept.cached
  obtain ⟨-, it', hit', hcont⟩ := saveToCache_spec hget hsave
  rw [if_pos hb, Option.map_eq_some_iff] at hcont
  obtain ⟨mgr, rfl, hbase⟩ := hcont
  exact ⟨mgr, by rw [hit', if_pos rfl], hbase⟩

/-! ### A player that logs out and in -/

/-- A database with one player, and nothing cached. -/
def fresh : System where
  store := { roleInfo := (∅ : RoleInfo).insert 1 { charid := 1, charname := [97] } }

/-- The player logs in, logs out at time 0, and is found in the cache by its next login. -/
def inAndOut : List Label :=
  [.thread 0 (.isPlayerInCache 1), .thread 0 (.getRoleInfo .row), .thread 0 .insertPlayer,
    .thread 0 (.addCacheTimeout 0), .thread 0 .copyPlayerInfo, .thread 0 .delCacheTime,
    .thread 1 (.saveToCache 0 .success { type := 0, id := 1, isdel := true }),
    .thread 0 (.isPlayerInCache 1)]

/-- The state in which the next login is about to copy the player. -/
def backAgain : System := (run (step 0) fresh inAndOut).get (by decide +kernel)

/-- The thread of `CacheTimeOut` comes round before the removal is due. -/
theorem relogged_stays_early :
    ((run (step 0) backAgain [.thread 0 .copyPlayerInfo, .sweep (.collect 60000),
      .thread 0 .delCacheTime]).get (by decide +kernel)).store.isPlayerInCache 1 := by
  refine (relogged_stays 1 backAgain _ 0 rfl (by decide +kernel)
    [.sweep (.collect 60000), .thread 0 .delCacheTime] ?_ ?_ (Option.some_get _).symm).1
  · intro a ha
    rcases List.mem_pair.mp ha with rfl | rfl
    · exact ⟨trivial, id⟩
    · exact ⟨rfl, id⟩
  · refine ⟨fun _ => by decide +kernel, fun s₁ h₁ => ⟨fun _ => ?_, fun _ _ => ⟨trivial,
      fun _ _ => trivial⟩⟩⟩
    rw [← Option.get_of_eq_some (by decide +kernel) h₁]
    decide +kernel

/-- It comes round when the removal is due, before the login copies the player or before it calls the
removal off: the player is served, and then removed. -/
theorem relogged_removed :
    (run (step 0) backAgain [.sweep (.collect 120000), .thread 0 .copyPlayerInfo,
      .thread 0 .delCacheTime, .sweep (.saveCacheToDB fun _ => .success),
      .sweep (.saveCacheAndDelete fun _ => .success)]).map (fun s => s.store.isPlayerInCache 1) =
      some false ∧
    (run (step 0) backAgain [.thread 0 .copyPlayerInfo, .sweep (.collect 120000),
      .thread 0 .delCacheTime, .sweep (.saveCacheToDB fun _ => .success),
      .sweep (.saveCacheAndDelete fun _ => .success)]).map (fun s => s.store.isPlayerInCache 1) =
      some false :=
  ⟨by decide +kernel, by decide +kernel⟩

end ChatShow.DBServer.Relogin
