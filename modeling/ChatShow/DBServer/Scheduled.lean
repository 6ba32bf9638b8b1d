import ChatShow.DBServer.CacheSystem

/-! # Every cached player is scheduled for saving

The players and their timeouts are guarded by two locks, and an operation that changes both does so
in two sections. So a player of the cache has a timeout, or a thread has just inserted it and is to
schedule it, or the thread of `CacheTimeOut` is about to remove it (`Planned`). Only one section
breaks this: `SaveCacheAndDelete(charid)` deletes the timeout after it has removed the player, and by
then the player may have been inserted and scheduled again. -/

namespace ChatShow.DBServer.Scheduled

open ChatShow.Dependence.CharDefine ChatShow.Dependence.CharDefine.ECharBaseStruct
open ChatShow.DBServer.PlayerDBManager ChatShow.DBServer.CharMemCache ChatShow.Lib.Maps
open ChatShow.DBServer.CacheSystem ChatShow.Lib.Runs Std

variable {svrID : Int64}

/-! ### The invariant -/

/-- The thread is between two sections of an operation of the cache. -/
def Between : Pc → Prop
  | .inserted _ _ => True
  | .served _ => True
  | .erased _ => True
  | _ => False

/-- No operation of the cache is between two of its sections. -/
def Quiet (s : System) : Prop := s.sweep = .idle ∧ ∀ t, ¬ Between (s.threads t)

/-- The player has a timeout, or is about to get one, or is about to be removed. -/
def Planned (s : System) (c : Int64) : Prop :=
  s.store.timeout.cacheTime[c]?.isSome ∨ (∃ t ret, s.threads t = .inserted c ret) ∨
    c ∈ s.sweep.deltimeout

/-- `SaveCacheAndDelete(charid)` does not delete the timeout of a player that is in the cache again,
unless the player is about to be scheduled or removed. -/
def Timely (s : System) : Label → Prop
  | .thread t .deleteTimeout =>
    ∀ c, s.threads t = .erased c → s.store.isPlayerInCache c →
      (∃ t' ret, s.threads t' = .inserted c ret) ∨ c ∈ s.sweep.deltimeout
  | _ => True

/-! ### What a section does to the players and the timeouts -/

/-- A section that leaves a player in the cache has found it there, or has inserted it. -/
theorem taken_cached {s s' : Store} {pc pc' : Pc} {op : Op} (h : Taken svrID s pc op s' pc')
    {c : Int64} (hc : s'.isPlayerInCache c) :
    s.isPlayerInCache c ∨ ∃ ret, pc' = .inserted c ret := by
  have hinsert : ∀ {charid player}, (s.insertPlayer charid player).isPlayerInCache c →
      charid = c ∨ s.isPlayerInCache c := fun {charid player} hi => by
    by_cases he : charid = c
    · exact Or.inl he
    · unfold Store.isPlayerInCache at hi ⊢
      exact Or.inr ((congrArg Option.isSome (get_insert_of_ne _ _ he)).symm.trans hi)
  unfold Store.isPlayerInCache at hc ⊢
  cases h with
  | insertPlayer ret player =>
    rcases hinsert hc with rfl | hi
    · exact Or.inr ⟨_, rfl⟩
    · exact Or.inl hi
  | addNewPlayer charid player =>
    rcases hinsert hc with rfl | hi
    · exact Or.inr ⟨_, rfl⟩
    · exact Or.inl hi
  | saveToCache now o info s' h => exact Or.inl ((saveToCache_cached h c).symm.trans hc)
  | saveAndErase o charid found s' h =>
    unfold Store.saveAndErase at h
    cases hget : s.allPlayer[charid]? with
    | none =>
      rw [hget] at h
      cases h
      exact Or.inl hc
    | some it =>
      rw [hget] at h
      obtain ⟨mgr, -, h⟩ := Option.bind_eq_some_iff.mp h
      cases h
      rw [savePlayer_erasePlayer_get] at hc
      split_ifs at hc with he
      · cases hc
      · exact Or.inl hc
  | saveCacheAndDeleteAll o chars =>
    rw [saveCacheAndDeleteAll_get] at hc
    split_ifs at hc with he
    · cases hc
    · exact Or.inl hc
  | isPlayerInCache | getRow | getCaught | getThrows | addCacheTimeout | copyPlayerInfo
    | delCacheTime | getPlayerInfo | getStruct | deleteTimeout => exact Or.inl hc

theorem saveAndErase_timeout {s s' : Store} {o : SqlOutcome} {charid : Int64} {found : Bool}
    (h : s.saveAndErase o charid = some (found, s')) : s'.timeout = s.timeout := by
  unfold Store.saveAndErase at h
  cases hget : s.allPlayer[charid]? with
  | none => rw [hget] at h; cases h; rfl
  | some it =>
    rw [hget] at h
    obtain ⟨mgr, -, h⟩ := Option.bind_eq_some_iff.mp h
    cases h
    rfl

theorem saveToCache_cacheTime {s s' : Store} {now : ℕ} {o : SqlOutcome} {info : SaveTypeInfo}
    (h : s.saveToCache now o info = some s') : s'.timeout.cacheTime = s.timeout.cacheTime := by
  rcases saveToCache_timeout h with ht | ht
  · rw [ht]
  · rw [ht, delTimeout]
    split_ifs <;> rfl

/-- A section keeps the timeout of a player, unless it is the one that deletes it, and the section
that schedules a player sets its timeout. -/
theorem taken_cacheTime {s s' : Store} {pc pc' : Pc} {op : Op} (h : Taken svrID s pc op s' pc')
    (c : Int64) :
    (s.timeout.cacheTime[c]?.isSome → s'.timeout.cacheTime[c]?.isSome ∨
      pc = .erased c ∧ op = .deleteTimeout) ∧
    ∀ ret, pc = .inserted c ret → s'.timeout.cacheTime[c]?.isSome := by
  cases h with
  | addCacheTimeout charid ret now =>
    have hget : (s.addCacheTimeout charid (now + SAVE_CHARCACHE_TODB)).timeout.cacheTime[c]? =
        if charid = c then some (now + SAVE_CHARCACHE_TODB) else s.timeout.cacheTime[c]? :=
      get_insert _ _ _ _
    rw [hget]
    refine ⟨fun hs => Or.inl ?_, fun ret' hp => ?_⟩
    · split_ifs
      · rfl
      · exact hs
    · rw [if_pos (Pc.inserted.inj hp).1]
      rfl
  | deleteTimeout charid =>
    have hget : (s.deleteTimeout charid).timeout.cacheTime[c]? =
        if charid = c then none else s.timeout.cacheTime[c]? := get_erase _ _ _
    rw [hget]
    refine ⟨fun hs => ?_, fun ret hp => by cases hp⟩
    by_cases he : charid = c
    · exact Or.inr ⟨by rw [he], rfl⟩
    · rw [if_neg he]
      exact Or.inl hs
  | saveToCache now o info s' h =>
    rw [saveToCache_cacheTime h]
    exact ⟨Or.inl, fun ret hp => by cases hp⟩
  | saveAndErase o charid found s' h =>
    rw [saveAndErase_timeout h]
    exact ⟨Or.inl, fun ret hp => by cases hp⟩
  | saveCacheAndDeleteAll o chars =>
    rw [saveCacheAndDeleteAll_timeout]
    exact ⟨Or.inl, fun ret hp => by cases hp⟩
  | isPlayerInCache | getRow | getCaught | getThrows | insertPlayer | copyPlayerInfo | delCacheTime
    | addNewPlayer | getPlayerInfo | getStruct => exact ⟨Or.inl, fun ret hp => by cases hp⟩

/-! ### The runs -/

/-- **A step keeps every cached player planned**, if it deletes no timeout that is needed. -/
theorem planned_step {s s' : System} {a : Label}
    (hs : ∀ c, s.store.isPlayerInCache c → Planned s c) (hg : Timely s a)
    (h : step svrID s a = some s') : ∀ c, s'.store.isPlayerInCache c → Planned s' c := by
  intro c hc
  cases a with
  | thread t op =>
    obtain ⟨store, pc, htaken, rfl⟩ := step_thread h
    rcases taken_cached htaken hc with hold | ⟨ret, rfl⟩
    · obtain ⟨hkeep, hset⟩ := taken_cacheTime htaken c
      -- a thread that is to schedule the player is not the one that takes the step
      have hother : ∀ t' ret, t' ≠ t → s.threads t' = .inserted c ret →
          Planned { s with store := store, threads := Function.update s.threads t pc } c :=
        fun t' ret hne ht' => Or.inr (Or.inl ⟨t', ret, (threads_of_ne hne).trans ht'⟩)
      rcases hs c hold with htime | ⟨t', ret, ht'⟩ | hdel
      · rcases hkeep htime with htime' | ⟨hp, rfl⟩
        · exact Or.inl htime'
        · rcases hg c hp hold with ⟨t', ret, ht'⟩ | hdel
          · exact hother t' ret (by rintro rfl; rw [hp] at ht'; cases ht') ht'
          · exact Or.inr (Or.inr hdel)
      · by_cases he : t' = t
        · exact Or.inl (hset ret (he ▸ ht'))
        · exact hother t' ret he ht'
      · exact Or.inr (Or.inr hdel)
    · exact Or.inr (Or.inl ⟨t, ret, Function.update_self ..⟩)
  | sweep op =>
    rcases step_sweep h with ⟨now, rfl, hsw, rfl⟩ | ⟨o, timeout, deltimeout, rfl, hsw, rfl⟩ |
      ⟨o, deltimeout, rfl, hsw, rfl⟩
    · by_cases hin : c ∈ (s.store.collectTimeout now).2.2
      · exact Or.inr (Or.inr hin)
      · rcases hs c hc with htime | hins | hdel
        · refine Or.inl ?_
          dsimp only
          rw [collectTimeout_cacheTime, if_neg hin, Option.isSome_map]
          exact htime
        · exact Or.inr (Or.inl hins)
        · rw [hsw] at hdel
          cases hdel
    · obtain ⟨htimeout, hplayers⟩ := saveCacheToDB_spec o s.store timeout
      have hold : s.store.isPlayerInCache c := (hplayers c).symm.trans hc
      rcases hs c hold with htime | hins | hdel
      · exact Or.inl (by dsimp only; rw [htimeout]; exact htime)
      · exact Or.inr (Or.inl hins)
      · rw [hsw] at hdel
        exact Or.inr (Or.inr hdel)
    · unfold Store.isPlayerInCache at hc
      dsimp only at hc
      rw [saveCacheAndDeleteAll_get] at hc
      split_ifs at hc with hin
      · cases hc
      · rcases hs c hc with htime | hins | hdel
        · exact Or.inl (by dsimp only; rw [saveCacheAndDeleteAll_timeout]; exact htime)
        · exact Or.inr (Or.inl hins)
        · rw [hsw] at hdel
          exact absurd hdel hin

/-- A player that is in the cache while nothing is between two sections has a timeout. -/
theorem timeout_of_quiet {s : System} {c : Int64} (hq : Quiet s) (hp : Planned s c) :
    ∃ d, s.store.timeout.cacheTime[c]? = some d := by
  rcases hp with htime | ⟨t, ret, ht⟩ | hdel
  · exact Option.isSome_iff_exists.mp htime
  · refine absurd ?_ (hq.2 t)
    rw [ht]
    trivial
  · rw [hq.1] at hdel
    cases hdel

/-! ### What a sweep saves -/

/-- A player after its structures have been saved. -/
def savedMgr (o : SqlOutcome) (mgr : PlayerDBMgr) : PlayerDBMgr :=
  Function.update mgr eBaseInfo ((mgr eBaseInfo).save o).2

/-- Once saved, a player is not changed by the next save. -/
theorem savedMgr_savedMgr (o : SqlOutcome) (mgr : PlayerDBMgr) :
    savedMgr o (savedMgr o mgr) = savedMgr o mgr := by
  have hsave : ((((mgr eBaseInfo).save o).2).save o).2 = ((mgr eBaseInfo).save o).2 := by
    cases hd : (mgr eBaseInfo).flag with
    | false => rw [save_clean o hd, save_clean o hd]
    | true =>
      cases hc : (mgr eBaseInfo).content with
      | none => rw [save_null o hd hc, save_null o hd hc]
      | some info =>
        rw [save_dirty o hd hc]
        dsimp only
        split_ifs with hres
        · rw [save_clean o rfl]
        · rw [save_dirty o hd hc, if_neg hres]
  unfold savedMgr
  rw [Function.update_self, hsave, Function.update_idem]

theorem saveCacheToDB_get (o : Int64 → SqlOutcome) (s : Store) (chars : List Int64) (c : Int64) :
    (s.saveCacheToDB o chars).allPlayer[c]? = s.allPlayer[c]?.map fun it =>
      it.map fun mgr => if c ∈ chars then savedMgr (o c) mgr else mgr := by
  induction chars generalizing s with
  | nil => simp [Store.saveCacheToDB]
  | cons c' chars ih =>
    unfold Store.saveCacheToDB
    split
    · rename_i mgr hget
      rw [ih]
      by_cases he : c' = c
      · subst he
        have hnew : (s.savePlayer (o c') c' mgr).allPlayer[c']? =
            some (some (savedMgr (o c') mgr)) := by
          unfold Store.savePlayer
          rw [savePlayerStruct_eq]
          exact get_insert_self _ _ _
        rw [hnew, hget]
        simp only [Option.map_some, if_pos List.mem_cons_self]
        split_ifs
        · rw [savedMgr_savedMgr]
        · rfl
      · have hold : (s.savePlayer (o c') c' mgr).allPlayer[c]? = s.allPlayer[c]? :=
          get_insert_of_ne _ _ he
        rw [hold]
        simp only [List.mem_cons, or_iff_right (Ne.symm he)]
    · rename_i hnone
      rw [ih]
      by_cases he : c' = c
      · subst he
        cases hget : s.allPlayer[c']? with
        | none => rfl
        | some it =>
          cases it with
          | none => rfl
          | some mgr => exact absurd hget (hnone mgr)
      · simp only [List.mem_cons, or_iff_right (Ne.symm he)]

variable (svrID) in
/-- **Every cached player is scheduled for saving.** In every run of the threads from an empty cache on
that deletes no timeout of a player that is in the cache again: where no operation is between two
of its sections, every player of the cache has a timeout, and every sweep from then on removes the
player or saves it. -/
theorem cached_scheduled (db : RoleInfo) (l : List Label) (s : System)
    (hg : Along (step svrID) Timely { store := { roleInfo := db } } l)
    (h : run (step svrID) { store := { roleInfo := db } } l = some s) (hq : Quiet s) (c : Int64)
    (hc : s.store.isPlayerInCache c) :
    ∃ d, s.store.timeout.cacheTime[c]? = some d ∧ ∀ now, d ≤ now →
      c ∈ (s.store.collectTimeout now).2.2 ∨ c ∈ (s.store.collectTimeout now).2.1 ∧
        ∀ o, ((s.store.collectTimeout now).1.saveCacheToDB o
            (s.store.collectTimeout now).2.1).allPlayer[c]? =
          s.store.allPlayer[c]?.map fun it => it.map (savedMgr (o c)) := by
  have hplanned : ∀ c, s.store.isPlayerInCache c → Planned s c :=
    run_inv_along (P := fun s => ∀ c, s.store.isPlayerInCache c → Planned s c) (Q := fun _ => True)
      (fun s a s' hs _ hg h => planned_step hs hg h) h (fun _ _ => trivial) hg
      fun c hc => by cases hc
  obtain ⟨d, hd⟩ := timeout_of_quiet hq (hplanned c hc)
  refine ⟨d, hd, fun now hnow => ?_⟩
  by_cases hin : c ∈ (s.store.collectTimeout now).2.2
  · exact Or.inl hin
  · have hmem := mem_timeout hd hnow hin
    refine Or.inr ⟨hmem, fun o => ?_⟩
    rw [saveCacheToDB_get]
    simp only [if_pos hmem]
    rfl

/-! ### A player that is removed and inserted again -/

/-- The player is inserted and scheduled, and removed by `SaveCacheAndDelete(charid)`, which has still
to delete its timeout. -/
def removed : List Label :=
  [.thread 0 (.addNewPlayer 1 (some PlayerDBMgr.new)), .thread 0 (.addCacheTimeout 0),
    .thread 1 (.saveAndErase .success 1)]

/-- The player is inserted and scheduled again. -/
def again : List Label :=
  [.thread 0 (.addNewPlayer 1 (some PlayerDBMgr.new)), .thread 0 (.addCacheTimeout 5)]

/-- The player is inserted after its timeout is deleted, and is saved a minute later. -/
def againScheduled : System :=
  (run (step 0) {} (removed ++ .thread 1 .deleteTimeout :: again)).get (by decide +kernel)

theorem cached_scheduled_again :
    ∃ d, againScheduled.store.timeout.cacheTime[(1 : Int64)]? = some d ∧ ∀ now, d ≤ now →
      (1 : Int64) ∈ (againScheduled.store.collectTimeout now).2.2 ∨
      (1 : Int64) ∈ (againScheduled.store.collectTimeout now).2.1 ∧
        ∀ o, ((againScheduled.store.collectTimeout now).1.saveCacheToDB o
            (againScheduled.store.collectTimeout now).2.1).allPlayer[(1 : Int64)]? =
          againScheduled.store.allPlayer[(1 : Int64)]?.map fun it => it.map (savedMgr (o 1)) := by
  refine cached_scheduled 0 ∅ (removed ++ .thread 1 .deleteTimeout :: again) againScheduled ?_
    (Option.some_get _).symm ⟨rfl, fun t => ?_⟩ 1 (by decide +kernel)
  · refine ⟨trivial, fun s₁ h₁ => ⟨trivial, fun s₂ h₂ => ⟨trivial, fun s₃ h₃ => ⟨?_, fun _ _ =>
      ⟨trivial, fun _ _ => ⟨trivial, fun _ _ => trivial⟩⟩⟩⟩⟩⟩
    have hrun : run (step 0) {} removed = some s₃ :=
      run_cons_some.mpr ⟨s₁, h₁, run_cons_some.mpr ⟨s₂, h₂, run_cons_some.mpr ⟨s₃, h₃, rfl⟩⟩⟩
    rw [← Option.get_of_eq_some (by decide +kernel) hrun]
    intro c hp hc
    cases hp
    exact absurd hc (by decide +kernel)
  · rcases t with _ | _ | t <;> exact id

/-- The player is inserted and scheduled before its timeout is deleted. -/
def againUnscheduled : System :=
  (run (step 0) {} (removed ++ again ++ [.thread 1 .deleteTimeout])).get (by decide +kernel)

/-- It is in the cache, no operation is between two sections, and it has no timeout. -/
theorem cached_unscheduled :
    Quiet againUnscheduled ∧ againUnscheduled.store.isPlayerInCache 1 ∧
      againUnscheduled.store.timeout.cacheTime[(1 : Int64)]? = none := by
  refine ⟨⟨rfl, fun t => ?_⟩, by decide +kernel, by decide +kernel⟩
  rcases t with _ | _ | t <;> exact id

end ChatShow.DBServer.Scheduled
