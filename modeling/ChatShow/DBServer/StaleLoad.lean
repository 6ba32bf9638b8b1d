import ChatShow.DBServer.CacheSystem

/-! # A login does not undo a save

Two logins may both miss a player, read its row and insert it, and a save may come in between; the
second insertion then puts an old row in place of what was saved. `Watch` keeps what the last save
has put into the entry of a player, whether it has reached the row, the rows that logins have
read since, and which logins have read theirs before. As long as the latter do not insert
(`Fresh`), the entry has what the last save has put there, or a row that was read after it had
reached the database (`save_not_undone`). -/

namespace ChatShow.DBServer.StaleLoad

open ChatShow.Dependence.CharDefine ChatShow.Dependence.CharDefine.ECharBaseStruct
open ChatShow.DBServer.PlayerDBManager ChatShow.DBServer.CharMemCache ChatShow.Lib.Maps
open ChatShow.DBServer.CacheSystem ChatShow.Lib.Runs Std

variable {svrID : Int64}

/-! ### The history of a player -/

structure Watch where
  /-- the base data that the last save has put into the entry, if there was one -/
  latest : Option BaseInfo := none
  /-- it has reached the row of the player -/
  written : Bool := true
  /-- what logins have loaded since -/
  rows : List (Option BaseInfo) := []
  /-- the logins that have loaded before -/
  stale : ℕ → Bool := fun _ => false

/-- A login has loaded the player. -/
def Watch.load (w : Watch) (t : ℕ) (player : PlayerDBMgr) : Watch :=
  { w with
    rows := if w.written then w.rows ++ [(player eBaseInfo).content] else w.rows
    stale := Function.update w.stale t (!w.written) }

/-- A save has put base data into the entry. -/
def Watch.save (info : BaseInfo) : Watch where
  latest := some info
  written := false
  rows := []
  stale _ := true

/-- The statement for what was saved last reaches the row of the player. -/
def Watch.reaches (w : Watch) (c : Int64) (db : RoleInfo) (o : SqlOutcome) : Bool :=
  o = .success && db[c]?.isSome && w.latest.any fun info => getPlayerCharid info.charid = c

/-- What a step from `s` to `s'` adds to the history of the player `c`. -/
def watch (c : Int64) (s s' : System) (w : Watch) : Label → Watch
  | .thread t (.getRoleInfo _) =>
    match s'.threads t with
    | .loaded ret player => if getPlayerCharid ret = c then w.load t player else w
    | _ => w
  | .thread _ (.saveToCache _ o info) =>
    if getPlayerCharid info.id = c ∧ s.store.isPlayerInCache c then
      let w := if hasBit info.type eBaseInfo then Watch.save (info.bsinfo.getD {}) else w
      if info.isdel && w.reaches c s.store.roleInfo o then { w with written := true } else w
    else w
  | _ => w

variable (svrID) in
/-- A step, with the history. -/
def watched (c : Int64) (s : System × Watch) (a : Label) : Option (System × Watch) :=
  (step svrID s.1 a).map fun s' => (s', watch c s.1 s' s.2 a)

/-- The steps of the system all have their history. -/
theorem run_watched {c : Int64} {l : List Label} {s s' : System} (w : Watch)
    (h : run (step svrID) s l = some s') : ∃ w', run (watched svrID c) (s, w) l = some (s', w') := by
  induction l generalizing s w with
  | nil => cases h; exact ⟨w, rfl⟩
  | cons a l ih =>
    obtain ⟨s₁, h₁, h₂⟩ := run_cons_some.mp h
    obtain ⟨w', hw'⟩ := ih (watch c s s₁ w a) h₂
    exact ⟨w', run_cons_some.mpr ⟨_, by unfold watched; rw [h₁]; rfl, hw'⟩⟩

/-! ### The steps considered -/

/-- Logins and saves. -/
def InScope : Label → Prop
  | .thread _ op => op.isLogin || op.isSave
  | .sweep _ => False

/-- A login that inserts the player has read it since the last save of it has reached the database. -/
def Fresh (c : Int64) (s : System × Watch) : Label → Prop
  | .thread t .insertPlayer =>
    ∀ ret player, s.1.threads t = .loaded ret player → getPlayerCharid ret = c →
      s.2.stale t = false
  | _ => True

/-! ### The invariant -/

/-- The entry has what was saved last or was loaded since, and so have the logins that are not
stale. -/
structure Current (c : Int64) (s : System) (w : Watch) : Prop where
  entry : ∀ info, w.latest = some info → ∃ mgr, s.store.allPlayer[c]? = some (some mgr) ∧
    ((mgr eBaseInfo).content = some info ∨ (mgr eBaseInfo).content ∈ w.rows)
  loads : ∀ t ret player, s.threads t = .loaded ret player → getPlayerCharid ret = c →
    w.stale t = false → w.latest ≠ none → (player eBaseInfo).content ∈ w.rows

/-- A step that loads nothing and leaves the entry alone. -/
theorem current_of_same {c : Int64} {s : System} {w : Watch} (h : Current c s w) {store : Store}
    {t : ℕ} {pc : Pc} (hstore : store.allPlayer[c]? = s.store.allPlayer[c]?)
    (hpc : ∀ ret player, pc ≠ .loaded ret player) :
    Current c { s with store := store, threads := Function.update s.threads t pc } w where
  entry info hi := by
    obtain ⟨mgr, hget, hmgr⟩ := h.entry info hi
    exact ⟨mgr, hstore.trans hget, hmgr⟩
  loads t' ret player ht' := by
    by_cases he : t' = t
    · subst he
      dsimp only at ht'
      rw [Function.update_self] at ht'
      exact absurd ht' (hpc ret player)
    · exact h.loads t' ret player ((threads_of_ne he).symm.trans ht')

/-- A login loads a player. -/
theorem current_load {c : Int64} {s : System} {w : Watch} (h : Current c s w) {t : ℕ} {ret : Int64}
    {player : PlayerDBMgr} :
    Current c { s with threads := Function.update s.threads t (.loaded ret player) }
      (if getPlayerCharid ret = c then w.load t player else w) := by
  have hsub : ∀ x ∈ w.rows, x ∈ (w.load t player).rows := fun x hx => by
    unfold Watch.load
    dsimp only
    split_ifs
    · exact List.mem_append_left _ hx
    · exact hx
  by_cases hret : getPlayerCharid ret = c
  · rw [if_pos hret]
    refine ⟨fun info hi => ?_, fun t' ret' player' ht' hret' hst hl => ?_⟩
    · obtain ⟨mgr, hget, hmgr⟩ := h.entry info hi
      exact ⟨mgr, hget, hmgr.imp_right (hsub _)⟩
    · dsimp only at ht'
      by_cases he : t' = t
      · subst he
        rw [Function.update_self] at ht'
        cases ht'
        have hw : w.written = true := by
          have hst' : (!w.written) = false := (Function.update_self ..).symm.trans hst
          exact (Bool.not_eq_false' ..).mp hst'
        unfold Watch.load
        dsimp only
        rw [if_pos hw]
        exact List.mem_append_right _ List.mem_cons_self
      · rw [threads_of_ne he] at ht'
        have hst' : w.stale t' = false := (Function.update_of_ne he ..).symm.trans hst
        exact hsub _ (h.loads t' ret' player' ht' hret' hst' hl)
  · rw [if_neg hret]
    refine ⟨h.entry, fun t' ret' player' ht' hret' => ?_⟩
    by_cases he : t' = t
    · subst he
      dsimp only at ht'
      rw [Function.update_self] at ht'
      cases ht'
      exact absurd hret' hret
    · exact h.loads t' ret' player' ((threads_of_ne he).symm.trans ht') hret'

/-- A login that is not stale inserts the player. -/
theorem current_insert {c : Int64} {s : System} {w : Watch} (h : Current c s w) {t : ℕ}
    {ret : Int64} {player : PlayerDBMgr} (ht : s.threads t = .loaded ret player)
    (hg : getPlayerCharid ret = c → w.stale t = false) :
    Current c { s with
      store := s.store.insertPlayer (getPlayerCharid ret) (some player)
      threads := Function.update s.threads t
        (.inserted (getPlayerCharid ret) (some ret)) } w := by
  by_cases hret : getPlayerCharid ret = c
  · refine ⟨fun info hi => ⟨player, ?_, Or.inr ?_⟩, fun t' ret' player' ht' => ?_⟩
    · rw [← hret]
      exact get_insert_self _ _ _
    · exact h.loads t ret player ht hret (hg hret) (by rw [hi]; exact Option.some_ne_none _)
    · by_cases he : t' = t
      · subst he
        dsimp only at ht'
        rw [Function.update_self] at ht'
        cases ht'
      · exact h.loads t' ret' player' ((threads_of_ne he).symm.trans ht')
  · exact current_of_same h (get_insert_of_ne _ _ hret) fun ret player hp => by cases hp

/-- A thread that was idle, and is again. -/
theorem threads_idle {s : System} {t : ℕ} (ht : s.threads t = .idle) :
    Function.update s.threads t .idle = s.threads := by
  rw [← ht, Function.update_eq_self]

/-- A save of the player. -/
theorem current_save {c : Int64} {s : System} {w : Watch} (h : Current c s w) {now : ℕ}
    {o : SqlOutcome} {info : SaveTypeInfo} {store : Store} (hid : getPlayerCharid info.id = c)
    (hc : s.store.isPlayerInCache c) (hs : s.store.saveToCache now o info = some store) :
    Current c { s with store := store }
      (if hasBit info.type eBaseInfo then Watch.save (info.bsinfo.getD {}) else w) := by
  subst hid
  obtain ⟨it, hget⟩ := Option.isSome_iff_exists.mp hc
  obtain ⟨-, it', hit', hcont⟩ := saveToCache_spec hget hs
  have hget' : store.allPlayer[getPlayerCharid info.id]? = some it' := by rw [hit', if_pos rfl]
  split_ifs at hcont ⊢ with hb
  · obtain ⟨mgr, rfl, hmgr⟩ := Option.map_eq_some_iff.mp hcont
    refine ⟨fun base hi => ⟨mgr, hget', Or.inl ?_⟩, fun t ret player _ _ hst => by cases hst⟩
    rw [hmgr]
    exact hi
  · refine ⟨fun base hi => ?_, h.loads⟩
    obtain ⟨mgr, hmgr, hbase⟩ := h.entry base hi
    obtain rfl : it = some mgr := Option.some.inj (hget.symm.trans hmgr)
    obtain ⟨mgr', rfl, hmgr'⟩ := Option.map_eq_some_iff.mp hcont
    refine ⟨mgr', hget', ?_⟩
    rw [hmgr']
    exact hbase

/-- **A step keeps the entry current**, if a stale login does not insert. -/
theorem current_step {c : Int64} {s s' : System × Watch} {a : Label} (h : Current c s.1 s.2)
    (ha : InScope a) (hg : Fresh c s a) (hstep : watched svrID c s a = some s') :
    Current c s'.1 s'.2 := by
  obtain ⟨s, w⟩ := s
  obtain ⟨s₁, h₁, rfl⟩ := Option.map_eq_some_iff.mp hstep
  dsimp only at h h₁ hg ⊢
  cases a with
  | sweep op => cases ha
  | thread t op =>
    obtain ⟨store, pc, htaken, rfl⟩ := step_thread h₁
    generalize hp : s.threads t = p at htaken
    cases htaken with
    | isPlayerInCache ret =>
      refine current_of_same h rfl fun ret' player hpc => ?_
      split_ifs at hpc
    | getRow ret =>
      unfold watch
      dsimp only
      rw [Function.update_self]
      exact current_load h
    | getCaught ret =>
      unfold watch
      dsimp only
      rw [Function.update_self]
      exact current_load h
    | getThrows ret =>
      unfold watch
      dsimp only
      rw [Function.update_self]
      exact current_of_same h rfl fun ret' player hpc => by cases hpc
    | insertPlayer ret player => exact current_insert h hp (hg ret player hp)
    | addCacheTimeout charid ret now =>
      refine current_of_same h rfl fun ret' player hpc => ?_
      cases ret <;> cases hpc
    | copyPlayerInfo ret info hi =>
      refine current_of_same h rfl fun ret' player hpc => ?_
      split_ifs at hpc
    | delCacheTime charid => exact current_of_same h rfl fun ret' player hpc => by cases hpc
    | saveToCache now o info s' hs =>
      rw [threads_idle hp]
      unfold watch
      dsimp only
      split_ifs with hcase hb hd hd
      · have := current_save h hcase.1 hcase.2 hs
        rw [if_pos hb] at this
        exact ⟨this.entry, this.loads⟩
      · have := current_save h hcase.1 hcase.2 hs
        rwa [if_pos hb] at this
      · have := current_save h hcase.1 hcase.2 hs
        rw [if_neg hb] at this
        exact ⟨this.entry, this.loads⟩
      · have := current_save h hcase.1 hcase.2 hs
        rwa [if_neg hb] at this
      · refine ⟨fun base hi => ?_, h.loads⟩
        obtain ⟨mgr, hget, hmgr⟩ := h.entry base hi
        refine ⟨mgr, ?_, hmgr⟩
        have hne : getPlayerCharid info.id ≠ c := fun he =>
          hcase ⟨he, by unfold Store.isPlayerInCache; rw [hget]; rfl⟩
        exact (saveToCache_of_ne hs hne).trans hget
    | addNewPlayer | getPlayerInfo | getStruct | saveAndErase | deleteTimeout
      | saveCacheAndDeleteAll => cases ha

variable (svrID) in
/-- **A login does not undo a save.** In every run of logins and saves, from any state on: if no login
inserts the player that has read its row before the last save of it has reached the database, then
from the first save on the entry of the player is there, and has what the last save has put into it
or what a login has loaded after that has reached the database. -/
theorem save_not_undone (c : Int64) (s s' : System) (l : List Label)
    (hl : ∀ a ∈ l, InScope a) (hg : Along (watched svrID c) (Fresh c) (s, {}) l)
    (h : run (step svrID) s l = some s') :
    ∃ w, run (watched svrID c) (s, {}) l = some (s', w) ∧ ∀ info, w.latest = some info →
      ∃ mgr, s'.store.allPlayer[c]? = some (some mgr) ∧
        ((mgr eBaseInfo).content = some info ∨ (mgr eBaseInfo).content ∈ w.rows) := by
  obtain ⟨w, hw⟩ := run_watched {} h
  have h0 : Current c s {} :=
    ⟨fun info hi => (by cases hi), fun t ret player _ _ _ hl => absurd rfl hl⟩
  have hcur := run_inv_along (P := fun s => Current c s.1 s.2)
    (fun s a s' hs ha hg h => current_step hs ha hg h) hw hl hg h0
  exact ⟨w, hw, hcur.entry⟩

/-! ### Two logins and a save -/

/-- A database with one player, and nothing cached. -/
def fresh : System where
  store := { roleInfo := (∅ : RoleInfo).insert 1 { charid := 1, charname := [97] } }

/-- Two logins miss the player and read its row, and the first one inserts it. -/
def bothMissed : List Label :=
  [.thread 0 (.isPlayerInCache 1), .thread 1 (.isPlayerInCache 1), .thread 0 (.getRoleInfo .row),
    .thread 1 (.getRoleInfo .row), .thread 0 .insertPlayer]

def renamed : SaveTypeInfo where
  type := 1
  id := 1
  bsinfo := some { charid := 1, charname := [98] }

def inserted : System := (run (step 0) fresh bothMissed).get (by decide +kernel)

/-- What the cache has of the base data of the player. -/
def base (s : System) : Option (Option BaseInfo) :=
  s.store.allPlayer[(1 : Int64)]?.bind fun it => it.map fun mgr => (mgr eBaseInfo).content

/-- The second login inserts the player too, and then it is saved. -/
def savedLast : System :=
  (run (step 0) inserted [.thread 1 .insertPlayer,
    .thread 2 (.saveToCache 0 .success renamed)]).get (by decide +kernel)

theorem save_not_undone_last :
    ∃ w, run (watched 0 1) (inserted, {}) [.thread 1 .insertPlayer,
        .thread 2 (.saveToCache 0 .success renamed)] = some (savedLast, w) ∧
      ∀ info, w.latest = some info → ∃ mgr,
        savedLast.store.allPlayer[(1 : Int64)]? = some (some mgr) ∧
          ((mgr eBaseInfo).content = some info ∨ (mgr eBaseInfo).content ∈ w.rows) := by
  refine save_not_undone 0 1 inserted savedLast _ ?_ ?_ (Option.some_get _).symm
  · intro a ha
    rcases List.mem_pair.mp ha with rfl | rfl <;> exact rfl
  · exact ⟨fun _ _ _ _ => rfl, fun _ _ => ⟨trivial, fun _ _ => trivial⟩⟩

/-- It inserts the player after it is saved: the row that it has read before takes the place of what
was saved, although the save has never reached the database. -/
theorem save_undone :
    (run (step 0) inserted [.thread 2 (.saveToCache 0 .success renamed)]).map base =
      some (some (some { charid := 1, charname := [98] })) ∧
    (run (step 0) inserted [.thread 2 (.saveToCache 0 .success renamed),
      .thread 1 .insertPlayer]).map base = some (some (some { charid := 1, charname := [97] })) :=
  ⟨by decide +kernel, by decide +kernel⟩

end ChatShow.DBServer.StaleLoad
