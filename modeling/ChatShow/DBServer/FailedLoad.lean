import ChatShow.DBServer.CacheSystem

/-! # Loads that fail

`playerInfo` is the login handler as a whole, with what it answers. `getRoleInfo` returns in the same way
whether it has read a row or not, and the handler inserts the player in either case, so a load that fails
leaves a player without base data, which the next copy or save of it uses (`null_used`). Where no load
fails, no player of the cache is without its base data (`loads_iff`). -/

namespace ChatShow.DBServer.FailedLoad

open ChatShow.Dependence.CharDefine ChatShow.Dependence.CharDefine.ECharBaseStruct
open ChatShow.DBServer.PlayerDBManager ChatShow.DBServer.CharMemCache
open ChatShow.DBServer.CacheSystem (SelectOutcome Op Pc getRoleInfo exec)
open ChatShow.Lib.Maps ChatShow.Lib.Runs Std

/-! ### The handler -/

variable (svrID : Int64) (byteSize : PlayerInfo → ℕ)

/-- The part of `MSG_REQ_GM2DB_PLAYERINFO` up to `GetPlayerInfo`; `none` is its `return`. -/
def load (s : Store) (now : ℕ) (ret : Int64) (o : SelectOutcome) : Option Store :=
  if s.isPlayerInCache (getPlayerCharid ret) then some s
  else
    match o with
    | .throws => none
    | .caught => some (s.addNewPlayer (getPlayerCharid ret) (some PlayerDBMgr.new) now)
    | .row =>
      some (s.addNewPlayer (getPlayerCharid ret)
        (some (getRoleInfo s.roleInfo ret PlayerDBMgr.new)) now)

/-- `MSG_REQ_GM2DB_PLAYERINFO`: the store after it, and what it answers. What `GetPlayerInfo` returns is
not looked at. -/
def playerInfo (s : Store) (now : ℕ) (ret : Int64) (o : SelectOutcome) :
    Option (Store × Option PlayerInfo) :=
  match load s now ret o with
  | none => some (s, none)
  | some s => do
    let (info, s) ← s.getPlayerInfo svrID ret
    let content := info.getD {}
    some (s, if 32 * 1024 ≤ byteSize content then none else some content)

/-- A thread on its own takes a section. -/
def thread (p : Store × Pc) (op : Op) : Option (Store × Pc) := exec svrID p.1 p.2 op

/-- The sections of `GetPlayerInfo`. -/
def copySections (s : Store) (ret : Int64) : List Op :=
  .copyPlayerInfo :: if (s.allPlayer[ret]?).isSome then [.delCacheTime] else []

/-- The sections up to `GetPlayerInfo`. -/
def loadSections (s : Store) (now : ℕ) (ret : Int64) (o : SelectOutcome) : List Op :=
  .isPlayerInCache ret ::
    if s.isPlayerInCache (getPlayerCharid ret) then []
    else if o = .throws then [.getRoleInfo o]
    else [.getRoleInfo o, .insertPlayer, .addCacheTimeout now]

theorem run_copySections (s : Store) (ret : Int64) :
    run (thread svrID) (s, .cached ret) (copySections s ret) =
      (s.getPlayerInfo svrID ret).map fun r => (r.2, Pc.idle) := by
  unfold copySections Store.getPlayerInfo
  rw [run_cons, thread, exec]
  dsimp only
  cases hcopy : s.copyPlayerInfo svrID ret with
  | none => rfl
  | some info =>
    unfold Store.copyPlayerInfo at hcopy
    cases hget : s.allPlayer[ret]? with
    | none =>
      rw [hget] at hcopy
      cases hcopy
      rfl
    | some it =>
      rw [hget] at hcopy
      obtain ⟨mgr, -, hcopy⟩ := Option.bind_eq_some_iff.mp hcopy
      obtain ⟨info', -, hcopy⟩ := Option.bind_eq_some_iff.mp hcopy
      cases hcopy
      rfl

theorem run_loadSections (s : Store) (now : ℕ) (ret : Int64) (o : SelectOutcome) :
    run (thread svrID) (s, .idle) (loadSections s now ret o) =
      some ((load s now ret o).elim (s, .idle) fun s₁ => (s₁, .cached ret)) := by
  unfold loadSections load
  by_cases hin : s.isPlayerInCache (getPlayerCharid ret) = true
  · rw [if_pos hin, if_pos hin, run_cons, thread, exec, if_pos hin]
    rfl
  · rw [if_neg hin, if_neg hin, run_cons, thread, exec, if_neg hin]
    cases o <;> rfl

/-- The handler is the sections of a thread, where no other thread gets between them. -/
theorem run_sections (s : Store) (now : ℕ) (ret : Int64) (o : SelectOutcome) :
    run (thread svrID) (s, .idle)
        (loadSections s now ret o ++ (load s now ret o).elim [] fun s => copySections s ret) =
      (playerInfo svrID byteSize s now ret o).map fun r => (r.1, Pc.idle) := by
  rw [run_append, run_loadSections, Option.bind_some]
  unfold playerInfo
  cases load s now ret o with
  | none => rfl
  | some s₁ =>
    dsimp only [Option.elim_some]
    rw [run_copySections]
    cases s₁.getPlayerInfo svrID ret <;> rfl

/-! ### Calls -/

inductive Label
  | playerInfo (now : ℕ) (ret : Int64) (o : SelectOutcome)
  | getPlayerInfo (charid : Int64)
  | saveToCache (now : ℕ) (o : SqlOutcome) (info : SaveTypeInfo)
  /-- a turn of `svr` -/
  | svr (now : ℕ) (o o' : Int64 → SqlOutcome)
  /-- the table is changed by another process -/
  | table (roleInfo : RoleInfo)

def step (s : Store) : Label → Option Store
  | .playerInfo now ret o => (playerInfo svrID byteSize s now ret o).map Prod.fst
  | .getPlayerInfo charid => (s.getPlayerInfo svrID charid).map Prod.snd
  | .saveToCache now o info => s.saveToCache now o info
  | .svr now o o' =>
    let c := s.collectTimeout now
    some ((c.1.saveCacheToDB o c.2.1).saveCacheAndDeleteAll o' c.2.2)
  | .table roleInfo => some { s with roleInfo := roleInfo }

/-- The player is not in the cache, and the database gives no row of it. -/
def Failed (s : Store) (ret : Int64) (o : SelectOutcome) : Prop :=
  s.isPlayerInCache (getPlayerCharid ret) = false ∧
    (o = .row → s.roleInfo[getPlayerCharid ret]? = none)

/-- The handler uses nothing null, and where its load has failed it leaves no player and answers with
something that is no player. -/
def Answered (s : Store) (now : ℕ) (ret : Int64) (o : SelectOutcome) : Prop :=
  ∃ s' answer, playerInfo svrID byteSize s now ret o = some (s', answer) ∧
    (Failed s ret o → s'.allPlayer[getPlayerCharid ret]? = none ∧
      ∃ info, answer = some info ∧ info.bsinfo = none)

/-- What is asked of a call. -/
def Met (s : Store) : Label → Prop
  | .playerInfo now ret o => Answered svrID byteSize s now ret o
  | a => (step svrID byteSize s a).isSome

/-- A load does not fail. -/
def Loads (s : Store) : Label → Prop
  | .playerInfo _ ret o => ¬ Failed s ret o
  | _ => True

/-- Every player of the cache has its base data. -/
def Complete (s : Store) : Prop :=
  ∀ (c : Int64) it, s.allPlayer[c]? = some it →
    ∃ mgr : PlayerDBMgr, it = some mgr ∧ (mgr eBaseInfo).content.isSome

/-! ### Calls on players with base data -/

variable {svrID byteSize} {s s' : Store} {c : Int64}

theorem Complete.congr (h : Complete s) (hs : s'.allPlayer = s.allPlayer) : Complete s' := by
  unfold Complete
  rw [hs]
  exact h

theorem Complete.insert (h : Complete s) {mgr : PlayerDBMgr} (hm : (mgr eBaseInfo).content.isSome) :
    Complete (s.insertPlayer c (some mgr)) := by
  intro a it ha
  unfold Store.insertPlayer at ha
  rw [get_insert] at ha
  split_ifs at ha
  · cases ha
    exact ⟨mgr, rfl, hm⟩
  · exact h a it ha

/-- A copy of a player with base data. -/
theorem copyPlayerInfo_of_some {mgr : PlayerDBMgr} (svrID : Int64) (hc : s.allPlayer[c]? = some (some mgr))
    (hm : (mgr eBaseInfo).content.isSome) : ∃ info, s.copyPlayerInfo svrID c = some (some info) := by
  obtain ⟨base, hbase⟩ := Option.isSome_iff_exists.mp hm
  have hget : ∃ info, mgr.getPlayerInfo svrID = some info := by
    unfold PlayerDBMgr.getPlayerInfo
    rw [hbase]
    exact ⟨_, rfl⟩
  obtain ⟨info, hinfo⟩ := hget
  refine ⟨info, ?_⟩
  unfold Store.copyPlayerInfo
  rw [hc]
  dsimp only
  rw [Option.bind_eq_bind, Option.bind_some, hinfo]
  rfl

theorem Complete.getPlayerInfo (h : Complete s) (svrID c : Int64) :
    ∃ info s', s.getPlayerInfo svrID c = some (info, s') ∧ s'.allPlayer = s.allPlayer := by
  unfold Store.getPlayerInfo
  cases hc : s.allPlayer[c]? with
  | none =>
    have hcopy : s.copyPlayerInfo svrID c = some none := by
      unfold Store.copyPlayerInfo
      rw [hc]
    rw [hcopy]
    exact ⟨none, s, rfl, rfl⟩
  | some it =>
    obtain ⟨mgr, rfl, hm⟩ := h c it hc
    obtain ⟨info, hcopy⟩ := copyPlayerInfo_of_some svrID hc hm
    rw [hcopy]
    exact ⟨_, _, rfl, rfl⟩

theorem Complete.saveToCache (h : Complete s) (now : ℕ) (o : SqlOutcome) (info : SaveTypeInfo) :
    ∃ s', s.saveToCache now o info = some s' ∧ Complete s' := by
  cases hc : s.allPlayer[getPlayerCharid info.id]? with
  | none => exact ⟨s, saveToCache_of_absent now o hc, h⟩
  | some it =>
    obtain ⟨mgr, rfl, hm⟩ := h _ it hc
    have hover : ∃ mgr', overwritten info mgr = some mgr' := by
      obtain ⟨base, hbase⟩ := Option.isSome_iff_exists.mp hm
      unfold overwritten PlayerDBMgr.addStruct CStructTemplate.addContent
      rw [hbase]
      split_ifs
      · exact ⟨_, rfl⟩
      · exact ⟨_, rfl⟩
    obtain ⟨mgr', hmgr'⟩ := hover
    have hs := saveToCache_eq now o hc
    rw [hmgr', Option.map_some] at hs
    refine ⟨_, hs, ?_⟩
    obtain ⟨-, it', hit', hbase⟩ := saveToCache_spec hc hs
    intro a it ha
    rw [hit'] at ha
    split_ifs at ha with hca
    · cases ha
      rw [Option.map_some] at hbase
      split_ifs at hbase
      · obtain ⟨mgr'', rfl, hcont⟩ := Option.map_eq_some_iff.mp hbase
        exact ⟨mgr'', rfl, by rw [hcont]; rfl⟩
      · obtain ⟨mgr'', rfl, hcont⟩ := Option.map_eq_some_iff.mp hbase
        exact ⟨mgr'', rfl, by rw [hcont]; exact hm⟩
    · exact h a it ha

theorem Complete.savePlayer (h : Complete s) (o : SqlOutcome) {mgr : PlayerDBMgr}
    (hm : (mgr eBaseInfo).content.isSome) : Complete (s.savePlayer o c mgr) := by
  have hins := @Complete.insert s c h (mgr.savePlayerStruct o s.roleInfo).2.1
    (by rw [savePlayerStruct_content]; exact hm)
  exact hins.congr rfl

theorem Complete.saveCacheToDB (h : Complete s) (o : Int64 → SqlOutcome) (chars : List Int64) :
    Complete (s.saveCacheToDB o chars) := by
  induction chars generalizing s with
  | nil => exact h
  | cons c chars ih =>
    unfold Store.saveCacheToDB
    split
    next mgr hget =>
      obtain ⟨mgr', he, hm⟩ := h c _ hget
      cases he
      exact ih (h.savePlayer (o c) hm)
    · exact ih h

theorem Complete.svr (h : Complete s) (now : ℕ) (o o' : Int64 → SqlOutcome) :
    Complete (((s.collectTimeout now).1.saveCacheToDB o (s.collectTimeout now).2.1).saveCacheAndDeleteAll
      o' (s.collectTimeout now).2.2) := by
  have hc : Complete (s.collectTimeout now).1 := h.congr rfl
  intro a it ha
  rw [saveCacheAndDeleteAll_get] at ha
  split_ifs at ha
  exact hc.saveCacheToDB o _ a it ha

/-! ### Loads -/

variable {now : ℕ} {ret : Int64} {o : SelectOutcome}

theorem playerInfo_of_none (hl : load s now ret o = none) :
    playerInfo svrID byteSize s now ret o = some (s, none) := by
  unfold playerInfo
  rw [hl]

theorem playerInfo_of_some {s₁ : Store} (hl : load s now ret o = some s₁) :
    playerInfo svrID byteSize s now ret o = (s₁.getPlayerInfo svrID ret).map fun r =>
      (r.2, if 32 * 1024 ≤ byteSize (r.1.getD {}) then none else some (r.1.getD {})) := by
  unfold playerInfo
  rw [hl]
  dsimp only
  cases s₁.getPlayerInfo svrID ret <;> rfl

theorem getPlayerInfo_allPlayer {info : Option PlayerInfo} (h : s.getPlayerInfo svrID c = some (info, s')) :
    s'.allPlayer = s.allPlayer := by
  obtain ⟨info', -, h⟩ := Option.bind_eq_some_iff.mp h
  cases h
  split_ifs <;> rfl

/-- A load that does not fail. -/
theorem Complete.load (h : Complete s) (now : ℕ) (hf : ¬ Failed s ret o) :
    ∃ s₁, load s now ret o = some s₁ ∧ Complete s₁ := by
  unfold FailedLoad.load
  split_ifs with hin
  · exact ⟨s, rfl, h⟩
  have hrow : o = .row ∧ s.roleInfo[getPlayerCharid ret]? ≠ none := by
    by_contra hno
    exact hf ⟨Bool.eq_false_iff.mpr hin, fun ho => not_not.mp fun hn => hno ⟨ho, hn⟩⟩
  obtain ⟨rfl, hrow⟩ := hrow
  obtain ⟨row, hrow⟩ := Option.ne_none_iff_exists'.mp hrow
  refine ⟨_, rfl, ?_⟩
  have hm : ((getRoleInfo s.roleInfo ret PlayerDBMgr.new) eBaseInfo).content.isSome := by
    unfold getRoleInfo
    rw [hrow]
    exact congrArg (fun t : CStructTemplate eBaseInfo => t.content.isSome)
      (Function.update_self eBaseInfo _ _)
  exact (h.insert hm).congr rfl

/-- A load that fails returns, or leaves the player without anything. -/
theorem load_failed (now : ℕ) (hf : Failed s ret o) : load s now ret o = none ∨
    load s now ret o = some (s.addNewPlayer (getPlayerCharid ret) (some PlayerDBMgr.new) now) := by
  unfold load
  rw [if_neg (Bool.eq_false_iff.mp hf.1)]
  cases o with
  | throws => exact Or.inl rfl
  | caught => exact Or.inr rfl
  | row =>
    refine Or.inr ?_
    unfold getRoleInfo
    rw [hf.2 rfl]

theorem addNewPlayer_get (s : Store) (c : Int64) (player : Option PlayerDBMgr) (now : ℕ) :
    (s.addNewPlayer c player now).allPlayer[c]? = some player := get_insert_self _ _ _

/-- What is asked of the handler holds just where its load does not fail. -/
theorem answered_playerInfo_iff (h : Complete s) : Answered svrID byteSize s now ret o ↔ ¬ Failed s ret o := by
  constructor
  · rintro ⟨s', answer, hp, hmet⟩ hf
    obtain ⟨hnone, info, rfl, -⟩ := hmet hf
    rcases load_failed now hf with hl | hl
    · rw [playerInfo_of_none hl] at hp
      cases hp
    · rw [playerInfo_of_some hl] at hp
      obtain ⟨⟨info, s''⟩, hget, hp⟩ := Option.map_eq_some_iff.mp hp
      obtain rfl : s'' = s' := congrArg Prod.fst hp
      rw [getPlayerInfo_allPlayer hget, addNewPlayer_get] at hnone
      cases hnone
  · intro hf
    obtain ⟨s₁, hl, h₁⟩ := h.load now hf
    obtain ⟨info, s', hget, -⟩ := h₁.getPlayerInfo svrID ret
    unfold Answered
    rw [playerInfo_of_some hl, hget]
    exact ⟨_, _, rfl, fun hf' => absurd hf' hf⟩

theorem met_iff (h : Complete s) (a : Label) : Met svrID byteSize s a ↔ Loads s a := by
  cases a with
  | playerInfo now ret o => exact answered_playerInfo_iff h
  | getPlayerInfo charid =>
    obtain ⟨info, s', hget, -⟩ := h.getPlayerInfo svrID charid
    refine iff_of_true (?_ : ((s.getPlayerInfo svrID charid).map Prod.snd).isSome) trivial
    rw [hget]
    rfl
  | saveToCache now o info =>
    obtain ⟨s', hs, -⟩ := h.saveToCache now o info
    refine iff_of_true (?_ : (s.saveToCache now o info).isSome) trivial
    rw [hs]
    rfl
  | svr => exact iff_of_true rfl trivial
  | table => exact iff_of_true rfl trivial

/-- A step without a failed load keeps the base data of all players. -/
theorem complete_step (h : Complete s) {a : Label} (ha : Loads s a)
    (hs : step svrID byteSize s a = some s') : Complete s' := by
  cases a with
  | playerInfo now ret o =>
    obtain ⟨s₁, hl, h₁⟩ := h.load now ha
    unfold step at hs
    dsimp only at hs
    rw [playerInfo_of_some hl, Option.map_map] at hs
    obtain ⟨⟨info, s''⟩, hget, rfl⟩ := Option.map_eq_some_iff.mp hs
    exact h₁.congr (getPlayerInfo_allPlayer hget)
  | getPlayerInfo charid =>
    obtain ⟨⟨info, s''⟩, hget, rfl⟩ := Option.map_eq_some_iff.mp hs
    exact h.congr (getPlayerInfo_allPlayer hget)
  | saveToCache now o info =>
    obtain ⟨s₁, hs₁, h₁⟩ := h.saveToCache now o info
    unfold step at hs
    dsimp only at hs
    rw [hs₁] at hs
    cases hs
    exact h₁
  | svr now o o' =>
    cases hs
    exact h.svr now o o'
  | table roleInfo =>
    cases hs
    exact h.congr rfl

/-- **All calls of a run are what is asked of them just where none of its loads fails**: no player is left
that a load has not brought in, nothing null is used then or later, and who asks is told. -/
theorem loads_iff (svrID : Int64) (byteSize : PlayerInfo → ℕ) (roleInfo : RoleInfo) (l : List Label) :
    Along (step svrID byteSize) (Met svrID byteSize) { roleInfo := roleInfo } l ↔
      Along (step svrID byteSize) Loads { roleInfo := roleInfo } l := by
  refine along_congr (I := Complete) (fun s a h => met_iff h a)
    (fun s a s' h hm hs => complete_step h ((met_iff h a).mp hm) hs) l fun c it hc => ?_
  rw [TreeMap.getElem?_emptyc] at hc
  cases hc

/-- The id of player 7 with the number of a group of servers. -/
def grouped : Int64 := createCharidGS 1 7

/-- A save of its base data. -/
def saved : SaveTypeInfo where
  type := setBit 0 eBaseInfo
  id := grouped

/-- A player without a row logs in: it is in the cache then, the answer is an empty message, and a save
of the player uses the null content, as does a copy of it. -/
theorem null_used : ∃ s, playerInfo 1 (fun _ => 0) {} 0 grouped .row = some (s, some {}) ∧
    (s.allPlayer[(7 : Int64)]?).isSome ∧ s.saveToCache 0 .success saved = none ∧
    s.getPlayerInfo 1 7 = none := by
  refine ⟨_, rfl, ?_, ?_, ?_⟩ <;> decide +kernel

end ChatShow.DBServer.FailedLoad
