import ChatShow.DBServer.CharMemCache

/-! # Removing players whose save fails

Both `SaveCacheAndDelete` save a player and remove it, whatever the save returns. So a dirty
structure is lost unless its statement was carried out, which is never so for the friends, for which
there is no statement, and for the base data only if it is loaded and the database takes it
(`written_base_iff`). -/

namespace ChatShow.DBServer.SaveFailure

open ChatShow.Dependence.CharDefine ChatShow.Dependence.CharDefine.ECharBaseStruct
open ChatShow.DBServer.PlayerDBManager ChatShow.DBServer.CharMemCache ChatShow.Lib.Maps

/-! ### Structures that are written -/

/-- The save of a structure reports success, and its statement is carried out. -/
def Written (o : SqlOutcome) {i : ECharBaseStruct} (t : CStructTemplate i) : Prop :=
  (t.save o).1.res = 0 ∧ (t.save o).1.stmt.isSome

theorem not_written_friend (o : SqlOutcome) (t : CStructTemplate eFriendInfo) : ¬ Written o t := by
  rintro ⟨hres, -⟩
  have h : (t.save o).1.res = -1 := rfl
  omega

theorem written_base_iff {o : SqlOutcome} {t : CStructTemplate eBaseInfo} (hd : t.flag = true) :
    Written o t ↔ t.content.isSome ∧ o = .success := by
  unfold Written
  cases hc : t.content with
  | none =>
    rw [save_null o hd hc]
    simp
  | some info =>
    rw [save_dirty o hd hc]
    cases o <;> simp [savePlayerBaseInfo]

/-- All that is dirty of a player is base data that the database takes. -/
def Writable (o : Int64 → SqlOutcome) (s : Store) (c : Int64) : Prop :=
  ∀ mgr, s.allPlayer[c]? = some (some mgr) → (mgr eFriendInfo).flag = false ∧
    ((mgr eBaseInfo).flag = true → (mgr eBaseInfo).content.isSome ∧ o c = .success)

theorem dirty_written_iff {o : SqlOutcome} {mgr : PlayerDBMgr} :
    (∀ i, (mgr i).flag = true → Written o (mgr i)) ↔ (mgr eFriendInfo).flag = false ∧
      ((mgr eBaseInfo).flag = true → (mgr eBaseInfo).content.isSome ∧ o = .success) := by
  constructor
  · intro h
    refine ⟨?_, fun hd => (written_base_iff hd).mp (h eBaseInfo hd)⟩
    by_contra hf
    exact not_written_friend o _ (h eFriendInfo ((Bool.not_eq_false _).mp hf))
  · rintro ⟨hf, hb⟩ i hd
    cases i with
    | eBaseInfo => exact (written_base_iff hd).mpr (hb hd)
    | eFriendInfo => rw [hf] at hd; cases hd

/-! ### When nothing is lost -/

/-- A player is only removed if all that was dirty of it has been written, and what could not be
written stays in the cache with its content and its flag. -/
def KeepsDirty (o : Int64 → SqlOutcome) (s s' : Store) : Prop :=
  ∀ c mgr, s.allPlayer[c]? = some (some mgr) →
    (s'.allPlayer[c]? = none → ∀ i, (mgr i).flag = true → Written (o c) (mgr i)) ∧
    ∀ i, (mgr i).flag = true → ¬ Written (o c) (mgr i) →
      ∃ mgr', s'.allPlayer[c]? = some (some mgr') ∧ mgr' i = mgr i

theorem keepsDirty_iff {o : Int64 → SqlOutcome} {s s' : Store} {chars : List Int64}
    (h : ∀ a, s'.allPlayer[a]? = if a ∈ chars then none else s.allPlayer[a]?) :
    KeepsDirty o s s' ↔ ∀ c ∈ chars, Writable o s c := by
  constructor
  · intro hk c hc mgr hget
    exact dirty_written_iff.mp ((hk c mgr hget).1 (by rw [h, if_pos hc]))
  · intro hw c mgr hget
    by_cases hc : c ∈ chars
    · have hall := dirty_written_iff.mpr (hw c hc mgr hget)
      exact ⟨fun _ => hall, fun i hd hn => absurd (hall i hd) hn⟩
    · have hsame : s'.allPlayer[c]? = some (some mgr) := by rw [h, if_neg hc, hget]
      refine ⟨fun hn => ?_, fun i _ _ => ⟨mgr, hsame, rfl⟩⟩
      rw [hsame] at hn
      cases hn

/-- **When removing loses nothing.** For every cache and every outcome of the statements, both
`SaveCacheAndDelete` keep what is dirty and could not be written exactly if there is no such thing:
all that is dirty of the players to be removed is base data that is loaded, and whose statement the
database carries out. -/
theorem saveCacheAndDelete_keeps_dirty (o : Int64 → SqlOutcome) (s : Store) :
    (∀ chars, KeepsDirty o s (s.saveCacheAndDeleteAll o chars) ↔ ∀ c ∈ chars, Writable o s c) ∧
    ∀ c s', s.saveCacheAndDelete (o c) c = some s' → (KeepsDirty o s s' ↔ Writable o s c) := by
  refine ⟨fun chars => keepsDirty_iff (saveCacheAndDeleteAll_get o s chars), fun c s' h => ?_⟩
  refine (keepsDirty_iff (saveCacheAndDelete_get h)).trans ?_
  rw [List.forall_mem_singleton]

/-! ### A player with dirty base data -/

/-- The base data of the player is loaded and dirty. -/
def dirtyPlayer : PlayerDBMgr :=
  (PlayerDBMgr.new.setStruct eBaseInfo (some { charid := 1 })).setFlag eBaseInfo true

def dirtyCache : Store where
  allPlayer := (∅ : Std.TreeMap Int64 (Option PlayerDBMgr)).insert 1 (some dirtyPlayer)

/-- With a database that takes the statement, both functions remove the player and lose nothing. -/
theorem saveCacheAndDelete_keeps_dirty_success :
    KeepsDirty (fun _ => .success) dirtyCache
      (dirtyCache.saveCacheAndDeleteAll (fun _ => .success) [1]) ∧
    KeepsDirty (fun _ => .success) dirtyCache
      ((dirtyCache.saveCacheAndDelete .success 1).get (by decide +kernel)) := by
  have hw : Writable (fun _ => .success) dirtyCache 1 := by
    intro mgr hget
    obtain rfl : dirtyPlayer = mgr :=
      Option.some.inj (Option.some.inj ((get_insert_self _ _ _).symm.trans hget))
    exact ⟨rfl, fun _ => ⟨rfl, rfl⟩⟩
  have h := saveCacheAndDelete_keeps_dirty (fun _ => .success) dirtyCache
  exact ⟨(h.1 [1]).mpr (List.forall_mem_singleton.mpr hw),
    (h.2 1 _ (Option.some_get _).symm).mpr hw⟩

theorem not_keepsDirty {o : Int64 → SqlOutcome} {s' : Store} (ho : o 1 ≠ .success)
    (h : s'.allPlayer[(1 : Int64)]? = none) : ¬ KeepsDirty o dirtyCache s' := fun hk =>
  ho ((written_base_iff rfl).mp
    ((hk 1 dirtyPlayer (get_insert_self _ _ _)).1 h eBaseInfo rfl)).2

/-- With one that throws or reports an error, the player is removed and its dirty data is lost. -/
theorem dirty_lost :
    ¬ KeepsDirty (fun _ => .exception) dirtyCache
      (dirtyCache.saveCacheAndDeleteAll (fun _ => .exception) [1]) ∧
    ¬ KeepsDirty (fun _ => .error) dirtyCache
      (dirtyCache.saveCacheAndDeleteAll (fun _ => .error) [1]) ∧
    ¬ KeepsDirty (fun _ => .exception) dirtyCache
      ((dirtyCache.saveCacheAndDelete .exception 1).get (by decide +kernel)) :=
  ⟨not_keepsDirty (by decide) (saveCacheAndDeleteAll_get _ _ _ _),
    not_keepsDirty (by decide) (saveCacheAndDeleteAll_get _ _ _ _),
    not_keepsDirty (by decide) (saveCacheAndDelete_get (Option.some_get _).symm _)⟩

end ChatShow.DBServer.SaveFailure
