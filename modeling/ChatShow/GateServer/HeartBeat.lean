import ChatShow.GateServer.ServerManager

/-! # The heart beats of a player

A login and a heart beat put off the time of an entry by `CLIENT_HEART_BEAT`, but a heart beat does
nothing for an entry that `svr` has marked for gone, and a login does not take the mark away. Where a
player that is not marked logs in, and `svr` is not about to let it exit, it is not marked and stays
as long as its heart beats come in time (`heartbeats_keep`). -/

namespace ChatShow.GateServer.HeartBeat

open ChatShow.CommBase.NetWorkConfig ChatShow.CommBase.Groups
open ChatShow.GateServer.Timeouts ChatShow.GateServer.ServerManager
open ChatShow.GateServer.ServerManager.ServerConHandler ChatShow.Lib.Maps ChatShow.Lib.Runs Std

variable {s s' : ServerConHandler} {t t' : ConnTimeout} {a : Int64} {beat : ℕ}

/-- The entry of a character is not marked for gone. -/
def Unmarked (t : ConnTimeout) (a : Int64) : Prop :=
  ∃ it, t.timeout[a]? = some it ∧ it.isDel = false

/-- And its time is that of the last beat and `CLIENT_HEART_BEAT`. -/
def Kept (t : ConnTimeout) (a : Int64) (beat : ℕ) : Prop :=
  ∃ it, t.timeout[a]? = some it ∧ it.isDel = false ∧ it.time = beat + CLIENT_HEART_BEAT

/-- The players that `svr` is about to let exit. -/
def pending : Svr → List Int64
  | .idle => []
  | .exiting _ lineDel => lineDel

/-! ### The entry -/

theorem kept_addTimeout (h : Kept t a beat) (charid : Int64) (time : ℕ) (mapid : Int64)
    (gsid : UInt16) (group : ℤ) : Kept (t.addTimeout charid time mapid gsid group).2 a beat := by
  obtain ⟨it, hit, hk⟩ := h
  exact ⟨it, ConnTimeout.get_addTimeout_of_some _ _ _ _ _ hit, hk⟩

theorem kept_updatePlayerInfo (h : Kept t a beat) (groups : GroupSession) (charid : Int64)
    (channelid : ℤ) (ip : List UInt8) :
    Kept (t.updatePlayerInfo groups charid channelid ip).2 a beat := by
  obtain ⟨it, hit, hdel, htime⟩ := h
  unfold Kept
  rw [ConnTimeout.get_updatePlayerInfo]
  split_ifs with he
  · rw [he, hit, Option.map_some]
    exact ⟨_, rfl, hdel, htime⟩
  · exact ⟨it, hit, hdel, htime⟩

theorem kept_synchHeartBeat {beats : Int64 → ℕ} (h : Kept t a (beats a)) (charid : Int64) (now : ℕ) :
    Kept (t.synchHeartBeat charid now) a (Function.update beats charid now a) := by
  obtain ⟨it, hit, hdel, htime⟩ := h
  unfold Kept
  rw [ConnTimeout.get_synchHeartBeat]
  split_ifs with he
  · rw [he, hit, Option.map_some, Function.update_self, if_neg (Bool.eq_false_iff.mp hdel)]
    exact ⟨_, rfl, hdel, rfl⟩
  · rw [Function.update_of_ne (Ne.symm he)]
    exact ⟨it, hit, hdel, htime⟩

/-- A login makes of an entry that is not marked one that is kept. -/
theorem kept_login {now : ℕ} {client : ConnClient} (h : Unmarked t a)
    (hl : t.playerLogin a now = some (client, t')) : Kept t' a now := by
  obtain ⟨it, hit, hdel⟩ := h
  unfold Kept
  rw [ConnTimeout.get_playerLogin hl, if_pos rfl, hit, Option.map_some]
  exact ⟨_, rfl, hdel, rfl⟩

theorem kept_playerLogin {beats : Int64 → ℕ} {charid : Int64} {now : ℕ} {client : ConnClient}
    (h : Kept t a (beats a)) (hl : t.playerLogin charid now = some (client, t')) :
    Kept t' a (Function.update beats charid now a) := by
  rcases eq_or_ne charid a with rfl | hne
  · obtain ⟨it, hit, hdel, -⟩ := h
    rw [Function.update_self]
    exact kept_login ⟨it, hit, hdel⟩ hl
  · unfold Kept
    rw [ConnTimeout.get_playerLogin hl, if_neg hne, Function.update_of_ne hne.symm]
    exact h

theorem kept_delTimeout {charid : Int64} (h : Kept t a beat) (hne : charid ≠ a) :
    Kept (t.delTimeout charid).2 a beat := by
  unfold Kept
  rw [ConnTimeout.get_delTimeout, if_neg hne]
  exact h

theorem kept_removePlayerByGsID {gsID : UInt16} (h : Kept t a beat)
    (hne : ∀ it ∈ t.timeout[a]?, it.gsID ≠ gsID) : Kept (t.removePlayerByGsID gsID).2 a beat := by
  obtain ⟨it, hit, hk⟩ := h
  refine ⟨it, ?_, hk⟩
  rw [ConnTimeout.get_removePlayerByGsID, hit, Option.bind_some, if_neg (hne it hit)]

/-- The sweep takes an entry only when its time has come. -/
theorem kept_sweep {now : ℕ} (h : Kept t a beat) (hnow : now < beat + CLIENT_HEART_BEAT) :
    Kept (t.sweep now).2.2 a beat := by
  obtain ⟨it, hit, hdel, htime⟩ := h
  refine ⟨it, ?_, hdel, htime⟩
  have hex : ¬ ConnTimeout.expired now it = true := by
    intro he
    have hle := (of_decide_eq_true he).1
    rw [htime] at hle
    exact absurd hnow (Nat.not_lt.mpr hle)
  rw [ConnTimeout.get_sweep, hit, Option.bind_some]
  exact if_neg hex

/-- And it lets nobody exit that is not marked. -/
theorem not_mem_sweep {now : ℕ} (hk : t.Keyed) (h : Kept t a beat) : a ∉ (t.sweep now).2.1 := by
  obtain ⟨it, hit, hdel, -⟩ := h
  intro ha
  unfold ConnTimeout.sweep at ha
  obtain ⟨⟨b, it'⟩, he, hchar⟩ := List.mem_map.mp ha
  obtain ⟨hmem, hex⟩ := List.mem_filter.mp he
  have hit' := TreeMap.mem_toList_iff_getElem?_eq_some.mp hmem
  obtain rfl : b = a := (hk b it' hit').symm.trans hchar
  rw [hit] at hit'
  cases hit'
  rw [hdel] at hex
  exact absurd (of_decide_eq_true hex).2 Bool.false_ne_true

/-! ### The steps -/

theorem keyed_of_eq (h : t.Keyed) (ht : t'.timeout = t.timeout) : t'.Keyed :=
  h.from fun _ it hit => ⟨it, ht ▸ hit, rfl⟩

theorem keyed_step {l : Label} (h : s.timeout.Keyed) (hs : s.step l = some s') :
    s'.timeout.Keyed := by
  cases turn_step hs with
  | still hs => exact keyed_of_eq h hs.timeout
  | added time mapid gsid group hs =>
    exact keyed_of_eq (ConnTimeout.keyed_addTimeout h _ _ _ _ _) hs.timeout
  | bound groups ip _ hs =>
    exact keyed_of_eq (ConnTimeout.keyed_updatePlayerInfo h groups _ _ ip) hs.timeout
  | login hl hs => exact keyed_of_eq (ConnTimeout.keyed_playerLogin h hl) hs.timeout
  | beat charid hs => exact keyed_of_eq (ConnTimeout.keyed_synchHeartBeat h _ _) hs.timeout
  | exited hs => exact keyed_of_eq (ConnTimeout.keyed_delTimeout h _) hs.timeout
  | cleared _ hs => exact keyed_of_eq (ConnTimeout.keyed_removePlayerByGsID h _) hs.timeout
  | swept hs => exact keyed_of_eq (ConnTimeout.keyed_sweep h _) hs.timeout
  | closes _ hs => exact keyed_of_eq h hs.timeout
  | expires _ hs => exact keyed_of_eq (ConnTimeout.keyed_delTimeout h _) hs.timeout
  | rests _ hs => exact keyed_of_eq h hs.timeout

/-- **A character is alive**: its entry is kept, and `svr` is not about to let it exit. -/
structure Alive (a : Int64) (s : ServerConHandler) : Prop where
  kept : Kept s.timeout a (s.beat a)
  pending : a ∉ pending s.svr

theorem alive_of_still (hs : Still s s') (hk : Kept s.timeout a (s.beat a))
    (hp : a ∉ pending s.svr) : Alive a s' where
  kept := by
    unfold Kept
    rw [hs.timeout, hs.beat]
    exact hk
  pending := by
    rw [hs.svr]
    exact hp

/-- The character that a step logs out. -/
def leaving : Label → Option Int64
  | .playerExitEx charid => some charid
  | _ => none

/-- The time of a sweep. -/
def sweeping : Label → Option ℕ
  | .sweep now => some now
  | _ => none

/-- The character does not log out, its game server does not go, and every sweep comes less than
`CLIENT_HEART_BEAT` after its last beat. -/
def Beating (a : Int64) (s : ServerConHandler) (l : Label) : Prop :=
  leaving l ≠ some a ∧ (∀ it ∈ s.timeout.timeout[a]?, cleared l ≠ some it.gsID) ∧
    ∀ now ∈ sweeping l, now < s.beat a + CLIENT_HEART_BEAT

instance (a : Int64) (s : ServerConHandler) (l : Label) : Decidable (Beating a s l) :=
  inferInstanceAs (Decidable (_ ∧ _ ∧ _))

theorem alive_step {l : Label} (hk : s.timeout.Keyed) (h : Alive a s) (hb : Beating a s l)
    (hs : s.step l = some s') : Alive a s' := by
  obtain ⟨hstays, hserver, hbeats⟩ := hb
  cases turn_step hs with
  | still hs => exact alive_of_still hs h.kept h.pending
  | added time mapid gsid group hs =>
    exact alive_of_still hs (kept_addTimeout h.kept _ _ _ _ _) h.pending
  | bound groups ip _ hs =>
    exact alive_of_still hs (kept_updatePlayerInfo h.kept groups _ _ ip) h.pending
  | login hl hs => exact alive_of_still hs (kept_playerLogin h.kept hl) h.pending
  | beat charid hs => exact alive_of_still hs (kept_synchHeartBeat h.kept charid _) h.pending
  | exited hs =>
    have hne := fun he => hstays (congrArg some he)
    exact alive_of_still hs (kept_delTimeout h.kept hne) h.pending
  | cleared ha hs =>
    have hne : ∀ it ∈ s.timeout.timeout[a]?, it.gsID ≠ _ := fun it hit he =>
      hserver it hit (ha.trans (congrArg some he.symm))
    exact alive_of_still hs (kept_removePlayerByGsID h.kept hne) h.pending
  | swept hs =>
    exact alive_of_still hs (kept_sweep h.kept (hbeats _ rfl)) (not_mem_sweep hk h.kept)
  | closes hsvr hs =>
    have hp := h.pending
    rw [hsvr] at hp
    exact alive_of_still hs h.kept hp
  | expires hsvr hs =>
    -- the one that exits is pending
    have hp := h.pending
    rw [hsvr] at hp
    obtain ⟨hne, hp⟩ := List.ne_and_not_mem_of_not_mem_cons hp
    exact alive_of_still hs (kept_delTimeout h.kept hne.symm) hp
  | rests _ hs => exact alive_of_still hs h.kept List.not_mem_nil

/-! ### Runs -/

theorem keyed_run {l : List Label} (h : run ServerConHandler.step {} l = some s) :
    s.timeout.Keyed := by
  refine run_inv (P := fun s => s.timeout.Keyed) (fun s a s' h hs => keyed_step h hs) h ?_
  intro a it hit
  rw [TreeMap.getElem?_emptyc] at hit
  cases hit

/-- **Heart beats keep a player.** Whatever came before, where a player logs in whose entry is not
marked for gone and that `svr` is not about to let exit, its entry is there and not marked, and `svr`
does not let it exit, in every run in which it does not leave and its beats come in time. -/
theorem heartbeats_keep {l₁ l₂ : List Label} {s₀ s₁ : ServerConHandler} {now : ℕ}
    (h₀ : run ServerConHandler.step {} l₁ = some s₀) (hu : Unmarked s₀.timeout a)
    (hp : a ∉ pending s₀.svr) (hl : s₀.step (.playerLogin a now) = some s₁)
    (h : run ServerConHandler.step s₁ l₂ = some s)
    (hb : Along ServerConHandler.step (Beating a) s₁ l₂) :
    Unmarked s.timeout a ∧ a ∉ pending s.svr := by
  have hk : s₀.timeout.Keyed := keyed_run h₀
  have h₁ : Alive a s₁ := by
    cases hl
    rcases hlogin : s₀.timeout.playerLogin a now with _ | ⟨client, t⟩
    · -- who has an entry can log in
      obtain ⟨it, hit, -⟩ := hu
      unfold ConnTimeout.playerLogin at hlogin
      rw [hit] at hlogin
      cases hlogin
    · refine alive_of_still (still_playerLogin hlogin) ?_ hp
      dsimp only
      rw [Function.update_self]
      exact kept_login hu hlogin
  obtain ⟨-, hkept, hpend⟩ : s.timeout.Keyed ∧ Alive a s :=
    run_inv_along (P := fun s => s.timeout.Keyed ∧ Alive a s) (Q := fun _ => True)
      (fun s l s' h _ hb hs => ⟨keyed_step h.1 hs, alive_step h.1 h.2 hb hs⟩) h
      (fun _ _ => trivial) hb ⟨keyed_step hk hl, h₁⟩
  obtain ⟨it, hit, hdel, -⟩ := hkept
  exact ⟨⟨it, hit, hdel⟩, hpend⟩

/-- A player whose last beat was not long ago is there after a sweep. -/
theorem heartbeats_keep_one : ∃ s₀ s₁ s,
    run ServerConHandler.step {} (announced [7] ++ [.playerInfo {} 7 5 []]) = some s₀ ∧
    s₀.step (.playerLogin 7 0) = some s₁ ∧
    run ServerConHandler.step s₁ [.synchHeartBeat 5 150000, .sweep 300000] = some s ∧
    Unmarked s.timeout 7 ∧ 7 ∉ pending s.svr := by
  obtain ⟨s₀, h₀⟩ := Option.isSome_iff_exists.mp (by decide +kernel :
    (run ServerConHandler.step {} (announced [7] ++ [.playerInfo {} 7 5 []])).isSome)
  obtain ⟨s₁, h₁⟩ : ∃ s₁, s₀.step (.playerLogin 7 0) = some s₁ := ⟨_, rfl⟩
  obtain ⟨s, hs⟩ : ∃ s, run ServerConHandler.step s₁ [.synchHeartBeat 5 150000, .sweep 300000] =
      some s := by
    rw [← Option.isSome_iff_exists]
    cases h₀
    cases h₁
    decide +kernel
  refine ⟨s₀, s₁, s, h₀, h₁, hs, heartbeats_keep h₀ ?_ ?_ h₁ hs ?_⟩
  · cases h₀
    exact ⟨_, rfl, by decide +kernel⟩
  · cases h₀
    decide +kernel
  · cases h₀
    cases h₁
    decide +kernel

/-- A player is marked for gone as it was not heard of. -/
def marked : List Label := announced [7] ++ comes 7 5 0 ++ [.sweep 200000, .exit, .exit]

/-- A player that was marked logs in again: its beats come in time, and it has to go. -/
theorem heartbeats_lost : ∃ s₀ s₁ s, run ServerConHandler.step {} marked = some s₀ ∧
    s₀.step (.playerLogin 7 210000) = some s₁ ∧
    run ServerConHandler.step s₁
      [.synchHeartBeat 5 300000, .synchHeartBeat 5 400000, .sweep 410000, .exit] = some s ∧
    Along ServerConHandler.step (Beating 7) s₁
      [.synchHeartBeat 5 300000, .synchHeartBeat 5 400000, .sweep 410000, .exit] ∧
    s.timeout.timeout[(7 : Int64)]? = none := by
  have hall : ((run ServerConHandler.step {} marked).any fun s₀ =>
      (s₀.step (.playerLogin 7 210000)).any fun s₁ =>
        (run ServerConHandler.step s₁
          [.synchHeartBeat 5 300000, .synchHeartBeat 5 400000, .sweep 410000, .exit]).any fun s =>
            Along ServerConHandler.step (Beating 7) s₁
              [.synchHeartBeat 5 300000, .synchHeartBeat 5 400000, .sweep 410000, .exit] ∧
            s.timeout.timeout[(7 : Int64)]? = none) = true := by
    decide +kernel
  simp only [Option.any_eq_true, decide_eq_true_eq] at hall
  obtain ⟨s₀, h₀, s₁, h₁, s, hs, ha⟩ := hall
  exact ⟨s₀, s₁, s, h₀, h₁, hs, ha⟩

end ChatShow.GateServer.HeartBeat
