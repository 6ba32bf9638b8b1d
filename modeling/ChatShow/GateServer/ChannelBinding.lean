import ChatShow.GateServer.ServerManager

/-! # The character of a client channel

`UpdatePlayerInfo` binds a character to the channel that the client speaks on, and the character is
the one that the client names. It does not look at who is on the channel already. Where every binding
is to a channel that no other character has, no two have one channel in any run
(`one_charid`). -/

namespace ChatShow.GateServer.ChannelBinding

open ChatShow.CommBase.NetWorkConfig ChatShow.CommBase.Groups
open ChatShow.GateServer.Timeouts ChatShow.GateServer.ServerManager
open ChatShow.GateServer.ServerManager.ServerConHandler ChatShow.Lib.Maps ChatShow.Lib.Runs Std

variable {s s' : ServerConHandler} {t t' : ConnTimeout}

/-- A character that is not marked for gone is on a channel. -/
def Bound (t : ConnTimeout) (charid : Int64) (channel : ℤ) : Prop :=
  ∃ it, t.timeout[charid]? = some it ∧ it.isDel = false ∧ it.channeid = channel

/-- **No two characters are on one channel.** -/
def OneEach (t : ConnTimeout) : Prop :=
  ∀ (a b : Int64) channel, 0 ≤ channel → Bound t a channel → Bound t b channel → a = b

/-! ### What takes no channel -/

/-- No character comes on a channel. -/
def NoneComes (t t' : ConnTimeout) : Prop :=
  ∀ (a : Int64) channel, 0 ≤ channel → Bound t' a channel → Bound t a channel

theorem OneEach.kept (h : OneEach t) (hn : NoneComes t t') : OneEach t' :=
  fun a b channel h0 ha hb => h a b channel h0 (hn a channel h0 ha) (hn b channel h0 hb)

theorem noneComes_of_eq (h : t'.timeout = t.timeout) : NoneComes t t' := by
  rintro a channel - ⟨it, hit, hb⟩
  rw [h] at hit
  exact ⟨it, hit, hb⟩

theorem noneComes_addTimeout (charid : Int64) (time : ℕ) (mapid : Int64) (gsid : UInt16)
    (group : ℤ) : NoneComes t (t.addTimeout charid time mapid gsid group).2 := by
  unfold ConnTimeout.addTimeout
  split_ifs
  · exact noneComes_of_eq rfl
  · split
    · rintro a channel h0 ⟨it, hit, hdel, hch⟩
      dsimp only at hit
      rw [get_insert] at hit
      split_ifs at hit
      · -- a player that is new has no channel
        cases hit
        rw [← hch] at h0
        exact absurd h0 (Int.not_le.mpr (Int.negSucc_lt_zero 0))
      · exact ⟨it, hit, hdel, hch⟩
    · exact noneComes_of_eq rfl

theorem noneComes_synchHeartBeat (charid : Int64) (now : ℕ) :
    NoneComes t (t.synchHeartBeat charid now) := by
  rintro a channel - ⟨it, hit, hdel, hch⟩
  rw [ConnTimeout.get_synchHeartBeat] at hit
  split_ifs at hit with he
  · obtain ⟨it', hit', rfl⟩ := Option.map_eq_some_iff.mp hit
    rw [he] at hit'
    split_ifs at hdel hch with hd
    · exact ⟨it', hit', hdel, hch⟩
    · exact ⟨it', hit', hdel, hch⟩
  · exact ⟨it, hit, hdel, hch⟩

theorem noneComes_playerLogin {charid : Int64} {now : ℕ} {client : ConnClient}
    (h : t.playerLogin charid now = some (client, t')) : NoneComes t t' := by
  rintro a channel - ⟨it, hit, hdel, hch⟩
  rw [ConnTimeout.get_playerLogin h] at hit
  split_ifs at hit with he
  · obtain ⟨it', hit', rfl⟩ := Option.map_eq_some_iff.mp hit
    exact ⟨it', he ▸ hit', hdel, hch⟩
  · exact ⟨it, hit, hdel, hch⟩

theorem noneComes_delTimeout (charid : Int64) : NoneComes t (t.delTimeout charid).2 := by
  rintro a channel - ⟨it, hit, hb⟩
  rw [ConnTimeout.get_delTimeout] at hit
  split_ifs at hit
  exact ⟨it, hit, hb⟩

theorem noneComes_removePlayerByGsID (gsID : UInt16) :
    NoneComes t (t.removePlayerByGsID gsID).2 := by
  rintro a channel - ⟨it, hit, hb⟩
  rw [ConnTimeout.get_removePlayerByGsID] at hit
  obtain ⟨it', hit', he⟩ := Option.bind_eq_some_iff.mp hit
  split_ifs at he
  cases he
  exact ⟨it, hit', hb⟩

theorem noneComes_sweep (now : ℕ) : NoneComes t (t.sweep now).2.2 := by
  rintro a channel - ⟨it, hit, hdel, hch⟩
  rw [ConnTimeout.get_sweep] at hit
  obtain ⟨it', hit', he⟩ := Option.bind_eq_some_iff.mp hit
  unfold ConnTimeout.sweepEntry at he
  split_ifs at he
  · cases he
    cases hdel
  · cases he
    exact ⟨it, hit', hdel, hch⟩

/-! ### What does -/

/-- No other character that is not marked for gone is on the channel, where this one is not. -/
def Free (s : ServerConHandler) (charid : Int64) (channel : ℤ) : Prop :=
  0 ≤ channel → ∀ it ∈ s.timeout.timeout[charid]?, it.isDel = false →
    ∀ e ∈ s.timeout.timeout.toList, e.2.isDel = false → e.2.channeid = channel → e.1 = charid

instance (charid : Int64) (channel : ℤ) : Decidable (Free s charid channel) :=
  inferInstanceAs (Decidable (_ → _))

theorem oneEach_updatePlayerInfo {groups : GroupSession} {charid : Int64} {channel : ℤ}
    {ip : List UInt8} (h : OneEach s.timeout) (hf : Free s charid channel) :
    OneEach (s.timeout.updatePlayerInfo groups charid channel ip).2 := by
  -- who is bound after it is the character, to the channel, or was bound before
  have hcases : ∀ (a : Int64) c, Bound (s.timeout.updatePlayerInfo groups charid channel ip).2 a c →
      (a = charid ∧ c = channel ∧ ∃ it, s.timeout.timeout[charid]? = some it ∧ it.isDel = false) ∨
      a ≠ charid ∧ Bound s.timeout a c := by
    rintro a c ⟨it, hit, hdel, hch⟩
    rw [ConnTimeout.get_updatePlayerInfo] at hit
    split_ifs at hit with he
    · obtain ⟨it', hit', rfl⟩ := Option.map_eq_some_iff.mp hit
      exact Or.inl ⟨he.symm, hch.symm, it', hit', hdel⟩
    · exact Or.inr ⟨Ne.symm he, it, hit, hdel, hch⟩
  have hother : ∀ (a : Int64) c, 0 ≤ c → c = channel →
      (∃ it, s.timeout.timeout[charid]? = some it ∧ it.isDel = false) → Bound s.timeout a c →
      a = charid := by
    rintro a c h0 rfl ⟨it, hit, hdel⟩ ⟨it', hit', hdel', hch'⟩
    exact hf h0 it hit hdel (a, it') (TreeMap.mem_toList_iff_getElem?_eq_some.mpr hit') hdel' hch'
  intro a b c h0 ha hb
  rcases hcases a c ha with ⟨hea, hc, hit⟩ | ⟨hna, ha'⟩
  · rcases hcases b c hb with ⟨heb, -, -⟩ | ⟨hnb, hb'⟩
    · exact hea.trans heb.symm
    · exact absurd (hother b c h0 hc hit hb') hnb
  · rcases hcases b c hb with ⟨-, hc, hit⟩ | ⟨-, hb'⟩
    · exact absurd (hother a c h0 hc hit ha') hna
    · exact h a b c h0 ha' hb'

/-! ### Runs -/

/-- A character is bound only to a channel that is free. -/
def BindsFree (s : ServerConHandler) (a : Label) : Prop :=
  ∀ e ∈ binding a, Free s e.1 e.2

instance (s : ServerConHandler) (a : Label) : Decidable (BindsFree s a) :=
  inferInstanceAs (Decidable (∀ e ∈ binding a, _))

theorem OneEach.still (h : OneEach t) (hs : s'.timeout.timeout = t.timeout) : OneEach s'.timeout :=
  h.kept (noneComes_of_eq hs)

theorem oneEach_step {a : Label} (h : OneEach s.timeout) (hf : BindsFree s a)
    (hs : s.step a = some s') : OneEach s'.timeout := by
  cases turn_step hs with
  | still hs => exact h.still hs.timeout
  | added time mapid gsid group hs => exact (h.kept (noneComes_addTimeout _ _ _ _ _)).still hs.timeout
  | bound groups ip ha hs => exact (oneEach_updatePlayerInfo h (hf _ ha)).still hs.timeout
  | login hl hs => exact (h.kept (noneComes_playerLogin hl)).still hs.timeout
  | beat charid hs => exact (h.kept (noneComes_synchHeartBeat _ _)).still hs.timeout
  | exited hs => exact (h.kept (noneComes_delTimeout _)).still hs.timeout
  | cleared _ hs => exact (h.kept (noneComes_removePlayerByGsID _)).still hs.timeout
  | swept hs => exact (h.kept (noneComes_sweep _)).still hs.timeout
  | closes _ hs => exact h.still hs.timeout
  | expires _ hs => exact (h.kept (noneComes_delTimeout _)).still hs.timeout
  | rests _ hs => exact h.still hs.timeout

/-- **Of the characters that are not marked for gone, one channel has one at most.** -/
theorem one_charid {l : List Label} (h : run ServerConHandler.step {} l = some s)
    (hf : Along ServerConHandler.step BindsFree {} l) (a b : Int64) (x y : ConnClient)
    (hx : s.timeout.timeout[a]? = some x) (hy : s.timeout.timeout[b]? = some y)
    (hdx : x.isDel = false) (hdy : y.isDel = false) (h0 : 0 ≤ x.channeid)
    (hch : x.channeid = y.channeid) : a = b := by
  have hone : OneEach s.timeout := run_inv_along (P := fun s => OneEach s.timeout)
    (Q := fun _ => True) (fun s a s' h _ hf hs => oneEach_step h hf hs) h (fun _ _ => trivial) hf
    (by
      rintro a b channel - ⟨it, hit, -⟩
      rw [TreeMap.getElem?_emptyc] at hit
      cases hit)
  exact hone a b x.channeid h0 ⟨x, hx, hdx, rfl⟩ ⟨y, hy, hdy, hch.symm⟩

/-- Two players, each on a channel of its own. -/
theorem one_charid_two : ∃ s, run ServerConHandler.step {} (announced [7, 8] ++ comes 7 5 0 ++ comes 8 6 0) =
      some s ∧
    ∃ x, s.timeout.timeout[(7 : Int64)]? = some x ∧
      ∀ (b : Int64) y, s.timeout.timeout[b]? = some y → y.isDel = false →
        y.channeid = x.channeid → b = 7 := by
  obtain ⟨s, hs⟩ := Option.isSome_iff_exists.mp (by decide +kernel : (run ServerConHandler.step {}
    (announced [7, 8] ++ comes 7 5 0 ++ comes 8 6 0)).isSome)
  obtain ⟨x, hx, hdel, h0⟩ : ∃ x, s.timeout.timeout[(7 : Int64)]? = some x ∧ x.isDel = false ∧
      0 ≤ x.channeid := by
    cases hs
    exact ⟨_, rfl, by decide +kernel, by decide +kernel⟩
  refine ⟨s, hs, x, hx, fun b y hy hdy hch => ?_⟩
  exact (one_charid hs (by decide +kernel) 7 b x y hx hy hdel hdy h0 hch.symm).symm

/-- A client names two characters on one channel, and both are on it. -/
theorem two_charids : ∃ s, run ServerConHandler.step {} (announced [7, 8] ++
      [.playerInfo {} 7 5 [], .playerInfo {} 8 5 []]) = some s ∧
    s.timeout.timeout[(7 : Int64)]?.map (fun it => (it.isDel, it.channeid)) = some (false, 5) ∧
    s.timeout.timeout[(8 : Int64)]?.map (fun it => (it.isDel, it.channeid)) = some (false, 5) := by
  obtain ⟨s, hs⟩ := Option.isSome_iff_exists.mp (by decide +kernel : (run ServerConHandler.step {}
    (announced [7, 8] ++ [.playerInfo {} 7 5 [], .playerInfo {} 8 5 []])).isSome)
  refine ⟨s, hs, ?_⟩
  cases hs
  decide +kernel

end ChatShow.GateServer.ChannelBinding
