import ChatShow.GameServer.Players

/-! # A player is in one map

A player comes into the cache when the DBServer has answered for it and it is in neither map, and
`MSG_REQ_GT2GM_CLIENTIN` takes it out of the cache before it is online. So in every run no character
is in both maps, and each is mapped to a player of its own (`one_map`). -/

namespace ChatShow.GameServer.PlayerMaps

open ChatShow.Dependence.CharDefine ChatShow.Dependence.CharDefine.ECharBaseStruct
open ChatShow.GameServer.SavePlayer ChatShow.GameServer.Players
open ChatShow.GameServer.Players.PlayerMessage ChatShow.Lib.Maps ChatShow.Lib.Runs Std

variable {byteSize : SaveTypeInfo → ℕ} {s s' : PlayerMessage}

/-- The pointer is to the player `charid`, and its base data is there. -/
def IsPlayer (charid : Int64) (x : Option OnlinePlayer) : Prop :=
  ∃ p, x = some p ∧ p.id = charid ∧ p.initpartData eBaseInfo = true

/-- **No player is in both maps, and the players of the maps are those of their keys.** -/
structure Apart (s : PlayerMessage) : Prop where
  apart : ∀ c : Int64, s.playerCache[c]? = none ∨ s.allPlayer[c]? = none
  cached : ∀ (c : Int64) it, s.playerCache[c]? = some it → IsPlayer c it.playerCache
  online : ∀ (c : Int64) x, s.allPlayer[c]? = some x → IsPlayer c x

theorem apart_init : Apart {} where
  apart _ := Or.inl TreeMap.getElem?_emptyc
  cached c it h := by
    rw [TreeMap.getElem?_emptyc] at h
    cases h
  online c x h := by
    rw [TreeMap.getElem?_emptyc] at h
    cases h

/-- What does not touch the maps keeps them. -/
theorem Apart.of_eq (h : Apart s) (hc : s'.playerCache = s.playerCache)
    (ha : s'.allPlayer = s.allPlayer) : Apart s' where
  apart := by rw [hc, ha]; exact h.apart
  cached := by rw [hc]; exact h.cached
  online := by rw [ha]; exact h.online

theorem Apart.saves (h : Apart s) (hs : Saves s s') : Apart s' :=
  h.of_eq hs.playerCache hs.allPlayer

/-- A player leaves the cache. -/
theorem Apart.erase_cache (h : Apart s) (c : Int64) (hc : s'.playerCache = s.playerCache.erase c)
    (ha : s'.allPlayer = s.allPlayer) : Apart s' where
  apart a := by
    rw [hc, ha, get_erase]
    split_ifs
    · exact Or.inl rfl
    · exact h.apart a
  cached a it hit := by
    rw [hc, get_erase] at hit
    split_ifs at hit
    exact h.cached a it hit
  online := by rw [ha]; exact h.online

/-- A player that is online leaves. -/
theorem Apart.erase_online (h : Apart s) (c : Int64) (hc : s'.playerCache = s.playerCache)
    (ha : s'.allPlayer = s.allPlayer.erase c) : Apart s' where
  apart a := by
    rw [hc, ha, get_erase]
    split_ifs
    · exact Or.inr rfl
    · exact h.apart a
  cached := by rw [hc]; exact h.cached
  online a x hx := by
    rw [ha, get_erase] at hx
    split_ifs at hx
    exact h.online a x hx

/-! ### The handlers -/

theorem isOnline_eq_false {charid : Int64} (h : s.isOnline charid = false) :
    s.playerCache[charid]? = none ∧ s.allPlayer[charid]? = none := by
  unfold isOnline at h
  rw [Bool.or_eq_false_iff] at h
  exact ⟨Option.isNone_iff_eq_none.mp (Option.isSome_eq_false_iff.mp h.1),
    Option.isNone_iff_eq_none.mp (Option.isSome_eq_false_iff.mp h.2)⟩

theorem apart_playerInfo (h : Apart s) (channel : ℤ) (charid : Int64) (ip : List UInt8)
    (dbSvr : Bool) : Apart (s.playerInfo channel charid ip dbSvr) := by
  unfold playerInfo
  dsimp only
  split_ifs
  · exact h.of_eq rfl rfl
  · exact h.of_eq rfl rfl
  · exact h.of_eq rfl rfl

theorem apart_playerInfoAck {act : StringIntAct} {timeOut : Bool} {content : PlayerInfo}
    {mem : Flags} {dbChannelID : Int32} {now : UInt64} (h : Apart s)
    (hs : s.playerInfoAck act timeOut content mem dbChannelID now = some s') : Apart s' := by
  cases answered hs with
  | late => exact h.of_eq rfl rfl
  | there => exact h
  | cached _ hon _ =>
    obtain ⟨hc, ha⟩ := isOnline_eq_false hon
    refine ⟨fun a => ?_, fun a it hit => ?_, h.online⟩
    · dsimp only
      rw [get_insert]
      split_ifs with he
      · exact Or.inr (he ▸ ha)
      · exact h.apart a
    · dsimp only at hit
      rw [get_insert] at hit
      split_ifs at hit with he
      · cases hit
        exact ⟨_, rfl, he ▸ loadPlayer_id .., loadPlayer_initpartData ..⟩
      · exact h.cached a it hit

theorem apart_saveAck (h : Apart s) (charID : Int64) : Apart (s.saveAck charID) := by
  unfold saveAck
  split
  · exact h
  · have hs := saves_dealWithSaveResult (s := s)
    exact h.of_eq (hs _).playerCache (hs _).allPlayer

theorem apart_clientIn (h : Apart s) (channel : ℤ) (charID ret : Int64) :
    Apart (s.clientIn channel charID ret) := by
  unfold clientIn
  dsimp only
  split
  · exact h.of_eq rfl rfl
  · split
    · rename_i it hit
      refine ⟨fun a => ?_, fun a it' hit' => ?_, fun a x hx => ?_⟩
      · dsimp only
        rw [get_erase, get_insert]
        split_ifs
        · exact Or.inl rfl
        · exact h.apart a
      · dsimp only at hit'
        rw [get_erase] at hit'
        split_ifs at hit'
        exact h.cached a it' hit'
      · dsimp only at hx
        rw [get_insert] at hx
        split_ifs at hx with he
        · cases hx
          exact he ▸ h.cached charID it hit
        · exact h.online a x hx
    · exact h.of_eq rfl rfl

theorem apart_playerExit {channel : ℤ} {charid : Int64} (h : Apart s)
    (hs : s.playerExit byteSize channel charid = some s') : Apart s' := by
  unfold playerExit at hs
  dsimp only at hs
  split at hs
  · obtain ⟨p, -, hs⟩ := Option.bind_eq_some_iff.mp hs
    have hsave := saves_saveExit byteSize { s.receive with exited := s.exited ++ [s.received] } p
      (s.request channel) charid
    generalize saveExit byteSize _ p (s.request channel) charid = s₂ at hs hsave
    cases hs
    exact h.erase_cache charid (congrArg (·.erase charid) hsave.playerCache) hsave.allPlayer
  · split at hs
    · obtain ⟨p, -, hs⟩ := Option.bind_eq_some_iff.mp hs
      have hsave := saves_saveExit byteSize { s.receive with exited := s.exited ++ [s.received] } p
        (s.request channel) charid
      generalize saveExit byteSize _ p (s.request channel) charid = s₂ at hs hsave
      cases hs
      exact h.erase_online charid hsave.playerCache (congrArg (·.erase charid) hsave.allPlayer)
    · cases hs
      exact h.of_eq rfl rfl

/-- What the gate tells of a player does not change who it is. -/
theorem setTypeValue_same (p : OnlinePlayer) (attr : List SynCharAttr) :
    (p.setTypeValue attr).id = p.id ∧ (p.setTypeValue attr).initpartData = p.initpartData := by
  have hattr (p : OnlinePlayer) (a : SynCharAttr) :
      (p.setAttr a).id = p.id ∧ (p.setAttr a).initpartData = p.initpartData := by
    unfold OnlinePlayer.setAttr
    split
    all_goals exact ⟨rfl, rfl⟩
  unfold OnlinePlayer.setTypeValue
  induction attr generalizing p with
  | nil => exact ⟨rfl, rfl⟩
  | cons a attr ih =>
    rw [List.foldl_cons]
    obtain ⟨hid, hinit⟩ := ih (p.setAttr a)
    exact ⟨hid.trans (hattr p a).1, hinit.trans (hattr p a).2⟩

theorem apart_synAttr (h : Apart s) (charID : Int64) (attr : List SynCharAttr) :
    Apart (s.synAttr charID attr) := by
  unfold synAttr
  dsimp only
  split
  · rename_i player hp
    refine ⟨fun a => ?_, h.cached, fun a x hx => ?_⟩
    · dsimp only
      rw [get_insert]
      split_ifs with he
      · subst he
        exact Or.inl ((h.apart charID).resolve_right fun hn => by cases hp.symm.trans hn)
      · exact h.apart a
    · dsimp only at hx
      rw [get_insert] at hx
      split_ifs at hx with he
      · cases hx
        obtain ⟨p, hpp, hid, hinit⟩ := h.online charID _ hp
        cases hpp
        obtain ⟨hid', hinit'⟩ := setTypeValue_same player attr
        exact ⟨_, rfl, hid'.trans (hid.trans he), hinit' ▸ hinit⟩
      · exact h.online a x hx
  · exact h.of_eq rfl rfl

theorem apart_removeDelay {now : UInt64} {e : Int64 × PlayerCache} (h : Apart s)
    (hs : removeDelay byteSize now s e = some s') : Apart s' := by
  unfold removeDelay at hs
  split_ifs at hs
  · obtain ⟨p, -, hs⟩ := Option.bind_eq_some_iff.mp hs
    have hsave := saves_saveAllPlayer byteSize s p {} none
    generalize s.saveAllPlayer byteSize p {} none = s₁ at hs hsave
    cases hs
    exact h.erase_cache e.1 (congrArg (·.erase e.1) hsave.playerCache) hsave.allPlayer
  · cases hs
    exact h

theorem apart_step {a : Label} (h : Apart s) (hs : s.step byteSize a = some s') : Apart s' := by
  cases a with
  | playerInfo => cases hs; exact apart_playerInfo h ..
  | playerInfoAck =>
    unfold step at hs
    dsimp only at hs
    split_ifs at hs
    exact apart_playerInfoAck h hs
  | saveAck i =>
    unfold step at hs
    dsimp only at hs
    split at hs
    · cases hs
      have hi : Apart { s with saves := s.saves.eraseIdx i } := h.of_eq rfl rfl
      exact apart_saveAck hi _
    · cases hs
  | clientIn => cases hs; exact apart_clientIn h ..
  | playerExit => exact apart_playerExit h hs
  | synAttr => cases hs; exact apart_synAttr h ..
  | removeDelayPlayer now =>
    exact run_inv (P := Apart) (fun _ _ _ h hs => apart_removeDelay h hs) hs h

theorem apart_run {l : List Label} (h : run (step byteSize) {} l = some s) : Apart s :=
  run_inv (P := Apart) (fun _ _ _ h hs => apart_step h hs) h apart_init

/-- The pointers that an exit and a removal use are not null. -/
theorem playerExit_isSome (h : Apart s) (channel : ℤ) (charid : Int64) :
    (s.playerExit byteSize channel charid).isSome := by
  unfold playerExit
  dsimp only
  split
  · rename_i ite hit
    obtain ⟨p, hp, -⟩ := h.cached charid ite hit
    rw [hp]
    rfl
  · split
    · rename_i it hit
      obtain ⟨p, hp, -⟩ := h.online charid it hit
      rw [hp]
      rfl
    · rfl

theorem removeDelayPlayer_isSome (h : Apart s) (now : UInt64) :
    (s.removeDelayPlayer byteSize now).isSome := by
  have hlist : ∀ e ∈ s.playerCache.toList, e.2.playerCache.isSome := fun e he => by
    obtain ⟨p, hp, -⟩ := h.cached e.1 e.2 (TreeMap.mem_toList_iff_getElem?_eq_some.mp he)
    rw [hp]
    rfl
  unfold removeDelayPlayer
  generalize s.playerCache.toList = l at hlist
  induction l generalizing s with
  | nil => rfl
  | cons e l ih =>
    obtain ⟨p, hp⟩ := Option.isSome_iff_exists.mp (hlist e List.mem_cons_self)
    have hl : ∀ e ∈ l, e.2.playerCache.isSome := fun e he => hlist e (List.mem_cons_of_mem _ he)
    obtain ⟨s', hs'⟩ : ∃ s', removeDelay byteSize now s e = some s' := by
      unfold removeDelay
      rw [hp]
      split_ifs
      · exact ⟨_, rfl⟩
      · exact ⟨_, rfl⟩
    rw [run_cons, hs']
    exact ih (apart_removeDelay h hs') hl

/-- **In every run no player is both cached and online, and every entry of a map has a player whose
id is its key.** -/
theorem one_map {l : List Label} (h : run (step byteSize) {} l = some s) :
    (∀ c : Int64, s.playerCache[c]? = none ∨ s.allPlayer[c]? = none) ∧
    (∀ (c : Int64) it, s.playerCache[c]? = some it → ∃ p, it.playerCache = some p ∧ p.id = c) ∧
    ∀ (c : Int64) x, s.allPlayer[c]? = some x → ∃ p, x = some p ∧ p.id = c := by
  have hs := apart_run h
  refine ⟨hs.apart, fun c it hit => ?_, fun c x hx => ?_⟩
  · obtain ⟨p, hp, hid, -⟩ := hs.cached c it hit
    exact ⟨p, hp, hid⟩
  · obtain ⟨p, hp, hid, -⟩ := hs.online c x hx
    exact ⟨p, hp, hid⟩

/-- One player is online, and another one is in the cache. -/
theorem one_map_two : ∃ s, run (step fun _ => 0) {}
      (comes ⟨0, 3⟩ 7 ++ [.clientIn 3 7 7] ++ comes ⟨2, 3⟩ 8) = some s ∧
    (s.allPlayer[(7 : Int64)]?.isSome ∧ s.playerCache[(8 : Int64)]?.isSome) ∧
    (∀ c : Int64, s.playerCache[c]? = none ∨ s.allPlayer[c]? = none) ∧
    (∀ (c : Int64) it, s.playerCache[c]? = some it → ∃ p, it.playerCache = some p ∧ p.id = c) ∧
    ∀ (c : Int64) x, s.allPlayer[c]? = some x → ∃ p, x = some p ∧ p.id = c := by
  obtain ⟨s, hs⟩ := Option.isSome_iff_exists.mp (by decide +kernel : (run (step fun _ => 0) {}
    (comes ⟨0, 3⟩ 7 ++ [.clientIn 3 7 7] ++ comes ⟨2, 3⟩ 8)).isSome)
  refine ⟨s, hs, ?_, one_map hs⟩
  cases hs
  decide +kernel

end ChatShow.GameServer.PlayerMaps
