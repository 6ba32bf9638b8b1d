import ChatShow.GameServer.PlayerMaps
import Mathlib.Data.List.Nodup
import Mathlib.Data.List.Perm.Basic

/-! # The answer to an exit

An exit is answered when the save that it has asked for is acknowledged. What is to be answered is in
`m_saveDataList` under the player, one entry for a player and not for a save. Where an exit finds no
entry of its player and makes one message, each exit is answered once, and not before its save
(`exit_answered`). -/

namespace ChatShow.GameServer.ExitAck

open ChatShow.CommBase ChatShow.Dependence.CharDefine ChatShow.GameServer.SavePlayer
open ChatShow.GameServer.Players ChatShow.GameServer.Players.PlayerMessage
open ChatShow.GameServer.PlayerMaps ChatShow.Lib.Maps ChatShow.Lib.Runs Std

variable {byteSize : SaveTypeInfo → ℕ} {s s' : PlayerMessage}

/-- Whether a message is the acknowledgement of the exit `r`. -/
def acksExit (r : ℕ) : Sent → Bool
  | .back msgtype msgid message _ =>
    msgtype = msgType NetWorkConfig.Ack ∧ msgid = MSG_REQ_GT2GM_PLAYEREXIT ∧ message.id = r
  | _ => false

/-- How often the exit `r` has been acknowledged. -/
def acks (s : PlayerMessage) (r : ℕ) : ℕ := s.sent.countP (acksExit r)

/-- The saves that were started for the exit `r` and have not been answered. -/
def pending (s : PlayerMessage) (r : ℕ) : ℕ := s.saves.countP fun save => save.exit = some r

/-- The player that an exit finds. -/
def exiting (s : PlayerMessage) (charid : Int64) : Option OnlinePlayer :=
  match s.playerCache[charid]? with
  | some ite => ite.playerCache
  | none => s.allPlayer[charid]?.join

/-- The player of an exit has no entry in `m_saveDataList`, and makes one message. -/
def ExitsAlone (byteSize : SaveTypeInfo → ℕ) (s : PlayerMessage) : Label → Prop
  | .playerExit _ charid => ∀ p ∈ exiting s charid,
      s.saveDataList[charid]? = none ∧ p.toPlayer.packets byteSize = 1
  | _ => True

instance (s : PlayerMessage) : (a : Label) → Decidable (ExitsAlone byteSize s a)
  | .playerExit _ charid => inferInstanceAs (Decidable (∀ p ∈ exiting s charid, _))
  | .playerInfo .. | .playerInfoAck .. | .saveAck _ | .clientIn .. | .synAttr ..
  | .removeDelayPlayer _ => inferInstanceAs (Decidable True)

/-! ### The invariant -/

/-- The entry that answers the exit `r` when one save is answered. -/
def Waits (d : SaveData) (r : ℕ) : Prop :=
  d.info.count = 1 ∧ d.info.msgtype = msgType NetWorkConfig.Ack ∧
    d.info.msgid = MSG_REQ_GT2GM_PLAYEREXIT ∧ ∃ reply, d.reply = some reply ∧ reply.message.id = r

/-- Each save has the entry of its player, and each exit has its answer or a save. -/
structure Counted (s : PlayerMessage) : Prop extends Apart s where
  entry : ∀ save ∈ s.saves, ∃ r d, save.exit = some r ∧
    s.saveDataList[save.charID]? = some d ∧ Waits d r
  nodup : (s.saves.map Save.charID).Nodup
  fresh : ∀ r ∈ s.exited, r < s.received
  once : s.exited.Nodup
  count : ∀ r, acks s r + pending s r = s.exited.count r

theorem counted_init : Counted {} where
  toApart := apart_init
  entry save h := by cases h
  nodup := List.nodup_nil
  fresh r h := by cases h
  once := List.nodup_nil
  count _ := rfl

theorem acks_send {m : Sent} {r : ℕ} (hm : acksExit r m = false) : acks (s.send m) r = acks s r := by
  unfold acks send
  dsimp only
  rw [List.countP_append, List.countP_singleton, hm]
  rfl

/-- What only sends other messages and moves players keeps the count. -/
theorem Counted.of_eq (h : Counted s) (ha : Apart s') (hsaves : s'.saves = s.saves)
    (hlist : s'.saveDataList = s.saveDataList) (hsent : ∀ r, acks s' r = acks s r)
    (hexited : s'.exited = s.exited) (hrec : s.received ≤ s'.received) : Counted s' where
  toApart := ha
  entry := by rw [hsaves, hlist]; exact h.entry
  nodup := by rw [hsaves]; exact h.nodup
  fresh r hr := by
    rw [hexited] at hr
    exact Nat.lt_of_lt_of_le (h.fresh r hr) hrec
  once := by rw [hexited]; exact h.once
  count r := by
    unfold pending
    rw [hsent, hsaves, hexited]
    exact h.count r

/-! ### A player that exits -/

theorem fresh_append (h : Counted s) : ∀ r ∈ s.exited ++ [s.received], r < s.received + 1 := by
  intro r hr
  rcases List.mem_append.mp hr with hr | hr
  · exact Nat.lt_succ_of_lt (h.fresh r hr)
  · rw [List.mem_singleton.mp hr]
    exact Nat.lt_succ_self _

theorem once_append (h : Counted s) : (s.exited ++ [s.received]).Nodup := by
  refine List.nodup_append.mpr ⟨h.once, List.nodup_singleton _, fun a ha b hb => ?_⟩
  rw [List.mem_singleton.mp hb]
  exact Nat.ne_of_lt (h.fresh a ha)

theorem count_append (r : ℕ) :
    (s.exited ++ [s.received]).count r = s.exited.count r + if s.received = r then 1 else 0 := by
  rw [List.count_append, List.count_singleton]
  simp only [beq_iff_eq]

/-- What the save of an exit leaves, where it makes one message and there is no entry. -/
theorem saveExit_one (message : Message) {p : OnlinePlayer} {charid : Int64}
    (hid : p.id = charid) (hp : p.toPlayer.packets byteSize = 1)
    (hn : s.saveDataList[charid]? = none) :
    ∃ d, Waits d message.id ∧
      (s.saveExit byteSize p message charid).saveDataList = s.saveDataList.insert charid d ∧
      (s.saveExit byteSize p message charid).saves = s.saves ++ [⟨charid, some message.id⟩] ∧
      ∀ r, acks (s.saveExit byteSize p message charid) r = acks s r := by
  have hinfo : ({ msgtype := msgType NetWorkConfig.Ack, msgid := MSG_REQ_GT2GM_PLAYEREXIT } :
    SaveDataInfo).msgtype ≠ 0 := by decide
  obtain ⟨info, hcalls⟩ := saveAllPlayer_one byteSize hp hinfo
  unfold saveExit saveAllPlayer
  rw [hcalls, List.foldl_cons, List.foldl_nil, saveCall, addSendDataCach, hid, hn]
  refine ⟨_, ⟨rfl, rfl, rfl, ⟨message, charid⟩, rfl, rfl⟩, rfl, rfl, fun r => ?_⟩
  exact acks_send (m := .saveRequest _ _) rfl

/-- The exit of a player that is there. -/
theorem Counted.exit (h : Counted s) (channel : ℤ) {p : OnlinePlayer} {charid : Int64}
    (hid : p.id = charid) (hp : p.toPlayer.packets byteSize = 1)
    (hn : s.saveDataList[charid]? = none) {s₂ : PlayerMessage}
    (hs₂ : saveExit byteSize { s.receive with exited := s.exited ++ [s.received] } p
      (s.request channel) charid = s₂) (ha : Apart s')
    (hlist : s'.saveDataList = s₂.saveDataList) (hsaves : s'.saves = s₂.saves)
    (hsent : s'.sent = s₂.sent) (hexited : s'.exited = s₂.exited)
    (hreceived : s'.received = s₂.received) : Counted s' := by
  generalize hs₁ : { s.receive with exited := s.exited ++ [s.received] } = s₁ at hs₂
  have hn₁ : s₁.saveDataList[charid]? = none := by rw [← hs₁]; exact hn
  obtain ⟨d, hd, hl, hsv, hacks⟩ := saveExit_one (s := s₁) (s.request channel) hid hp hn₁
  have hleft := saves_saveExit byteSize s₁ p (s.request channel) charid
  rw [hs₂] at hl hsv hacks hleft
  rw [hl] at hlist
  rw [hsv] at hsaves
  rw [hleft.exited] at hexited
  rw [hleft.received] at hreceived
  have hfresh : ∀ save ∈ s.saves, save.charID ≠ charid := fun save hmem heq => by
    obtain ⟨r, d', -, hd', -⟩ := h.entry save hmem
    rw [heq, hn] at hd'
    cases hd'
  subst hs₁
  constructor
  case toApart => exact ha
  case entry =>
    intro save hmem
    rw [hsaves] at hmem
    rw [hlist]
    rcases List.mem_append.mp hmem with hmem | hmem
    · obtain ⟨r, d', hr, hd', hw⟩ := h.entry save hmem
      refine ⟨r, d', hr, ?_, hw⟩
      dsimp only [receive]
      rw [get_insert_of_ne _ _ (hfresh save hmem).symm]
      exact hd'
    · rw [List.mem_singleton.mp hmem]
      exact ⟨s.received, d, rfl, get_insert_self _ _ _, hd⟩
  case nodup =>
    rw [hsaves, List.map_append]
    refine List.nodup_append.mpr ⟨h.nodup, List.nodup_singleton _, fun a ha b hb => ?_⟩
    obtain ⟨save, hmem, rfl⟩ := List.mem_map.mp ha
    rw [List.mem_singleton.mp hb]
    exact hfresh save hmem
  case fresh =>
    rw [hexited, hreceived]
    exact fresh_append h
  case once =>
    rw [hexited]
    exact once_append h
  case count =>
    intro r
    have hold := h.count r
    have hack : acks s' r = acks s r := by
      unfold acks
      rw [hsent]
      exact hacks r
    have hpend : pending s' r = pending s r + if s.received = r then 1 else 0 := by
      unfold pending
      rw [hsaves, List.countP_append, List.countP_singleton]
      simp only [request, Option.some.injEq, decide_eq_true_eq]
      rfl
    rw [hexited, hack, hpend, count_append]
    omega

theorem counted_playerExit {channel : ℤ} {charid : Int64} (h : Counted s)
    (hg : ExitsAlone byteSize s (.playerExit channel charid))
    (hs : s.playerExit byteSize channel charid = some s') : Counted s' := by
  have ha : Apart s' := apart_playerExit h.toApart hs
  unfold playerExit at hs
  dsimp only at hs
  split at hs
  · rename_i ite hite
    have hite : s.playerCache[charid]? = some ite := hite
    obtain ⟨p, hp, hs⟩ := Option.bind_eq_some_iff.mp hs
    obtain ⟨p', hp', hid, -⟩ := h.cached charid ite hite
    cases hp.symm.trans hp'
    obtain ⟨hn, hpack⟩ := hg p (by unfold exiting; rw [hite]; exact hp)
    generalize hs₂ : saveExit byteSize _ p (s.request channel) charid = s₂ at hs
    cases hs
    exact h.exit channel hid hpack hn hs₂ ha rfl rfl rfl rfl rfl
  · rename_i hnone
    have hnone : s.playerCache[charid]? = none := hnone
    split at hs
    · rename_i it hit
      have hit : s.allPlayer[charid]? = some it := hit
      obtain ⟨p, hp, hs⟩ := Option.bind_eq_some_iff.mp hs
      obtain ⟨p', hp', hid, -⟩ := h.online charid it hit
      cases hp.symm.trans hp'
      obtain ⟨hn, hpack⟩ := hg p (by unfold exiting; rw [hnone, hit]; exact hp)
      generalize hs₂ : saveExit byteSize _ p (s.request channel) charid = s₂ at hs
      cases hs
      exact h.exit channel hid hpack hn hs₂ ha rfl rfl rfl rfl rfl
    · -- there is no such player, and the exit is answered at once
      cases hs
      refine ⟨ha, h.entry, h.nodup, fresh_append h, once_append h, fun r => ?_⟩
      have hold := h.count r
      have hack : acks ({ s.receive with exited := s.exited ++ [s.received] }.send
          (.back (msgType NetWorkConfig.Ack) MSG_REQ_GT2GM_PLAYEREXIT (s.request channel)
            (.retInt charid))) r = acks s r + if s.received = r then 1 else 0 := by
        unfold acks send
        dsimp only
        rw [List.countP_append, List.countP_singleton, acksExit]
        simp only [true_and, decide_eq_true_eq]
        rfl
      rw [hack]
      refine Eq.trans ?_ (count_append r).symm
      change _ + pending s r = _
      omega

/-! ### A save that is answered -/

theorem counted_saveAck {i : ℕ} {save : Save} (h : Counted s) (hi : s.saves[i]? = some save) :
    Counted ({ s with saves := s.saves.eraseIdx i }.saveAck save.charID) := by
  obtain ⟨hlt, rfl⟩ := List.getElem?_eq_some_iff.mp hi
  have hperm : (s.saves[i] :: s.saves.eraseIdx i).Perm s.saves := List.getElem_cons_eraseIdx_perm hlt
  obtain ⟨r, d, hr, hd, hcount, htype, hmsgid, reply, hreply, hrid⟩ :=
    h.entry s.saves[i] (List.getElem_mem hlt)
  have hnd : (s.saves[i].charID :: (s.saves.eraseIdx i).map Save.charID).Nodup :=
    (hperm.map Save.charID).nodup_iff.mpr h.nodup
  have hsaveAck : { s with saves := s.saves.eraseIdx i }.saveAck s.saves[i].charID =
      { s.send (.back d.info.msgtype d.info.msgid reply.message (.retInt reply.content)) with
        saves := s.saves.eraseIdx i
        saveDataList := s.saveDataList.erase s.saves[i].charID } := by
    have hdeal : { s with saves := s.saves.eraseIdx i }.dealWithSaveResult d =
        { s with saves := s.saves.eraseIdx i }.send
          (.back d.info.msgtype d.info.msgid reply.message (.retInt reply.content)) := by
      unfold dealWithSaveResult
      dsimp only
      rw [if_neg (by rw [hcount]; decide), hreply]
      dsimp only
      rw [if_pos (Or.inr htype)]
    unfold saveAck
    dsimp only
    rw [hd]
    dsimp only
    rw [hdeal]
    rfl
  rw [hsaveAck]
  constructor
  case toApart => exact h.toApart.of_eq rfl rfl
  case entry =>
    intro save hmem
    obtain ⟨r', d', hr', hd', hw⟩ := h.entry save (List.mem_of_mem_eraseIdx hmem)
    have hne : s.saves[i].charID ≠ save.charID := fun heq =>
      (List.nodup_cons.mp hnd).1 (heq ▸ List.mem_map_of_mem hmem)
    refine ⟨r', d', hr', ?_, hw⟩
    dsimp only
    rw [get_erase_of_ne _ hne]
    exact hd'
  case nodup => exact (List.nodup_cons.mp hnd).2
  case fresh => exact h.fresh
  case once => exact h.once
  case count =>
    intro r'
    have hold := h.count r'
    have hpend : pending s r' = (s.saves.eraseIdx i).countP (fun save => save.exit = some r') +
        if r = r' then 1 else 0 := by
      unfold pending
      rw [← hperm.countP_eq, List.countP_cons, hr]
      simp only [Option.some.injEq, decide_eq_true_eq]
    have hack : acks (s.send (.back d.info.msgtype d.info.msgid reply.message
        (.retInt reply.content))) r' = acks s r' + if r = r' then 1 else 0 := by
      unfold acks send
      dsimp only
      rw [List.countP_append, List.countP_singleton, acksExit, htype, hmsgid, hrid]
      simp only [true_and, decide_eq_true_eq]
    change acks (s.send _) r' + (s.saves.eraseIdx i).countP _ = s.exited.count r'
    rw [hack]
    omega

/-! ### The other steps -/

/-- A save that answers nothing makes no entry, and is not waited for. -/
theorem saveAllPlayer_simple {p : OnlinePlayer} (hp : p.toPlayer.packets byteSize ≠ 0) :
    (s.saveAllPlayer byteSize p {} none).saves = s.saves ∧
      (s.saveAllPlayer byteSize p {} none).saveDataList = s.saveDataList ∧
      ∀ r, acks (s.saveAllPlayer byteSize p {} none) r = acks s r := by
  have hcalls : ∀ call ∈ (p.toPlayer.saveAllPlayer byteSize {} true true).2.2,
      ∃ info, call = .sendSimple info p.dbChannelID := fun call hc => by
    rw [saveAllPlayer_of_packets byteSize _ hp] at hc
    exact sendAll_simple rfl hc
  unfold saveAllPlayer
  generalize (p.toPlayer.saveAllPlayer byteSize {} true true).2.2 = calls at hcalls
  induction calls generalizing s with
  | nil => exact ⟨rfl, rfl, fun _ => rfl⟩
  | cons call calls ih =>
    obtain ⟨info, rfl⟩ := hcalls call List.mem_cons_self
    obtain ⟨hsv, hl, hack⟩ := ih (s := s.send (.saveSimple info p.dbChannelID)) fun call hc =>
      hcalls call (List.mem_cons_of_mem _ hc)
    exact ⟨hsv, hl, fun r => (hack r).trans (acks_send rfl)⟩

/-- A removal tells the DBServer, and asks for no save. -/
theorem counted_removeDelay {now : UInt64} {e : Int64 × PlayerCache} (h : Counted s)
    (he : IsPlayer e.1 e.2.playerCache) (hs : removeDelay byteSize now s e = some s') :
    Counted s' := by
  have ha : Apart s' := apart_removeDelay h.toApart hs
  unfold removeDelay at hs
  split_ifs at hs
  · obtain ⟨p, hp, hs⟩ := Option.bind_eq_some_iff.mp hs
    obtain ⟨p', hp', -, hinit⟩ := he
    cases hp.symm.trans hp'
    obtain ⟨hsv, hl, hack⟩ := saveAllPlayer_simple (s := s) (packets_pos byteSize hinit)
    have hleft := saves_saveAllPlayer byteSize s p {} none
    generalize s.saveAllPlayer byteSize p {} none = s₁ at hs hsv hl hack hleft
    cases hs
    exact h.of_eq ha hsv hl (fun r => (acks_send (m := .playerExit _ _) rfl).trans (hack r))
      hleft.exited hleft.received.ge
  · cases hs
    exact h

theorem counted_removeDelayPlayer {now : UInt64} (h : Counted s)
    (hs : s.removeDelayPlayer byteSize now = some s') : Counted s' := by
  have hlist : ∀ e ∈ s.playerCache.toList, IsPlayer e.1 e.2.playerCache := fun e he =>
    h.cached e.1 e.2 (TreeMap.mem_toList_iff_getElem?_eq_some.mp he)
  refine run_inv_along (P := Counted) (Q := fun e => IsPlayer e.1 e.2.playerCache)
    (G := fun _ _ => True) (fun s e s' h he _ hs => counted_removeDelay h he hs) hs hlist ?_ h
  exact along_of_take fun _ _ _ _ => trivial

theorem counted_step {a : Label} (h : Counted s) (hg : ExitsAlone byteSize s a)
    (hs : s.step byteSize a = some s') : Counted s' := by
  have ha : Apart s' := apart_step h.toApart hs
  cases a with
  | playerInfo channel charid ip dbSvr =>
    cases hs
    unfold playerInfo at ha ⊢
    dsimp only at ha ⊢
    split_ifs at ha ⊢
    · exact h.of_eq ha rfl rfl (fun _ => rfl) rfl (Nat.le_succ _)
    · exact h.of_eq ha rfl rfl (fun _ => acks_send (s := s) (m := .load _ _) rfl) rfl (Nat.le_succ _)
    · exact h.of_eq ha rfl rfl (fun _ => rfl) rfl (Nat.le_succ _)
  | playerInfoAck =>
    unfold step at hs
    dsimp only at hs
    split_ifs at hs
    cases answered hs with
    | late => exact h.of_eq ha rfl rfl (fun _ => rfl) rfl le_rfl
    | there => exact h
    | cached => exact h.of_eq ha rfl rfl (fun _ => rfl) rfl le_rfl
  | saveAck i =>
    unfold step at hs
    dsimp only at hs
    split at hs
    · cases hs
      exact counted_saveAck h (by assumption)
    · cases hs
  | clientIn channel charID ret =>
    cases hs
    have hback (message : Message) (r : ℕ) : acksExit r
        (.back (msgType NetWorkConfig.Ack) MSG_REQ_GT2GM_CLIENTIN message (.retInt ret)) = false := by
      unfold acksExit
      exact decide_eq_false fun hc => absurd hc.2.1 (by decide)
    have hsame : (s.clientIn channel charID ret).saves = s.saves ∧
        (s.clientIn channel charID ret).saveDataList = s.saveDataList ∧
        (∀ r, acks (s.clientIn channel charID ret) r = acks s r) ∧
        (s.clientIn channel charID ret).exited = s.exited ∧
        (s.clientIn channel charID ret).received = s.received + 1 := by
      unfold clientIn
      dsimp only
      split
      · exact ⟨rfl, rfl, fun _ => rfl, rfl, rfl⟩
      · split
        · exact ⟨rfl, rfl, fun r => acks_send (hback _ r), rfl, rfl⟩
        · exact ⟨rfl, rfl, fun _ => rfl, rfl, rfl⟩
    obtain ⟨hsv, hl, hacks, hex, hrec⟩ := hsame
    exact h.of_eq ha hsv hl hacks hex (hrec ▸ Nat.le_succ _)
  | playerExit => exact counted_playerExit h hg hs
  | synAttr charID attr =>
    cases hs
    have hsame : (s.synAttr charID attr).saves = s.saves ∧
        (s.synAttr charID attr).saveDataList = s.saveDataList ∧
        (s.synAttr charID attr).sent = s.sent ∧ (s.synAttr charID attr).exited = s.exited ∧
        (s.synAttr charID attr).received = s.received + 1 := by
      unfold synAttr
      dsimp only
      split
      · exact ⟨rfl, rfl, rfl, rfl, rfl⟩
      · exact ⟨rfl, rfl, rfl, rfl, rfl⟩
    obtain ⟨hsv, hl, hsent, hex, hrec⟩ := hsame
    exact h.of_eq ha hsv hl (fun r => by unfold acks; rw [hsent]) hex (hrec ▸ Nat.le_succ _)
  | removeDelayPlayer => exact counted_removeDelayPlayer h hs

/-- **Where each exit finds no entry of its player and makes one message, it is answered once when no
save of it is waited for, and not before.** -/
theorem exit_answered {l : List Label} (h : run (step byteSize) {} l = some s)
    (hg : Along (step byteSize) (ExitsAlone byteSize) {} l) (r : ℕ) (hr : r ∈ s.exited) :
    acks s r = if ∃ save ∈ s.saves, save.exit = some r then 0 else 1 := by
  have hs : Counted s := run_inv_along (P := Counted) (Q := fun _ => True)
    (fun _ _ _ h _ hg hs => counted_step h hg hs) h (fun _ _ => trivial) hg counted_init
  have hone : acks s r + pending s r = 1 := by
    rw [hs.count r]
    exact List.count_eq_one_of_mem hs.once hr
  have hpos : 0 < pending s r ↔ ∃ save ∈ s.saves, save.exit = some r := by
    unfold pending
    rw [List.countP_pos_iff]
    simp only [decide_eq_true_eq]
  split_ifs with hp
  · have := hpos.mpr hp
    omega
  · have := mt hpos.mp hp
    omega

/-- A player exits, and the DBServer acknowledges the save. -/
theorem exit_answered_one : ∃ s, run (step fun _ => 0) {}
      (comes ⟨0, 3⟩ 7 ++ [.playerExit 3 7, .saveAck 0]) = some s ∧
    s.exited = [1] ∧ acks s 1 = if ∃ save ∈ s.saves, save.exit = some 1 then 0 else 1 := by
  obtain ⟨s, hs⟩ := Option.isSome_iff_exists.mp (by decide +kernel : (run (step fun _ => 0) {}
    (comes ⟨0, 3⟩ 7 ++ [.playerExit 3 7, .saveAck 0])).isSome)
  have hr : s.exited = [1] := by
    cases hs
    decide +kernel
  refine ⟨s, hs, hr, ?_⟩
  exact exit_answered hs (by decide +kernel) 1 (by rw [hr]; decide)

/-- The player comes again and exits again before the first save is acknowledged. The second exit is
not answered. -/
theorem exit_unanswered : ∃ s, run (step fun _ => 0) {} (comes ⟨0, 3⟩ 7 ++ [.playerExit 3 7] ++
      comes ⟨2, 3⟩ 7 ++ [.playerExit 3 7, .saveAck 0, .saveAck 0]) = some s ∧
    s.exited = [1, 3] ∧ s.saves.length = 0 ∧ acks s 1 = 1 ∧ acks s 3 = 0 := by
  obtain ⟨s, hs⟩ := Option.isSome_iff_exists.mp (by decide +kernel : (run (step fun _ => 0) {}
    (comes ⟨0, 3⟩ 7 ++ [.playerExit 3 7] ++ comes ⟨2, 3⟩ 7 ++
      [.playerExit 3 7, .saveAck 0, .saveAck 0])).isSome)
  refine ⟨s, hs, ?_⟩
  cases hs
  decide +kernel

end ChatShow.GameServer.ExitAck
