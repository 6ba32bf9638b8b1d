import ChatShow.GameServer.Players

/-! # The gate is not told of a login

The answer to `MSG_REQ_GT2GM_PLAYERINFO` is sent in the handler of the answer of the DBServer, but
where there is no request to answer, and none is sent when the DBServer is late. So no request is
ever answered (`answered_iff`). -/

namespace ChatShow.GameServer.LoginAck

open ChatShow.CommBase ChatShow.Dependence.CharDefine ChatShow.GameServer.SavePlayer
open ChatShow.GameServer.Players
open ChatShow.GameServer.Players.PlayerMessage ChatShow.Lib.Maps ChatShow.Lib.Runs Std

variable {byteSize : SaveTypeInfo → ℕ} {s s' : PlayerMessage}

/-- Whether a message answers the request `r` for a player. -/
def answersLogin (r : ℕ) : Sent → Bool
  | .back _ msgid message _ => msgid = MSG_REQ_GT2GM_PLAYERINFO ∧ message.id = r
  | _ => false

/-- How often the request `r` for a player has been answered. -/
def answers (s : PlayerMessage) (r : ℕ) : ℕ := s.sent.countP (answersLogin r)

/-- No request for a player has been answered, and what waits for a save will answer none. -/
structure Silent (s : PlayerMessage) : Prop where
  sent : ∀ r, ∀ m ∈ s.sent, answersLogin r m = false
  kept : ∀ (c : Int64) d, s.saveDataList[c]? = some d → d.info.msgid ≠ MSG_REQ_GT2GM_PLAYERINFO

theorem silent_init : Silent {} where
  sent _ m hm := by cases hm
  kept c d h := by
    rw [TreeMap.getElem?_emptyc] at h
    cases h

theorem Silent.of_eq (h : Silent s) (hsent : s'.sent = s.sent)
    (hlist : s'.saveDataList = s.saveDataList) : Silent s' where
  sent := by rw [hsent]; exact h.sent
  kept := by rw [hlist]; exact h.kept

theorem Silent.send (h : Silent s) {m : Sent} (hm : ∀ r, answersLogin r m = false) :
    Silent (s.send m) where
  sent r m' hm' := by
    rcases List.mem_append.mp hm' with hm' | hm'
    · exact h.sent r m' hm'
    · rw [List.mem_singleton.mp hm']
      exact hm r
  kept := h.kept

/-- A message that goes back with another id answers no request for a player. -/
theorem answersLogin_back {r : ℕ} {msgtype msgid : Int32} {message : Message} {content : Content}
    (h : msgid ≠ MSG_REQ_GT2GM_PLAYERINFO) :
    answersLogin r (.back msgtype msgid message content) = false :=
  decide_eq_false fun hc => h hc.1

/-! ### Saves -/

theorem silent_dealWithSaveResult (h : Silent s) {data : SaveData}
    (hd : data.info.msgid ≠ MSG_REQ_GT2GM_PLAYERINFO) : Silent (s.dealWithSaveResult data) := by
  unfold dealWithSaveResult
  dsimp only
  split_ifs
  · exact h
  · split
    · exact h
    · exact h.send fun _ => answersLogin_back hd
  · split
    · exact h
    · exact h

theorem silent_saveCall (h : Silent s) (reply : Option Reply) {call : SaveCall}
    (hd : ∀ d ∈ call.data, d.msgid ≠ MSG_REQ_GT2GM_PLAYERINFO) : Silent (saveCall reply s call) := by
  cases call with
  | sendSimple => exact h.send fun _ => rfl
  | sendRequest info charID sendData dbChannelID =>
    refine Silent.of_eq (s := (s.addSendDataCach charID ⟨sendData, reply⟩).send
      (.saveRequest info dbChannelID)) (Silent.send ?_ fun _ => rfl) rfl rfl
    unfold addSendDataCach
    split
    · refine ⟨h.sent, fun c d hc => ?_⟩
      dsimp only at hc
      rw [get_insert] at hc
      split_ifs at hc
      · cases hc
        exact hd sendData rfl
      · exact h.kept c d hc
    · exact h
  | dealWithSaveResult sendData => exact silent_dealWithSaveResult h (hd sendData rfl)

theorem silent_saveAllPlayer (h : Silent s) (p : OnlinePlayer) {sendData : SaveDataInfo}
    (reply : Option Reply) (hd : sendData.msgid ≠ MSG_REQ_GT2GM_PLAYERINFO) :
    Silent (s.saveAllPlayer byteSize p sendData reply) := by
  have hcalls : ∀ call ∈ (p.toPlayer.saveAllPlayer byteSize sendData true true).2.2,
      ∀ d ∈ call.data, d.msgid ≠ MSG_REQ_GT2GM_PLAYERINFO := fun call hc d hcd => by
    rw [data_saveAllPlayer byteSize hc hcd]
    exact hd
  unfold saveAllPlayer
  generalize (p.toPlayer.saveAllPlayer byteSize sendData true true).2.2 = calls at hcalls
  induction calls generalizing s with
  | nil => exact h
  | cons call calls ih =>
    rw [List.foldl_cons]
    exact ih (silent_saveCall h reply (hcalls call List.mem_cons_self)) fun call hc =>
      hcalls call (List.mem_cons_of_mem _ hc)

/-! ### The handlers -/

theorem silent_playerInfo (h : Silent s) (channel : ℤ) (charid : Int64) (ip : List UInt8)
    (dbSvr : Bool) : Silent (s.playerInfo channel charid ip dbSvr) := by
  have hrec : Silent s.receive := h.of_eq rfl rfl
  have hload (charid : Int64) (act : StringIntAct) : Silent (s.receive.send (.load charid act)) :=
    hrec.send fun _ => rfl
  unfold playerInfo
  dsimp only
  split_ifs
  · exact hrec
  · exact (hload _ _).of_eq rfl rfl
  · exact hrec

theorem silent_saveAck (h : Silent s) (charID : Int64) : Silent (s.saveAck charID) := by
  unfold saveAck
  split
  · exact h
  · rename_i data hdata
    have hd := silent_dealWithSaveResult h (h.kept charID data hdata)
    refine ⟨hd.sent, fun c d hc => ?_⟩
    dsimp only at hc
    rw [get_erase] at hc
    split_ifs at hc
    exact h.kept c d hc

theorem silent_clientIn (h : Silent s) (channel : ℤ) (charID ret : Int64) :
    Silent (s.clientIn channel charID ret) := by
  have hrec : Silent s.receive := h.of_eq rfl rfl
  have hback (message : Message) : Silent (s.receive.send
      (.back (msgType NetWorkConfig.Ack) MSG_REQ_GT2GM_CLIENTIN message (.retInt ret))) :=
    hrec.send fun _ => answersLogin_back (by decide)
  unfold clientIn
  dsimp only
  split
  · exact hrec
  · split
    · exact (hback _).of_eq rfl rfl
    · exact hrec

variable (byteSize) in
theorem silent_saveExit (h : Silent s) (p : OnlinePlayer) (message : Message) (charid : Int64) :
    Silent (s.saveExit byteSize p message charid) := silent_saveAllPlayer h p _ (by decide)

theorem silent_playerExit {channel : ℤ} {charid : Int64} (h : Silent s)
    (hs : s.playerExit byteSize channel charid = some s') : Silent s' := by
  have hrec : Silent { s.receive with exited := s.exited ++ [s.received] } := h.of_eq rfl rfl
  have hexit (p : OnlinePlayer) := silent_saveExit byteSize hrec p (s.request channel) charid
  unfold playerExit at hs
  dsimp only at hs
  split at hs
  · obtain ⟨p, -, hs⟩ := Option.bind_eq_some_iff.mp hs
    have hsave := hexit p
    generalize saveExit byteSize _ p (s.request channel) charid = s₂ at hs hsave
    cases hs
    exact hsave.of_eq rfl rfl
  · split at hs
    · obtain ⟨p, -, hs⟩ := Option.bind_eq_some_iff.mp hs
      have hsave := hexit p
      generalize saveExit byteSize _ p (s.request channel) charid = s₂ at hs hsave
      cases hs
      exact hsave.of_eq rfl rfl
    · cases hs
      exact hrec.send fun _ => answersLogin_back (by decide)

theorem silent_removeDelay {now : UInt64} {e : Int64 × PlayerCache} (h : Silent s)
    (hs : removeDelay byteSize now s e = some s') : Silent s' := by
  unfold removeDelay at hs
  split_ifs at hs
  · obtain ⟨p, -, hs⟩ := Option.bind_eq_some_iff.mp hs
    have hsave : Silent (s.saveAllPlayer byteSize p {} none) :=
      silent_saveAllPlayer h p none (by decide)
    generalize s.saveAllPlayer byteSize p {} none = s₁ at hs hsave
    cases hs
    exact Silent.of_eq (hsave.send fun _ => rfl) rfl rfl
  · cases hs
    exact h

theorem silent_step {a : Label} (h : Silent s) (hs : s.step byteSize a = some s') : Silent s' := by
  cases a with
  | playerInfo => cases hs; exact silent_playerInfo h ..
  | playerInfoAck =>
    unfold step at hs
    dsimp only at hs
    split_ifs at hs
    cases answered hs with
    | late => exact h.of_eq rfl rfl
    | there => exact h
    | cached => exact h.of_eq rfl rfl
  | saveAck i =>
    unfold step at hs
    dsimp only at hs
    split at hs
    · cases hs
      have hi : Silent { s with saves := s.saves.eraseIdx i } := h.of_eq rfl rfl
      exact silent_saveAck hi _
    · cases hs
  | clientIn => cases hs; exact silent_clientIn h ..
  | playerExit => exact silent_playerExit h hs
  | synAttr charID attr =>
    cases hs
    unfold synAttr
    dsimp only
    split
    · exact h.of_eq rfl rfl
    · exact h.of_eq rfl rfl
  | removeDelayPlayer now =>
    exact run_inv (P := Silent) (fun _ _ _ h hs => silent_removeDelay h hs) hs h

theorem answers_eq_zero {l : List Label} (h : run (step byteSize) {} l = some s) (r : ℕ) :
    answers s r = 0 := by
  have hs : Silent s := run_inv (P := Silent) (fun _ _ _ h hs => silent_step h hs) h silent_init
  refine List.countP_eq_zero.mpr fun m hm => ?_
  rw [hs.sent r m hm]
  decide

/-- **The requests that the DBServer has answered with a player, or not in time, have been answered
once each only if there is none.** -/
theorem answered_iff {l : List Label} (h : run (step byteSize) {} l = some s) :
    (∀ r ∈ s.loaded, answers s r = 1) ↔ s.loaded = [] := by
  constructor
  · intro hall
    refine List.eq_nil_iff_forall_not_mem.mpr fun r hr => ?_
    have hone := hall r hr
    rw [answers_eq_zero h r] at hone
    cases hone
  · intro hnil r hr
    rw [hnil] at hr
    cases hr

/-- A request that finds no DBServer. -/
theorem answered_iff_none : ∃ s, run (step fun _ => 0) {} [.playerInfo 3 7 [] false] = some s ∧
    s.received = 1 ∧ ((∀ r ∈ s.loaded, answers s r = 1) ↔ s.loaded = []) := by
  obtain ⟨s, hs⟩ := Option.isSome_iff_exists.mp
    (by decide +kernel : (run (step fun _ => 0) {} [.playerInfo 3 7 [] false]).isSome)
  refine ⟨s, hs, ?_, answered_iff hs⟩
  cases hs
  decide +kernel

/-- A player comes into the cache, another one is late, and neither request is answered. -/
theorem not_answered : ∃ s, run (step fun _ => 0) {} (comes ⟨0, 3⟩ 7 ++ [.playerInfo 3 8 [] true,
      .playerInfoAck { mesReq := some ⟨1, 3⟩ } true {} {} 5 0]) = some s ∧
    s.playerCache[(7 : Int64)]?.isSome ∧ s.loaded = [0, 1] ∧ answers s 0 = 0 ∧ answers s 1 = 0 := by
  obtain ⟨s, hs⟩ := Option.isSome_iff_exists.mp (by decide +kernel : (run (step fun _ => 0) {}
    (comes ⟨0, 3⟩ 7 ++ [.playerInfo 3 8 [] true,
      .playerInfoAck { mesReq := some ⟨1, 3⟩ } true {} {} 5 0])).isSome)
  refine ⟨s, hs, ?_⟩
  cases hs
  decide +kernel

end ChatShow.GameServer.LoginAck
