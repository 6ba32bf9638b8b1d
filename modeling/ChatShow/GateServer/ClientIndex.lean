import ChatShow.GateServer.ServerManager

/-! # The three indices of the gate

`m_client`, `m_idClient` and `m_timeout` are about the same players. A login that finds its character
logged in already does not look at the channel, and a channel is closed for whoever stood on it. Where
a player that is logged in does not come on another channel, a new one logs in on a channel that is
its own, and no channel is closed on behalf of somebody else, the three agree in every run
(`index_consistent`). -/

namespace ChatShow.GateServer.ClientIndex

open ChatShow.CommBase.NetWorkConfig ChatShow.CommBase.Groups
open ChatShow.GateServer.Timeouts ChatShow.GateServer.ServerManager
open ChatShow.GateServer.ServerManager.ServerConHandler ChatShow.Lib.Maps ChatShow.Lib.Runs Std

variable {s s' : ServerConHandler}

/-- **The indices agree**, and the game server of a player that is logged in is the one of its
entry. -/
structure Index (s : ServerConHandler) : Prop where
  client : ∀ c o, s.client c = some o → (0 ≤ c ∧ c < MAX_EPOLL_fd) ∧ (s.object o).channelID = c ∧
    s.idClient[(s.object o).charID.toInt64]? = some o
  login : ∀ (charid : Int64) o, s.idClient[charid]? = some o →
    (s.object o).charID.toInt64 = charid ∧ o < s.made ∧
    ∃ it, s.timeout.timeout[charid]? = some it ∧ s.client it.channeid = some o ∧
      it.gsID = (s.object o).gsID
  keyed : s.timeout.Keyed

/-- What the indices know of a player. -/
def SameItem (x y : ClientItem) : Prop :=
  x.channelID = y.channelID ∧ x.charID = y.charID ∧ x.gsID = y.gsID

theorem sameItem_of_eq (h : s'.object = s.object) (o : ℕ) :
    SameItem (s'.object o) (s.object o) := by
  rw [h]
  exact ⟨rfl, rfl, rfl⟩

/-- The players `D` have gone from all three, and the others are as they were. -/
theorem Index.dropped (h : Index s) (D : Int64 → Prop)
    (hid : ∀ (a : Int64) o, s'.idClient[a]? = some o ↔ s.idClient[a]? = some o ∧ ¬ D a)
    (hkeep : ∀ (a : Int64) it, s.timeout.timeout[a]? = some it → (s.idClient[a]?).isSome → ¬ D a →
      ∃ it', s'.timeout.timeout[a]? = some it' ∧ it'.channeid = it.channeid ∧ it'.gsID = it.gsID)
    (hkeyed : s'.timeout.Keyed)
    (hobject : ∀ o, SameItem (s'.object o) (s.object o)) (hmade : s'.made = s.made)
    (hclient : ∀ c o, s'.client c = some o ↔
      s.client c = some o ∧ ¬ D (s.object o).charID.toInt64) : Index s' where
  client c o hc := by
    obtain ⟨hc, hD⟩ := (hclient c o).mp hc
    obtain ⟨hr, hch, hi⟩ := h.client c o hc
    obtain ⟨hch', hchar, -⟩ := hobject o
    rw [hch', hchar]
    exact ⟨hr, hch, (hid _ o).mpr ⟨hi, hD⟩⟩
  login a o ha := by
    obtain ⟨ha, hD⟩ := (hid a o).mp ha
    obtain ⟨hchar, hlt, it, hit, hc, hgs⟩ := h.login a o ha
    obtain ⟨it', hit', hch', hgs'⟩ := hkeep a it hit (ha ▸ rfl) hD
    obtain ⟨-, hcharo, hgso⟩ := hobject o
    rw [hcharo, hgso, hmade]
    refine ⟨hchar, hlt, it', hit', ?_, hgs'.trans hgs⟩
    rw [hch']
    exact (hclient _ o).mpr ⟨hc, hchar ▸ hD⟩
  keyed := hkeyed

/-- What leaves `m_client` and `m_idClient`, and the channels and game servers of the entries of who
is logged in. -/
theorem Index.frame (h : Index s) (hid : s'.idClient = s.idClient)
    (hkeep : ∀ (a : Int64) it, s.timeout.timeout[a]? = some it → (s.idClient[a]?).isSome →
      ∃ it', s'.timeout.timeout[a]? = some it' ∧ it'.channeid = it.channeid ∧ it'.gsID = it.gsID)
    (hkeyed : s'.timeout.Keyed)
    (hobject : ∀ o, SameItem (s'.object o) (s.object o)) (hmade : s'.made = s.made)
    (hclient : s'.client = s.client) : Index s' := by
  refine h.dropped (fun _ => False) (fun a o => ?_) (fun a it hit hl _ => hkeep a it hit hl) hkeyed
    hobject hmade fun c o => ?_
  · rw [hid, not_false_eq_true, and_true]
  · rw [hclient, not_false_eq_true, and_true]

/-- What has nothing to do with the players. -/
theorem Index.same (h : Index s) (ht : s'.timeout.timeout = s.timeout.timeout)
    (hid : s'.idClient = s.idClient) (hobject : s'.object = s.object) (hmade : s'.made = s.made)
    (hclient : s'.client = s.client) : Index s' := by
  have hkeyed : s'.timeout.Keyed := h.keyed.from fun a it hit => ⟨it, ht ▸ hit, rfl⟩
  refine h.frame hid (fun a it hit _ => ⟨it, ?_, rfl, rfl⟩) hkeyed (sameItem_of_eq hobject) hmade
    hclient
  rw [ht]
  exact hit

theorem Index.aside (h : Index s) (hs : Aside s s') : Index s' :=
  h.same hs.timeout hs.idClient hs.object hs.made hs.client

/-! ### Channels are closed -/

/-- Channels are closed in both ways, and nothing else changes. -/
structure Closes (cs : List ℤ) (s s' : ServerConHandler) : Prop where
  timeout : s'.timeout = s.timeout
  idClient : s'.idClient = s.idClient
  object : s'.object = s.object
  made : s'.made = s.made
  sub : ∀ c o, s'.client c = some o → s.client c = some o
  kept : ∀ c, c ∉ cs → s'.client c = s.client c
  gone : ∀ c ∈ cs, 0 ≤ c → c < MAX_EPOLL_fd → s'.client c = none

theorem closes_nil (ht : s'.timeout = s.timeout) (hid : s'.idClient = s.idClient)
    (ho : s'.object = s.object) (hm : s'.made = s.made) (hc : s'.client = s.client) :
    Closes [] s s' where
  timeout := ht
  idClient := hid
  object := ho
  made := hm
  sub c o h := by
    rw [← hc]
    exact h
  kept c _ := by rw [hc]
  gone c h := absurd h List.not_mem_nil

theorem closes_closeClientChannel (c : ℤ) : Closes [c] s (s.closeClientChannel c) := by
  unfold closeClientChannel
  split_ifs with hr
  · refine ⟨rfl, rfl, rfl, rfl, fun c' o hc => ?_, fun c' hc => ?_, fun c' hc _ _ => ?_⟩
    · dsimp only at hc
      rcases eq_or_ne c' c with rfl | hne
      · rw [Function.update_self] at hc
        cases hc
      · rw [Function.update_of_ne hne] at hc
        exact hc
    · exact Function.update_of_ne (List.ne_of_not_mem_cons hc) ..
    · rw [List.mem_singleton.mp hc]
      exact Function.update_self ..
  · refine ⟨rfl, rfl, rfl, rfl, fun _ _ h => h, fun _ _ => rfl, fun c' hc h0 h1 => ?_⟩
    rw [List.mem_singleton.mp hc] at h0 h1
    exact absurd ⟨h0, h1⟩ hr

theorem closes_closeBoth (c : ℤ) : Closes [c] s (s.closeBoth c) := by
  have h := closes_closeClientChannel (s := s.closeChannel c) c
  exact ⟨h.timeout, h.idClient, h.object, h.made, h.sub, h.kept, h.gone⟩

theorem closes_foldl (cs : List ℤ) : Closes cs s (cs.foldl closeBoth s) := by
  induction cs generalizing s with
  | nil => exact closes_nil rfl rfl rfl rfl rfl
  | cons c cs ih =>
    have h₁ := closes_closeBoth (s := s) c
    have h₂ := ih (s := s.closeBoth c)
    rw [List.foldl_cons]
    refine ⟨h₂.timeout.trans h₁.timeout, h₂.idClient.trans h₁.idClient, h₂.object.trans h₁.object,
      h₂.made.trans h₁.made, fun c' o hc => h₁.sub c' o (h₂.sub c' o hc), fun c' hc => ?_,
      fun c' hc h0 h1 => ?_⟩
    · rw [List.mem_cons, not_or] at hc
      rw [h₂.kept c' hc.2, h₁.kept c' fun hm => hc.1 (List.mem_singleton.mp hm)]
    · by_cases hm : c' ∈ cs
      · exact h₂.gone c' hm h0 h1
      · rw [h₂.kept c' hm]
        have hc' : c' = c := (List.mem_cons.mp hc).resolve_right hm
        exact h₁.gone c' (List.mem_singleton.mpr hc') h0 h1

theorem closed_closeBoth (c : ℤ) : (s.closeBoth c).closed = s.closed ++ [c] := by
  unfold closeBoth closeClientChannel
  split_ifs
  · rfl
  · rfl

/-- `DelTimeout` erases the entry and closes its channel. -/
theorem delTimeout_closes (charid : Int64) : ∃ cs, Closes cs
      { s with timeout := (s.timeout.delTimeout charid).2 } (s.delTimeout charid) ∧
    (s.delTimeout charid).closed = s.closed ++ cs ∧
    ∀ c, c ∈ cs ↔ 0 ≤ c ∧ ∃ it, s.timeout.timeout[charid]? = some it ∧ it.channeid = c := by
  unfold ServerConHandler.delTimeout
  dsimp only
  rcases ht : s.timeout.timeout[charid]? with _ | it
  · have hd : s.timeout.delTimeout charid = (none, s.timeout) := by
      unfold ConnTimeout.delTimeout
      rw [ht]
    rw [hd]
    refine ⟨[], closes_nil rfl rfl rfl rfl rfl, (List.append_nil _).symm, fun c => ?_⟩
    simp
  · have hd : (s.timeout.delTimeout charid).1 =
        if it.channeid ≥ 0 then some it.channeid else none := by
      unfold ConnTimeout.delTimeout
      rw [ht]
    rw [hd]
    split_ifs with h0
    · refine ⟨[it.channeid], closes_closeBoth _, closed_closeBoth _, fun c => ?_⟩
      rw [List.mem_singleton]
      constructor
      · rintro rfl
        exact ⟨h0, it, rfl, rfl⟩
      · rintro ⟨-, it', ⟨⟩, rfl⟩
        rfl
    · refine ⟨[], closes_nil rfl rfl rfl rfl rfl, (List.append_nil _).symm, fun c => ?_⟩
      constructor
      · exact fun h => absurd h List.not_mem_nil
      · rintro ⟨hc, it', ⟨⟩, rfl⟩
        exact absurd hc h0

/-- The players `D` have gone, and the channels that were closed were theirs. -/
theorem Index.left {cs : List ℤ} {s₁ : ServerConHandler} (h : Index s) (D : Int64 → Prop)
    (hc : Closes cs s₁ s') (hobject : s₁.object = s.object) (hmade : s₁.made = s.made)
    (hclient : s₁.client = s.client)
    (hid : ∀ (a : Int64) o, s₁.idClient[a]? = some o ↔ s.idClient[a]? = some o ∧ ¬ D a)
    (hkeep : ∀ (a : Int64) it, s.timeout.timeout[a]? = some it → (s.idClient[a]?).isSome → ¬ D a →
      s₁.timeout.timeout[a]? = some it)
    (hkeyed : s₁.timeout.Keyed)
    (hall : ∀ (a : Int64) it, s.timeout.timeout[a]? = some it → (s.idClient[a]?).isSome → D a →
      0 ≤ it.channeid → it.channeid ∈ cs)
    (hown : ∀ c ∈ cs, ∀ o, s.client c = some o → D (s.object o).charID.toInt64) : Index s' := by
  refine h.dropped D (fun a o => ?_) (fun a it hit hl hD => ⟨it, ?_, rfl, rfl⟩)
    (hc.timeout ▸ hkeyed) (sameItem_of_eq (hc.object.trans hobject)) (hc.made.trans hmade)
    fun c o => ?_
  · rw [hc.idClient]
    exact hid a o
  · rw [hc.timeout]
    exact hkeep a it hit hl hD
  · constructor
    · intro ho
      have hs : s.client c = some o := hclient ▸ hc.sub c o ho
      obtain ⟨⟨h0, h1⟩, hch, hi⟩ := h.client c o hs
      refine ⟨hs, fun hD => ?_⟩
      -- it has gone, so its channel has been closed
      obtain ⟨-, -, it, hit, hcl, -⟩ := h.login _ o hi
      have hci : it.channeid = c := (h.client _ o hcl).2.1.symm.trans hch
      have hmem := hall _ it hit (hi ▸ rfl) hD (hci ▸ h0)
      rw [hci] at hmem
      rw [hc.gone c hmem h0 h1] at ho
      cases ho
    · rintro ⟨hs, hD⟩
      rw [hc.kept c fun hm => hD (hown c hm o hs), hclient]
      exact hs

/-! ### The operations -/

/-- Nobody else stands on the channel of a player that is not logged in and exits. -/
def Leaves (s : ServerConHandler) (charid : Int64) : Prop :=
  s.idClient[charid]? = none → ∀ it ∈ s.timeout.timeout[charid]?, s.client it.channeid = none

/-- The channels of the players of a game server have players of this server, or none. -/
def Clears (s : ServerConHandler) (gsID : UInt16) : Prop :=
  ∀ e ∈ s.timeout.timeout.toList, e.2.gsID = gsID →
    ∀ o ∈ s.client e.2.channeid, (s.object o).gsID = gsID

instance (charid : Int64) : Decidable (Leaves s charid) :=
  inferInstanceAs (Decidable (_ → _))

instance (gsID : UInt16) : Decidable (Clears s gsID) :=
  inferInstanceAs (Decidable (∀ e ∈ s.timeout.timeout.toList, _))

theorem closes_leaveMap {cs : List ℤ} {s₁ : ServerConHandler} {serverid : UInt16} {mapid : Int64}
    (h : Closes cs s s₁) : Closes cs s (s₁.leaveMap serverid mapid) := by
  unfold leaveMap
  split
  · split
    · exact ⟨h.timeout, h.idClient, h.object, h.made, h.sub, h.kept, h.gone⟩
    · exact h
  · exact h

theorem index_exited {cs : List ℤ} {charid : Int64} {idClient : TreeMap Int64 ℕ} (h : Index s)
    (hl : Leaves s charid)
    (hc : Closes cs { s with
      idClient := idClient, timeout := (s.timeout.delTimeout charid).2 } s')
    (hid : ∀ (a : Int64) o, idClient[a]? = some o ↔ s.idClient[a]? = some o ∧ charid ≠ a)
    (hcs : ∀ c, c ∈ cs ↔ 0 ≤ c ∧ ∃ it, s.timeout.timeout[charid]? = some it ∧ it.channeid = c) :
    Index s' := by
  refine h.left (fun a => charid = a) hc rfl rfl rfl hid (fun a it hit _ hne => ?_)
    (ConnTimeout.keyed_delTimeout h.keyed charid) ?_ fun c hmem o ho => ?_
  · rw [ConnTimeout.get_delTimeout, if_neg hne]
    exact hit
  · rintro a it hit - rfl h0
    exact (hcs _).mpr ⟨h0, it, hit, rfl⟩
  · obtain ⟨-, it, hit, rfl⟩ := (hcs c).mp hmem
    rcases hlog : s.idClient[charid]? with _ | o'
    · rw [hl hlog it hit] at ho
      cases ho
    · obtain ⟨hchar, -, it', hit', hcl, -⟩ := h.login charid o' hlog
      rw [hit] at hit'
      cases hit'
      rw [ho] at hcl
      cases hcl
      exact hchar.symm

theorem index_playerExitEx {charid : Int64} (h : Index s) (hl : Leaves s charid) :
    Index (s.playerExitEx charid) := by
  unfold playerExitEx
  rcases hlog : s.idClient[charid]? with _ | o
  · obtain ⟨cs, hc, -, hcs⟩ := delTimeout_closes (s := s) charid
    refine index_exited h hl hc (fun a o => ?_) hcs
    constructor
    · intro ha
      refine ⟨ha, ?_⟩
      rintro rfl
      rw [hlog] at ha
      cases ha
    · exact And.left
  · obtain ⟨cs, hc, -, hcs⟩ := delTimeout_closes
      (s := { s with idClient := s.idClient.erase charid }) charid
    refine index_exited h hl (closes_leaveMap hc) (fun a o => ?_) hcs
    rw [get_erase]
    split_ifs with he <;> simp [he]

theorem index_clearPlayerFromServer {gsID : UInt16} (h : Index s) (hcl : Clears s gsID) :
    Index (s.clearPlayerFromServer gsID) := by
  have hcs : ∀ c, c ∈ (s.timeout.removePlayerByGsID gsID).1 ↔ 0 ≤ c ∧ ∃ (a : Int64) (it : _),
      s.timeout.timeout[a]? = some it ∧ it.gsID = gsID ∧ it.channeid = c := by
    intro c
    unfold ConnTimeout.removePlayerByGsID
    simp only [List.mem_filter, List.mem_map, decide_eq_true_iff]
    constructor
    · rintro ⟨⟨e, ⟨he, hgs⟩, hch⟩, h0⟩
      exact ⟨h0, e.1, e.2, TreeMap.mem_toList_iff_getElem?_eq_some.mp he, hgs, hch⟩
    · rintro ⟨h0, a, it, hit, hgs, hch⟩
      exact ⟨⟨(a, it), ⟨TreeMap.mem_toList_iff_getElem?_eq_some.mpr hit, hgs⟩, hch⟩, h0⟩
  unfold clearPlayerFromServer
  refine h.left (fun a => ∃ o, s.idClient[a]? = some o ∧ (s.object o).gsID = gsID)
    (closes_foldl _) rfl rfl rfl (fun a o => ?_) (fun a it hit hl hne => ?_)
    (ConnTimeout.keyed_removePlayerByGsID h.keyed gsID) ?_ fun c hmem o ho => ?_
  · rw [get_eraseAll]
    split_ifs with hm
    · obtain ⟨o', ho', hgs⟩ := mem_keysOf.mp hm
      constructor
      · intro hn
        cases hn
      · rintro ⟨-, hne⟩
        exact absurd ⟨o', ho', of_decide_eq_true hgs⟩ hne
    · rw [iff_self_and]
      rintro ho ⟨o', ho', hgs⟩
      exact hm (mem_keysOf.mpr ⟨o', ho', decide_eq_true hgs⟩)
  · obtain ⟨o, ho⟩ := Option.isSome_iff_exists.mp hl
    obtain ⟨-, -, it', hit', -, hgs⟩ := h.login a o ho
    rw [hit] at hit'
    cases hit'
    rw [ConnTimeout.get_removePlayerByGsID, hit, Option.bind_some, if_neg]
    exact fun he => hne ⟨o, ho, hgs.symm.trans he⟩
  · rintro a it hit hl ⟨o, ho, hgs⟩ h0
    obtain ⟨-, -, it', hit', -, hgs'⟩ := h.login a o ho
    rw [hit] at hit'
    cases hit'
    exact (hcs _).mpr ⟨h0, a, it, hit, hgs'.trans hgs, rfl⟩
  · obtain ⟨-, a, it, hit, hgs, rfl⟩ := (hcs c).mp hmem
    have he := TreeMap.mem_toList_iff_getElem?_eq_some.mpr hit
    exact ⟨o, (h.client _ o ho).2.2, hcl (a, it) he hgs o ho⟩

/-- Channels that nobody stands on are closed. -/
theorem index_closes {cs : List ℤ} (h : Index s) (hc : Closes cs s s')
    (hn : ∀ c ∈ cs, s.client c = none) : Index s' := by
  refine h.frame hc.idClient (fun a it hit _ => ⟨it, ?_, rfl, rfl⟩) (hc.timeout ▸ h.keyed)
    (sameItem_of_eq hc.object) hc.made (funext fun c => ?_)
  · rw [hc.timeout]
    exact hit
  · by_cases hm : c ∈ cs
    · rw [hn c hm, Option.eq_none_iff_forall_ne_some]
      intro o ho
      have hs := hc.sub c o ho
      rw [hn c hm] at hs
      cases hs
    · exact hc.kept c hm

theorem index_addClientTimeOut {charid : UInt64} {now : ℕ} (h : Index s) :
    Index (s.addClientTimeOut charid now).2 := by
  unfold addClientTimeOut
  split
  · refine h.frame rfl (fun a it hit _ => ⟨it, ?_, rfl, rfl⟩)
      (ConnTimeout.keyed_addTimeout h.keyed _ _ _ _ _) (sameItem_of_eq rfl) rfl rfl
    exact ConnTimeout.get_addTimeout_of_some _ _ _ _ _ hit
  · exact h

/-- A player that is logged in says it is on the channel that it has. -/
def Stays (s : ServerConHandler) (charid : Int64) (channel : ℤ) : Prop :=
  (s.idClient[charid]?).isSome → ∀ it ∈ s.timeout.timeout[charid]?, it.channeid = channel

instance (charid : Int64) (channel : ℤ) : Decidable (Stays s charid channel) :=
  inferInstanceAs (Decidable (_ → _))

theorem index_updateClientInfo {charid : Int64} {channel : ℤ} (h : Index s)
    (hs : Stays s charid channel) (groups : GroupSession) (ip : List UInt8) :
    Index (s.updateClientInfo groups charid channel ip).2 := by
  unfold updateClientInfo
  refine h.frame rfl (fun a it hit hl => ?_) (ConnTimeout.keyed_updatePlayerInfo h.keyed _ _ _ _)
    (sameItem_of_eq rfl) rfl rfl
  rw [ConnTimeout.get_updatePlayerInfo]
  split_ifs with he
  · subst he
    rw [hit, Option.map_some]
    exact ⟨_, rfl, (hs hl it hit).symm, rfl⟩
  · exact ⟨it, hit, rfl, rfl⟩

theorem index_playerInfo {groups : GroupSession} {charid : Int64} {channel : ℤ} {ip : List UInt8}
    (h : Index s) (hs : Stays s charid channel)
    (hn : s.timeout.timeout[charid]? = none → s.client channel = none) :
    Index (s.playerInfo groups charid channel ip) := by
  unfold playerInfo
  have h₁ : Index { s with timeout := s.timeout.removeConnect channel } :=
    h.same rfl rfl rfl rfl rfl
  have h₂ := index_updateClientInfo h₁ hs groups ip
  dsimp only
  split_ifs with hr
  · exact h₂
  · refine index_closes h₂ (closes_closeBoth channel) fun c hc => ?_
    rw [List.mem_singleton.mp hc]
    refine hn (Option.eq_none_iff_forall_ne_some.mpr fun it hit => hr ?_)
    unfold updateClientInfo ConnTimeout.updatePlayerInfo ConnTimeout.removeConnect
    dsimp only
    rw [hit]

/-- A player that is new comes into all three, on a channel of its own. -/
theorem Index.joined {charid : Int64} {it : ConnClient} {item : ClientItem} (h : Index s)
    (hlog : s.idClient[charid]? = none)
    (hr : 0 ≤ item.channelID ∧ item.channelID < MAX_EPOLL_fd) (hn : s.client item.channelID = none)
    (hchar : item.charID.toInt64 = charid) (hit : s'.timeout.timeout[charid]? = some it)
    (hch : it.channeid = item.channelID) (hgs : it.gsID = item.gsID)
    (hother : ∀ a, charid ≠ a → s'.timeout.timeout[a]? = s.timeout.timeout[a]?)
    (hkeyed : s'.timeout.Keyed) (hid : s'.idClient = s.idClient.insert charid s.made)
    (hobject : s'.object = Function.update s.object s.made item) (hmade : s'.made = s.made + 1)
    (hclient : s'.client = Function.update s.client item.channelID (some s.made)) : Index s' := by
  have hold : ∀ (a : Int64) o, s.idClient[a]? = some o → o ≠ s.made ∧ charid ≠ a := by
    intro a o ha
    refine ⟨Nat.ne_of_lt (h.login a o ha).2.1, ?_⟩
    rintro rfl
    rw [hlog] at ha
    cases ha
  refine ⟨fun c o hc => ?_, fun a o ha => ?_, hkeyed⟩
  · rw [hclient] at hc
    rw [hobject, hid]
    rcases eq_or_ne c item.channelID with rfl | hne
    · rw [Function.update_self] at hc
      cases hc
      rw [Function.update_self, hchar]
      exact ⟨hr, rfl, get_insert_self ..⟩
    · rw [Function.update_of_ne hne] at hc
      obtain ⟨hrc, hcho, hi⟩ := h.client c o hc
      obtain ⟨ho, ha⟩ := hold _ o hi
      rw [Function.update_of_ne ho, get_insert_of_ne _ _ ha]
      exact ⟨hrc, hcho, hi⟩
  · rw [hid, get_insert] at ha
    rw [hobject, hmade, hclient]
    split_ifs at ha with he
    · cases ha
      subst he
      rw [Function.update_self]
      refine ⟨hchar, Nat.lt_succ_self _, it, hit, ?_, hgs⟩
      rw [hch]
      exact Function.update_self ..
    · obtain ⟨hcharo, hlt, it', hit', hcl, hgs'⟩ := h.login a o ha
      rw [Function.update_of_ne (hold a o ha).1]
      refine ⟨hcharo, Nat.lt_succ_of_lt hlt, it', (hother a he).trans hit', ?_, hgs'⟩
      rw [Function.update_of_ne fun hc => ?_]
      · exact hcl
      · rw [hc, hn] at hcl
        cases hcl

/-- A login does not look at the channel of a player that is logged in, and puts a new one where its
entry says. -/
theorem index_playerLogin {charid : Int64} {now : ℕ} (h : Index s)
    (hf : s.idClient[charid]? = none → ∀ it ∈ s.timeout.timeout[charid]?,
      (0 ≤ it.channeid ∧ it.channeid < MAX_EPOLL_fd) ∧ s.client it.channeid = none) :
    Index (s.playerLogin charid now).2 := by
  unfold ServerConHandler.playerLogin
  rcases hl : s.timeout.playerLogin charid now with _ | ⟨client, t⟩
  · exact h
  · have hkeyed := ConnTimeout.keyed_playerLogin h.keyed hl
    have hget := ConnTimeout.get_playerLogin hl
    obtain ⟨it, ht, rfl⟩ := ConnTimeout.playerLogin_client hl
    dsimp only
    rcases hlog : s.idClient[charid]? with _ | o
    · obtain ⟨hr, hn⟩ := hf hlog it ht
      have hchar : it.charid.toInt64 = charid := h.keyed charid it ht
      have hit : t.timeout[charid]? = some { it with time := now + CLIENT_HEART_BEAT } := by
        rw [hget, if_pos rfl, ht, Option.map_some]
      dsimp only
      rw [if_pos hr, hchar]
      refine h.joined hlog hr hn hchar hit rfl rfl (fun a hne => ?_) hkeyed rfl rfl rfl rfl
      rw [hget, if_neg hne]
    · -- it is logged in: only the time of its entry is new
      obtain ⟨-, -, it', hit', -, hgs⟩ := h.login charid o hlog
      rw [ht] at hit'
      cases hit'
      refine h.frame rfl (fun a it' hit' _ => ?_) hkeyed (fun x => ?_) rfl rfl
      · dsimp only
        rw [hget]
        split_ifs with he
        · rw [he, hit', Option.map_some]
          exact ⟨_, rfl, rfl, rfl⟩
        · exact ⟨it', hit', rfl, rfl⟩
      · dsimp only
        rcases eq_or_ne x o with rfl | hne
        · rw [Function.update_self]
          exact ⟨rfl, rfl, hgs⟩
        · rw [Function.update_of_ne hne]
          exact ⟨rfl, rfl, rfl⟩

theorem index_synchHeartBeat {channel : ℤ} {now : ℕ} (h : Index s) :
    Index (s.synchHeartBeat channel now) := by
  unfold ServerConHandler.synchHeartBeat
  split_ifs
  · exact h
  · rcases s.client channel with _ | o
    · exact h
    · refine h.frame rfl (fun a it hit _ => ?_) (ConnTimeout.keyed_synchHeartBeat h.keyed _ _)
        (sameItem_of_eq rfl) rfl rfl
      dsimp only
      rw [ConnTimeout.get_synchHeartBeat]
      split_ifs with he
      · rw [he, hit, Option.map_some]
        split_ifs
        · exact ⟨it, rfl, rfl, rfl⟩
        · exact ⟨_, rfl, rfl, rfl⟩
      · exact ⟨it, hit, rfl, rfl⟩

/-- The sweep takes no player that is logged in, as it has a channel. -/
theorem index_sweep {now : ℕ} (h : Index s) (hs : s.sweep now = some s') : Index s' := by
  unfold ServerConHandler.sweep at hs
  split at hs
  · split_ifs at hs
    · cases hs
      exact h
    · cases hs
      refine h.frame rfl (fun a it hit hl => ?_) (ConnTimeout.keyed_sweep h.keyed now)
        (sameItem_of_eq rfl) rfl rfl
      obtain ⟨o, ho⟩ := Option.isSome_iff_exists.mp hl
      obtain ⟨-, -, it', hit', hcl, -⟩ := h.login a o ho
      rw [hit] at hit'
      cases hit'
      have h0 : it.channeid ≥ 0 := (h.client _ o hcl).1.1
      dsimp only
      rw [ConnTimeout.get_sweep, hit, Option.bind_some]
      unfold ConnTimeout.sweepEntry
      rw [if_pos h0]
      split_ifs
      · exact ⟨_, rfl, rfl, rfl⟩
      · exact ⟨it, rfl, rfl, rfl⟩
  · cases hs

theorem index_exit (h : Index s)
    (hl : ∀ charid lineDel, s.svr = .exiting [] (charid :: lineDel) → Leaves s charid)
    (hs : s.exit = some s') : Index s' := by
  unfold ServerConHandler.exit at hs
  split at hs
  · cases hs
  · cases hs
    exact (h.aside (aside_playerExit _)).same rfl rfl rfl rfl rfl
  · rename_i charid lineDel hsvr
    cases hs
    exact (index_playerExitEx h (hl charid lineDel hsvr)).same rfl rfl rfl rfl rfl
  · cases hs
    exact h.same rfl rfl rfl rfl rfl

theorem index_onChannelError {channel : ℤ} {localID remoteID : Int16} {remoteType : UInt8}
    (h : Index s) (hcl : remoteType = eGameServer → Clears s (createGSID localID remoteID)) :
    Index (s.onChannelError channel localID remoteID remoteType) := by
  unfold onChannelError
  split_ifs with _ hg
  · exact h.aside (aside_playerExit channel)
  · have h₁ : Index { s with gsIDSvr := s.gsIDSvr.erase (createGSID localID remoteID) } :=
      h.same rfl rfl rfl rfl rfl
    exact (index_clearPlayerFromServer h₁ (hcl hg)).same rfl rfl rfl rfl rfl
  all_goals exact h.same rfl rfl rfl rfl rfl

/-! ### Runs -/

/-- A player that is logged in stays on its channel, a new one comes on a channel of its own, and no
channel is closed on behalf of somebody else. -/
def Undisturbed (s : ServerConHandler) : Label → Prop
  | .updateClientInfo _ charid channel _ => Stays s charid channel
  | .playerInfo _ charid channel _ => Stays s charid channel ∧
      (s.timeout.timeout[charid]? = none → s.client channel = none)
  | .playerLogin charid _ => s.idClient[charid]? = none → ∀ it ∈ s.timeout.timeout[charid]?,
      (0 ≤ it.channeid ∧ it.channeid < MAX_EPOLL_fd) ∧ s.client it.channeid = none
  | .playerExitEx charid => Leaves s charid
  | .clearPlayerFromServer gsID => Clears s gsID
  | .onChannelError _ localID remoteID remoteType =>
    remoteType = eGameServer → Clears s (createGSID localID remoteID)
  | .closeClientChannel channel => s.client channel = none
  | .exit =>
    match s.svr with
    | .exiting [] (charid :: _) => Leaves s charid
    | _ => True
  | _ => True

instance (s : ServerConHandler) : ∀ a, Decidable (Undisturbed s a)
  | .updateClientInfo _ charid channel _ => inferInstanceAs (Decidable (Stays s charid channel))
  | .playerInfo _ _ _ _ => inferInstanceAs (Decidable (_ ∧ _))
  | .playerLogin _ _ => inferInstanceAs (Decidable (_ → _))
  | .playerExitEx charid => inferInstanceAs (Decidable (Leaves s charid))
  | .clearPlayerFromServer gsID => inferInstanceAs (Decidable (Clears s gsID))
  | .onChannelError _ _ _ _ => inferInstanceAs (Decidable (_ → _))
  | .closeClientChannel _ => inferInstanceAs (Decidable (_ = none))
  | .exit =>
    match h : s.svr with
    | .exiting [] (charid :: _) => decidable_of_iff (Leaves s charid) (by rw [Undisturbed, h])
    | .exiting [] [] => isTrue (by rw [Undisturbed, h]; trivial)
    | .exiting (_ :: _) _ => isTrue (by rw [Undisturbed, h]; trivial)
    | .idle => isTrue (by rw [Undisturbed, h]; trivial)
  | .onNewChannelBuild .. => isTrue trivial
  | .addClientTimeOut .. => isTrue trivial
  | .playerExit _ => isTrue trivial
  | .synchHeartBeat .. => isTrue trivial
  | .checkConnect _ => isTrue trivial
  | .sweep _ => isTrue trivial

theorem index_new : Index {} where
  client c o h := by cases h
  login charid o h := by
    rw [TreeMap.getElem?_emptyc] at h
    cases h
  keyed charid it h := by
    rw [TreeMap.getElem?_emptyc] at h
    cases h

theorem index_step (a : Label) (h : Index s) (hg : Undisturbed s a) (hs : s.step a = some s') :
    Index s' := by
  cases a with
  | onNewChannelBuild => cases hs; exact h.aside (aside_onNewChannelBuild ..)
  | onChannelError => cases hs; exact index_onChannelError h hg
  | addClientTimeOut => cases hs; exact index_addClientTimeOut h
  | updateClientInfo => cases hs; exact index_updateClientInfo h hg _ _
  | playerInfo => cases hs; exact index_playerInfo h hg.1 hg.2
  | playerLogin => cases hs; exact index_playerLogin h hg
  | playerExit => cases hs; exact h.aside (aside_playerExit _)
  | playerExitEx => cases hs; exact index_playerExitEx h hg
  | clearPlayerFromServer => cases hs; exact index_clearPlayerFromServer h hg
  | closeClientChannel channel =>
    cases hs
    refine index_closes h (closes_closeClientChannel channel) fun c hc => ?_
    rw [List.mem_singleton.mp hc]
    exact hg
  | synchHeartBeat => cases hs; exact index_synchHeartBeat h
  | checkConnect => cases hs; exact h.same rfl rfl rfl rfl rfl
  | sweep => exact index_sweep h hs
  | exit =>
    refine index_exit h (fun charid lineDel hsvr => ?_) hs
    unfold Undisturbed at hg
    rw [hsvr] at hg
    exact hg

/-- **The three indices agree**: what `m_client` has on a channel is of this channel and the item of
its character, and the channel of a player that is logged in has its item. -/
theorem index_consistent {l : List Label} (h : run ServerConHandler.step {} l = some s)
    (hg : Along ServerConHandler.step Undisturbed {} l) :
    (∀ c o, s.client c = some o → (s.object o).channelID = c ∧
      s.idClient[(s.object o).charID.toInt64]? = some o) ∧
    ∀ (charid : Int64) o, s.idClient[charid]? = some o →
      ∃ it, s.timeout.timeout[charid]? = some it ∧ s.client it.channeid = some o ∧
        s.getClientChannelByCharID charid = some it.channeid := by
  have hi : Index s := run_inv_along (Q := fun _ => True)
    (fun s a s' h _ hg hs => index_step a h hg hs) h (fun _ _ => trivial) hg index_new
  refine ⟨fun c o hc => (hi.client c o hc).2, fun charid o ho => ?_⟩
  obtain ⟨-, -, it, hit, hcl, -⟩ := hi.login charid o ho
  obtain ⟨⟨h0, -⟩, hch, -⟩ := hi.client _ o hcl
  refine ⟨it, hit, hcl, ?_⟩
  unfold ServerConHandler.getClientChannelByCharID
  rw [ho]
  dsimp only
  rw [hch, if_neg (Int.not_lt.mpr h0)]

/-- A player comes twice on the channel 5. -/
theorem index_consistent_twice :
    ∃ s o, run ServerConHandler.step {} (announced [7] ++ comes 7 5 100 ++ comes 7 5 200) = some s ∧
      s.client 5 = some o ∧ (s.object o).channelID = 5 ∧
      s.idClient[(s.object o).charID.toInt64]? = some o := by
  obtain ⟨s, hs⟩ := Option.isSome_iff_exists.mp (by decide +kernel : (run ServerConHandler.step {}
    (announced [7] ++ comes 7 5 100 ++ comes 7 5 200)).isSome)
  obtain ⟨o, ho⟩ : ∃ o, s.client 5 = some o := by
    rw [← Option.isSome_iff_exists]
    cases hs
    decide +kernel
  exact ⟨s, o, hs, ho, (index_consistent hs (by decide +kernel)).1 5 o ho⟩

/-- A player comes on the channel 6 while it is logged in on the channel 5: the channel of its entry
has no item, and what is sent to it goes to the channel that it has left. -/
theorem index_stale :
    ∃ s, run ServerConHandler.step {} (announced [7] ++ comes 7 5 100 ++ comes 7 6 200) = some s ∧
      s.timeout.timeout[(7 : Int64)]?.map (·.channeid) = some 6 ∧
      s.idClient[(7 : Int64)]? = some 0 ∧ s.client 6 = none ∧ s.client 5 = some 0 ∧
      s.getClientChannelByCharID 7 = some 5 := by
  obtain ⟨s, hs⟩ := Option.isSome_iff_exists.mp (by decide +kernel : (run ServerConHandler.step {}
    (announced [7] ++ comes 7 5 100 ++ comes 7 6 200)).isSome)
  refine ⟨s, hs, ?_⟩
  cases hs
  decide +kernel

end ChatShow.GateServer.ClientIndex
