import ChatShow.GateServer.ClientIndex

/-! # Channels that are used again

The kernel gives the descriptor of a connection that has been closed to a new one. A channel stands in
`m_timeout` with the characters that were bound to it, and in `m_client` with the player that has logged in on
it; what closes a channel looks at one of them, or takes out one character. Where a channel is closed only when
no other entry is left that names it, whom a lookup finds for a channel is bound to the connection that the
channel has now (`resolves_current`). -/

namespace ChatShow.GateServer.ChannelReuse

open ChatShow.CommBase.NetWorkConfig ChatShow.CommBase.Groups
open ChatShow.GateServer.Timeouts ChatShow.GateServer.ServerManager ChatShow.GateServer.ClientIndex
open ChatShow.GateServer.ServerManager.ServerConHandler ChatShow.Lib.Maps ChatShow.Lib.Runs Std

/-! ### The lookups -/

/-- `ConnTimeout::GetCharIDByChannelID`: the first entry with the channel. -/
def getCharIDByChannelID (t : ConnTimeout) (channelid : ℤ) : Int64 :=
  match t.timeout.toList.find? fun e => e.2.channeid = channelid with
  | some e => e.1
  | none => 0

/-- `GetCharidByChannel`, which returns 0 where there is no character. -/
def getCharidByChannel (s : ServerConHandler) (channelid : ℤ) : Int64 :=
  if channelid < 0 ∨ channelid ≥ MAX_EPOLL_fd then 0
  else
    match s.client channelid with
    | some o => (s.object o).charID.toInt64
    | none => getCharIDByChannelID s.timeout channelid

/-- `GetGSChannelAndCharIDByChannel`: the channel of the game server and the character. -/
def getGSChannelAndCharIDByChannel (s : ServerConHandler) (channel : ℤ) : Option (ℤ × Int64) :=
  if channel < 0 ∨ channel ≥ MAX_EPOLL_fd then none
  else
    match s.client channel with
    | some o =>
      if (s.object o).gsChannelID < 0 then none
      else some ((s.object o).gsChannelID, (s.object o).charID.toInt64)
    | none => s.timeout.getGSChannelAndCharIDByChannel channel

/-- `GetGSChannelAndCharIDByChannelEx`. -/
def getGSChannelAndCharIDByChannelEx (s : ServerConHandler) (channel : ℤ) : Option (ℤ × Int64) :=
  s.timeout.getGSChannelAndCharIDByChannel channel

/-! ### Connections -/

/-- The handler, the channels that are open, how many connections each channel has had, and each character that
`UpdateClientInfo` has bound, with the channel and the number of the connection that its message came on. -/
structure Channels where
  con : ServerConHandler := {}
  opened : ℤ → Bool := fun _ => false
  conn : ℤ → ℕ := fun _ => 0
  bound : List (Int64 × ℤ × ℕ) := []

inductive Event
  /-- the kernel gives a descriptor that is not open to a new connection -/
  | accept (channel : ℤ)
  /-- the network closes a connection by itself -/
  | drop (channel : ℤ)
  /-- an operation, for a message that came on the connection `conn` of its channel, if it binds a character -/
  | handle (a : Label) (conn : ℕ)

/-- The character and the channel that an operation binds, where it succeeds. -/
def binds (s : ServerConHandler) (a : Label) : List (Int64 × ℤ) :=
  match binding a with
  | some e => if (s.timeout.timeout[e.1]?).isSome then [e] else []
  | none => []

namespace Channels

def step (s : Channels) : Event → Option Channels
  | .accept channel =>
    if s.opened channel ∨ channel < 0 then none
    else some { s with
      opened := Function.update s.opened channel true
      conn := Function.update s.conn channel (s.conn channel + 1) }
  | .drop channel =>
    if s.opened channel then some { s with opened := Function.update s.opened channel false } else none
  | .handle a conn =>
    (s.con.step a).map fun con =>
      { s with
        con := con
        opened := fun c => s.opened c && decide (c ∉ con.closed.drop s.con.closed.length)
        bound := s.bound ++ (binds s.con a).map fun e => (e.1, e.2, conn) }

end Channels

/-! ### What is closed -/

/-- Only entries of `m_timeout` that `D` holds of have the channel. -/
def Only (s : ServerConHandler) (D : Int64 × ConnClient → Prop) (channel : ℤ) : Prop :=
  ∀ e ∈ s.timeout.timeout.toList, e.2.channeid = channel → D e

/-- No entry has the channel. -/
def NoEntry (s : ServerConHandler) (channel : ℤ) : Prop := Only s (fun _ => False) channel

/-- The channel of a `PLAYERINFO` that is refused. -/
def refused (s : ServerConHandler) : Label → Option ℤ
  | .playerInfo _ charid channel _ => if (s.timeout.timeout[charid]?).isSome then none else some channel
  | _ => none

/-- The channel that `PlayerExit` is called for. -/
def leaves (s : ServerConHandler) : Label → Option ℤ
  | .playerExit channel => some channel
  | .onChannelError channel _ _ remoteType => if remoteType = eClient then some channel else none
  | .exit =>
    match s.svr with
    | .exiting (channel :: _) _ => some channel
    | _ => none
  | _ => none

/-- The character that `PlayerExitEx` is called for. -/
def exits (s : ServerConHandler) : Label → Option Int64
  | .playerExitEx charid => some charid
  | .exit =>
    match s.svr with
    | .exiting [] (charid :: _) => some charid
    | _ => none
  | _ => none

/-- The channels that may be closed whoever is on them: those of servers, and what `checkConnect` takes. -/
def outright (s : ServerConHandler) : Label → List ℤ
  | .onNewChannelBuild channel _ _ _ remoteType _ _ => if remoteType = eClient then [] else [channel]
  | .onChannelError channel _ _ remoteType => if remoteType = eClient then [] else [channel]
  | .checkConnect now => (s.timeout.checkConnect now).1
  | _ => []

/-- A channel is closed only where nothing that stays names it. -/
structure LeavesNone (s : ServerConHandler) (a : Label) : Prop where
  refused : ∀ c ∈ refused s a, NoEntry s c
  leaves : ∀ c ∈ leaves s a, NoEntry s c → s.client c = none
  exits : ∀ charid ∈ exits s a, ∀ it ∈ s.timeout.timeout[charid]?, 0 ≤ it.channeid →
    Only s (fun e => e.1 = charid) it.channeid
  cleared : ∀ gsID ∈ cleared a, ∀ e ∈ s.timeout.timeout.toList, e.2.gsID = gsID → 0 ≤ e.2.channeid →
    Only s (fun e => e.2.gsID = gsID) e.2.channeid
  outright : ∀ c ∈ outright s a, NoEntry s c ∧ s.client c = none

/-- And a character is bound to a connection that is open. -/
def Clean (s : Channels) : Event → Prop
  | .accept _ => True
  | .drop channel => NoEntry s.con channel ∧ s.con.client channel = none
  | .handle a conn =>
    (∀ e ∈ binding a, s.opened e.2 = true ∧ s.conn e.2 = conn) ∧ LeavesNone s.con a

instance (s : ServerConHandler) (D : Int64 × ConnClient → Prop) [DecidablePred D] (c : ℤ) :
    Decidable (Only s D c) := inferInstanceAs (Decidable (∀ e ∈ s.timeout.timeout.toList, _))

instance (s : ServerConHandler) (c : ℤ) : Decidable (NoEntry s c) :=
  inferInstanceAs (Decidable (Only s (fun _ => False) c))

-- A character that exits is looked up; `Int64` is finite, and an instance for that would try them all.
instance (s : ServerConHandler) (a : Label) : Decidable (LeavesNone s a) :=
  have : Decidable (∀ charid ∈ exits s a, ∀ it ∈ s.timeout.timeout[charid]?, 0 ≤ it.channeid →
      Only s (fun e => e.1 = charid) it.channeid) := Option.decidableForallMem ..
  have : Decidable (∀ gsID ∈ cleared a, ∀ e ∈ s.timeout.timeout.toList, e.2.gsID = gsID → 0 ≤ e.2.channeid →
      Only s (fun e => e.2.gsID = gsID) e.2.channeid) := Option.decidableForallMem ..
  decidable_of_iff
    ((∀ c ∈ refused s a, NoEntry s c) ∧ (∀ c ∈ leaves s a, NoEntry s c → s.client c = none) ∧
      (∀ charid ∈ exits s a, ∀ it ∈ s.timeout.timeout[charid]?, 0 ≤ it.channeid →
        Only s (fun e => e.1 = charid) it.channeid) ∧
      (∀ gsID ∈ cleared a, ∀ e ∈ s.timeout.timeout.toList, e.2.gsID = gsID → 0 ≤ e.2.channeid →
        Only s (fun e => e.2.gsID = gsID) e.2.channeid) ∧
      ∀ c ∈ outright s a, NoEntry s c ∧ s.client c = none)
    ⟨fun ⟨h1, h2, h3, h4, h5⟩ => ⟨h1, h2, h3, h4, h5⟩, fun ⟨h1, h2, h3, h4, h5⟩ => ⟨h1, h2, h3, h4, h5⟩⟩

instance (s : Channels) : (e : Event) → Decidable (Clean s e)
  | .accept _ => inferInstanceAs (Decidable True)
  | .drop _ => inferInstanceAs (Decidable (_ ∧ _))
  | .handle _ _ => inferInstanceAs (Decidable (_ ∧ _))

/-! ### What an operation leaves -/

section

variable {s s' s₁ : ServerConHandler}

/-- Nobody comes on a channel, and what is closed nobody is on. -/
structure Leaving (s s' : ServerConHandler) : Prop where
  keyed : s'.timeout.Keyed
  entry : ∀ (a : Int64) it', s'.timeout.timeout[a]? = some it' → 0 ≤ it'.channeid →
    ∃ it, s.timeout.timeout[a]? = some it ∧ it.channeid = it'.channeid
  client : ∀ c o, s'.client c = some o → s.client c = some o
  object : s'.object = s.object
  made : s'.made = s.made
  closed : ∃ cs, s'.closed = s.closed ++ cs ∧ ∀ c ∈ cs, s'.client c = none ∧
    ∀ (a : Int64) it, s'.timeout.timeout[a]? = some it → 0 ≤ it.channeid → it.channeid ≠ c

/-- The channels of `m_client` are in its range. -/
def Ranged (s : ServerConHandler) : Prop := ∀ c o, s.client c = some o → 0 ≤ c ∧ c < MAX_EPOLL_fd

theorem noEntry_iff {c : ℤ} :
    NoEntry s c ↔ ∀ (a : Int64) it, s.timeout.timeout[a]? = some it → it.channeid ≠ c := by
  refine ⟨fun h a it hit hc => ?_, fun h e he hc => ?_⟩
  · exact h (a, it) (TreeMap.mem_toList_iff_getElem?_eq_some.mpr hit) hc
  · exact h e.1 e.2 (TreeMap.mem_toList_iff_getElem?_eq_some.mp he) hc

theorem getGSChannelAndCharIDByChannel_none {t : ConnTimeout} {c : ℤ}
    (h : t.getGSChannelAndCharIDByChannel c = none) (a : Int64) (it : ConnClient)
    (hit : t.timeout[a]? = some it) : it.channeid ≠ c := by
  unfold ConnTimeout.getGSChannelAndCharIDByChannel at h
  rw [Option.map_eq_none_iff, List.find?_eq_none] at h
  exact fun hc => h (a, it) (TreeMap.mem_toList_iff_getElem?_eq_some.mpr hit) (decide_eq_true hc)

/-- Where the channels and players of the entries that stay are as they were, and nothing is closed. -/
theorem leaving_quiet (hk : s'.timeout.Keyed)
    (he : ∀ (a : Int64) it', s'.timeout.timeout[a]? = some it' → 0 ≤ it'.channeid →
      ∃ it, s.timeout.timeout[a]? = some it ∧ it.channeid = it'.channeid)
    (hc : ∀ c o, s'.client c = some o → s.client c = some o) (ho : s'.object = s.object)
    (hm : s'.made = s.made) (hcl : s'.closed = s.closed) : Leaving s s' :=
  ⟨hk, he, hc, ho, hm, [], hcl.trans (List.append_nil _).symm, nofun⟩

theorem entry_self (ht : s'.timeout.timeout = s.timeout.timeout) (a : Int64) (it' : ConnClient)
    (hit : s'.timeout.timeout[a]? = some it') (_ : 0 ≤ it'.channeid) :
    ∃ it, s.timeout.timeout[a]? = some it ∧ it.channeid = it'.channeid :=
  ⟨it', ht ▸ hit, rfl⟩

theorem keyed_self (hk : s.timeout.Keyed) (ht : s'.timeout.timeout = s.timeout.timeout) :
    s'.timeout.Keyed := hk.from fun _ it hit => ⟨it, ht ▸ hit, rfl⟩

/-- The players are as they were, and channels that nobody is on are closed. -/
theorem leaving_aside {cs : List ℤ} (hk : s.timeout.Keyed) (hs : Aside s s')
    (hcl : s'.closed = s.closed ++ cs) (hn : ∀ c ∈ cs, NoEntry s c ∧ s.client c = none) : Leaving s s' where
  keyed := keyed_self hk hs.timeout
  entry := entry_self hs.timeout
  client c o hc := hs.client ▸ hc
  object := hs.object
  made := hs.made
  closed := by
    refine ⟨cs, hcl, fun c hc => ⟨?_, fun a it hit _ => ?_⟩⟩
    · rw [hs.client]
      exact (hn c hc).2
    · rw [hs.timeout] at hit
      exact noEntry_iff.mp (hn c hc).1 a it hit

/-- Channels are closed in both ways, after entries have gone. -/
theorem leaving_closes {cs : List ℤ} (hr : Ranged s) (hcs : Closes cs s₁ s') (hc₁ : s₁.client = s.client)
    (ho₁ : s₁.object = s.object) (hm₁ : s₁.made = s.made) (hk : s₁.timeout.Keyed)
    (he : ∀ (a : Int64) it', s₁.timeout.timeout[a]? = some it' → 0 ≤ it'.channeid →
      ∃ it, s.timeout.timeout[a]? = some it ∧ it.channeid = it'.channeid)
    (hcl : s'.closed = s.closed ++ cs)
    (hn : ∀ c ∈ cs, ∀ (a : Int64) it, s₁.timeout.timeout[a]? = some it → 0 ≤ it.channeid → it.channeid ≠ c) :
    Leaving s s' where
  keyed := hcs.timeout ▸ hk
  entry a it' hit := he a it' (hcs.timeout ▸ hit)
  client c o hc := hc₁ ▸ hcs.sub c o hc
  object := hcs.object.trans ho₁
  made := hcs.made.trans hm₁
  closed := by
    refine ⟨cs, hcl, fun c hc => ⟨?_, fun a it hit => hn c hc a it (hcs.timeout ▸ hit)⟩⟩
    rcases ho : s'.client c with _ | o
    · rfl
    · have hold := hc₁ ▸ hcs.sub c o ho
      obtain ⟨h0, h1⟩ := hr c o hold
      rw [hcs.gone c hc h0 h1] at ho
      cases ho

theorem leaving_playerExit {c : ℤ} (hk : s.timeout.Keyed)
    (h : NoEntry s c → s.client c = none) : Leaving s (s.playerExit c) := by
  have hs := aside_playerExit (s := s) c
  rcases ht : s.timeout.getGSChannelAndCharIDByChannel c with _ | e
  · have hno := noEntry_iff.mpr (getGSChannelAndCharIDByChannel_none ht)
    have hcl : (s.playerExit c).closed = s.closed ++ if c < 0 ∨ c ≥ MAX_EPOLL_fd then [] else [c] := by
      unfold playerExit
      rw [ht]
      split_ifs
      · exact (List.append_nil _).symm
      · rfl
    refine leaving_aside hk hs hcl fun c' hc' => ?_
    split_ifs at hc'
    · cases hc'
    · rw [List.mem_singleton.mp hc']
      exact ⟨hno, h hno⟩
  · have hcl : (s.playerExit c).closed = s.closed ++ [] := by
      unfold playerExit
      rw [ht, List.append_nil]
      split_ifs <;> rfl
    exact leaving_aside hk hs hcl nofun

theorem closed_leaveMap {serverid : UInt16} {mapid : Int64} :
    (s.leaveMap serverid mapid).closed = s.closed := by
  unfold leaveMap
  split
  · split
    · rfl
    · rfl
  · rfl

theorem leaving_playerExitEx {charid : Int64} (hk : s.timeout.Keyed) (hr : Ranged s)
    (h : ∀ it ∈ s.timeout.timeout[charid]?, 0 ≤ it.channeid → Only s (fun e => e.1 = charid) it.channeid) :
    Leaving s (s.playerExitEx charid) := by
  have hk' := ConnTimeout.keyed_delTimeout hk charid
  have he (a : Int64) (it' : ConnClient) (hit : (s.timeout.delTimeout charid).2.timeout[a]? = some it') :
      charid ≠ a ∧ s.timeout.timeout[a]? = some it' := by
    rw [ConnTimeout.get_delTimeout] at hit
    split_ifs at hit with hne
    exact ⟨hne, hit⟩
  have halone {cs : List ℤ} (hcs : ∀ c, c ∈ cs ↔ 0 ≤ c ∧ ∃ it, s.timeout.timeout[charid]? = some it ∧ it.channeid = c)
      (c : ℤ) (hc : c ∈ cs) (a : Int64) (it : ConnClient)
      (hit : (s.timeout.delTimeout charid).2.timeout[a]? = some it) : it.channeid ≠ c := by
    obtain ⟨hne, hold⟩ := he a it hit
    obtain ⟨h0, it', hit', rfl⟩ := (hcs c).mp hc
    intro heq
    exact hne (h it' hit' h0 (a, it) (TreeMap.mem_toList_iff_getElem?_eq_some.mpr hold) heq).symm
  unfold playerExitEx
  split
  · rename_i o _
    obtain ⟨cs, hcs, hcl, hmem⟩ := delTimeout_closes (s := { s with idClient := s.idClient.erase charid }) charid
    exact leaving_closes hr (closes_leaveMap hcs) rfl rfl rfl hk'
      (fun a it' hit _ => ⟨it', (he a it' hit).2, rfl⟩) (closed_leaveMap.trans hcl)
      fun c hc a it hit _ => halone hmem c hc a it hit
  · obtain ⟨cs, hcs, hcl, hmem⟩ := delTimeout_closes (s := s) charid
    exact leaving_closes hr hcs rfl rfl rfl hk' (fun a it' hit _ => ⟨it', (he a it' hit).2, rfl⟩) hcl
      fun c hc a it hit _ => halone hmem c hc a it hit

theorem closed_foldl (cs : List ℤ) : (cs.foldl closeBoth s).closed = s.closed ++ cs := by
  induction cs generalizing s with
  | nil => exact (List.append_nil _).symm
  | cons c cs ih => rw [List.foldl_cons, ih, closed_closeBoth, List.append_assoc, List.singleton_append]

theorem leaving_clearPlayerFromServer {gsID : UInt16} (hk : s.timeout.Keyed) (hr : Ranged s)
    (h : ∀ e ∈ s.timeout.timeout.toList, e.2.gsID = gsID → 0 ≤ e.2.channeid →
      Only s (fun e => e.2.gsID = gsID) e.2.channeid) : Leaving s (s.clearPlayerFromServer gsID) := by
  have he (a : Int64) (it' : ConnClient)
      (hit : (s.timeout.removePlayerByGsID gsID).2.timeout[a]? = some it') :
      it'.gsID ≠ gsID ∧ s.timeout.timeout[a]? = some it' := by
    rw [ConnTimeout.get_removePlayerByGsID] at hit
    obtain ⟨it, hold, heq⟩ := Option.bind_eq_some_iff.mp hit
    split_ifs at heq with hgs
    cases heq
    exact ⟨hgs, hold⟩
  unfold clearPlayerFromServer
  refine leaving_closes hr (closes_foldl _) rfl rfl rfl (ConnTimeout.keyed_removePlayerByGsID hk gsID)
    (fun a it' hit _ => ⟨it', (he a it' hit).2, rfl⟩) (closed_foldl _) fun c hc a it hit _ heq => ?_
  obtain ⟨hne, hold⟩ := he a it hit
  obtain ⟨hmap, h0⟩ := List.mem_filter.mp hc
  obtain ⟨e, hfilter, rfl⟩ := List.mem_map.mp hmap
  obtain ⟨hin, hgs⟩ := List.mem_filter.mp hfilter
  exact hne (h e hin (of_decide_eq_true hgs) (of_decide_eq_true h0) (a, it)
    (TreeMap.mem_toList_iff_getElem?_eq_some.mpr hold) heq)

theorem leaving_onNewChannelBuild {channel : ℤ} {localID : Int16} {localType : UInt8} {remoteID : Int16}
    {remoteType : UInt8} {ip : List UInt8} {now : ℕ} (hk : s.timeout.Keyed)
    (h : ∀ c ∈ outright s (.onNewChannelBuild channel localID localType remoteID remoteType ip now),
      NoEntry s c ∧ s.client c = none) :
    Leaving s (s.onNewChannelBuild channel localID localType remoteID remoteType ip now) := by
  have hs := aside_onNewChannelBuild (s := s) channel localID localType remoteID remoteType ip now
  have hcl : (s.onNewChannelBuild channel localID localType remoteID remoteType ip now).closed = s.closed ∨
      remoteType ≠ eClient ∧
      (s.onNewChannelBuild channel localID localType remoteID remoteType ip now).closed =
        s.closed ++ [channel] := by
    have hbase : (if s.localID = -1 then { s with localID := localID, localType := localType }
        else s).closed = s.closed := by
      split_ifs <;> rfl
    unfold onNewChannelBuild
    dsimp only
    generalize (if s.localID = -1 then _ else s) = s₁ at hbase ⊢
    rw [← hbase]
    split_ifs with hc
    · exact Or.inl rfl
    · split
      · exact Or.inr ⟨hc, rfl⟩
      · exact Or.inl rfl
    · exact Or.inr ⟨hc, rfl⟩
    · exact Or.inl rfl
    · exact Or.inr ⟨hc, rfl⟩
    · exact Or.inl rfl
    · exact Or.inr ⟨hc, rfl⟩
  rcases hcl with hcl | ⟨hne, hcl⟩
  · exact leaving_aside hk hs (hcl.trans (List.append_nil _).symm) nofun
  · have hout : outright s (.onNewChannelBuild channel localID localType remoteID remoteType ip now) = [channel] :=
      if_neg hne
    exact leaving_aside hk hs hcl fun c hc => h c (hout ▸ hc)

/-- A channel is closed after other things have gone. -/
theorem Leaving.closeChannel {c : ℤ} (h : Leaving s s₁) (hn : NoEntry s c ∧ s.client c = none) :
    Leaving s (s₁.closeChannel c) where
  keyed := h.keyed
  entry := h.entry
  client := h.client
  object := h.object
  made := h.made
  closed := by
    obtain ⟨cs, hcl, hcs⟩ := h.closed
    refine ⟨cs ++ [c], ?_, fun c' hc' => ?_⟩
    · exact (congrArg (· ++ [c]) hcl).trans (List.append_assoc _ _ _)
    · rcases List.mem_append.mp hc' with hc' | hc'
      · exact hcs c' hc'
      · rw [List.mem_singleton.mp hc']
        refine ⟨?_, fun a it hit h0 heq => ?_⟩
        · rcases ho : s₁.client c with _ | o
          · exact ho
          · have hold := h.client c o ho
            rw [hn.2] at hold
            cases hold
        · obtain ⟨it', hit', hch⟩ := h.entry a it hit h0
          exact noEntry_iff.mp hn.1 a it' hit' (hch.trans heq)

theorem leaving_onChannelError {channel : ℤ} {localID remoteID : Int16} {remoteType : UInt8}
    (hk : s.timeout.Keyed) (hr : Ranged s) (h : LeavesNone s (.onChannelError channel localID remoteID remoteType)) :
    Leaving s (s.onChannelError channel localID remoteID remoteType) := by
  have hout (hc : remoteType ≠ eClient) : NoEntry s channel ∧ s.client channel = none := by
    have heq : outright s (.onChannelError channel localID remoteID remoteType) = [channel] := if_neg hc
    exact h.outright channel (heq ▸ List.mem_singleton.mpr rfl)
  unfold onChannelError
  split_ifs with hc hg
  · exact leaving_playerExit hk (h.leaves channel (if_pos hc))
  · have h₁ := leaving_clearPlayerFromServer
      (s := { s with gsIDSvr := s.gsIDSvr.erase (createGSID localID remoteID) }) hk hr
      (h.cleared (createGSID localID remoteID) (if_pos hg))
    have h₂ : Leaving s (({ s with gsIDSvr := s.gsIDSvr.erase (createGSID localID remoteID) } :
        ServerConHandler).clearPlayerFromServer (createGSID localID remoteID)) :=
      ⟨h₁.keyed, h₁.entry, h₁.client, h₁.object, h₁.made, h₁.closed⟩
    exact h₂.closeChannel (hout hc)
  all_goals
    have hself : Leaving s s := leaving_quiet hk (entry_self rfl) (fun _ _ h => h) rfl rfl rfl
    have hclose := hself.closeChannel (hout hc)
    exact ⟨hclose.keyed, hclose.entry, hclose.client, hclose.object, hclose.made, hclose.closed⟩

/-- Operations other than those that bind a character and the login. -/
theorem leaving_step {a : Label} (hk : s.timeout.Keyed) (hr : Ranged s) (h : LeavesNone s a)
    (hb : binding a = none) (hl : ∀ charid now, a ≠ .playerLogin charid now) (hs : s.step a = some s') :
    Leaving s s' := by
  cases a with
  | onNewChannelBuild => cases hs; exact leaving_onNewChannelBuild hk h.outright
  | onChannelError => cases hs; exact leaving_onChannelError hk hr h
  | addClientTimeOut charid now =>
    cases hs
    unfold addClientTimeOut
    split
    · refine leaving_quiet (ConnTimeout.keyed_addTimeout hk _ _ _ _ _) (fun a it' hit h0 => ?_) (fun _ _ h => h)
        rfl rfl rfl
      dsimp only at hit
      unfold ConnTimeout.addTimeout at hit
      split_ifs at hit
      · exact ⟨it', hit, rfl⟩
      · split at hit
        · dsimp only at hit
          rw [get_insert] at hit
          split_ifs at hit
          · cases hit
            exact absurd h0 (Int.not_le.mpr (Int.negSucc_lt_zero 0))
          · exact ⟨it', hit, rfl⟩
        · exact ⟨it', hit, rfl⟩
    · exact leaving_quiet hk (entry_self rfl) (fun _ _ h => h) rfl rfl rfl
  | updateClientInfo => cases hb
  | playerInfo => cases hb
  | playerLogin charid now => exact absurd rfl (hl charid now)
  | playerExit channel => cases hs; exact leaving_playerExit hk (h.leaves channel rfl)
  | playerExitEx charid => cases hs; exact leaving_playerExitEx hk hr (h.exits charid rfl)
  | clearPlayerFromServer gsID => cases hs; exact leaving_clearPlayerFromServer hk hr (h.cleared gsID rfl)
  | closeClientChannel channel =>
    cases hs
    have hc := closes_closeClientChannel (s := s) channel
    have hcl : (s.closeClientChannel channel).closed = s.closed := by
      unfold closeClientChannel
      split_ifs <;> rfl
    exact leaving_quiet (hc.timeout ▸ hk) (entry_self (congrArg (·.timeout) hc.timeout)) hc.sub hc.object hc.made hcl
  | synchHeartBeat channel now =>
    cases hs
    unfold synchHeartBeat
    split_ifs
    · exact leaving_quiet hk (entry_self rfl) (fun _ _ h => h) rfl rfl rfl
    · split
      · rename_i o _
        refine leaving_quiet (ConnTimeout.keyed_synchHeartBeat hk _ _) (fun a it' hit _ => ?_) (fun _ _ h => h)
          rfl rfl rfl
        dsimp only at hit
        rw [ConnTimeout.get_synchHeartBeat] at hit
        split_ifs at hit with he
        · obtain ⟨it, hold, rfl⟩ := Option.map_eq_some_iff.mp hit
          refine ⟨it, he ▸ hold, ?_⟩
          split_ifs <;> rfl
        · exact ⟨it', hit, rfl⟩
      · exact leaving_quiet hk (entry_self rfl) (fun _ _ h => h) rfl rfl rfl
  | checkConnect now =>
    cases hs
    exact leaving_aside hk ⟨⟨rfl, rfl, rfl⟩, rfl, rfl, rfl, rfl⟩ rfl h.outright
  | sweep now =>
    change s.sweep now = some s' at hs
    unfold ServerConHandler.sweep at hs
    split at hs
    · split_ifs at hs
      · cases hs
        exact leaving_quiet hk (entry_self rfl) (fun _ _ h => h) rfl rfl rfl
      · cases hs
        refine leaving_quiet (ConnTimeout.keyed_sweep hk now) (fun a it' hit _ => ?_) (fun _ _ h => h) rfl rfl rfl
        dsimp only at hit
        rw [ConnTimeout.get_sweep] at hit
        obtain ⟨it, hold, he⟩ := Option.bind_eq_some_iff.mp hit
        refine ⟨it, hold, ?_⟩
        unfold ConnTimeout.sweepEntry at he
        split_ifs at he
        · cases he
          rfl
        · cases he
          rfl
    · cases hs
  | exit =>
    change s.exit = some s' at hs
    unfold ServerConHandler.exit at hs
    split at hs
    · cases hs
    · rename_i channel delMap lineDel hsvr
      cases hs
      have hl := leaving_playerExit hk (h.leaves channel (by unfold leaves; rw [hsvr]; rfl))
      exact ⟨hl.keyed, hl.entry, hl.client, hl.object, hl.made, hl.closed⟩
    · rename_i charid lineDel hsvr
      cases hs
      have hl := leaving_playerExitEx hk hr (h.exits charid (by unfold exits; rw [hsvr]; rfl))
      exact ⟨hl.keyed, hl.entry, hl.client, hl.object, hl.made, hl.closed⟩
    · cases hs
      exact leaving_quiet hk (entry_self rfl) (fun _ _ h => h) rfl rfl rfl

end

/-! ### Who is on a channel -/

section

variable {s s' : Channels}

/-- The character was bound to the connection that the channel has now, and that is open. -/
def Current (s : Channels) (a : Int64) (c : ℤ) : Prop := s.opened c = true ∧ (a, c, s.conn c) ∈ s.bound

/-- **Who stands on a channel is bound to the connection that it has now.** -/
structure Good (s : Channels) : Prop where
  keyed : s.con.timeout.Keyed
  entry : ∀ (a : Int64) it, s.con.timeout.timeout[a]? = some it → 0 ≤ it.channeid → Current s a it.channeid
  ranged : Ranged s.con
  client : ∀ c o, s.con.client c = some o →
    o < s.con.made ∧ Current s (s.con.object o).charID.toInt64 c

/-- A channel that nobody is on. -/
theorem Good.unnamed {c : ℤ} {opened : ℤ → Bool} {conn : ℤ → ℕ} (h : Good s)
    (hn : NoEntry s.con c ∧ s.con.client c = none) (ho : ∀ c', c' ≠ c → opened c' = s.opened c')
    (hc : ∀ c', c' ≠ c → conn c' = s.conn c') : Good { s with opened := opened, conn := conn } := by
  have hcur {a : Int64} {c' : ℤ} (hne : c' ≠ c) (hcur : Current s a c') :
      Current { s with opened := opened, conn := conn } a c' :=
    ⟨(ho c' hne).trans hcur.1, by
      dsimp only
      rw [hc c' hne]
      exact hcur.2⟩
  refine ⟨h.keyed, fun a it hit h0 => ?_, h.ranged, fun c' o hc' => ⟨(h.client c' o hc').1, ?_⟩⟩
  · exact hcur (noEntry_iff.mp hn.1 a it hit) (h.entry a it hit h0)
  · refine hcur ?_ (h.client c' o hc').2
    rintro rfl
    have hc' : s.con.client c' = some o := hc'
    rw [hn.2] at hc'
    cases hc'

/-- A channel that is not open has nobody on it. -/
theorem Good.closed {c : ℤ} (h : Good s) (hc : 0 ≤ c) (hop : s.opened c = false) :
    NoEntry s.con c ∧ s.con.client c = none := by
  refine ⟨noEntry_iff.mpr fun a it hit heq => ?_, ?_⟩
  · have hcur := (h.entry a it hit (heq ▸ hc)).1
    rw [heq, hop] at hcur
    cases hcur
  · rcases ho : s.con.client c with _ | o
    · rfl
    · have hcur := (h.client c o ho).2.1
      rw [hop] at hcur
      cases hcur

/-- After an operation that binds nobody and lets nobody log in. -/
theorem Good.leaving {con : ServerConHandler} {bound : List (Int64 × ℤ × ℕ)} (h : Good s)
    (hl : Leaving s.con con) (hb : s.bound ⊆ bound) :
    Good { s with
      con := con
      opened := fun c => s.opened c && decide (c ∉ con.closed.drop s.con.closed.length)
      bound := bound } := by
  obtain ⟨cs, hcl, hcs⟩ := hl.closed
  have hnew : con.closed.drop s.con.closed.length = cs := by rw [hcl, List.drop_left]
  have hcur {a : Int64} {c : ℤ} (hc : c ∉ cs) (hcur : Current s a c) :
      Current { s with
        con := con
        opened := fun c => s.opened c && decide (c ∉ con.closed.drop s.con.closed.length)
        bound := bound } a c := by
    refine ⟨Bool.and_eq_true_iff.mpr ⟨hcur.1, decide_eq_true ?_⟩, hb hcur.2⟩
    rw [hnew]
    exact hc
  refine ⟨hl.keyed, fun a it hit h0 => ?_, fun c o hc => h.ranged c o (hl.client c o hc), fun c o hc => ?_⟩
  · obtain ⟨it', hit', hch⟩ := hl.entry a it hit h0
    exact hcur (fun hm => (hcs _ hm).2 a it hit h0 rfl) (hch ▸ h.entry a it' hit' (hch ▸ h0))
  · obtain ⟨hlt, hc'⟩ := h.client c o (hl.client c o hc)
    rw [hl.made, hl.object]
    refine ⟨hlt, hcur (fun hm => ?_) hc'⟩
    have hnone := (hcs c hm).1
    have hc : con.client c = some o := hc
    rw [hnone] at hc
    cases hc

/-- Nothing is closed, and the character stands on the channel that its message came on. -/
theorem Good.bind {charid : Int64} {channel : ℤ} {it₀ : ConnClient} {con : ServerConHandler}
    {bound : List (Int64 × ℤ × ℕ)} (h : Good s) (hk : con.timeout.Keyed)
    (hget : ∀ a : Int64, con.timeout.timeout[a]? = if charid = a then some it₀ else s.con.timeout.timeout[a]?)
    (hch : it₀.channeid = channel) (hclient : con.client = s.con.client) (hobject : con.object = s.con.object)
    (hmade : con.made = s.con.made) (hcl : con.closed = s.con.closed) (hb : s.bound ⊆ bound)
    (hop : s.opened channel = true) (hin : (charid, channel, s.conn channel) ∈ bound) :
    Good { s with
      con := con
      opened := fun c => s.opened c && decide (c ∉ con.closed.drop s.con.closed.length)
      bound := bound } := by
  have hopen (c : ℤ) : (s.opened c && decide (c ∉ con.closed.drop s.con.closed.length)) = s.opened c := by
    rw [hcl, List.drop_length, decide_eq_true List.not_mem_nil, Bool.and_true]
  refine ⟨hk, fun a it hit h0 => ?_, fun c o hc => h.ranged c o (hclient ▸ hc), fun c o hc => ?_⟩
  · dsimp only at hit
    rw [hget] at hit
    split_ifs at hit with he
    · cases hit
      subst he hch
      exact ⟨(hopen _).trans hop, hin⟩
    · obtain ⟨ho, hm⟩ := h.entry a it hit h0
      exact ⟨(hopen _).trans ho, hb hm⟩
  · dsimp only at hc
    rw [hclient] at hc
    obtain ⟨hlt, ho, hm⟩ := h.client c o hc
    dsimp only
    rw [hmade, hobject]
    exact ⟨hlt, (hopen _).trans ho, hb hm⟩

theorem get_updatePlayerInfo_some {t : ConnTimeout} {groups : GroupSession} {charid : Int64} {channel : ℤ}
    {ip : List UInt8} {it : ConnClient} (h : t.timeout[charid]? = some it) (a : Int64) :
    (t.updatePlayerInfo groups charid channel ip).2.timeout[a]? =
      if charid = a then some { it with
        channeid := channel, ip := ip, gsChannelID := groups.bindSession channel it.group }
      else t.timeout[a]? := by
  rw [ConnTimeout.get_updatePlayerInfo, h]
  rfl

theorem updatePlayerInfo_none {t : ConnTimeout} {groups : GroupSession} {charid : Int64} {channel : ℤ}
    {ip : List UInt8} (h : t.timeout[charid]? = none) :
    t.updatePlayerInfo groups charid channel ip = (false, t) := by
  unfold ConnTimeout.updatePlayerInfo
  rw [h]

theorem updatePlayerInfo_fst {t : ConnTimeout} {groups : GroupSession} {charid : Int64} {channel : ℤ}
    {ip : List UInt8} {it : ConnClient} (h : t.timeout[charid]? = some it) :
    (t.updatePlayerInfo groups charid channel ip).1 = true := by
  unfold ConnTimeout.updatePlayerInfo
  rw [h]

theorem good_binding {a : Label} {conn : ℕ} {charid : Int64} {channel : ℤ} (h : Good s)
    (ha : binding a = some (charid, channel)) (hop : s.opened channel = true) (hconn : s.conn channel = conn)
    (hn : LeavesNone s.con a) (hs : s.step (.handle a conn) = some s') : Good s' := by
  obtain ⟨con, hstep, rfl⟩ := Option.map_eq_some_iff.mp hs
  have hsub : s.bound ⊆ s.bound ++ (binds s.con a).map fun e => (e.1, e.2, conn) := List.subset_append_left _ _
  have hin {it : ConnClient} (hit : s.con.timeout.timeout[charid]? = some it) :
      (charid, channel, s.conn channel) ∈ s.bound ++ (binds s.con a).map fun e => (e.1, e.2, conn) := by
    have hb : binds s.con a = [(charid, channel)] := by
      unfold binds
      rw [ha]
      exact if_pos (hit ▸ rfl)
    rw [hb, hconn]
    exact List.mem_append_right _ (List.mem_singleton.mpr rfl)
  cases a with
  | updateClientInfo groups charid' channel' ip =>
    cases ha
    have hcon : (s.con.updateClientInfo groups charid channel ip).2 = con := Option.some.inj hstep
    unfold updateClientInfo at hcon
    dsimp only at hcon
    rcases hit : s.con.timeout.timeout[charid]? with _ | it
    · rw [updatePlayerInfo_none hit] at hcon
      subst hcon
      exact h.leaving (leaving_quiet h.keyed (entry_self rfl) (fun _ _ hc => hc) rfl rfl rfl) hsub
    · subst hcon
      exact h.bind (ConnTimeout.keyed_updatePlayerInfo h.keyed _ _ _ _) (get_updatePlayerInfo_some hit) rfl
        rfl rfl rfl rfl hsub hop (hin hit)
  | playerInfo groups charid' channel' ip =>
    cases ha
    have hk : (s.con.timeout.removeConnect channel).Keyed :=
      @keyed_self s.con { s.con with timeout := s.con.timeout.removeConnect channel } h.keyed rfl
    have hcon : s.con.playerInfo groups charid channel ip = con := Option.some.inj hstep
    unfold playerInfo updateClientInfo at hcon
    dsimp only at hcon
    rcases hit : s.con.timeout.timeout[charid]? with _ | it
    · have hit' : (s.con.timeout.removeConnect channel).timeout[charid]? = none := hit
      have href : refused s.con (.playerInfo groups charid channel ip) = some channel := by
        have hnot : ¬ (s.con.timeout.timeout[charid]?).isSome := by
          rw [hit]
          exact Bool.false_ne_true
        exact if_neg hnot
      have hno := noEntry_iff.mp (hn.refused channel href)
      rw [updatePlayerInfo_none hit', if_neg Bool.false_ne_true] at hcon
      subst hcon
      refine h.leaving (leaving_closes h.ranged (closes_closeBoth channel) rfl rfl rfl hk (entry_self rfl)
        (closed_closeBoth channel) fun c hc a it hit _ => ?_) hsub
      rw [List.mem_singleton.mp hc]
      exact hno a it hit
    · have hit' : (s.con.timeout.removeConnect channel).timeout[charid]? = some it := hit
      rw [if_pos (updatePlayerInfo_fst hit')] at hcon
      subst hcon
      exact h.bind (ConnTimeout.keyed_updatePlayerInfo hk _ _ _ _) (get_updatePlayerInfo_some hit') rfl
        rfl rfl rfl rfl hsub hop (hin hit)
  | _ => cases ha

theorem good_playerLogin {charid : Int64} {now conn : ℕ} (h : Good s)
    (hs : s.step (.handle (.playerLogin charid now) conn) = some s') : Good s' := by
  cases hs
  have hsub : s.bound ⊆ s.bound ++ (binds s.con (.playerLogin charid now)).map fun e => (e.1, e.2, conn) :=
    List.subset_append_left _ _
  unfold ServerConHandler.playerLogin
  rcases hl : s.con.timeout.playerLogin charid now with _ | ⟨client, t⟩
  · exact h.leaving (leaving_quiet h.keyed (entry_self rfl) (fun _ _ hc => hc) rfl rfl rfl) hsub
  · have hkeyed := ConnTimeout.keyed_playerLogin h.keyed hl
    have hget := ConnTimeout.get_playerLogin hl
    obtain ⟨it, ht, rfl⟩ := ConnTimeout.playerLogin_client hl
    have hopen (c : ℤ) : (s.opened c && decide (c ∉ s.con.closed.drop s.con.closed.length)) = s.opened c := by
      rw [List.drop_length, decide_eq_true List.not_mem_nil, Bool.and_true]
    have hentry (a : Int64) (it' : ConnClient) (hit : t.timeout[a]? = some it') (h0 : 0 ≤ it'.channeid) :
        Current s a it'.channeid := by
      rw [hget] at hit
      split_ifs at hit with he
      · rw [ht] at hit
        cases hit
        exact he ▸ h.entry charid it ht h0
      · exact h.entry a it' hit h0
    dsimp only
    rcases hlog : s.con.idClient[charid]? with _ | o
    · -- the player is new
      refine ⟨hkeyed, fun a it' hit h0 => ?_, fun c o hc => ?_, fun c o hc => ?_⟩
      · obtain ⟨ho, hm⟩ := hentry a it' hit h0
        exact ⟨(hopen _).trans ho, hsub hm⟩
      · dsimp only at hc
        split_ifs at hc with hr
        · rcases eq_or_ne c it.channeid with rfl | hne
          · exact hr
          · rw [Function.update_of_ne hne] at hc
            exact h.ranged c o hc
        · exact h.ranged c o hc
      · have hold (hc : s.con.client c = some o) :
            o < s.con.made + 1 ∧ Current { s with
              con := s.con
              opened := fun c => s.opened c && decide (c ∉ s.con.closed.drop s.con.closed.length)
              bound := s.bound ++ (binds s.con (.playerLogin charid now)).map fun e => (e.1, e.2, conn) }
              (Function.update s.con.object s.con.made
                { channelID := it.channeid, group := it.group, gsChannelID := it.gsChannelID
                  charID := it.charid, gsID := it.gsID, ip := it.ip } o).charID.toInt64 c := by
          obtain ⟨hlt, ho, hm⟩ := h.client c o hc
          rw [Function.update_of_ne (Nat.ne_of_lt hlt)]
          exact ⟨Nat.lt_succ_of_lt hlt, (hopen _).trans ho, hsub hm⟩
        dsimp only at hc
        split_ifs at hc with hr
        · rcases eq_or_ne c it.channeid with rfl | hne
          · rw [Function.update_self] at hc
            cases hc
            refine ⟨Nat.lt_succ_self _, ?_⟩
            obtain ⟨ho, hm⟩ := h.entry charid it ht hr.1
            have hchar : it.charid.toInt64 = charid := h.keyed charid it ht
            dsimp only
            rw [Function.update_self, hchar]
            exact ⟨(hopen _).trans ho, hsub hm⟩
          · rw [Function.update_of_ne hne] at hc
            exact hold hc
        · exact hold hc
    · refine ⟨hkeyed, fun a it' hit h0 => ?_, h.ranged, fun c i hc => ?_⟩
      · obtain ⟨ho, hm⟩ := hentry a it' hit h0
        exact ⟨(hopen _).trans ho, hsub hm⟩
      · obtain ⟨hlt, ho, hm⟩ := h.client c i hc
        refine ⟨hlt, (hopen _).trans ho, hsub ?_⟩
        dsimp only
        rcases eq_or_ne i o with rfl | hne
        · rw [Function.update_self]
          exact hm
        · rw [Function.update_of_ne hne]
          exact hm

theorem good_step {e : Event} (h : Good s) (hg : Clean s e) (hs : s.step e = some s') : Good s' := by
  cases e with
  | accept channel =>
    unfold Channels.step at hs
    dsimp only at hs
    split_ifs at hs with hno
    cases hs
    obtain ⟨hop, h0⟩ := not_or.mp hno
    exact h.unnamed (h.closed (Int.not_lt.mp h0) (Bool.eq_false_iff.mpr hop))
      (fun c hne => Function.update_of_ne hne ..) fun c hne => Function.update_of_ne hne ..
  | drop channel =>
    unfold Channels.step at hs
    dsimp only at hs
    split_ifs at hs
    cases hs
    exact h.unnamed hg (fun c hne => Function.update_of_ne hne ..) fun c _ => rfl
  | handle a conn =>
    obtain ⟨hbind, hn⟩ := hg
    rcases hb : binding a with _ | ⟨charid, channel⟩
    · by_cases hl : ∀ charid now, a ≠ .playerLogin charid now
      · obtain ⟨con, hstep, rfl⟩ := Option.map_eq_some_iff.mp hs
        exact h.leaving (leaving_step h.keyed h.ranged hn hb hl hstep) (List.subset_append_left _ _)
      · push Not at hl
        obtain ⟨charid, now, rfl⟩ := hl
        exact good_playerLogin h hs
    · obtain ⟨hop, hconn⟩ := hbind (charid, channel) hb
      exact good_binding h hb hop hconn hn hs

/-! ### The lookups -/

theorem Good.charID {a : Int64} {c : ℤ} (h : Good s) (hc : 0 ≤ c)
    (ha : getCharIDByChannelID s.con.timeout c = a) (hne : a ≠ 0) : (a, c, s.conn c) ∈ s.bound := by
  unfold getCharIDByChannelID at ha
  split at ha
  · rename_i e he
    subst ha
    have hfound := List.find?_some he
    obtain rfl : e.2.channeid = c := of_decide_eq_true hfound
    exact (h.entry e.1 e.2 (TreeMap.mem_toList_iff_getElem?_eq_some.mp (List.mem_of_find?_eq_some he)) hc).2
  · exact absurd ha.symm hne

theorem Good.ex {a : Int64} {c gs : ℤ} (h : Good s) (hc : 0 ≤ c)
    (ha : s.con.timeout.getGSChannelAndCharIDByChannel c = some (gs, a)) : (a, c, s.conn c) ∈ s.bound := by
  obtain ⟨e, he, heq⟩ := Option.map_eq_some_iff.mp ha
  cases heq
  have hfound := List.find?_some he
  obtain rfl : e.2.channeid = c := of_decide_eq_true hfound
  have hit := TreeMap.mem_toList_iff_getElem?_eq_some.mp (List.mem_of_find?_eq_some he)
  rw [h.keyed e.1 e.2 hit]
  exact (h.entry e.1 e.2 hit hc).2

/-- **A channel that is used again inherits nobody**: whom a lookup finds for a channel was bound by an
`UpdateClientInfo` on the connection that the channel has now, in every run in which a channel is closed only
when nothing names it any more. -/
theorem resolves_current {l : List Event} (h : run Channels.step {} l = some s)
    (hg : Along Channels.step Clean {} l) (c : ℤ) (hc : 0 ≤ c) (a : Int64) :
    (getCharidByChannel s.con c = a → a ≠ 0 → (a, c, s.conn c) ∈ s.bound) ∧
    (∀ gs, getGSChannelAndCharIDByChannel s.con c = some (gs, a) → (a, c, s.conn c) ∈ s.bound) ∧
    ∀ gs, getGSChannelAndCharIDByChannelEx s.con c = some (gs, a) → (a, c, s.conn c) ∈ s.bound := by
  have hgood : Good s := run_inv_along (P := Good) (Q := fun _ => True)
    (fun s e s' h _ hg hs => good_step h hg hs) h (fun _ _ => trivial) hg
    { keyed := fun a it hit => by
        rw [TreeMap.getElem?_emptyc] at hit
        cases hit
      entry := fun a it hit => by
        rw [TreeMap.getElem?_emptyc] at hit
        cases hit
      ranged := fun c o ho => by cases ho
      client := fun c o ho => by cases ho }
  refine ⟨fun ha hne => ?_, fun gs ha => ?_, fun gs ha => hgood.ex hc ha⟩
  · unfold getCharidByChannel at ha
    split_ifs at ha
    · exact absurd ha.symm hne
    · split at ha
      · rename_i o ho
        exact ha ▸ (hgood.client c o ho).2.2
      · exact hgood.charID hc ha hne
  · unfold getGSChannelAndCharIDByChannel at ha
    split_ifs at ha
    split at ha
    · rename_i o ho
      split_ifs at ha
      cases ha
      exact (hgood.client c o ho).2.2
    · exact hgood.ex hc ha

end

/-- The game server comes on the channel 3, and characters are announced. -/
def gate (charids : List UInt64) : List Event :=
  .accept 3 :: (announced charids).map fun a => .handle a 1

/-- A client comes on a channel, which has had `conn - 1` connections, and its player logs in. -/
def clientComes (charid : Int64) (channel : ℤ) (conn : ℕ) : List Event :=
  [.accept channel, .handle (.onNewChannelBuild channel 4 1 (-1) eClient [] 0) conn] ++
    (comes charid channel 0).map fun a => .handle a conn

/-- A player exits, and another one gets its channel. -/
theorem resolves_current_again :
    ∃ s, run Channels.step {} (gate [7, 8] ++ clientComes 7 5 1 ++ [.handle (.playerExitEx 7) 0] ++
        clientComes 8 5 2) = some s ∧
      getCharidByChannel s.con 5 = 8 ∧ s.conn 5 = 2 ∧ ((8 : Int64), (5 : ℤ), s.conn 5) ∈ s.bound := by
  obtain ⟨s, hs⟩ := Option.isSome_iff_exists.mp (by decide +kernel : (run Channels.step {} (gate [7, 8] ++
    clientComes 7 5 1 ++ [.handle (.playerExitEx 7) 0] ++ clientComes 8 5 2)).isSome)
  have hfound : getCharidByChannel s.con 5 = 8 ∧ s.conn 5 = 2 := by
    cases hs
    decide +kernel
  exact ⟨s, hs, hfound.1, hfound.2,
    (resolves_current hs (by decide +kernel) 5 (by decide) 8).1 hfound.1 (by decide)⟩

/-- A client that has said who it is names a character that is not announced, and its channel is closed; or a
player that is logged in on a channel comes on another one, and the first is closed. The next connection of
the channel is taken for the player. -/
theorem inherits :
    (∃ s, run Channels.step {} (gate [7] ++ clientComes 7 5 1 ++
        [.handle (.playerInfo {} 99 5 []) 1, .accept 5]) = some s ∧ s.opened 5 = true ∧
      getGSChannelAndCharIDByChannelEx s.con 5 = some (3, 7) ∧ s.conn 5 = 2 ∧ s.bound = [(7, 5, 1)]) ∧
    ∃ s, run Channels.step {} (gate [7] ++ clientComes 7 5 1 ++ clientComes 7 6 1 ++
        [.handle (.onChannelError 5 4 (-1) eClient) 0, .accept 5]) = some s ∧ s.opened 5 = true ∧
      getCharidByChannel s.con 5 = 7 ∧ s.conn 5 = 2 ∧ s.bound = [(7, 5, 1), (7, 6, 1)] := by
  constructor
  · obtain ⟨s, hs⟩ := Option.isSome_iff_exists.mp (by decide +kernel : (run Channels.step {} (gate [7] ++
      clientComes 7 5 1 ++ [.handle (.playerInfo {} 99 5 []) 1, .accept 5])).isSome)
    refine ⟨s, hs, ?_⟩
    cases hs
    decide +kernel
  · obtain ⟨s, hs⟩ := Option.isSome_iff_exists.mp (by decide +kernel : (run Channels.step {} (gate [7] ++
      clientComes 7 5 1 ++ clientComes 7 6 1 ++
      [.handle (.onChannelError 5 4 (-1) eClient) 0, .accept 5])).isSome)
    refine ⟨s, hs, ?_⟩
    cases hs
    decide +kernel

end ChatShow.GateServer.ChannelReuse
