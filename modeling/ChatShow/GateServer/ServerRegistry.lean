import ChatShow.GateServer.ClientIndex

/-! # The servers that the gate knows

`m_gsIDSvr` has a game server under an id that `CREATE_GSID` makes of two, `m_loginServer` and
`m_worldServer` are one place each: together the places of a registry, and `named` is the channel that
a place names. A server that comes to a place that is taken is refused. Two game servers with
different ids may have one place, and the error of a channel empties the place of its ids also where
it was refused. In the runs where neither happens the registry names exactly the servers that were
accepted and have not failed (`registry_named`). -/

namespace ChatShow.GateServer.ServerRegistry

open ChatShow.CommBase.NetWorkConfig ChatShow.GateServer.ServerManager
open ChatShow.GateServer.ServerManager.ServerConHandler ChatShow.GateServer.ClientIndex
open ChatShow.Lib.Maps ChatShow.Lib.Runs Std

/-! ### The places -/

inductive Slot
  | game (gsID : UInt16)
  | login
  | world
deriving DecidableEq

/-- The place of a server. -/
def slot (localID remoteID : Int16) (remoteType : UInt8) : Option Slot :=
  if remoteType = eGameServer then some (.game (createGSID localID remoteID))
  else if remoteType = eLoginServer then some .login
  else if remoteType = eWorldServer then some .world
  else none

/-- A channel that is not -1. -/
def used (channel : ℤ) : Option ℤ := if channel = -1 then none else some channel

/-- The channel that a place names. -/
def named (con : ServerConHandler) : Slot → Option ℤ
  | .game gsID => con.gsIDSvr[gsID]?.map (·.channelID)
  | .login => used con.loginServer
  | .world => used con.worldServer

theorem named_game (con : ServerConHandler) (gsID : UInt16) :
    named con (.game gsID) = con.gsIDSvr[gsID]?.map (·.channelID) := rfl

/-! ### Servers that come and go -/

structure Peer where
  localID : Int16
  remoteID : Int16
  remoteType : UInt8
  accepted : Bool

def Peer.slot (p : Peer) : Option Slot := ServerRegistry.slot p.localID p.remoteID p.remoteType

/-- The handler, and the connections that are there. -/
structure Net where
  con : ServerConHandler := {}
  conn : ℤ → Option Peer := fun _ => none

inductive Event
  | build (channel : ℤ) (localID : Int16) (localType : UInt8) (remoteID : Int16)
      (remoteType : UInt8) (ip : List UInt8) (now : ℕ)
  | error (channel : ℤ)
  /-- a connection that was refused, or of a client, is closed and there is no error for it -/
  | gone (channel : ℤ)
  /-- anything else that the handler does -/
  | handle (a : Label)

namespace Net

/-- Whether an operation closes a channel. -/
def closes (con con' : ServerConHandler) (channel : ℤ) : Prop :=
  channel ∈ con'.closed.drop con.closed.length

instance (con con' : ServerConHandler) (channel : ℤ) : Decidable (closes con con' channel) :=
  inferInstanceAs (Decidable (channel ∈ _))

def step (s : Net) : Event → Option Net
  | .build channel localID localType remoteID remoteType ip now =>
    if 0 ≤ channel ∧ (s.conn channel).isNone then
      let con := s.con.onNewChannelBuild channel localID localType remoteID remoteType ip now
      let p : Peer :=
        { localID := localID, remoteID := remoteID, remoteType := remoteType
          accepted := ¬ closes s.con con channel }
      some { con := con, conn := Function.update s.conn channel (some p) }
    else none
  | .error channel =>
    match s.conn channel with
    | some p => some
      { con := s.con.onChannelError channel p.localID p.remoteID p.remoteType
        conn := Function.update s.conn channel none }
    | none => none
  | .gone channel =>
    match s.conn channel with
    | some p =>
      if p.accepted = false ∨ p.remoteType = eClient then
        some { s with conn := Function.update s.conn channel none }
      else none
    | none => none
  | .handle (.onNewChannelBuild ..) => none
  | .handle (.onChannelError ..) => none
  | .handle a => (s.con.step a).map fun con => { s with con := con }

end Net

variable {s s' : Net} {con con' : ServerConHandler}

/-- A server on a channel was accepted and has not failed. -/
def Serves (s : Net) (channel : ℤ) : Prop := ∃ p ∈ s.conn channel, p.accepted ∧ p.slot.isSome

instance (s : Net) (channel : ℤ) : Decidable (Serves s channel) :=
  inferInstanceAs (Decidable (∃ p ∈ s.conn channel, _))

/-! ### What does no harm -/

/-- No player whose id is that of a place plays on a server that is there. -/
def Unplayed (s : Net) : Slot → Prop
  | .game gsID =>
    (∀ e ∈ s.con.idClient.toList, (s.con.object e.2).gsID = gsID →
      ¬ Serves s (s.con.object e.2).gsChannelID) ∧
    ∀ e ∈ s.con.timeout.timeout.toList, e.2.gsID = gsID → ¬ Serves s e.2.gsChannelID
  | _ => True

instance (s : Net) : (σ : Slot) → Decidable (Unplayed s σ)
  | .game _ => inferInstanceAs (Decidable (_ ∧ _))
  | .login | .world => inferInstanceAs (Decidable True)

/-- A server comes only to a place that is free or has a server with its ids; the error of one that
was refused comes only when its place is free. -/
def Harmless (s : Net) : Event → Prop
  | .build _ localID _ remoteID remoteType _ _ =>
    ∀ σ ∈ slot localID remoteID remoteType, ∀ c ∈ named s.con σ, ∀ p ∈ s.conn c,
      remoteType = eGameServer → p.localID = localID ∧ p.remoteID = remoteID
  | .error channel => ∀ p ∈ s.conn channel, p.accepted = false → ∀ σ ∈ p.slot,
      named s.con σ = none ∧ Unplayed s σ
  | _ => True

instance (s : Net) : (e : Event) → Decidable (Harmless s e)
  | .build .. => inferInstanceAs (Decidable (∀ σ ∈ slot _ _ _, _))
  | .error channel => inferInstanceAs (Decidable (∀ p ∈ s.conn channel, _))
  | .gone _ | .handle _ => inferInstanceAs (Decidable True)

/-- A player plays on a server that is there. -/
def PlaysOn (s : Net) (gsID : UInt16) (gsChannelID : ℤ) : Prop :=
  (∃ c, named s.con (.game gsID) = some c) ∨ Serves s gsChannelID

/-- The registry is left as it is, and so are the players of the servers that are there. -/
structure Leaves (s : Net) (con : ServerConHandler) : Prop where
  gsIDSvr : ∀ k : UInt16, con.gsIDSvr[k]? = s.con.gsIDSvr[k]?
  loginServer : con.loginServer = s.con.loginServer
  worldServer : con.worldServer = s.con.worldServer
  idClient : ∀ (a : Int64) o, s.con.idClient[a]? = some o →
    PlaysOn s (s.con.object o).gsID (s.con.object o).gsChannelID → con.idClient[a]? = some o
  timeout : ∀ (a : Int64) it, s.con.timeout.timeout[a]? = some it →
    PlaysOn s it.gsID it.gsChannelID → con.timeout.timeout[a]? = some it

/-! ### What leaves the registry -/

/-- What the registry is kept in. -/
def registry (con : ServerConHandler) : TreeMap UInt16 SvrItem × ℤ × ℤ :=
  (con.gsIDSvr, con.loginServer, con.worldServer)

theorem named_of_registry (h : registry con' = registry con) : named con' = named con := by
  unfold registry at h
  obtain ⟨hg, hl, hw⟩ : con'.gsIDSvr = con.gsIDSvr ∧ con'.loginServer = con.loginServer ∧
      con'.worldServer = con.worldServer := by
    injection h with hg h
    injection h with hl hw
    exact ⟨hg, hl, hw⟩
  funext σ
  unfold named
  rw [hg, hl, hw]

theorem registry_closeClientChannel (con : ServerConHandler) (channel : ℤ) :
    registry (con.closeClientChannel channel) = registry con := by
  unfold closeClientChannel
  split_ifs
  · rfl
  · rfl

theorem registry_closeBoth (con : ServerConHandler) (channel : ℤ) :
    registry (con.closeBoth channel) = registry con :=
  registry_closeClientChannel (con.closeChannel channel) channel

theorem registry_playerInfo (con : ServerConHandler) (groups : CommBase.Groups.GroupSession)
    (charid : Int64) (channel : ℤ) (ip : List UInt8) :
    registry (con.playerInfo groups charid channel ip) = registry con := by
  unfold playerInfo
  dsimp only
  split_ifs
  · rfl
  · exact registry_closeBoth _ channel

theorem registry_playerLogin (con : ServerConHandler) (charid : Int64) (now : ℕ) :
    registry (con.playerLogin charid now).2 = registry con := by
  unfold playerLogin
  split
  · rfl
  · dsimp only
    split
    · rfl
    · rfl

theorem registry_playerExit (con : ServerConHandler) (channel : ℤ) :
    registry (con.playerExit channel) = registry con := by
  unfold playerExit
  split_ifs
  · rfl
  · split
    · rfl
    · rfl

theorem registry_delTimeout (con : ServerConHandler) (charid : Int64) :
    registry (con.delTimeout charid) = registry con := by
  unfold delTimeout
  dsimp only
  split
  · exact registry_closeBoth _ _
  · rfl

theorem registry_clearPlayerFromServer (con : ServerConHandler) (gsID : UInt16) :
    registry (con.clearPlayerFromServer gsID) = registry con := by
  unfold clearPlayerFromServer
  exact foldl_keep registry registry_closeBoth _ _

theorem registry_synchHeartBeat (con : ServerConHandler) (channel : ℤ) (now : ℕ) :
    registry (con.synchHeartBeat channel now) = registry con := by
  unfold synchHeartBeat
  split_ifs
  · rfl
  · split
    · rfl
    · rfl

/-- A player that leaves its map changes the number of those on it. -/
theorem named_leaveMap (con : ServerConHandler) (serverid : UInt16) (mapid : Int64) :
    named (con.leaveMap serverid mapid) = named con := by
  unfold leaveMap
  split
  · rename_i svr hsvr
    split
    · funext σ
      cases σ with
      | game gsID =>
        rw [named_game, named_game]
        dsimp only
        by_cases he : serverid = gsID
        · subst he
          rw [get_insert_self, hsvr]
          rfl
        · rw [get_insert_of_ne _ _ he]
      | login => rfl
      | world => rfl
    · rfl
  · rfl

theorem named_playerExitEx (con : ServerConHandler) (charid : Int64) :
    named (con.playerExitEx charid) = named con := by
  unfold playerExitEx
  split
  · rename_i o _
    rw [named_leaveMap]
    exact named_of_registry
      (registry_delTimeout { con with idClient := con.idClient.erase charid } charid)
  · exact named_of_registry (registry_delTimeout con charid)

theorem named_exit (h : con.exit = some con') : named con' = named con := by
  unfold exit at h
  split at h
  · cases h
  · rename_i channel delMap lineDel _
    cases h
    exact named_of_registry (registry_playerExit con channel)
  · rename_i charid lineDel _
    cases h
    exact named_playerExitEx con charid
  · cases h
    rfl

theorem named_sweep {now : ℕ} (h : con.sweep now = some con') : named con' = named con := by
  unfold sweep at h
  split at h
  · split_ifs at h
    · cases h
      rfl
    · cases h
      rfl
  · cases h

theorem named_step {a : Label} (h : Net.step s (.handle a) = some s') :
    named s'.con = named s.con ∧ s'.conn = s.conn := by
  have hmap (hm : (s.con.step a).map (fun con => ({ s with con := con } : Net)) = some s')
      (hk : ∀ con, s.con.step a = some con → named con = named s.con) :
      named s'.con = named s.con ∧ s'.conn = s.conn := by
    obtain ⟨con, hcon, rfl⟩ := Option.map_eq_some_iff.mp hm
    exact ⟨hk con hcon, rfl⟩
  cases a with
  | onNewChannelBuild => cases h
  | onChannelError => cases h
  | addClientTimeOut charid now =>
    refine hmap h fun con hcon => ?_
    cases hcon
    unfold addClientTimeOut
    split
    · rfl
    · rfl
  | updateClientInfo => exact hmap h fun con hcon => by cases hcon; rfl
  | playerInfo groups charid channel ip =>
    exact hmap h fun con hcon => by
      cases hcon
      exact named_of_registry (registry_playerInfo ..)
  | playerLogin charid now =>
    exact hmap h fun con hcon => by
      cases hcon
      exact named_of_registry (registry_playerLogin ..)
  | playerExit channel =>
    exact hmap h fun con hcon => by
      cases hcon
      exact named_of_registry (registry_playerExit ..)
  | playerExitEx charid =>
    exact hmap h fun con hcon => by
      cases hcon
      exact named_playerExitEx ..
  | clearPlayerFromServer gsID =>
    exact hmap h fun con hcon => by
      cases hcon
      exact named_of_registry (registry_clearPlayerFromServer ..)
  | closeClientChannel channel =>
    exact hmap h fun con hcon => by
      cases hcon
      exact named_of_registry (registry_closeClientChannel ..)
  | synchHeartBeat channel now =>
    exact hmap h fun con hcon => by
      cases hcon
      exact named_of_registry (registry_synchHeartBeat ..)
  | checkConnect => exact hmap h fun con hcon => by cases hcon; rfl
  | sweep => exact hmap h fun con hcon => named_sweep hcon
  | exit => exact hmap h fun con hcon => named_exit hcon

/-! ### What the two events do to it -/

theorem used_eq_none {channel : ℤ} : used channel = none ↔ channel = -1 := by
  unfold used
  split_ifs with h
  · exact ⟨fun _ => h, fun _ => rfl⟩
  · exact ⟨nofun, fun he => absurd he h⟩

theorem used_of_nonneg {channel : ℤ} (h : 0 ≤ channel) : used channel = some channel :=
  if_neg (by omega)

theorem closes_append {channel : ℤ} (h : con'.closed = con.closed ++ [channel]) :
    Net.closes con con' channel := by
  unfold Net.closes
  rw [h, List.drop_left]
  exact List.mem_singleton_self _

theorem not_closes {channel : ℤ} (h : con'.closed = con.closed) :
    ¬ Net.closes con con' channel := by
  unfold Net.closes
  rw [h, List.drop_length]
  exact List.not_mem_nil

/-- A server comes to its place, if that is free, and is refused where it is taken; a channel without
a place changes nothing. -/
inductive Built (con : ServerConHandler) (channel : ℤ) (place : Option Slot) (con' : ServerConHandler) : Prop
  | comes (σ : Slot) (hσ : place = some σ) (hfree : named con σ = none)
      (hn : named con' = Function.update (named con) σ (some channel)) (hc : ¬ Net.closes con con' channel)
  | refused (σ : Slot) (hσ : place = some σ) (htaken : named con σ ≠ none)
      (hn : named con' = named con) (hc : Net.closes con con' channel)
  | other (hσ : place = none) (hn : named con' = named con)

theorem named_game_insert (con : ServerConHandler) (gsID : UInt16) (item : SvrItem) :
    named { con with gsIDSvr := con.gsIDSvr.insert gsID item } =
      Function.update (named con) (.game gsID) (some item.channelID) := by
  funext σ
  cases σ with
  | game k =>
    by_cases he : k = gsID
    · rw [he, Function.update_self]
      rw [named_game, get_insert_self]
      rfl
    · rw [Function.update_of_ne fun h => he (Slot.game.inj h), named_game, named_game]
      dsimp only
      rw [get_insert_of_ne _ _ (Ne.symm he)]
  | login => rw [Function.update_of_ne Slot.noConfusion]; rfl
  | world => rw [Function.update_of_ne Slot.noConfusion]; rfl

theorem named_game_erase (con : ServerConHandler) (gsID : UInt16) :
    named { con with gsIDSvr := con.gsIDSvr.erase gsID } =
      Function.update (named con) (.game gsID) none := by
  funext σ
  cases σ with
  | game k =>
    by_cases he : k = gsID
    · rw [he, Function.update_self]
      rw [named_game, get_erase_self]
      rfl
    · rw [Function.update_of_ne fun h => he (Slot.game.inj h), named_game, named_game]
      dsimp only
      rw [get_erase_of_ne _ (Ne.symm he)]
  | login => rw [Function.update_of_ne Slot.noConfusion]; rfl
  | world => rw [Function.update_of_ne Slot.noConfusion]; rfl

theorem named_login (con : ServerConHandler) (channel : ℤ) :
    named { con with loginServer := channel } = Function.update (named con) .login (used channel) := by
  funext σ
  cases σ with
  | game k => rw [Function.update_of_ne Slot.noConfusion]; rfl
  | login => rw [Function.update_self]; rfl
  | world => rw [Function.update_of_ne Slot.noConfusion]; rfl

theorem named_world (con : ServerConHandler) (channel : ℤ) :
    named { con with worldServer := channel } = Function.update (named con) .world (used channel) := by
  funext σ
  cases σ with
  | game k => rw [Function.update_of_ne Slot.noConfusion]; rfl
  | login => rw [Function.update_of_ne Slot.noConfusion]; rfl
  | world => rw [Function.update_self]; rfl

theorem built (con : ServerConHandler) {channel : ℤ} (localID : Int16) (localType : UInt8)
    (remoteID : Int16) (remoteType : UInt8) (ip : List UInt8) (now : ℕ) (h0 : 0 ≤ channel) :
    Built con channel (slot localID remoteID remoteType)
      (con.onNewChannelBuild channel localID localType remoteID remoteType ip now) := by
  obtain ⟨l, t, hlt⟩ : ∃ l t, (if con.localID = -1 then
      { con with localID := localID, localType := localType } else con) =
      { con with localID := l, localType := t } := by
    split_ifs
    · exact ⟨localID, localType, rfl⟩
    · exact ⟨con.localID, con.localType, rfl⟩
  unfold onNewChannelBuild slot
  dsimp only
  rw [hlt]
  by_cases hc : remoteType = eClient
  · subst hc
    exact .other rfl rfl
  rw [if_neg hc]
  by_cases hg : remoteType = eGameServer
  · rw [if_pos hg, if_pos hg]
    dsimp only
    rcases hit : con.gsIDSvr[createGSID localID remoteID]? with _ | it
    · refine .comes _ rfl ?_ (named_game_insert ..) (not_closes rfl)
      rw [named_game, hit]
      rfl
    · refine .refused _ rfl ?_ rfl (closes_append rfl)
      rw [named_game, hit]
      exact Option.some_ne_none _
  rw [if_neg hg, if_neg hg]
  by_cases hl : remoteType = eLoginServer
  · rw [if_pos hl, if_pos hl]
    by_cases hs : con.loginServer = -1
    · rw [if_neg (not_not.mpr hs)]
      refine .comes _ rfl (used_eq_none.mpr hs) ?_ (not_closes rfl)
      rw [← used_of_nonneg h0]
      exact named_login _ channel
    · rw [if_pos hs]
      exact .refused _ rfl (fun he => hs (used_eq_none.mp he)) rfl (closes_append rfl)
  rw [if_neg hl, if_neg hl]
  by_cases hw : remoteType = eWorldServer
  · rw [if_pos hw, if_pos hw]
    by_cases hs : con.worldServer = -1
    · rw [if_neg (not_not.mpr hs)]
      refine .comes _ rfl (used_eq_none.mpr hs) ?_ (not_closes rfl)
      rw [← used_of_nonneg h0]
      exact named_world _ channel
    · rw [if_pos hs]
      exact .refused _ rfl (fun he => hs (used_eq_none.mp he)) rfl (closes_append rfl)
  · rw [if_neg hw, if_neg hw]
    exact .other rfl rfl

/-- The error of a channel empties the place of its ids. -/
theorem named_onChannelError (con : ServerConHandler) (channel : ℤ) (localID remoteID : Int16)
    (remoteType : UInt8) :
    named (con.onChannelError channel localID remoteID remoteType) =
      match slot localID remoteID remoteType with
      | some σ => Function.update (named con) σ none
      | none => named con := by
  unfold onChannelError slot
  by_cases hc : remoteType = eClient
  · subst hc
    exact named_of_registry (registry_playerExit con channel)
  rw [if_neg hc]
  by_cases hg : remoteType = eGameServer
  · rw [if_pos hg, if_pos hg]
    dsimp only
    rw [← named_game_erase]
    exact named_of_registry (registry_clearPlayerFromServer
      { con with gsIDSvr := con.gsIDSvr.erase (createGSID localID remoteID) } _)
  rw [if_neg hg, if_neg hg]
  by_cases hl : remoteType = eLoginServer
  · rw [if_pos hl, if_pos hl]
    exact named_login (con.closeChannel channel) (-1)
  rw [if_neg hl, if_neg hl]
  by_cases hw : remoteType = eWorldServer
  · rw [if_pos hw, if_pos hw]
    exact named_world (con.closeChannel channel) (-1)
  · rw [if_neg hw, if_neg hw]
    rfl

/-! ### The invariant -/

/-- The places name the servers that were accepted and have not failed. -/
def Live (s : Net) : Prop :=
  ∀ σ c, named s.con σ = some c ↔ ∃ p, s.conn c = some p ∧ p.accepted = true ∧ p.slot = some σ

theorem live_init : Live {} := by
  intro σ c
  constructor
  · intro h
    cases σ with
    | game k =>
      rw [named_game, TreeMap.getElem?_emptyc] at h
      cases h
    | login => cases h
    | world => cases h
  · rintro ⟨p, hp, -⟩
    cases hp

/-- A channel that is not there is not named. -/
theorem Live.not_named (h : Live s) {c : ℤ} (hc : s.conn c = none) (σ : Slot) :
    named s.con σ ≠ some c := by
  intro hn
  obtain ⟨p, hp, -⟩ := (h σ c).mp hn
  rw [hc] at hp
  cases hp

/-- A connection that its place does not name comes or goes. -/
theorem Live.update (h : Live s) {channel : ℤ} (hn : ∀ σ, named s.con σ ≠ some channel)
    (hcon : named con = named s.con) {p : Option Peer}
    (hp : ∀ p' ∈ p, p'.accepted = true → p'.slot = none) :
    Live { con := con, conn := Function.update s.conn channel p } := by
  intro σ c
  dsimp only
  rw [hcon]
  rcases eq_or_ne c channel with rfl | hne
  · rw [Function.update_self]
    refine ⟨fun he => absurd he (hn σ), ?_⟩
    rintro ⟨p', hp', ha, hσ⟩
    rw [hp p' hp' ha] at hσ
    cases hσ
  · rw [Function.update_of_ne hne]
    exact h σ c

theorem live_build {channel : ℤ} {localID : Int16} {localType : UInt8} {remoteID : Int16}
    {remoteType : UInt8} {ip : List UInt8} {now : ℕ} (h : Live s)
    (hs : s.step (.build channel localID localType remoteID remoteType ip now) = some s') :
    Live s' := by
  unfold Net.step at hs
  dsimp only at hs
  split_ifs at hs with hif
  cases hs
  have hfresh := h.not_named (Option.isNone_iff_eq_none.mp hif.2)
  cases built s.con localID localType remoteID remoteType ip now hif.1 with
  | comes σ hσ hfree hn hc =>
    intro σ' c
    dsimp only
    rw [hn]
    rcases eq_or_ne c channel with rfl | hne
    · rw [Function.update_self]
      constructor
      · intro he
        rcases eq_or_ne σ' σ with rfl | hne'
        · exact ⟨_, rfl, decide_eq_true hc, hσ⟩
        · rw [Function.update_of_ne hne'] at he
          exact absurd he (hfresh σ')
      · rintro ⟨p, hp, -, hσ'⟩
        cases hp
        obtain rfl : σ' = σ := Option.some.inj (hσ'.symm.trans hσ)
        exact Function.update_self ..
    · rw [Function.update_of_ne hne, ← h σ' c]
      rcases eq_or_ne σ' σ with rfl | hne'
      · rw [Function.update_self, hfree]
        exact ⟨fun he => absurd (Option.some.inj he).symm hne, nofun⟩
      · rw [Function.update_of_ne hne']
  | refused σ _ _ hn hc =>
    refine h.update hfresh hn fun p hp ha => ?_
    cases hp
    exact absurd hc (of_decide_eq_true ha)
  | other hσ hn =>
    refine h.update hfresh hn fun p hp _ => ?_
    cases hp
    exact hσ

theorem live_error {channel : ℤ} (h : Live s) (hg : Harmless s (.error channel))
    (hs : s.step (.error channel) = some s') : Live s' := by
  unfold Net.step at hs
  dsimp only at hs
  split at hs
  · rename_i p hp
    cases hs
    have hn := named_onChannelError s.con channel p.localID p.remoteID p.remoteType
    rcases hσ : p.slot with _ | σ
    · have hcon : named (s.con.onChannelError channel p.localID p.remoteID p.remoteType) =
          named s.con := by
        rw [hn, show slot p.localID p.remoteID p.remoteType = none from hσ]
      refine h.update (fun σ he => ?_) hcon fun _ hp' => by cases hp'
      obtain ⟨p', hp', -, hσ'⟩ := (h σ channel).mp he
      rw [hp] at hp'
      cases hp'
      rw [hσ] at hσ'
      cases hσ'
    · rw [show slot p.localID p.remoteID p.remoteType = some σ from hσ] at hn
      dsimp only at hn
      by_cases ha : p.accepted = true
      · have hown := (h σ channel).mpr ⟨p, hp, ha, hσ⟩
        intro σ' c
        dsimp only
        rw [hn]
        rcases eq_or_ne c channel with rfl | hne
        · rw [Function.update_self]
          refine ⟨fun he => ?_, fun ⟨_, hp', _⟩ => by cases hp'⟩
          rcases eq_or_ne σ' σ with rfl | hne'
          · rw [Function.update_self] at he
            cases he
          · rw [Function.update_of_ne hne'] at he
            obtain ⟨p', hp', -, hσ'⟩ := (h σ' c).mp he
            rw [hp] at hp'
            cases hp'
            exact absurd (Option.some.inj (hσ'.symm.trans hσ)) hne'
        · rw [Function.update_of_ne hne, ← h σ' c]
          rcases eq_or_ne σ' σ with rfl | hne'
          · rw [Function.update_self, hown]
            exact ⟨nofun, fun he => absurd (Option.some.inj he).symm hne⟩
          · rw [Function.update_of_ne hne']
      · -- its place is free, and emptied once more
        have hfree := (hg p hp (Bool.eq_false_of_not_eq_true ha) σ hσ).1
        have hcon : named (s.con.onChannelError channel p.localID p.remoteID p.remoteType) =
            named s.con := by
          rw [hn, ← hfree, Function.update_eq_self]
        refine h.update (fun σ' he => ?_) hcon fun _ hp' => by cases hp'
        obtain ⟨p', hp', ha', -⟩ := (h σ' channel).mp he
        rw [hp] at hp'
        cases hp'
        exact ha ha'
  · cases hs

theorem live_gone {channel : ℤ} (h : Live s) (hs : s.step (.gone channel) = some s') : Live s' := by
  unfold Net.step at hs
  dsimp only at hs
  split at hs
  · rename_i p hp
    split_ifs at hs with hif
    cases hs
    refine h.update (fun σ he => ?_) rfl fun _ hp' => by cases hp'
    obtain ⟨p', hp', ha, hσ⟩ := (h σ channel).mp he
    rw [hp] at hp'
    cases hp'
    rcases hif with hif | hif
    · rw [hif] at ha
      cases ha
    · unfold Peer.slot slot at hσ
      rw [hif] at hσ
      cases hσ
  · cases hs

theorem live_step {e : Event} (h : Live s) (hg : Harmless s e) (hs : s.step e = some s') : Live s' := by
  cases e with
  | build => exact live_build h hs
  | error => exact live_error h hg hs
  | gone => exact live_gone h hs
  | handle a =>
    obtain ⟨hn, hc⟩ := named_step hs
    intro σ c
    rw [hn, hc]
    exact h σ c

/-! ### Two game servers, and one that comes twice -/

/-- A game server whose ids no other has that is there is accepted. -/
theorem Live.accepts {channel : ℤ} {localID : Int16} {localType : UInt8} {remoteID : Int16}
    {ip : List UInt8} {now : ℕ} (h : Live s)
    (hg : Harmless s (.build channel localID localType remoteID eGameServer ip now))
    (hs : s.step (.build channel localID localType remoteID eGameServer ip now) = some s')
    (hne : ∀ c p, s.conn c = some p → p.accepted = true → p.remoteType = eGameServer →
      ¬ (p.localID = localID ∧ p.remoteID = remoteID)) : Serves s' channel := by
  unfold Net.step at hs
  dsimp only at hs
  split_ifs at hs with hif
  cases hs
  have hslot : slot localID remoteID eGameServer = some (.game (createGSID localID remoteID)) := rfl
  cases built s.con localID localType remoteID eGameServer ip now hif.1 with
  | comes σ hσ _ _ hc =>
    exact ⟨_, Function.update_self .., decide_eq_true hc, Option.isSome_iff_exists.mpr ⟨σ, hσ⟩⟩
  | refused σ hσ htaken =>
    obtain ⟨c, hc⟩ := Option.ne_none_iff_exists'.mp htaken
    obtain ⟨p, hp, ha, hpσ⟩ := (h σ c).mp hc
    have hids := hg σ hσ c hc p hp rfl
    have htype : p.remoteType = eGameServer := by
      by_contra ht
      rw [hslot] at hσ
      rw [← hσ] at hpσ
      unfold Peer.slot slot at hpσ
      rw [if_neg ht] at hpσ
      split_ifs at hpσ
      all_goals cases hpσ
    exact absurd hids (hne c p hp ha htype)
  | other hσ => rw [hslot] at hσ; cases hσ

/-- Taking out the players with an id leaves those whose id is another one. -/
theorem clearPlayerFromServer_keeps (con : ServerConHandler) (gsID : UInt16) :
    (∀ (a : Int64) o, con.idClient[a]? = some o → (con.object o).gsID ≠ gsID →
      (con.clearPlayerFromServer gsID).idClient[a]? = some o) ∧
    ∀ (a : Int64) it, con.timeout.timeout[a]? = some it → it.gsID ≠ gsID →
      (con.clearPlayerFromServer gsID).timeout.timeout[a]? = some it := by
  have hc := closes_foldl (s := { con with
    idClient := eraseAll con.idClient (keysOf con.idClient fun o => (con.object o).gsID = gsID)
    timeout := (con.timeout.removePlayerByGsID gsID).2 }) (con.timeout.removePlayerByGsID gsID).1
  constructor
  · intro a o ho hne
    refine (congrArg (·[a]?) hc.idClient).trans ?_
    dsimp only
    rw [get_eraseAll, if_neg]
    · exact ho
    · intro hm
      obtain ⟨o', ho', hgs⟩ := mem_keysOf.mp hm
      rw [ho] at ho'
      cases ho'
      exact hne (of_decide_eq_true hgs)
  · intro a it hit hne
    refine (congrArg (·.timeout[a]?) hc.timeout).trans ?_
    dsimp only
    rw [Timeouts.ConnTimeout.get_removePlayerByGsID, hit, Option.bind_some, if_neg hne]

/-- The error of a server that was refused touches nobody. -/
theorem error_refused {channel : ℤ} {p : Peer} (hp : s.conn channel = some p)
    (ha : p.accepted = false) (hg : Harmless s (.error channel)) :
    Leaves s (s.con.onChannelError channel p.localID p.remoteID p.remoteType) := by
  have hfree := hg p hp ha
  unfold Peer.slot slot at hfree
  unfold onChannelError
  by_cases hc : p.remoteType = eClient
  · rw [if_pos hc]
    have hr := registry_playerExit s.con channel
    have hs := aside_playerExit (s := s.con) channel
    exact ⟨fun k => congrArg (·.1[k]?) hr, congrArg (·.2.1) hr, congrArg (·.2.2) hr,
      fun a o ho _ => hs.idClient ▸ ho, fun a it hit _ => hs.timeout ▸ hit⟩
  rw [if_neg hc]
  by_cases hgs : p.remoteType = eGameServer
  · rw [if_pos hgs] at hfree ⊢
    obtain ⟨hn, hid, hto⟩ := hfree _ rfl
    dsimp only
    set gsID := createGSID p.localID p.remoteID with hgsID
    have hr := registry_clearPlayerFromServer { s.con with gsIDSvr := s.con.gsIDSvr.erase gsID } gsID
    have hk := clearPlayerFromServer_keeps { s.con with gsIDSvr := s.con.gsIDSvr.erase gsID } gsID
    have hit : s.con.gsIDSvr[gsID]? = none := Option.map_eq_none_iff.mp hn
    refine ⟨fun k => ?_, congrArg (·.2.1) hr, congrArg (·.2.2) hr, fun a o ho hplays => ?_,
      fun a it hit hplays => ?_⟩
    · refine (congrArg (·.1[k]?) hr).trans ?_
      unfold registry
      dsimp only
      rw [get_erase]
      split_ifs with he
      · rw [← he]
        exact hit.symm
      · rfl
    · refine hk.1 a o ho fun he => ?_
      rcases hplays with ⟨c, hc⟩ | hserves
      · rw [he, hn] at hc
        cases hc
      · exact hid (a, o) (TreeMap.mem_toList_iff_getElem?_eq_some.mpr ho) he hserves
    · refine hk.2 a it hit fun he => ?_
      rcases hplays with ⟨c, hc⟩ | hserves
      · rw [he, hn] at hc
        cases hc
      · exact hto (a, it) (TreeMap.mem_toList_iff_getElem?_eq_some.mpr hit) he hserves
  rw [if_neg hgs] at hfree ⊢
  by_cases hl : p.remoteType = eLoginServer
  · rw [if_pos hl] at hfree ⊢
    exact ⟨fun _ => rfl, (used_eq_none.mp (hfree _ rfl).1).symm, rfl, fun _ _ ho _ => ho, fun _ _ hit _ => hit⟩
  rw [if_neg hl] at hfree ⊢
  by_cases hw : p.remoteType = eWorldServer
  · rw [if_pos hw] at hfree ⊢
    exact ⟨fun _ => rfl, rfl, (used_eq_none.mp (hfree _ rfl).1).symm, fun _ _ ho _ => ho, fun _ _ hit _ => hit⟩
  · rw [if_neg hw]
    exact ⟨fun _ => rfl, rfl, rfl, fun _ _ ho _ => ho, fun _ _ hit _ => hit⟩

/-! ### Runs -/

/-- **Where each step is harmless, the places name exactly the servers that were accepted and have not
failed, a game server is accepted unless one with its ids is there, and the error of one that was
refused leaves the others and their players.** -/
theorem registry_named {l : List Event} (h : run Net.step {} l = some s)
    (hg : Along Net.step Harmless {} l) :
    (∀ σ c, named s.con σ = some c ↔ ∃ p, s.conn c = some p ∧ p.accepted = true ∧ p.slot = some σ) ∧
    (∀ channel localID localType remoteID ip now s',
      Harmless s (.build channel localID localType remoteID eGameServer ip now) →
      s.step (.build channel localID localType remoteID eGameServer ip now) = some s' →
      (∀ c p, s.conn c = some p → p.accepted = true → p.remoteType = eGameServer →
        ¬ (p.localID = localID ∧ p.remoteID = remoteID)) → Serves s' channel) ∧
    ∀ channel p s', s.conn channel = some p → p.accepted = false → Harmless s (.error channel) →
      s.step (.error channel) = some s' → Leaves s s'.con := by
  have hlive : Live s := run_inv_along (P := Live) (Q := fun _ => True)
    (fun _ _ _ h _ hg hs => live_step h hg hs) h (fun _ _ => trivial) hg live_init
  refine ⟨hlive, fun _ _ _ _ _ _ _ hb hs hne => hlive.accepts hb hs hne, fun c p s' hp ha hc hs => ?_⟩
  unfold Net.step at hs
  dsimp only at hs
  rw [hp] at hs
  cases hs
  exact error_refused hp ha hc

/-- Two game servers and a login server come, a player plays, and a login server that is refused goes. -/
def serversCome : List Event :=
  .build 3 4 1 1 eGameServer [] 0 :: .build 6 4 1 2 eGameServer [] 0 ::
    .build 8 4 1 9 eLoginServer [] 0 :: .build 9 4 1 9 eLoginServer [] 0 :: .gone 9 ::
    (.addClientTimeOut 7 0 :: comes 7 5 0).map .handle

theorem registry_named_come : ∃ s, run Net.step {} serversCome = some s ∧
    named s.con .login = some 8 ∧ Serves s 3 ∧ Serves s 6 ∧ s.con.idClient[(7 : Int64)]? = some 0 ∧
    (∀ σ c, named s.con σ = some c ↔ ∃ p, s.conn c = some p ∧ p.accepted = true ∧ p.slot = some σ) ∧
    (∀ channel localID localType remoteID ip now s',
      Harmless s (.build channel localID localType remoteID eGameServer ip now) →
      s.step (.build channel localID localType remoteID eGameServer ip now) = some s' →
      (∀ c p, s.conn c = some p → p.accepted = true → p.remoteType = eGameServer →
        ¬ (p.localID = localID ∧ p.remoteID = remoteID)) → Serves s' channel) ∧
    ∀ channel p s', s.conn channel = some p → p.accepted = false → Harmless s (.error channel) →
      s.step (.error channel) = some s' → Leaves s s'.con := by
  obtain ⟨s, hs⟩ := Option.isSome_iff_exists.mp
    (by decide +kernel : (run Net.step {} serversCome).isSome)
  have hnow : named s.con .login = some 8 ∧ Serves s 3 ∧ Serves s 6 ∧
      s.con.idClient[(7 : Int64)]? = some 0 := by
    cases hs
    decide +kernel
  exact ⟨s, hs, hnow.1, hnow.2.1, hnow.2.2.1, hnow.2.2.2, registry_named hs (by decide +kernel)⟩

/-- A game server comes with ids that have the place of another one, and is refused; one comes twice, is
refused, and its error takes out the first and its player; and the error of a login server that was
refused takes out the one that is there. -/
theorem registry_not_named :
    (∃ s p, run Net.step {} [.build 3 1 1 1 eGameServer [] 0, .build 4 1 1 257 eGameServer [] 0] = some s ∧
      s.conn 4 = some p ∧ p.accepted = false ∧ (1 : Int16) ≠ 257) ∧
    (∃ s s', run Net.step {} (.build 3 4 1 1 eGameServer [] 0 :: .build 6 4 1 1 eGameServer [] 0 ::
        (.addClientTimeOut 7 0 :: comes 7 5 0).map .handle) = some s ∧
      s.step (.error 6) = some s' ∧ Serves s' 3 ∧ named s'.con (.game (createGSID 4 1)) = none ∧
      s.con.idClient[(7 : Int64)]?.isSome ∧ s'.con.idClient[(7 : Int64)]? = none) ∧
    ∃ s, run Net.step {} [.build 3 4 1 9 eLoginServer [] 0, .build 4 4 1 9 eLoginServer [] 0, .error 4] = some s ∧
      Serves s 3 ∧ named s.con .login = none := by
  refine ⟨?_, ?_, ?_⟩
  · obtain ⟨s, hs⟩ := Option.isSome_iff_exists.mp (by decide +kernel :
      (run Net.step {} [.build 3 1 1 1 eGameServer [] 0, .build 4 1 1 257 eGameServer [] 0]).isSome)
    have hp : (s.conn 4).map (·.accepted) = some false := by
      cases hs
      decide +kernel
    obtain ⟨p, hp, ha⟩ := Option.map_eq_some_iff.mp hp
    exact ⟨s, p, hs, hp, ha, by decide⟩
  · obtain ⟨s, hs⟩ := Option.isSome_iff_exists.mp (by decide +kernel :
      (run Net.step {} (.build 3 4 1 1 eGameServer [] 0 :: .build 6 4 1 1 eGameServer [] 0 ::
        (.addClientTimeOut 7 0 :: comes 7 5 0).map .handle)).isSome)
    obtain ⟨s', hs'⟩ := Option.isSome_iff_exists.mp (show (s.step (.error 6)).isSome by
      cases hs
      decide +kernel)
    refine ⟨s, s', hs, hs', ?_⟩
    cases hs
    cases hs'
    decide +kernel
  · obtain ⟨s, hs⟩ := Option.isSome_iff_exists.mp (by decide +kernel : (run Net.step {}
      [.build 3 4 1 9 eLoginServer [] 0, .build 4 4 1 9 eLoginServer [] 0, .error 4]).isSome)
    refine ⟨s, hs, ?_⟩
    cases hs
    decide +kernel

end ChatShow.GateServer.ServerRegistry
