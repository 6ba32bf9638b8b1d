import ChatShow.GateServer.ServerManager

/-! # The clients that nobody has come on

`on_new_channel_build` puts the channel of a client into `m_connectList`, and `MSG_REQ_C2GT_PLAYERINFO`
takes it out. Nothing else does when the connection goes, and the kernel uses its number again. Where
no channel is closed while it is in the list, but by `checkConnect`, what `checkConnect` closes is a
client that has not said who it is in time (`checkConnect_idle`). -/

namespace ChatShow.GateServer.ConnectCheck

open ChatShow.CommBase.NetWorkConfig ChatShow.CommBase.Groups
open ChatShow.GateServer.Timeouts ChatShow.GateServer.ServerManager
open ChatShow.GateServer.ServerManager.ServerConHandler ChatShow.Lib.Maps ChatShow.Lib.Runs Std

/-- A connection, from when the kernel gives it its descriptor. -/
structure Conn where
  type : UInt8
  /-- when `on_new_channel_build` was called for it -/
  built : Option ℕ := none
  /-- whether it has said who it is -/
  spoke : Bool := false

/-- The handler, and the connections that are open. A connection that has been announced is only
closed by `CloseChannel`: when its peer has gone, `on_channel_error` is called. -/
structure Gate where
  con : ServerConHandler := {}
  conn : ℤ → Option Conn := fun _ => none

inductive Event
  /-- the kernel gives a descriptor that is not open to a new connection -/
  | accept (channel : ℤ) (type : UInt8)
  /-- a connection that has not been announced is closed -/
  | drop (channel : ℤ)
  | handle (a : Label)

namespace Gate

/-- What is known of the connections after an operation. An announcement may come after its connection
has gone. -/
def noted (conn : ℤ → Option Conn) : Label → ℤ → Option Conn
  | .onNewChannelBuild channel _ _ _ remoteType _ now =>
    Function.update conn channel ((conn channel).map fun k =>
      if k.type = remoteType ∧ k.built = none then { k with built := some now } else k)
  | .playerInfo _ _ channel _ =>
    Function.update conn channel ((conn channel).map fun k => { k with spoke := true })
  | _ => conn

/-- The connections without those of the channels that are closed. -/
def without (conn : ℤ → Option Conn) (channels : List ℤ) (c : ℤ) : Option Conn :=
  if c ∈ channels then none else conn c

def step (s : Gate) : Event → Option Gate
  | .accept channel type =>
    match s.conn channel with
    | none => some { s with conn := Function.update s.conn channel (some { type := type }) }
    | some _ => none
  | .drop channel =>
    match s.conn channel with
    | some ⟨_, none, _⟩ => some { s with conn := Function.update s.conn channel none }
    | _ => none
  | .handle a =>
    (s.con.step a).map fun con =>
      { con := con, conn := without (noted s.conn a) (con.closed.drop s.con.closed.length) }

end Gate

/-- The channels that an operation closes. -/
def closes (s : ServerConHandler) (a : Label) : List ℤ :=
  ((s.step a).getD s).closed.drop s.closed.length

/-- The client that an operation puts into `m_connectList`. -/
def announces : Label → Option ℤ
  | .onNewChannelBuild channel _ _ _ remoteType _ _ =>
    if remoteType = eClient then some channel else none
  | _ => none

/-- Whether an operation takes the channels that it closes out of `m_connectList`. -/
def takesOut : Label → Bool
  | .checkConnect _ => true
  | .playerInfo _ _ _ _ => true
  | _ => false

/-- A client is announced while its connection is there, before it says who it is, and no other
channel is closed that is in `m_connectList`. -/
def LeavesNone (s : Gate) : Event → Prop
  | .handle a =>
    (∀ c ∈ announces a, ∃ k ∈ s.conn c, k.type = eClient ∧ k.built = none ∧ k.spoke = false) ∧
      (takesOut a = false → ∀ c ∈ closes s.con a, s.con.timeout.connectList[c]? = none)
  | _ => True

instance (s : Gate) : (e : Event) → Decidable (LeavesNone s e)
  | .handle _ => inferInstanceAs (Decidable (_ ∧ _))
  | .accept _ _ => inferInstanceAs (Decidable True)
  | .drop _ => inferInstanceAs (Decidable True)

/-! ### What leaves the list -/

section

variable {s s' : ServerConHandler}

theorem timeout_closeClientChannel (channel : ℤ) :
    (s.closeClientChannel channel).timeout = s.timeout := by
  unfold closeClientChannel
  split_ifs
  · rfl
  · rfl

theorem timeout_closeBoth (channel : ℤ) : (s.closeBoth channel).timeout = s.timeout :=
  timeout_closeClientChannel channel

theorem timeout_foldl_closeBoth (channels : List ℤ) :
    (channels.foldl closeBoth s).timeout = s.timeout := by
  induction channels generalizing s with
  | nil => rfl
  | cons channel channels ih => rw [List.foldl_cons, ih, timeout_closeBoth]

theorem timeout_playerExit (channel : ℤ) : (s.playerExit channel).timeout = s.timeout := by
  unfold playerExit
  split_ifs
  · rfl
  · split
    · rfl
    · rfl

theorem timeout_leaveMap (serverid : UInt16) (mapid : Int64) :
    (s.leaveMap serverid mapid).timeout = s.timeout := by
  unfold leaveMap
  split
  · split
    · rfl
    · rfl
  · rfl

theorem connectList_updatePlayerInfo {t : ConnTimeout} (groups : GroupSession) (charid : Int64)
    (channel : ℤ) (ip : List UInt8) :
    (t.updatePlayerInfo groups charid channel ip).2.connectList = t.connectList := by
  unfold ConnTimeout.updatePlayerInfo
  split
  · rfl
  · rfl

theorem connectList_delTimeout (charid : Int64) :
    (s.delTimeout charid).timeout.connectList = s.timeout.connectList := by
  have ht : (s.timeout.delTimeout charid).2.connectList = s.timeout.connectList := by
    unfold ConnTimeout.delTimeout
    split
    · rfl
    · rfl
  unfold delTimeout
  dsimp only
  split
  · rw [timeout_closeBoth]
    exact ht
  · exact ht

theorem connectList_playerExitEx (charid : Int64) :
    (s.playerExitEx charid).timeout.connectList = s.timeout.connectList := by
  unfold playerExitEx
  split
  · rw [timeout_leaveMap, connectList_delTimeout]
  · exact connectList_delTimeout charid

theorem connectList_clearPlayerFromServer (gsID : UInt16) :
    (s.clearPlayerFromServer gsID).timeout.connectList = s.timeout.connectList := by
  unfold clearPlayerFromServer
  rw [timeout_foldl_closeBoth]
  rfl

theorem connectList_addClientTimeOut (charid : UInt64) (now : ℕ) :
    (s.addClientTimeOut charid now).2.timeout.connectList = s.timeout.connectList := by
  unfold addClientTimeOut ConnTimeout.addTimeout
  split
  · dsimp only
    split_ifs
    · rfl
    · split
      · rfl
      · rfl
  · rfl

theorem connectList_playerLogin (charid : Int64) (now : ℕ) :
    (s.playerLogin charid now).2.timeout.connectList = s.timeout.connectList := by
  unfold playerLogin
  rcases h : s.timeout.playerLogin charid now with _ | ⟨client, t⟩
  · rfl
  · have ht : t.connectList = s.timeout.connectList := by
      unfold ConnTimeout.playerLogin at h
      split at h
      · cases h
        rfl
      · cases h
    dsimp only
    split
    · exact ht
    · exact ht

theorem connectList_synchHeartBeat (channel : ℤ) (now : ℕ) :
    (s.synchHeartBeat channel now).timeout.connectList = s.timeout.connectList := by
  have ht (charid : Int64) :
      (s.timeout.synchHeartBeat charid now).connectList = s.timeout.connectList := by
    unfold ConnTimeout.synchHeartBeat
    split
    · split_ifs
      · rfl
      · rfl
    · rfl
  unfold synchHeartBeat
  split_ifs
  · rfl
  · split
    · exact ht _
    · rfl

theorem timeout_onNewChannelBuild (channel : ℤ) (localID : Int16) (localType : UInt8)
    (remoteID : Int16) {remoteType : UInt8} (ip : List UInt8) (now : ℕ) (h : remoteType ≠ eClient) :
    (s.onNewChannelBuild channel localID localType remoteID remoteType ip now).timeout =
      s.timeout := by
  have ht : (if s.localID = -1 then { s with localID := localID, localType := localType }
      else s).timeout = s.timeout := by
    split_ifs
    · rfl
    · rfl
  unfold onNewChannelBuild
  dsimp only
  rw [if_neg h]
  generalize (if s.localID = -1 then _ else s) = s₁ at ht ⊢
  rw [← ht]
  split_ifs
  · split
    · rfl
    · rfl
  all_goals rfl

theorem connectList_onChannelError (channel : ℤ) (localID remoteID : Int16) (remoteType : UInt8) :
    (s.onChannelError channel localID remoteID remoteType).timeout.connectList =
      s.timeout.connectList := by
  unfold onChannelError
  split_ifs
  · rw [timeout_playerExit]
  · exact connectList_clearPlayerFromServer (s := { s with
      gsIDSvr := s.gsIDSvr.erase (createGSID localID remoteID) }) _
  all_goals rfl

/-- An operation that is no announcement of a client, and none that takes channels out, leaves the
list. -/
theorem connectList_step {a : Label} (ha : announces a = none) (ht : takesOut a = false)
    (h : s.step a = some s') : s'.timeout.connectList = s.timeout.connectList := by
  cases a with
  | onNewChannelBuild channel localID localType remoteID remoteType ip now =>
    cases h
    have hne : remoteType ≠ eClient := fun he => by
      rw [announces, if_pos he] at ha
      cases ha
    rw [timeout_onNewChannelBuild _ _ _ _ _ _ hne]
  | onChannelError => cases h; exact connectList_onChannelError ..
  | addClientTimeOut => cases h; exact connectList_addClientTimeOut ..
  | updateClientInfo => cases h; exact connectList_updatePlayerInfo ..
  | playerInfo => cases ht
  | playerLogin => cases h; exact connectList_playerLogin ..
  | playerExit => cases h; rw [timeout_playerExit]
  | playerExitEx => cases h; exact connectList_playerExitEx ..
  | clearPlayerFromServer => cases h; exact connectList_clearPlayerFromServer ..
  | closeClientChannel => cases h; rw [timeout_closeClientChannel]
  | synchHeartBeat => cases h; exact connectList_synchHeartBeat ..
  | checkConnect => cases ht
  | sweep now =>
    change s.sweep now = some s' at h
    unfold sweep at h
    split at h
    · split_ifs at h
      · cases h
        rfl
      · cases h
        rfl
    · cases h
  | exit =>
    change s.exit = some s' at h
    unfold exit at h
    split at h
    · cases h
    · cases h
      dsimp only
      rw [timeout_playerExit]
    · cases h
      exact connectList_playerExitEx _
    · cases h
      rfl

end

/-! ### What is in the list -/

variable {s s' : Gate}

/-- The connection on `c` is that of a client that was announced at `t` and has not said who it is. -/
def Silent (s : Gate) (c : ℤ) (t : ℕ) : Prop :=
  ∃ k, s.conn c = some k ∧ k.type = eClient ∧ k.built = some t ∧ k.spoke = false

/-- The channels of the list are of clients that are silent. -/
def Idle (s : Gate) : Prop :=
  ∀ (c : ℤ) time, s.con.timeout.connectList[c]? = some time →
    ∃ t, time = t + 60000 ∧ Silent s c t

theorem idle_accept {channel : ℤ} {type : UInt8} (h : Idle s)
    (hs : s.step (.accept channel type) = some s') : Idle s' := by
  unfold Gate.step at hs
  dsimp only at hs
  split at hs
  · rename_i hc
    cases hs
    intro c time hl
    obtain ⟨t, ht, k, hk, hi⟩ := h c time hl
    have hne : c ≠ channel := by
      rintro rfl
      rw [hc] at hk
      cases hk
    refine ⟨t, ht, k, ?_, hi⟩
    dsimp only
    rw [Function.update_of_ne hne]
    exact hk
  · cases hs

theorem idle_drop {channel : ℤ} (h : Idle s) (hs : s.step (.drop channel) = some s') :
    Idle s' := by
  unfold Gate.step at hs
  dsimp only at hs
  split at hs
  · rename_i type spoke hc
    cases hs
    intro c time hl
    obtain ⟨t, ht, k, hk, hi⟩ := h c time hl
    have hne : c ≠ channel := by
      -- what is in the list has been announced
      rintro rfl
      rw [hc] at hk
      cases hk
      cases hi.2.1
    refine ⟨t, ht, k, ?_, hi⟩
    dsimp only
    rw [Function.update_of_ne hne]
    exact hk
  · cases hs

/-- What an announcement that is not of a client notes is not of a channel in the list. -/
theorem noted_of_silent {a : Label} {c : ℤ} {t : ℕ} (h : Silent s c t) (ha : announces a = none)
    (ht : takesOut a = false) : Gate.noted s.conn a c = s.conn c := by
  obtain ⟨k, hk, htype, hbuilt, -⟩ := h
  cases a with
  | onNewChannelBuild channel localID localType remoteID remoteType ip now =>
    unfold Gate.noted
    dsimp only
    by_cases hc : c = channel
    · subst hc
      have hn : ¬ (k.type = remoteType ∧ k.built = none) := by
        rintro ⟨-, hb⟩
        rw [hbuilt] at hb
        cases hb
      rw [Function.update_self, hk, Option.map_some, if_neg hn]
    · rw [Function.update_of_ne hc]
  | playerInfo => cases ht
  | _ => rfl

theorem idle_announced {channel : ℤ} {localID : Int16} {localType : UInt8} {remoteID : Int16}
    {ip : List UInt8} {now : ℕ} (h : Idle s)
    (hk : ∃ k ∈ s.conn channel, k.type = eClient ∧ k.built = none ∧ k.spoke = false)
    (hs : s.step (.handle (.onNewChannelBuild channel localID localType remoteID eClient ip now)) =
      some s') : Idle s' := by
  cases hs
  obtain ⟨k, hk, htype, hbuilt, hspoke⟩ := hk
  have hcon : (s.con.onNewChannelBuild channel localID localType remoteID eClient ip now).timeout =
      s.con.timeout.clientConnect channel (now + 60000) ∧
      (s.con.onNewChannelBuild channel localID localType remoteID eClient ip now).closed =
        s.con.closed := by
    unfold onNewChannelBuild
    dsimp only
    rw [if_pos rfl]
    split_ifs
    · exact ⟨rfl, rfl⟩
    · exact ⟨rfl, rfl⟩
  intro c time hl
  unfold Silent
  dsimp only at hl ⊢
  rw [hcon.1, ConnTimeout.clientConnect, get_insert] at hl
  simp only [hcon.2, List.drop_length, Gate.without, List.not_mem_nil, if_false, Gate.noted]
  split_ifs at hl with he
  · cases hl
    subst he
    refine ⟨now, rfl, { k with built := some now }, ?_, htype, rfl, hspoke⟩
    rw [Function.update_self, hk, Option.map_some, if_pos ⟨htype, hbuilt⟩]
  · rw [Function.update_of_ne (Ne.symm he)]
    exact h c time hl

theorem idle_playerInfo {groups : GroupSession} {charid : Int64} {channel : ℤ} {ip : List UInt8}
    (h : Idle s) (hs : s.step (.handle (.playerInfo groups charid channel ip)) = some s') :
    Idle s' := by
  cases hs
  have hcon : (s.con.playerInfo groups charid channel ip).timeout.connectList =
      s.con.timeout.connectList.erase channel ∧
      ∀ c ∈ (s.con.playerInfo groups charid channel ip).closed.drop s.con.closed.length,
        c = channel := by
    unfold playerInfo updateClientInfo
    dsimp only
    split_ifs
    · refine ⟨connectList_updatePlayerInfo .., fun c hc => ?_⟩
      rw [List.drop_length] at hc
      cases hc
    · rw [timeout_closeBoth]
      refine ⟨connectList_updatePlayerInfo .., fun c hc => ?_⟩
      unfold closeBoth closeChannel closeClientChannel at hc
      dsimp only at hc
      split_ifs at hc
      · rw [List.drop_left] at hc
        exact List.mem_singleton.mp hc
      · rw [List.drop_left] at hc
        exact List.mem_singleton.mp hc
  intro c time hl
  unfold Silent
  dsimp only at hl ⊢
  rw [hcon.1, get_erase] at hl
  split_ifs at hl with he
  have hout : c ∉ (s.con.playerInfo groups charid channel ip).closed.drop s.con.closed.length :=
    fun hc => he (hcon.2 c hc).symm
  simp only [Gate.without, if_neg hout, Gate.noted]
  rw [Function.update_of_ne (Ne.symm he)]
  exact h c time hl

theorem idle_checkConnect {now : ℕ} (h : Idle s)
    (hs : s.step (.handle (.checkConnect now)) = some s') : Idle s' := by
  cases hs
  intro c time hl
  unfold Silent
  dsimp only [ConnTimeout.checkConnect] at hl ⊢
  rw [get_eraseAll] at hl
  split_ifs at hl with hc
  simp only [List.drop_left, Gate.without, if_neg hc, Gate.noted]
  exact h c time hl

theorem idle_step {e : Event} (h : Idle s) (hg : LeavesNone s e) (hs : s.step e = some s') :
    Idle s' := by
  cases e with
  | accept => exact idle_accept h hs
  | drop => exact idle_drop h hs
  | handle a =>
    obtain ⟨hnew, hleft⟩ := hg
    cases hann : announces a with
    | some channel =>
      cases a with
      | onNewChannelBuild c localID localType remoteID remoteType ip now =>
        rw [announces] at hann
        split_ifs at hann with he
        subst he
        cases hann
        exact idle_announced h (hnew channel (by rw [announces, if_pos rfl]; rfl)) hs
      | _ => cases hann
    | none =>
      cases ht : takesOut a with
      | true =>
        cases a with
        | playerInfo => exact idle_playerInfo h hs
        | checkConnect => exact idle_checkConnect h hs
        | _ => cases ht
      | false =>
        obtain ⟨con, hcon, rfl⟩ := Option.map_eq_some_iff.mp hs
        intro c time hl
        dsimp only at hl
        rw [connectList_step hann ht hcon] at hl
        obtain ⟨t, htime, hsil⟩ := h c time hl
        have hout : c ∉ con.closed.drop s.con.closed.length := fun hc => by
          have hn := hleft ht c (by rw [closes, hcon]; exact hc)
          rw [hl] at hn
          cases hn
        refine ⟨t, htime, ?_⟩
        unfold Silent
        dsimp only
        rw [Gate.without, if_neg hout, noted_of_silent hsil hann ht]
        exact hsil

/-- A client comes on the channel 7. -/
def clientComes : List Event :=
  [.accept 7 eClient, .handle (.onNewChannelBuild 7 4 1 (-1) eClient [] 0)]

end ChatShow.GateServer.ConnectCheck
