import ChatShow.CommBase.NetworkMoves

/-! # The direction of a session

The low byte of the flag of a session says whether the session is of a listener or of a connection that
this process has made. `ConnectSuccess` does not look at it: it takes the packet of a server also from a
peer that has connected to a listener, and gives that peer the identity that the configuration of a
connection has. Where no packet of the wrong direction comes, or it is refused for another reason, every
session that is promoted has the identity that belongs to its direction (`promoted_directed`). -/

namespace ChatShow.CommBase.Direction

open ChatShow.CommBase.NetWorkConfig ChatShow.CommBase.MessageManager ChatShow.CommBase.NetContext
open ChatShow.CommBase.Groups ChatShow.CommBase.EpollMain ChatShow.CommBase.FramesTaken
open ChatShow.CommBase.SessionBooks ChatShow.CommBase.NetworkMoves ChatShow.CommBase.Origin
open ChatShow.CommBase.SessionManager (SessionMgr Session gateEnv anyAddr)
open ChatShow.CommBase.SessionManager.SessionMgr
open ChatShow.CommBase.SessionRecv (Peer)
open ChatShow.Lib.Runs

/-- The session is of a connection that this process has made. -/
def IsConnector (p : Peer) : Prop := p.flag % 256 = eConnEpoll.toNat

instance (p : Peer) : Decidable (IsConnector p) := inferInstanceAs (Decidable (_ = _))

/-- The packet is one that the peer of such a session sends. -/
def FitsDirection (p : Peer) (m : Message) : Prop :=
  if IsConnector p then m.messageID = S2CMessage ∨ m.messageID = S2CGroupMessage
  else m.messageID = C2SMessage ∨ m.messageID = C2SGroupMessage

instance (p : Peer) (m : Message) : Decidable (FitsDirection p m) := by
  unfold FitsDirection
  infer_instance

/-- `ConnectSuccess` refuses the packet for its length, its content or its group. -/
def IsRefused (env : SessionManager.Env) (m : Message) (se : Session) (g : GroupSession) : Prop :=
  if m.messageID = C2SMessage then m.length ≠ 3 ∨ m.content 0 ≥ eMax
  else if m.messageID = S2CMessage then m.length ≠ 1 ∨ m.content 0 ≠ 0
  else if m.messageID = C2SGroupMessage then
    m.length ≠ 4 ∨ m.content 0 ≥ eMax ∨
      (g.addGroupSession (m.content 0) (contentID m) m.channelID (m.content 3)).1 < -1
  else if m.messageID = S2CGroupMessage then
    m.length ≠ 1 ∨ m.content 0 ≠ 0 ∨ ∃ conf ∈ env.context.getConnConfig se.config,
      (g.addGroupSession conf.remote_type_ conf.remote_id_ m.channelID conf.group_count).1 < 0
  else True

instance (env : SessionManager.Env) (m : Message) (se : Session) (g : GroupSession) :
    Decidable (IsRefused env m se g) := by
  unfold IsRefused
  infer_instance

/-- The identity that belongs to the direction of a session: a connection has that of its configuration,
after a packet of a server; the peer of a listener has that of its own packet. -/
def HasIdentity (env : SessionManager.Env) (p : Peer) (m : Message) : Prop :=
  if IsConnector p then
    (m.messageID = S2CMessage ∨ m.messageID = S2CGroupMessage) ∧
      ∃ conf, env.context.getConnConfig (p.flag / 65536).toNat = some conf ∧
        p.remoteID = conf.remote_id_ ∧ p.remoteType = conf.remote_type_
  else
    (m.messageID = C2SMessage ∨ m.messageID = C2SGroupMessage) ∧ p.remoteType = m.content 0 ∧
      p.remoteID = if m.messageID = C2SMessage then clientID m else contentID m

/-- The connection packet that a step hands to `ConnectSuccess`, and the session that it is for. -/
def packet (env : Env) (s : Network) (a : Label) : Option (ℕ × Message) :=
  (taken env s a).bind fun e =>
    if e.2.messageType = ConnMessage then (s.mgr.timeOutSe[e.2.channelID]?).map (·, e.2) else none

/-- Those of a run. -/
def packets (env : Env) : Network → List Label → List (ℕ × Message)
  | _, [] => []
  | s, a :: l => (packet env s a).toList ++
    match s.step env a with
    | none => []
    | some s' => packets env s' l

/-- The packet of a step fits the direction of its session, or is refused anyway. -/
def Directed (env : Env) (s : Network) (a : Label) : Prop :=
  ∀ e ∈ packet env s a, FitsDirection (s.mgr.object e.1).toPeer e.2 ∨
    IsRefused env.mgr e.2 (s.mgr.object e.1) s.mgr.groups

instance (env : Env) (s : Network) (a : Label) : Decidable (Directed env s a) := by
  unfold Directed
  infer_instance

/-! ### The flag -/

theorem shiftLeft_or (a : ℕ) {b : ℕ} (h : b < 256) : a <<< 8 ||| b = a * 256 + b := by
  rw [← Nat.shiftLeft_add_eq_or_of_lt (i := 8) h, Nat.shiftLeft_eq]

theorem toNat_index (index loop : UInt8) :
    ((index.toUInt16 <<< 8) ||| loop.toUInt16).toNat = index.toNat * 256 + loop.toNat := by
  have hi := index.toNat_lt
  have h8 : (8 : UInt16).toNat % 16 = 8 := rfl
  rw [UInt16.toNat_or, UInt16.toNat_shiftLeft, UInt8.toNat_toUInt16, UInt8.toNat_toUInt16, h8,
    Nat.mod_eq_of_lt, shiftLeft_or _ loop.toNat_lt]
  rw [Nat.shiftLeft_eq]
  omega

/-- A session that `ReadCommd` makes has in its flag what it was made for: whether it is a connection, and
the index of its configuration. -/
theorem flag_readCommd {env : SessionManager.Env} {s s' : SessionMgr} {sock now : ℤ} {addr : Inet_Addr}
    {index type : UInt8} (h : s.readCommd env sock addr index type now = some s') :
    s'.made = s.made ∨ s'.made = s.made + 1 ∧
      (s'.object s.made).flag % 256 = type.toNat ∧ (s'.object s.made).config = index.toNat := by
  obtain ⟨config, -, h⟩ := Option.bind_eq_some_iff.mp h
  cases h
  unfold addTimerSessionEx
  split
  case isTrue => exact Or.inl rfl
  case isFalse =>
  split
  case isFalse => exact Or.inl rfl
  case isTrue =>
  split
  case h_1 => exact Or.inl rfl
  case h_2 =>
    have ht := type.toNat_lt
    have hl := (UInt8.ofNat (loopOf env sock)).toNat_lt
    refine Or.inr ⟨rfl, ?_⟩
    rw [if_pos rfl]
    dsimp only
    rw [Function.update_self]
    dsimp only [SessionManager.Session.new, SessionManager.Session.config]
    rw [shiftLeft_or _ ht, toNat_index]
    omega

/-! ### What `ConnectSuccess` makes of a packet -/

section

variable {env : SessionManager.Env} {m m' : Message} {se se' : Session} {g g' : GroupSession} {res : NetWorkRet}

theorem identifyC2S_eq (h : identifyC2S m se g = (res, m', se', g')) :
    res = .eConMessageErr ∨
      ¬ (m.length ≠ 3 ∨ m.content 0 ≥ eMax) ∧ se' = se.setRemote (clientID m) (m.content 0) := by
  unfold identifyC2S at h
  split at h
  case isTrue =>
    cases h
    exact Or.inl rfl
  case isFalse hl =>
  dsimp only at h
  split at h
  case isTrue =>
    cases h
    exact Or.inl rfl
  case isFalse ht =>
    cases h
    exact Or.inr ⟨not_or.mpr ⟨hl, ht⟩, rfl⟩

theorem identifyS2C_eq (h : identifyS2C env m se g = some (res, m', se', g')) :
    res = .eConMessageErr ∨
      ¬ (m.length ≠ 1 ∨ m.content 0 ≠ 0) ∧ ∃ conf, env.context.getConnConfig se.config = some conf ∧
        se' = se.setRemote conf.remote_id_ conf.remote_type_ := by
  unfold identifyS2C at h
  split_ifs at h with hl hc
  · cases h
    exact Or.inl rfl
  · cases h
    exact Or.inl rfl
  · obtain ⟨conf, hconf, h⟩ := Option.bind_eq_some_iff.mp h
    cases h
    exact Or.inr ⟨not_or.mpr ⟨hl, hc⟩, conf, hconf, rfl⟩

theorem identifyC2SGroup_eq (h : identifyC2SGroup m se g = (res, m', se', g')) :
    res = .eConMessageErr ∨
      ¬ (m.length ≠ 4 ∨ m.content 0 ≥ eMax ∨
        (g.addGroupSession (m.content 0) (contentID m) m.channelID (m.content 3)).1 < -1) ∧
      ∃ group, se' = { se.setRemote (contentID m) (m.content 0) with groupID := group } := by
  unfold identifyC2SGroup at h
  split at h
  case isTrue =>
    cases h
    exact Or.inl rfl
  case isFalse hl =>
  dsimp only at h
  split at h
  case isTrue =>
    cases h
    exact Or.inl rfl
  case isFalse ht =>
  split at h
  case isTrue =>
    cases h
    exact Or.inl rfl
  case isFalse hn =>
    cases h
    exact Or.inr ⟨not_or.mpr ⟨hl, not_or.mpr ⟨ht, hn⟩⟩, _, rfl⟩

theorem identifyS2CGroup_eq (h : identifyS2CGroup env m se g = some (res, m', se', g')) :
    res = .eConMessageErr ∨
      ¬ (m.length ≠ 1 ∨ m.content 0 ≠ 0 ∨ ∃ conf ∈ env.context.getConnConfig se.config,
        (g.addGroupSession conf.remote_type_ conf.remote_id_ m.channelID conf.group_count).1 < 0) ∧
      ∃ conf group, env.context.getConnConfig se.config = some conf ∧
        se' = { se.setRemote conf.remote_id_ conf.remote_type_ with groupID := group } := by
  unfold identifyS2CGroup at h
  split at h
  case isTrue =>
    cases h
    exact Or.inl rfl
  case isFalse hl =>
  split at h
  case isTrue =>
    cases h
    exact Or.inl rfl
  case isFalse hc =>
    obtain ⟨conf, hconf, h⟩ := Option.bind_eq_some_iff.mp h
    dsimp only at h
    split at h
    case isTrue =>
      cases h
      exact Or.inl rfl
    case isFalse hn =>
      cases h
      refine Or.inr ⟨not_or.mpr ⟨hl, not_or.mpr ⟨hc, ?_⟩⟩, conf, _, hconf, rfl⟩
      rintro ⟨conf', hconf', hn'⟩
      rw [hconf] at hconf'
      cases hconf'
      exact hn hn'

theorem identify_refused (h : identify env m se g = some (res, m', se', g')) (hr : IsRefused env m se g) :
    res = .eConMessageErr := by
  unfold identify at h
  unfold IsRefused at hr
  split_ifs at h hr
  · exact (identifyC2S_eq (Option.some.inj h)).resolve_right fun hn => hn.1 hr
  · exact (identifyS2C_eq h).resolve_right fun hn => hn.1 hr
  · exact (identifyC2SGroup_eq (Option.some.inj h)).resolve_right fun hn => hn.1 hr
  · exact (identifyS2CGroup_eq h).resolve_right fun hn => hn.1 hr
  · cases h
    rfl

/-- **A packet that fits the direction of a session gives it the identity that belongs to it.** -/
theorem identify_fits (h : identify env m se g = some (res, m', se', g')) (hres : res ≠ .eConMessageErr)
    (hfits : FitsDirection se.toPeer m) : HasIdentity env se'.toPeer m := by
  unfold identify at h
  unfold FitsDirection at hfits
  unfold HasIdentity
  split_ifs at h with h1 h2 h3 h4
  · obtain ⟨-, rfl⟩ := (identifyC2S_eq (Option.some.inj h)).resolve_left hres
    by_cases hc : IsConnector se.toPeer
    · rw [if_pos hc, h1] at hfits
      exact absurd hfits (by decide)
    · exact (if_neg hc).mpr ⟨Or.inl h1, rfl, (if_pos h1).symm⟩
  · obtain ⟨-, conf, hconf, rfl⟩ := (identifyS2C_eq h).resolve_left hres
    by_cases hc : IsConnector se.toPeer
    · exact (if_pos hc).mpr ⟨Or.inl h2, conf, hconf, rfl, rfl⟩
    · rw [if_neg hc, h2] at hfits
      exact absurd hfits (by decide)
  · obtain ⟨-, group, rfl⟩ := (identifyC2SGroup_eq (Option.some.inj h)).resolve_left hres
    by_cases hc : IsConnector se.toPeer
    · rw [if_pos hc, h3] at hfits
      exact absurd hfits (by decide)
    · exact (if_neg hc).mpr ⟨Or.inr h3, rfl, (if_neg h1).symm⟩
  · obtain ⟨-, conf, group, hconf, rfl⟩ := (identifyS2CGroup_eq h).resolve_left hres
    by_cases hc : IsConnector se.toPeer
    · exact (if_pos hc).mpr ⟨Or.inr h4, conf, hconf, rfl, rfl⟩
    · rw [if_neg hc, h4] at hfits
      exact absurd hfits (by decide)
  · cases h
    exact absurd rfl hres

end

/-! ### Sessions that are promoted -/

/-- No session is promoted, and what is known of those that have been is left as it is. -/
structure Calm (s s' : SessionMgr) : Prop where
  promoted : s'.promoted = s.promoted
  peer : ∀ o ∈ s.promoted, (s'.object o).toPeer = (s.object o).toPeer

section

variable {env : SessionManager.Env} {s s' s₁ : SessionMgr}

theorem Calm.trans (h : Calm s s₁) (h' : Calm s₁ s') : Calm s s' where
  promoted := h'.promoted.trans h.promoted
  peer o ho := (h'.peer o (h.promoted ▸ ho)).trans (h.peer o ho)

theorem calm_of_eq (hp : s'.promoted = s.promoted) (ho : s'.object = s.object) : Calm s s' :=
  ⟨hp, fun _ _ => ho ▸ rfl⟩

theorem calm_received (o : ℕ) {se : SessionRecv.Session} (hpeer : se.toPeer = (s.object o).toPeer) :
    Calm s (received s o se) :=
  ⟨rfl, fun i _ => peer_received s o hpeer i⟩

theorem calm_sameBooks (h : SameBooks s s') : Calm s s' :=
  ⟨h.promoted, fun o _ => congrArg (·.toPeer) (h.object o)⟩

theorem calm_deleteSession (fd : ℤ) : Calm s (s.deleteSession fd) := by
  rcases deleteSession_cases (s := s) fd with ⟨o, -, he⟩ | ⟨o, -, -, he⟩ | ⟨-, -, he⟩
  all_goals
    rw [he]
    exact calm_of_eq rfl rfl

theorem calm_deleteSessionEx {fd err : ℤ} (h : s.deleteSessionEx env fd err = some s') : Calm s s' := by
  rcases deleteSessionEx_cases h with ⟨o, -, rfl⟩ | hb
  · exact calm_of_eq rfl rfl
  · exact calm_sameBooks hb

/-- Only `ConnectSuccess` promotes a session. -/
theorem calm_step (hb : Books [] s) {a : SessionManager.Label} (ha : ∀ m ctl, a ≠ .connectSuccess m ctl)
    (h : s.step env a = some s') : Calm s s' := by
  cases a with
  | accept sock =>
    dsimp only [SessionMgr.step] at h
    split_ifs at h
    cases h
    exact calm_of_eq rfl rfl
  | addTimerSessionEx sock addr index type now =>
    dsimp only [SessionMgr.step] at h
    split_ifs at h with harr
    have ht := (hb.arriving sock harr).2.1
    rcases readCommd_cases (s := { s with arriving := s.arriving.erase sock }) ht h with
      rfl | ⟨flag, security, time, rfl⟩
    · exact calm_of_eq rfl rfl
    · refine ⟨rfl, fun o ho => ?_⟩
      dsimp only [added]
      rw [Function.update_of_ne (hb.promoted o ho).ne]
  | connectSuccess m ctl => exact absurd rfl (ha m ctl)
  | deleteSession fd =>
    cases h
    exact calm_deleteSession fd
  | deleteSessionEx fd err => exact calm_deleteSessionEx h
  | tick loop nowTime =>
    cases h
    have hf := (books_tick env loop nowTime hb).2.1
    exact calm_of_eq hf.promoted hf.object

theorem calm_after {res : NetWorkRet} {m : Message} (h : After res m s s') : Calm s s' := by
  cases h with
  | refused => exact calm_deleteSession _
  | built => exact calm_of_eq rfl rfl
  | joined => exact calm_of_eq rfl rfl

/-- What has been promoted has the identity of a packet in the history. -/
def Known (env : SessionManager.Env) (s : SessionMgr) (hist : List (ℕ × Message)) : Prop :=
  ∀ o ∈ s.promoted, ∃ m, (o, m) ∈ hist ∧ HasIdentity env (s.object o).toPeer m

theorem Known.calm {hist : List (ℕ × Message)} (h : Known env s hist) (hc : Calm s s')
    (new : List (ℕ × Message)) : Known env s' (hist ++ new) := by
  intro o ho
  rw [hc.promoted] at ho
  obtain ⟨m, hm, hid⟩ := h o ho
  refine ⟨m, List.mem_append_left new hm, ?_⟩
  rw [hc.peer o ho]
  exact hid

/-- `ConnectSuccess` with a packet that fits the direction of its session. -/
theorem known_connectSuccess {hist : List (ℕ × Message)} {m m' : Message} {ctl : Bool} {res : NetWorkRet}
    (hb : Books [] s) (h : Known env s hist)
    (hfits : ∀ o, s.timeOutSe[m.channelID]? = some o →
      FitsDirection (s.object o).toPeer m ∨ IsRefused env m (s.object o) s.groups)
    (hc : s.connectSuccess env m ctl = some (res, m', s')) :
    Known env s' (hist ++ ((s.timeOutSe[m.channelID]?).map (·, m)).toList) := by
  rcases connectSuccess_cases hc with ⟨-, -, rfl⟩ | ⟨o, m'', se, g, ht, hid, -, hres⟩
  · exact h.calm (calm_of_eq rfl rfl) _
  obtain ⟨-, -, -, hnot⟩ := hb.timed _ o ht
  rcases hres with ⟨-, rfl⟩ | ⟨hne, hsame⟩
  · have hcalm : Calm s { s.setObject o se with groups := g } := by
      refine ⟨rfl, fun i hi => ?_⟩
      have hio : i ≠ o := fun heq => hnot (heq ▸ hi)
      dsimp only [SessionMgr.setObject]
      rw [Function.update_of_ne hio]
    exact h.calm hcalm _
  · have hnew : HasIdentity env se.toPeer m :=
      identify_fits hid hne ((hfits o ht).resolve_right fun hr => hne (identify_refused hid hr))
    have hobj (i : ℕ) : (s'.object i).toPeer = (Function.update s.object o se i).toPeer :=
      congrArg (·.toPeer) (hsame.object i)
    intro i hi
    rw [hsame.promoted] at hi
    rw [ht, hobj]
    rcases List.mem_append.mp hi with hi | hi
    · have hio : i ≠ o := fun heq => hnot (heq ▸ hi)
      obtain ⟨mi, hmi, hident⟩ := h i hi
      rw [Function.update_of_ne hio]
      exact ⟨mi, List.mem_append_left _ hmi, hident⟩
    · rw [List.mem_singleton.mp hi, Function.update_self]
      exact ⟨m, List.mem_append_right _ (List.mem_singleton.mpr rfl), hnew⟩

end

/-! ### Runs -/

section

variable {env : Env} {s s' : Network}

theorem known_step {hist : List (ℕ × Message)} {a : Label} (hb : Books [] s.mgr)
    (h : Known env.mgr s.mgr hist) (ha : Directed env s a) (hs : s.step env a = some s') :
    Known env.mgr s'.mgr (hist ++ (packet env s a).toList) := by
  have hmoved := step_moved hs
  generalize s'.mgr = mgr at hmoved ⊢
  cases hmoved with
  | same => exact h.calm (calm_of_eq rfl rfl) _
  | recv o se hpeer => exact h.calm (calm_received o hpeer) _
  | manager hb' hm => exact h.calm (calm_step hb hb' hm) _
  | close o se hpeer hd => exact h.calm ((calm_received o hpeer).trans (calm_deleteSessionEx hd)) _
  | packet o se se' ht hm hpeer hc hafter hpeer' =>
    rename_i mgr₁ mgr₂ res m m' ctl
    have hpacket : packet env s a = (s.mgr.timeOutSe[m.channelID]?).map (·, m) := by
      unfold packet
      rw [ht, Option.bind_some]
      exact if_pos hm
    have hknown := h.calm (calm_received o hpeer) []
    rw [List.append_nil] at hknown
    have hconn := known_connectSuccess (books_received hb o hpeer) hknown (fun i hi => ?_) hc
    · have hcalm := (calm_after hafter).trans (calm_received o hpeer')
      have hlast := hconn.calm hcalm []
      rw [List.append_nil] at hlast
      rw [hpacket]
      exact hlast
    · have hpeer_i := peer_received s.mgr o hpeer i
      rcases ha (i, m) (by rw [hpacket, show s.mgr.timeOutSe[m.channelID]? = some i from hi]; rfl) with hf | hr
      · left
        rw [hpeer_i]
        exact hf
      · right
        unfold IsRefused SessionManager.Session.config at hr ⊢
        rw [hpeer_i]
        exact hr

/-- **A session that is promoted has the identity that belongs to its direction.** In every run in which no
packet of the wrong direction comes that `ConnectSuccess` does not refuse anyway, a session of a listener
has been promoted by a packet of a client, and has the type and the id in it; and a session of a connection
by one of a server, and has those of its configuration. -/
theorem promoted_directed {object : ℕ → Session} {clock : ℕ → ℤ × Int32} {heap : ℕ → Message}
    {sessions : DispatchMessage.Sessions} {l : List Label}
    (h : run (Network.step env) (.new object clock heap sessions) l = some s)
    (hd : Along (Network.step env) (Directed env) (.new object clock heap sessions) l) :
    Known env.mgr s.mgr (packets env (.new object clock heap sessions) l) := by
  have hrun (l : List Label) : ∀ (s₀ : Network) (hist : List (ℕ × Message)), Books [] s₀.mgr →
      Known env.mgr s₀.mgr hist → Along (Network.step env) (Directed env) s₀ l →
      run (Network.step env) s₀ l = some s → Known env.mgr s.mgr (hist ++ packets env s₀ l) := by
    induction l with
    | nil =>
      rintro s₀ hist - hk - ⟨⟩
      exact hk.calm (calm_of_eq rfl rfl) _
    | cons a l ih =>
      intro s₀ hist hb hk hd h
      obtain ⟨s₁, h₁, h⟩ := run_cons_some.mp h
      have hk₁ := known_step hb hk hd.1 h₁
      have hlast := ih s₁ _ (books_moved hb (step_moved h₁)) hk₁ (hd.2 s₁ h₁) h
      rw [packets, h₁, ← List.append_assoc]
      exact hlast
  exact hrun l _ [] (books_new object clock) (fun o ho => absurd ho List.not_mem_nil) hd h

end

/-- A gate that also makes a connection, to the database. -/
def dbNet : Env :=
  { gateNet with
    mgr := { gateEnv with
      context := { gateEnv.context with
        connAdded := [{
          local_id_ := 1, local_type_ := 1, channel_keep_time_ := 3000, remote_id_ := 9
          remote_type_ := eDBServer }] } } }

/-- A server sends its connection packet. -/
theorem promoted_directed_client :
    ∃ s, run (Network.step dbNet) quiet (sent [frame C2SMessage ConnMessage [2, 7, 0]] 1) = some s ∧
      s.mgr.promoted = [0] ∧
      Known dbNet.mgr s.mgr (packets dbNet quiet (sent [frame C2SMessage ConnMessage [2, 7, 0]] 1)) := by
  obtain ⟨s, hs⟩ := Option.isSome_iff_exists.mp (by decide +kernel :
    (run (Network.step dbNet) quiet (sent [frame C2SMessage ConnMessage [2, 7, 0]] 1)).isSome)
  refine ⟨s, hs, ?_, promoted_directed hs (by decide +kernel)⟩
  cases hs
  decide +kernel

/-- A peer that has connected to the listener sends the packet of a server, and is the database. -/
theorem promoted_undirected :
    ∃ s, run (Network.step dbNet) quiet (sent [frame S2CMessage ConnMessage [0]] 1) = some s ∧
      s.mgr.promoted = [0] ∧ ¬ IsConnector (s.mgr.object 0).toPeer ∧
      (s.mgr.object 0).remoteID = 9 ∧ (s.mgr.object 0).remoteType = eDBServer ∧
      ¬ Known dbNet.mgr s.mgr (packets dbNet quiet (sent [frame S2CMessage ConnMessage [0]] 1)) := by
  obtain ⟨s, hs⟩ := Option.isSome_iff_exists.mp (by decide +kernel :
    (run (Network.step dbNet) quiet (sent [frame S2CMessage ConnMessage [0]] 1)).isSome)
  have hpackets : (packets dbNet quiet (sent [frame S2CMessage ConnMessage [0]] 1)).map
      (fun e => (e.1, e.2.messageID)) = [(0, S2CMessage)] := by decide +kernel
  have hstate : s.mgr.promoted = [0] ∧ ¬ IsConnector (s.mgr.object 0).toPeer ∧
      (s.mgr.object 0).remoteID = 9 ∧ (s.mgr.object 0).remoteType = eDBServer := by
    cases hs
    decide +kernel
  obtain ⟨hpromoted, hlistener, hid, htype⟩ := hstate
  refine ⟨s, hs, hpromoted, hlistener, hid, htype, fun hk => ?_⟩
  obtain ⟨m, hm, hident⟩ := hk 0 (by rw [hpromoted]; exact List.mem_cons_self)
  have hmem := List.mem_map_of_mem (f := fun e : ℕ × Message => (e.1, e.2.messageID)) hm
  rw [hpackets, List.mem_singleton] at hmem
  have hserver : m.messageID = S2CMessage := (Prod.ext_iff.mp hmem).2
  unfold HasIdentity at hident
  rw [if_neg hlistener, hserver] at hident
  exact absurd hident.1 (by decide)

end ChatShow.CommBase.Direction
