import ChatShow.CommBase.FramesTaken

/-! # What the network does to the managers

A step of the network takes a step of the managers, or changes what a session has received, or closes a
session from `Recv`, or hands a connection packet to `ConnectSuccess` (`step_moved`). So the books stay
in order in every run of the network, too (`books_network`). -/

namespace ChatShow.CommBase.NetworkMoves

open ChatShow.CommBase.NetWorkConfig ChatShow.CommBase.MessageManager ChatShow.CommBase.NetContext
open ChatShow.CommBase.EpollMain ChatShow.CommBase.FramesTaken ChatShow.CommBase.SessionBooks
open ChatShow.CommBase.SessionManager (SessionMgr)
open ChatShow.CommBase.DispatchMessage (Received)
open ChatShow.Lib.Runs

/-- What the session `o` has received is changed. -/
def received (mgr : SessionMgr) (o : ℕ) (se : SessionRecv.Session) : SessionMgr :=
  mgr.setObject o { mgr.object o with toSession := se }

/-- What `AddMessage` does behind `ConnectSuccess`. -/
inductive After (res : NetWorkRet) (message : Message) (mgr : SessionMgr) : SessionMgr → Prop
  | refused (h : res ≠ .eNetSuccess ∧ res ≠ .eGroupContinue) :
    After res message mgr (mgr.deleteSession message.channelID)
  | built (fd : ℤ) (addr : Inet_Addr) (h : res = .eNetSuccess) :
    After res message mgr (mgr.systemErr fd message.localID message.localType message.remoteID
      message.remoteType 0 addr)
  | joined (h : res = .eGroupContinue) : After res message mgr mgr

/-- What a step does to the managers. -/
inductive Moved (env : Env) (s : Network) : Label → SessionMgr → Prop
  | same {a : Label} : Moved env s a s.mgr
  | recv {a : Label} (o : ℕ) (se : SessionRecv.Session) (hpeer : se.toPeer = (s.mgr.object o).toPeer) :
    Moved env s a (received s.mgr o se)
  | manager {b : SessionManager.Label} {mgr : SessionMgr} (hb : ∀ m ctl, b ≠ .connectSuccess m ctl)
    (h : s.mgr.step env.mgr b = some mgr) : Moved env s (.manager b) mgr
  | close {a : Label} {mgr : SessionMgr} (o : ℕ) (se : SessionRecv.Session)
    (hpeer : se.toPeer = (s.mgr.object o).toPeer)
    (h : (received s.mgr o se).deleteSessionEx env.mgr (s.mgr.object o).accSock
      NetWorkRet.eSocketClose.code = some mgr) : Moved env s a mgr
  | packet {a : Label} {mgr mgr' : SessionMgr} {res : NetWorkRet} {m m' : Message} {ctl : Bool} (o : ℕ)
    (se se' : SessionRecv.Session) (ht : taken env s a = some (o, m))
    (hm : m.messageType = ConnMessage) (hpeer : se.toPeer = (s.mgr.object o).toPeer)
    (h : (received s.mgr o se).connectSuccess env.mgr m ctl = some (res, m', mgr))
    (hafter : After res m' mgr mgr') (hpeer' : se'.toPeer = (mgr'.object o).toPeer) :
    Moved env s a (received mgr' o se')

section

variable {env : Env} {s s' s₁ : Network}

theorem received_self (mgr : SessionMgr) (o : ℕ) : received mgr o (mgr.object o).toSession = mgr := by
  unfold received SessionMgr.setObject
  rw [Function.update_eq_self]

theorem mgr_tell (mgr : SessionMgr) : (s.tell env mgr).mgr = mgr := by
  unfold Network.tell
  exact foldl_keep (f := fun (s : Network) (con : SystemMessageCon) =>
    s.push env con.channel.toInt [⟨systemErr env.mgr.block con, rfl⟩]) Network.mgr (fun _ _ => rfl)
    { s with mgr := mgr } (mgr.events.drop s.mgr.events.length)

theorem mgr_close {loop o : ℕ} (h : s.close env loop o = some s') :
    s.mgr.deleteSessionEx env.mgr (s.mgr.object o).accSock NetWorkRet.eSocketClose.code =
      some s'.mgr := by
  obtain ⟨mgr, hd, h⟩ := Option.bind_eq_some_iff.mp h
  cases h
  rw [hd]
  exact congrArg some (mgr_tell mgr).symm

/-- `AddMessage` calls `ConnectSuccess` for a connection packet only. -/
theorem mgr_addMessage {o : ℕ} {m : Message} {ctl : Bool} {ret : ℤ}
    (h : s.addMessage env o m ctl = some (ret, s')) :
    s' = s ∨ m.messageType = ConnMessage ∧ ∃ res m' mgr,
      s.mgr.connectSuccess env.mgr m ctl = some (res, m', mgr) ∧ After res m' mgr s'.mgr := by
  unfold Network.addMessage at h
  split at h
  case isFalse =>
    cases h
    exact Or.inl rfl
  case isTrue hm =>
    obtain ⟨⟨res, m', mgr⟩, hc, h⟩ := Option.bind_eq_some_iff.mp h
    refine Or.inr ⟨hm, res, m', mgr, hc, ?_⟩
    dsimp only at h
    split at h
    case isTrue hres =>
      cases h
      rw [mgr_tell]
      exact .refused hres
    case isFalse hres =>
    split at h
    case isTrue hg =>
      cases h
      rw [mgr_tell, mgr_tell]
      exact .built _ _ (not_not.mp fun hne => hres ⟨hne, hg⟩)
    case isFalse hg =>
      cases h
      rw [mgr_tell]
      exact .joined (not_not.mp hg)

/-- A turn of `Recv(vec)`. -/
theorem moved_turn {loop : ℕ} {block : ℕ → UInt8} {ctl : Bool}
    (h : s.turn env loop block ctl = some s') : Moved env s (.turn loop block ctl) s'.mgr := by
  unfold Network.turn at h
  split at h
  case h_2 => cases h
  case h_1 o vec tmpHead nLeftSize last hr =>
  obtain ⟨f, hf, h⟩ := Option.bind_eq_some_iff.mp h
  cases f with
  | rest =>
    cases h
    refine .recv o _ ?_
    unfold SessionRecv.Session.keepRest
    split <;> rfl
  | refused =>
    dsimp only at h
    split at h
    case isTrue =>
      have hclose := mgr_close h
      exact .close o (s.mgr.object o).toSession rfl (by rw [received_self]; exact hclose)
    case isFalse =>
      cases h
      exact .recv o _ rfl
  | packet head =>
    obtain ⟨m, hm, h⟩ := Option.bind_eq_some_iff.mp h
    obtain ⟨⟨messages, s₁⟩, hrec, h⟩ := Option.bind_eq_some_iff.mp h
    have htaken : taken env s (.turn loop block ctl) = m.map fun m => (o, m.1) :=
      taken_packet hr hf hm
    -- what the turn does at its end
    have hend : ∃ se' : SessionRecv.Session, se'.toPeer = (s₁.mgr.object o).toPeer ∧
        s'.mgr = received s₁.mgr o se' := by
      dsimp only at h
      split at h
      case isTrue =>
        cases h
        exact ⟨{ (s₁.mgr.object o).toSession with dwRecvPos := 0 }, rfl, rfl⟩
      case isFalse =>
        cases h
        exact ⟨_, rfl, (received_self s₁.mgr o).symm⟩
    obtain ⟨se', hpeer', hs'⟩ := hend
    rw [hs']
    have hsame (hs₁ : s₁.mgr = received s.mgr o
        { (s.mgr.object o).toSession with recvCount := (s.mgr.object o).recvCount + 1 }) :
        Moved env s (.turn loop block ctl) (received s₁.mgr o se') := by
      rw [hs₁] at hpeer' ⊢
      unfold received SessionMgr.setObject at hpeer' ⊢
      dsimp only at hpeer' ⊢
      rw [Function.update_self] at hpeer' ⊢
      rw [Function.update_idem]
      exact .recv o se' hpeer'
    cases m with
    | none =>
      cases hrec
      exact hsame rfl
    | some m =>
      obtain ⟨⟨ret, s₂⟩, hadd, hrec⟩ := Option.bind_eq_some_iff.mp hrec
      cases hrec
      rcases mgr_addMessage hadd with rfl | ⟨hconn, res, m', mgr, hc, hafter⟩
      · exact hsame rfl
      · exact .packet o { (s.mgr.object o).toSession with recvCount := (s.mgr.object o).recvCount + 1 } se'
          htaken hconn rfl hc hafter hpeer'

/-- **What a step does to the managers.** -/
theorem step_moved {a : Label} (h : s.step env a = some s') : Moved env s a s'.mgr := by
  cases a with
  | manager b =>
    dsimp only [Network.step] at h
    split at h
    case h_1 => cases h
    case h_2 hb =>
      obtain ⟨mgr, hm, rfl⟩ := Option.map_eq_some_iff.mp h
      rw [mgr_tell]
      exact .manager hb hm
  | epoll loop fd =>
    dsimp only [Network.step] at h
    split at h
    case h_1 =>
      cases h
      exact .same
    case h_2 => cases h
  | recv loop ret =>
    dsimp only [Network.step, Network.recv] at h
    split at h
    case h_2 => cases h
    case h_1 o vec hr =>
    split at h
    case h_1 =>
      have hclose := mgr_close h
      exact .close o (s.mgr.object o).toSession rfl (by rw [received_self]; exact hclose)
    case h_2 bytes =>
      split at h
      case isTrue => cases h
      case isFalse =>
        cases h
        exact .recv o _ rfl
    case h_3 =>
      cases h
      exact .same
  | turn loop block ctl => exact moved_turn h
  | hand loop now =>
    dsimp only [Network.step, Network.hand] at h
    split at h
    case h_2 => cases h
    case h_1 o vec hr =>
    have hpeer : ((s.mgr.object o).toSession.packageCount now).2.toPeer = (s.mgr.object o).toPeer := by
      unfold SessionRecv.Session.packageCount
      split_ifs <;> rfl
    split at h
    case isTrue =>
      have hclose := mgr_close h
      refine .close o _ hpeer ?_
      dsimp only [Network.setRecv, Network.push, SessionMgr.setObject] at hclose
      rw [Function.update_self] at hclose
      dsimp only at hclose
      rw [hpeer] at hclose
      exact hclose
    case isFalse =>
      cases h
      exact .recv o _ hpeer
  | dispatcher i b =>
    dsimp only [Network.step] at h
    split at h
    case h_1 => cases h
    case h_2 =>
      obtain ⟨d, -, rfl⟩ := Option.map_eq_some_iff.mp h
      exact .same

/-! ### The books -/

theorem peer_received (mgr : SessionMgr) (o : ℕ) {se : SessionRecv.Session}
    (hpeer : se.toPeer = (mgr.object o).toPeer) (i : ℕ) :
    ((received mgr o se).object i).toPeer = (mgr.object i).toPeer := by
  unfold received SessionMgr.setObject
  by_cases hi : i = o
  · subst hi
    dsimp only
    rw [Function.update_self]
    exact hpeer
  · dsimp only
    rw [Function.update_of_ne hi]

/-- What has been received does not matter to the books. -/
theorem books_received {mgr : SessionMgr} (h : Books [] mgr) (o : ℕ) {se : SessionRecv.Session}
    (hpeer : se.toPeer = (mgr.object o).toPeer) : Books [] (received mgr o se) := by
  have hsock (i : ℕ) : ((received mgr o se).object i).accSock = (mgr.object i).accSock :=
    congrArg (·.accSock) (peer_received mgr o hpeer i)
  constructor
  · exact h.keys
  · exact h.apart
  · intro fd i hfd
    obtain ⟨hacc, hrest⟩ := h.timed fd i hfd
    exact ⟨(hsock i).trans hacc, hrest⟩
  · intro fd i hfd
    obtain ⟨hacc, hrest⟩ := h.sock fd i hfd
    exact ⟨(hsock i).trans hacc, hrest⟩
  · exact h.arriving
  · exact h.nodup
  · exact h.promoted

theorem books_after {res : NetWorkRet} {m : Message} {mgr mgr' : SessionMgr} (h : Books [] mgr)
    (ha : After res m mgr mgr') : Books [] mgr' := by
  cases ha with
  | refused => exact books_deleteSession _ h
  | built => exact h.sameBooks (.systemErr ..)
  | joined => exact h

theorem books_moved {a : Label} {mgr : SessionMgr} (h : Books [] s.mgr) (hm : Moved env s a mgr) :
    Books [] mgr := by
  cases hm with
  | same => exact h
  | recv o se hpeer => exact books_received h o hpeer
  | manager hb hs => exact books_step h hs
  | close o se hpeer hd => exact books_deleteSessionEx (books_received h o hpeer) hd
  | packet o se se' ht hm hpeer hc hafter hpeer' =>
    exact books_received (books_after (books_connectSuccess (books_received h o hpeer) hc) hafter) o hpeer'

/-- **The books are in order in every run of the network.** -/
theorem books_network {object : ℕ → SessionManager.Session} {clock : ℕ → ℤ × Int32} {heap : ℕ → Message}
    {sessions : DispatchMessage.Sessions} {l : List Label}
    (h : run (Network.step env) (.new object clock heap sessions) l = some s) : Books [] s.mgr :=
  run_inv (P := fun s => Books [] s.mgr) (fun _ _ _ hs h => books_moved hs (step_moved h)) h
    (books_new object clock)

end

end ChatShow.CommBase.NetworkMoves
