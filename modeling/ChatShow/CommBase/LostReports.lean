import ChatShow.CommBase.EventLoop

/-! # Lost channels are reported

A loop that closes a session in `m_session` makes a message for `on_channel_error` of it, and takes its
descriptor out of the epoll set, so that no later event is of this session. But an event may close it in two
of its branches, and `AddMessage` closes a session without a message where a connection packet comes once
more. Where neither happens, every session that the loops have closed has been reported, once, and no other
session has (`ended_reported`). -/

namespace ChatShow.CommBase.LostReports

open ChatShow.CommBase.NetWorkConfig ChatShow.CommBase.MessageManager ChatShow.CommBase.NetContext
open ChatShow.CommBase.Groups ChatShow.CommBase.SessionBooks ChatShow.CommBase.EventLoop
open ChatShow.CommBase.SessionManager (Env SessionMgr Session gateEnv anyAddr)
open ChatShow.CommBase.SessionManager.SessionMgr
open ChatShow.Lib.Maps ChatShow.Lib.Runs Std

/-! ### What the managers do -/

/-- The session `o` stands at the descriptor. -/
def Present (s : SessionMgr) (fd : ℤ) (o : ℕ) : Prop :=
  s.timeOutSe[fd]? = some o ∨ s.session[fd]? = some o

/-- The event does not lead to `on_channel_error`. -/
def IsSilent (con : SystemMessageCon) : Prop := systemErrID con.err.toInt ≠ eConnErrMessage

/-- What the managers may do but for an error of a channel. A session leaves the maps only when its
descriptor is closed. -/
structure Effect (s s' : SessionMgr) : Prop where
  made : s.made ≤ s'.made
  sock : ∀ o < s.made, (s'.object o).accSock = (s.object o).accSock
  arriving : ∀ fd ∈ s'.arriving, fd ∈ s.arriving ∨ 0 ≤ fd
  promoted : s.promoted ⊆ s'.promoted
  session : ∀ (fd : ℤ) o, s'.session[fd]? = some o →
    s.session[fd]? = some o ∨ o ∉ s.promoted ∧ o ∈ s'.promoted
  present : ∀ fd o, Present s' fd o → Present s fd o ∨ 0 ≤ fd ∧ fd < MAX_EPOLL_EVENT
  stays : ∀ fd o, Present s fd o → s'.fds fd = true → Present s' fd o
  ptr : ∀ (fd : ℤ) o, s'.epollPtr[fd]? = some o →
    s.epollPtr[fd]? = some o ∨ o < s'.made ∧ (s'.object o).accSock = fd
  events : ∃ new, s'.events = s.events ++ new ∧ ∀ con ∈ new, IsSilent con

section

variable {env : Env} {s s' s₁ : SessionMgr}

theorem events_nil (h : s'.events = s.events) :
    ∃ new, s'.events = s.events ++ new ∧ ∀ con ∈ new, IsSilent con :=
  ⟨[], h.trans (List.append_nil _).symm, fun _ hc => absurd hc List.not_mem_nil⟩

theorem Effect.rfl : Effect s s where
  made := le_rfl
  sock _ _ := Eq.refl _
  arriving _ h := Or.inl h
  promoted := List.Subset.refl _
  session _ _ h := Or.inl h
  present _ _ h := Or.inl h
  stays _ _ h _ := h
  ptr _ _ h := Or.inl h
  events := events_nil (Eq.refl _)

/-- What does not open a descriptor may come behind. -/
theorem Effect.trans (h : Effect s s₁) (h' : Effect s₁ s')
    (hopen : ∀ fd, s'.fds fd = true → s₁.fds fd = true) : Effect s s' where
  made := h.made.trans h'.made
  sock o ho := (h'.sock o (ho.trans_le h.made)).trans (h.sock o ho)
  arriving fd hfd := (h'.arriving fd hfd).elim (h.arriving fd) Or.inr
  promoted := List.Subset.trans h.promoted h'.promoted
  session fd o hfd := by
    rcases h'.session fd o hfd with hfd | ⟨hnot, hin⟩
    · exact (h.session fd o hfd).imp_right fun hp => ⟨hp.1, h'.promoted hp.2⟩
    · exact Or.inr ⟨fun hp => hnot (h.promoted hp), hin⟩
  present fd o hfd := (h'.present fd o hfd).elim (h.present fd o) Or.inr
  stays fd o hfd hf := h'.stays fd o (h.stays fd o hfd (hopen fd hf)) hf
  ptr fd o hfd := by
    rcases h'.ptr fd o hfd with hfd | hnew
    · rcases h.ptr fd o hfd with hold | ⟨hlt, hsock⟩
      · exact Or.inl hold
      · exact Or.inr ⟨hlt.trans_le h'.made, (h'.sock o hlt).trans hsock⟩
    · exact Or.inr hnew
  events := by
    obtain ⟨new, heq, hnew⟩ := h.events
    obtain ⟨new', heq', hnew'⟩ := h'.events
    refine ⟨new ++ new', by rw [heq', heq, List.append_assoc], fun con hc => ?_⟩
    exact (List.mem_append.mp hc).elim (hnew con) (hnew' con)

/-- Where only events, send buffers and the like change. -/
theorem effect_sameBooks (h : SameBooks s s') (hptr : s'.epollPtr = s.epollPtr)
    (he : ∃ new, s'.events = s.events ++ new ∧ ∀ con ∈ new, IsSilent con) : Effect s s' where
  made := h.made.ge
  sock o _ := congrArg (·.accSock) (h.object o)
  arriving fd hfd := Or.inl (h.arriving ▸ hfd)
  promoted := h.promoted ▸ List.Subset.refl _
  session fd o hfd := Or.inl (h.session ▸ hfd)
  present fd o hfd := by
    unfold Present at hfd ⊢
    rw [h.timeOutSe, h.session] at hfd
    exact Or.inl hfd
  stays fd o hfd _ := by
    unfold Present at hfd ⊢
    rw [h.timeOutSe, h.session]
    exact hfd
  ptr fd o hfd := Or.inl (hptr ▸ hfd)
  events := he

/-- What holds of the managers. -/
structure Fit (s : SessionMgr) : Prop where
  books : Books [] s
  range : ∀ fd o, Present s fd o → 0 ≤ fd ∧ fd < MAX_EPOLL_EVENT
  arriving : ∀ fd ∈ s.arriving, 0 ≤ fd
  promoted : ∀ (fd : ℤ) o, s.session[fd]? = some o → o ∈ s.promoted
  ptr : ∀ (fd : ℤ) o, s.epollPtr[fd]? = some o → o < s.made ∧ (s.object o).accSock = fd

theorem Fit.effect (h : Fit s) (hb : Books [] s') (he : Effect s s') : Fit s' where
  books := hb
  range fd o hfd := (he.present fd o hfd).elim (h.range fd o) id
  arriving fd hfd := (he.arriving fd hfd).elim (h.arriving fd) id
  promoted fd o hfd := (he.session fd o hfd).elim (fun hs => he.promoted (h.promoted fd o hs)) And.right
  ptr fd o hfd := by
    rcases he.ptr fd o hfd with hold | hnew
    · obtain ⟨hlt, hsock⟩ := h.ptr fd o hold
      exact ⟨hlt.trans_le he.made, (he.sock o hlt).trans hsock⟩
    · exact hnew

/-! ### Each of the steps -/

theorem effect_accept {sock : ℤ} (hf : s.fds sock = false) (h0 : 0 ≤ sock) :
    Effect s { s with fds := Function.update s.fds sock true, arriving := sock :: s.arriving } :=
  { Effect.rfl (s := s) with
    arriving := fun fd hfd => by
      rcases List.mem_cons.mp hfd with rfl | hfd
      · exact Or.inr h0
      · exact Or.inl hfd
    stays := fun _ _ h _ => h }

theorem effect_closed {sock : ℤ} :
    Effect s { s with arriving := s.arriving.erase sock, fds := Function.update s.fds sock false } :=
  { Effect.rfl (s := s) with
    arriving := fun _ hfd => Or.inl (List.mem_of_mem_erase hfd)
    stays := fun _ _ h _ => h }

theorem effect_added {sock time : ℤ} {se : Session} (hb : Books [] s) (ha : sock ∈ s.arriving)
    (h0 : 0 ≤ sock) (hmax : sock < MAX_EPOLL_EVENT) (hse : se.accSock = sock) :
    Effect s (added { s with arriving := s.arriving.erase sock } sock se time) where
  made := Nat.le_succ _
  sock o ho := by
    dsimp only [added]
    rw [Function.update_of_ne ho.ne]
  arriving fd hfd := Or.inl (List.mem_of_mem_erase hfd)
  promoted := List.Subset.refl _
  session fd o hfd := Or.inl hfd
  present fd o hfd := by
    unfold Present added at hfd
    dsimp only at hfd
    rw [get_insert] at hfd
    by_cases hs : sock = fd
    · subst hs
      exact Or.inr ⟨h0, hmax⟩
    · rw [if_neg hs] at hfd
      exact Or.inl hfd
  stays fd o hfd _ := by
    obtain ⟨-, ht, hs⟩ := hb.arriving sock ha
    have hne : sock ≠ fd := by
      rintro rfl
      unfold Present at hfd
      rw [ht, hs] at hfd
      exact hfd.elim nofun nofun
    unfold Present added
    dsimp only
    rw [get_insert_of_ne _ _ hne]
    exact hfd
  ptr fd o hfd := by
    dsimp only [added] at hfd ⊢
    rw [get_insert] at hfd
    by_cases hs : sock = fd
    · subst hs
      rw [if_pos rfl] at hfd
      cases hfd
      rw [Function.update_self]
      exact Or.inr ⟨Nat.lt_succ_self _, hse⟩
    · rw [if_neg hs] at hfd
      exact Or.inl hfd
  events := events_nil rfl

theorem sock_lt {sock now : ℤ} {addr : Inet_Addr} {config : ChannelConfig} {index : UInt16} {type : UInt8}
    (h : (s.addTimerSessionEx env sock addr config index type now).1 = true) : sock < MAX_EPOLL_EVENT := by
  by_contra hmax
  unfold addTimerSessionEx at h
  rw [if_pos (Int.not_lt.mp hmax)] at h
  cases h

theorem effect_readCommd {sock now : ℤ} {addr : Inet_Addr} {index type : UInt8} (h : Fit s)
    (hs : s.step env (.addTimerSessionEx sock addr index type now) = some s') : Effect s s' := by
  dsimp only [SessionMgr.step] at hs
  split_ifs at hs with ha
  obtain ⟨config, -, hs⟩ := Option.bind_eq_some_iff.mp hs
  cases hs
  have hlt := @sock_lt env { s with arriving := s.arriving.erase sock } sock now addr config
    ((index.toUInt16 <<< 8) ||| (UInt8.ofNat (loopOf env sock)).toUInt16) type
  rcases @addTimerSessionEx_cases env { s with arriving := s.arriving.erase sock } sock
    (h.books.arriving sock ha).2.1 addr config
    ((index.toUInt16 <<< 8) ||| (UInt8.ofNat (loopOf env sock)).toUInt16) type now with
    hr | ⟨flag, time, hr⟩
  · rw [hr]
    exact effect_closed
  · rw [hr] at hlt ⊢
    exact effect_added h.books ha (h.arriving sock ha) (hlt rfl) rfl

theorem effect_forgotten {late : List ℤ} {fd : ℤ} {o : ℕ} (hb : Books late s)
    (ht : s.timeOutSe[fd]? = some o) : Effect s (forgotten s fd o) where
  made := le_rfl
  sock _ _ := rfl
  arriving _ hfd := Or.inl hfd
  promoted := List.Subset.refl _
  session _ _ hfd := Or.inl hfd
  present fd' i hfd := by
    unfold Present forgotten at hfd
    dsimp only at hfd
    rw [get_erase] at hfd
    refine Or.inl (hfd.imp_left fun hfd => ?_)
    split_ifs at hfd
    exact hfd
  stays fd' i hfd hopen := by
    have hne : fd ≠ fd' := by
      rintro rfl
      unfold forgotten closeSocket at hopen
      rw [(hb.timed fd o ht).1] at hopen
      dsimp only at hopen
      rw [Function.update_self] at hopen
      cases hopen
    unfold Present forgotten
    dsimp only
    rw [get_erase_of_ne _ hne]
    exact hfd
  ptr _ _ hfd := Or.inl hfd
  events := events_nil rfl

theorem effect_left {fd : ℤ} {o : ℕ} (hb : Books [] s) (hs : s.session[fd]? = some o) :
    Effect s (left s fd o) where
  made := le_rfl
  sock _ _ := rfl
  arriving _ hfd := Or.inl hfd
  promoted := List.Subset.refl _
  session fd' i hfd := by
    dsimp only [left] at hfd
    rw [get_erase] at hfd
    split_ifs at hfd
    exact Or.inl hfd
  present fd' i hfd := by
    unfold Present left at hfd
    dsimp only at hfd
    rw [get_erase] at hfd
    refine Or.inl (hfd.imp_right fun hfd => ?_)
    split_ifs at hfd
    exact hfd
  stays fd' i hfd hopen := by
    have hne : fd ≠ fd' := by
      rintro rfl
      unfold left closeSocket at hopen
      rw [(hb.sock fd o hs).1] at hopen
      dsimp only at hopen
      rw [Function.update_self] at hopen
      cases hopen
    unfold Present left
    dsimp only
    rw [get_erase_of_ne _ hne]
    exact hfd
  ptr _ _ hfd := Or.inl hfd
  events := events_nil rfl

theorem effect_deleteSession (hb : Books [] s) (fd : ℤ) : Effect s (s.deleteSession fd) := by
  rcases deleteSession_cases (s := s) fd with ⟨o, ht, he⟩ | ⟨o, -, hs, he⟩ | ⟨-, -, he⟩
  · rw [he]
    exact effect_forgotten hb ht
  · rw [he]
    exact effect_left hb hs
  · rw [he]
    exact .rfl

/-- What `DeleteSessionEx` tells `SystemErr`. -/
theorem deleteSessionEx_eq {fd err : ℤ} (h : s.deleteSessionEx env fd err = some s') :
    (∃ o, s.timeOutSe[fd]? = some o ∧ s' = forgotten s fd o) ∨
    (∃ o con, s.timeOutSe[fd]? = none ∧ s.session[fd]? = some o ∧ con.channel = Int32.ofInt fd ∧
      con.err = Int32.ofInt err ∧ s' = { s with events := s.events ++ [con] }) ∨
    (s.timeOutSe[fd]? = none ∧ s.session[fd]? = none ∧ s' = s) := by
  unfold deleteSessionEx at h
  rcases ht : s.timeOutSe[fd]? with _ | o
  · rw [ht] at h
    dsimp only at h
    rcases hs : s.session[fd]? with _ | o
    · rw [hs] at h
      cases h
      exact Or.inr (Or.inr ⟨rfl, rfl, rfl⟩)
    · rw [hs] at h
      obtain ⟨conf, -, h⟩ := Option.bind_eq_some_iff.mp h
      cases h
      exact Or.inr (Or.inl ⟨o, _, rfl, rfl, rfl, rfl, rfl⟩)
  · rw [ht] at h
    cases h
    exact Or.inl ⟨o, rfl, rfl⟩

theorem effect_event {con : SystemMessageCon} (hcon : IsSilent con) :
    Effect s { s with events := s.events ++ [con] } :=
  { Effect.rfl (s := s) with
    events := ⟨[con], rfl, fun _ hc => List.mem_singleton.mp hc ▸ hcon⟩
    stays := fun _ _ h _ => h }

/-- `DeleteSessionEx` where it tells no error of a channel. -/
theorem effect_deleteSessionEx (hb : Books [] s) {fd err : ℤ}
    (herr : ∀ o, s.session[fd]? = some o → systemErrID (Int32.ofInt err).toInt ≠ eConnErrMessage)
    (h : s.deleteSessionEx env fd err = some s') : Effect s s' := by
  rcases deleteSessionEx_eq h with ⟨o, ht, rfl⟩ | ⟨o, con, -, hs, -, hcon, rfl⟩ | ⟨-, -, rfl⟩
  · exact effect_forgotten hb ht
  · refine effect_event ?_
    unfold IsSilent
    rw [hcon]
    exact herr o hs
  · exact .rfl

/-! ### What else `ConnectSuccess` leaves as it is -/

/-- No session is made, and no error of a channel is told. -/
structure Quiet (s s' : SessionMgr) : Prop where
  ptr : s'.epollPtr = s.epollPtr
  events : ∃ new, s'.events = s.events ++ new ∧ ∀ con ∈ new, IsSilent con

theorem quiet_of_eq (hptr : s'.epollPtr = s.epollPtr) (he : s'.events = s.events) : Quiet s s' :=
  ⟨hptr, events_nil he⟩

/-- What `Write` does. -/
theorem write_cases {message : Message} {ctl : Bool} (h : s.write env message ctl = some s') :
    s' = s ∨ ∃ o se, se.accSock = (s.object o).accSock ∧ (s' = s.setObject o se ∨
      (s.setObject o se).deleteSessionEx env message.channelID NetWorkRet.eCtlEpollErr.code = some s') := by
  unfold write at h
  split at h
  case h_1 => exact Or.inl (Option.some.inj h).symm
  case h_2 o ho =>
    obtain ⟨m, -, h⟩ := Option.bind_eq_some_iff.mp h
    refine Or.inr ⟨o, { s.object o with
      bufSend := ((s.object o).bufSend.writeSend m.content m.getHead).2 }, rfl, ?_⟩
    dsimp only at h
    split at h
    case isTrue => exact Or.inr h
    case isFalse => exact Or.inl (Option.some.inj h).symm

theorem quiet_write {message : Message} {ctl : Bool} (h : s.write env message ctl = some s') :
    Quiet s s' := by
  obtain rfl | ⟨o, se, -, rfl | h⟩ := write_cases h
  · exact quiet_of_eq rfl rfl
  · exact quiet_of_eq rfl rfl
  · rcases deleteSessionEx_eq h with ⟨i, -, rfl⟩ | ⟨i, con, -, -, -, herr, rfl⟩ | ⟨-, -, rfl⟩
    · exact quiet_of_eq rfl rfl
    · refine ⟨rfl, [con], rfl, fun c hc => ?_⟩
      rw [List.mem_singleton.mp hc]
      unfold IsSilent
      rw [herr]
      decide
    · exact quiet_of_eq rfl rfl

theorem quiet_answer {se : Session} {message : Message} {ctl : Bool}
    (h : s.answer env se message ctl = some s') : Quiet s s' := by
  have hreply (id : UInt32) (hr : s.reply env se message.channelID id ctl = some s') : Quiet s s' := by
    obtain ⟨config, -, hr⟩ := Option.bind_eq_some_iff.mp hr
    obtain ⟨m, -, hr⟩ := Option.bind_eq_some_iff.mp hr
    exact quiet_write hr
  unfold answer at h
  split_ifs at h
  · exact hreply _ h
  · exact hreply _ h
  · cases h
    exact quiet_of_eq rfl rfl

theorem quiet_connectSuccess {message m' : Message} {ctl : Bool} {res : NetWorkRet}
    (h : s.connectSuccess env message ctl = some (res, m', s')) : Quiet s s' := by
  unfold connectSuccess at h
  split at h
  case h_1 =>
    cases h
    exact quiet_of_eq rfl rfl
  case h_2 o ht =>
    obtain ⟨⟨res', m'', se, g⟩, -, h⟩ := Option.bind_eq_some_iff.mp h
    dsimp only at h
    split at h
    case isTrue =>
      cases h
      exact quiet_of_eq rfl rfl
    case isFalse =>
      obtain ⟨s₁, h₁, h⟩ := Option.bind_eq_some_iff.mp h
      cases h
      have hq := quiet_answer h₁
      exact ⟨hq.ptr, hq.events⟩

theorem effect_setObject {o : ℕ} {se : Session} (g : GroupSession)
    (hse : se.accSock = (s.object o).accSock) : Effect s { s.setObject o se with groups := g } :=
  { Effect.rfl (s := s) with
    sock := fun i _ => by
      dsimp only [setObject]
      rcases eq_or_ne i o with rfl | hne
      · rw [Function.update_self, hse]
      · rw [Function.update_of_ne hne]
    stays := fun _ _ h _ => h
    ptr := fun _ _ h => Or.inl h }

theorem effect_established {fd : ℤ} {o : ℕ} {se : Session} {g : GroupSession} (hb : Books [] s)
    (ht : s.timeOutSe[fd]? = some o) (hse : se.accSock = (s.object o).accSock) :
    Effect s (established s fd o se g) := by
  obtain ⟨hacc, hlt, hopen, hnot⟩ := hb.timed fd o ht
  have hsock : se.accSock = fd := hse.trans hacc
  have hset := effect_setObject g hse
  refine { hset with
    promoted := List.subset_append_left _ _, session := ?_, present := ?_, stays := ?_, ptr := hset.ptr }
  · intro fd' i hfd
    dsimp only [established] at hfd
    rw [hsock, get_insert] at hfd
    split_ifs at hfd with he
    · cases hfd
      exact Or.inr ⟨hnot, List.mem_append_right _ (List.mem_singleton.mpr rfl)⟩
    · exact Or.inl hfd
  · intro fd' i hfd
    unfold Present established at hfd
    dsimp only at hfd
    rw [hsock, get_insert, get_erase] at hfd
    by_cases he : fd = fd'
    · subst he
      rw [if_pos rfl, if_pos rfl] at hfd
      refine Or.inl (Or.inl ?_)
      rw [ht]
      exact hfd.resolve_left nofun
    · rw [if_neg he, if_neg he] at hfd
      exact Or.inl hfd
  · intro fd' i hfd _
    unfold Present established
    dsimp only
    rw [hsock, get_insert, get_erase]
    by_cases he : fd = fd'
    · subst he
      rw [if_pos rfl, if_pos rfl]
      unfold Present at hfd
      rw [hb.apart fd (ht ▸ rfl), ht] at hfd
      exact Or.inr (hfd.resolve_right nofun)
    · rw [if_neg he, if_neg he]
      exact hfd

theorem effect_connectSuccess {message m' : Message} {ctl : Bool} {res : NetWorkRet} (hb : Books [] s)
    (h : s.connectSuccess env message ctl = some (res, m', s')) : Effect s s' := by
  obtain ⟨hptr, hevents⟩ := quiet_connectSuccess h
  rcases connectSuccess_cases h with ⟨-, -, rfl⟩ | ⟨o, m'', se, g, ht, -, hid, ⟨-, rfl⟩ | ⟨-, hsame⟩⟩
  · exact .rfl
  · exact effect_setObject g (accSock_identified hid)
  · have hest := effect_established (g := g) hb ht (accSock_identified hid)
    exact hest.trans (effect_sameBooks hsame hptr hevents) fun fd hfd => hsame.fds ▸ hfd

/-! ### Descriptors are only closed -/

theorem open_closeSocket {o : ℕ} {fd : ℤ} (h : (s.closeSocket o).fds fd = true) : s.fds fd = true := by
  dsimp only [closeSocket] at h
  rcases eq_or_ne fd (s.object o).accSock with rfl | hne
  · rw [Function.update_self] at h
    cases h
  · rwa [Function.update_of_ne hne] at h

theorem open_deleteSessionEx {fd err fd' : ℤ} (h : s.deleteSessionEx env fd err = some s')
    (hfd : s'.fds fd' = true) : s.fds fd' = true := by
  rcases deleteSessionEx_eq h with ⟨o, -, rfl⟩ | ⟨o, con, -, -, -, -, rfl⟩ | ⟨-, -, rfl⟩
  · exact open_closeSocket hfd
  · exact hfd
  · exact hfd

theorem open_deleteSession {fd fd' : ℤ} (h : (s.deleteSession fd).fds fd' = true) : s.fds fd' = true := by
  rcases deleteSession_cases (s := s) fd with ⟨o, -, he⟩ | ⟨o, -, -, he⟩ | ⟨-, -, he⟩
  · rw [he] at h
    exact open_closeSocket h
  · rw [he] at h
    exact open_closeSocket h
  · rwa [he] at h

theorem open_late {late : List ℤ} {fd : ℤ} (h : (late.foldl deleteSession s).fds fd = true) :
    s.fds fd = true := by
  induction late generalizing s with
  | nil => exact h
  | cons fd' late ih => exact open_deleteSession (ih h)

theorem effect_write (hb : Books [] s) {message : Message} {ctl : Bool}
    (h : s.write env message ctl = some s') : Books [] s' ∧ Effect s s' := by
  obtain rfl | ⟨o, se, hse, hs⟩ := write_cases h
  · exact ⟨hb, .rfl⟩
  · have hbooks : Books [] (s.setObject o se) := books_setObject (g := s.groups) hb hse
    have hset : Effect s (s.setObject o se) := effect_setObject s.groups hse
    rcases hs with rfl | hs
    · exact ⟨hbooks, hset⟩
    · refine ⟨books_deleteSessionEx hbooks hs, hset.trans ?_ fun fd hfd => open_deleteSessionEx hs hfd⟩
      exact effect_deleteSessionEx hbooks (fun _ _ => by decide) hs

/-- The sessions whose time has come go one after the other. -/
theorem effect_late {late : List ℤ} (hn : late.Nodup) (hb : Books late s) :
    Effect s (late.foldl deleteSession s) := by
  induction late generalizing s with
  | nil => exact .rfl
  | cons fd late ih =>
    obtain ⟨hnot, hn⟩ := List.nodup_cons.mp hn
    obtain ⟨o, ht⟩ := Option.isSome_iff_exists.mp ((hb.keys fd).mpr (Or.inr List.mem_cons_self))
    have he : s.deleteSession fd = forgotten s fd o := by
      rw [deleteSession, ht]
      rfl
    rw [List.foldl_cons, he]
    have hl : ∀ fd', fd' ∈ late ↔ fd' ∈ fd :: late ∧ fd ≠ fd' := by grind
    exact (effect_forgotten hb ht).trans (ih hn (books_forgotten hb ht hl)) fun _ hfd => open_late hfd

theorem effect_tick (hb : Books [] s) (loop : ℕ) (nowTime : ℤ) : Effect s (s.tick env loop nowTime) := by
  have hclock (clock : ℕ → ℤ × Int32) (timeout : TreeMap ℤ ℤ) :
      Effect s { s with clock := clock, timeout := timeout } :=
    { Effect.rfl (s := s) with stays := fun _ _ h _ => h }
  unfold tick
  dsimp only
  split_ifs
  · have hn : (s.expired env loop nowTime).Nodup := (nodup_keysOf _ _).filter _
    exact (hclock _ _).trans (effect_late hn (books_late _ hb fun _ hfd => mem_expired hfd))
      fun _ hfd => open_late hfd
  · exact hclock _ _

end

/-! ### What holds of the loops -/

/-- The session of an event that is gone through, and whether a branch has closed it. -/
def current : Stage → Option (ℕ × Bool)
  | .idle => none
  | .receiving o _ => some (o, false)
  | .sending o _ closed => some (o, closed)
  | .closing o _ closed => some (o, closed)

/-- The session in `m_session` at the descriptor, if there is one, has not been closed by a loop. -/
def Fresh (s : Loops) (fd : ℤ) : Prop := ∀ o, s.mgr.session[fd]? = some o → o ∉ s.ended

/-- A loop is in an event of the session `o`. -/
structure InEvent (env : Env) (s : Loops) (loop o : ℕ) (closed : Bool) : Prop where
  made : o < s.mgr.made
  ofLoop : loopOf env (s.mgr.object o).accSock = loop
  rest : (s.mgr.object o).accSock ∉ (s.batch loop).map Prod.fst
  fresh : closed = false → Fresh s (s.mgr.object o).accSock

/-- Each session that a loop has closed has been reported, and no event that is to come is of one of
them. -/
structure Good (env : Env) (s : Loops) : Prop where
  fit : Fit s.mgr
  promoted : s.ended ⊆ s.mgr.promoted
  reported : s.reports = s.ended
  nodup : s.ended.Nodup
  watched : ∀ fd, s.watched fd = true → ∃ o, Present s.mgr fd o ∧ o ∉ s.ended
  distinct : ∀ loop, ((s.batch loop).map Prod.fst).Nodup
  batch : ∀ loop, ∀ e ∈ s.batch loop, loopOf env e.1 = loop ∧ Fresh s e.1
  stage : ∀ loop o closed, current (s.stage loop) = some (o, closed) → InEvent env s loop o closed

section

variable {env : Env} {s s' : Loops} {mgr : SessionMgr} {loop o : ℕ} {closed : Bool}

theorem Present.accSock {m : SessionMgr} {fd : ℤ} (hb : Books [] m) (h : Present m fd o) :
    (m.object o).accSock = fd :=
  h.elim (fun h => (hb.timed fd o h).1) fun h => (hb.sock fd o h).1

theorem Fresh.effect {fd : ℤ} (h : Fresh s fd) (hp : s.ended ⊆ s.mgr.promoted) (he : Effect s.mgr mgr) :
    Fresh (s.note mgr) fd := by
  intro o ho
  rcases he.session fd o ho with hold | ⟨hnot, -⟩
  · exact h o hold
  · exact fun hm => hnot (hp hm)

/-- **What tells no error of a channel** keeps what holds of the loops. -/
theorem Good.note (h : Good env s) (hb : Books [] mgr) (he : Effect s.mgr mgr) : Good env (s.note mgr) where
  fit := h.fit.effect hb he
  promoted := List.Subset.trans h.promoted he.promoted
  reported := by
    obtain ⟨new, hevents, hnew⟩ := he.events
    have hnil : ((mgr.events.drop s.mgr.events.length).filterMap fun con =>
        if systemErrID con.err.toInt = eConnErrMessage then s.mgr.session[con.channel.toInt]? else none) =
        [] := by
      rw [hevents, List.drop_left, List.filterMap_eq_nil_iff]
      exact fun con hc => if_neg (hnew con hc)
    dsimp only [Loops.note]
    rw [hnil, List.append_nil]
    exact h.reported
  nodup := h.nodup
  watched fd hfd := by
    obtain ⟨hw, hopen⟩ := Bool.and_eq_true_iff.mp hfd
    obtain ⟨o, ho, hnot⟩ := h.watched fd hw
    exact ⟨o, he.stays fd o ho hopen, hnot⟩
  distinct := h.distinct
  batch loop e hm := ⟨(h.batch loop e hm).1, (h.batch loop e hm).2.effect h.promoted he⟩
  stage loop o closed hc := by
    obtain ⟨hmade, hloop, hrest, hfresh⟩ := h.stage loop o closed hc
    have hsock : (mgr.object o).accSock = (s.mgr.object o).accSock := he.sock o hmade
    refine ⟨hmade.trans_le he.made, ?_, ?_, fun hcl => ?_⟩
    · exact (congrArg (loopOf env) hsock).trans hloop
    · dsimp only [Loops.note]
      rwa [hsock]
    · have hf := (hfresh hcl).effect h.promoted he
      dsimp only [Loops.note] at hf ⊢
      rwa [hsock]

theorem Good.unwatch (h : Good env s) (fd : ℤ) : Good env (s.unwatch fd) :=
  { h with
    batch := h.batch
    stage := fun loop o closed hc =>
      ⟨(h.stage loop o closed hc).made, (h.stage loop o closed hc).ofLoop, (h.stage loop o closed hc).rest,
        (h.stage loop o closed hc).fresh⟩
    watched := fun fd' hfd => by
      dsimp only [Loops.unwatch] at hfd
      rcases eq_or_ne fd' fd with rfl | hne
      · rw [Function.update_self] at hfd
        cases hfd
      · rw [Function.update_of_ne hne] at hfd
        exact h.watched fd' hfd }

theorem Good.deleteChannel (h : Good env s) (fd : ℤ) : Good env (s.deleteChannel fd) :=
  (h.unwatch fd).note (books_deleteSession fd h.fit.books) (effect_deleteSession h.fit.books fd)

theorem Good.setStage (h : Good env s) {st : Stage}
    (hst : ∀ o closed, current st = some (o, closed) → InEvent env s loop o closed) :
    Good env (s.setStage loop st) :=
  { h with
    batch := h.batch
    stage := fun loop' o closed hc => by
      have hin : InEvent env s loop' o closed := by
        dsimp only [Loops.setStage] at hc
        rcases eq_or_ne loop' loop with rfl | hne
        · rw [Function.update_self] at hc
          exact hst o closed hc
        · rw [Function.update_of_ne hne] at hc
          exact h.stage loop' o closed hc
      exact ⟨hin.made, hin.ofLoop, hin.rest, hin.fresh⟩ }

/-- No other event is of the session at the descriptor. -/
def Alone (s : Loops) (fd : ℤ) : Prop :=
  (∀ loop, fd ∉ (s.batch loop).map Prod.fst) ∧
  ∀ loop o, current (s.stage loop) = some (o, false) → (s.mgr.object o).accSock ≠ fd

theorem toInt_ofInt {fd : ℤ} (h0 : 0 ≤ fd) (hmax : fd < MAX_EPOLL_EVENT) : (Int32.ofInt fd).toInt = fd := by
  unfold MAX_EPOLL_EVENT at hmax
  exact Int32.toInt_ofInt_of_le (by omega) (by omega)

/-- The session at a descriptor that no other event is of is closed and reported. -/
theorem Good.tells {fd : ℤ} {con : SystemMessageCon} (h : Good env s) (hf : s.mgr.session[fd]? = some o)
    (hfresh : Fresh s fd) (halone : Alone s fd) (hch : con.channel = Int32.ofInt fd)
    (hcon : systemErrID con.err.toInt = eConnErrMessage) :
    Good env (((s.ending fd).unwatch fd).note { s.mgr with events := s.mgr.events ++ [con] }) := by
  have hpresent : Present s.mgr fd o := Or.inr hf
  obtain ⟨h0, hmax⟩ := h.fit.range fd o hpresent
  have hsock := hpresent.accSock h.fit.books
  have hended : (s.ending fd).ended = s.ended ++ [o] := by
    unfold Loops.ending
    rw [hf]
    rfl
  -- what is at another descriptor is another session
  have hstill {fd' : ℤ} {o' : ℕ} (hp : Present s.mgr fd' o') (hne : fd' ≠ fd) (hnot : o' ∉ s.ended) :
      o' ∉ (s.ending fd).ended := by
    rw [hended, List.mem_append, List.mem_singleton]
    refine not_or.mpr ⟨hnot, ?_⟩
    rintro rfl
    exact hne ((hp.accSock h.fit.books).symm.trans hsock)
  constructor
  · exact { h.fit with books := { h.fit.books with } }
  · refine fun o' ho' => ?_
    rcases List.mem_append.mp (hended ▸ ho' : o' ∈ s.ended ++ [o]) with ho' | ho'
    · exact h.promoted ho'
    · rw [List.mem_singleton.mp ho']
      exact h.fit.promoted fd o hf
  · have hnew : ((s.mgr.events ++ [con]).drop s.mgr.events.length).filterMap (fun con =>
        if systemErrID con.err.toInt = eConnErrMessage then s.mgr.session[con.channel.toInt]? else none) =
        [o] := by
      rw [List.drop_left, List.filterMap_cons, if_pos hcon, hch, toInt_ofInt h0 hmax, hf]
      rfl
    exact (congrArg₂ (· ++ ·) h.reported hnew).trans hended.symm
  · have hnot := hfresh o hf
    refine hended.symm ▸ List.nodup_append.mpr ⟨h.nodup, List.pairwise_singleton _ o, ?_⟩
    rintro i hi j hj rfl
    exact hnot (List.mem_singleton.mp hj ▸ hi)
  · intro fd' hfd
    obtain ⟨hw, -⟩ := Bool.and_eq_true_iff.mp hfd
    dsimp only [Loops.unwatch, Loops.ending] at hw
    rcases eq_or_ne fd' fd with rfl | hne
    · rw [Function.update_self] at hw
      cases hw
    · rw [Function.update_of_ne hne] at hw
      obtain ⟨o', ho', hnot⟩ := h.watched fd' hw
      exact ⟨o', ho', hstill ho' hne hnot⟩
  · exact h.distinct
  · intro loop e he
    obtain ⟨hloop, hnot⟩ := h.batch loop e he
    have hne : e.1 ≠ fd := fun heq => halone.1 loop (List.mem_map.mpr ⟨e, he, heq⟩)
    exact ⟨hloop, fun o' ho' => hstill (Or.inr ho') hne (hnot o' ho')⟩
  · intro loop o' closed hc
    obtain ⟨hmade, hloop, hrest, hnot⟩ := h.stage loop o' closed hc
    refine ⟨hmade, hloop, hrest, ?_⟩
    rintro rfl i hi
    exact hstill (Or.inr hi) (halone.2 loop o' hc) (hnot rfl i hi)

theorem ending_none {fd : ℤ} (hf : s.mgr.session[fd]? = none) : s.ending fd = s := by
  unfold Loops.ending
  rw [hf, Option.toList_none, List.append_nil]

/-- Closing where there is no session in `m_session`. -/
theorem Good.closesNone {fd err : ℤ} (h : Good env s) (hf : s.mgr.session[fd]? = none)
    (hs : (s.ending fd).deleteChannelEx env fd err = some s') : Good env s' := by
  rw [ending_none hf] at hs
  obtain ⟨mgr, hd, rfl⟩ := Option.map_eq_some_iff.mp hs
  have he : Effect s.mgr mgr := effect_deleteSessionEx h.fit.books (fun o ho => by rw [hf] at ho; cases ho) hd
  exact (h.unwatch fd).note (books_deleteSessionEx h.fit.books hd) he

/-- **A loop closes a session that has not been closed**, and reports it. -/
theorem Good.closes {fd err : ℤ} (h : Good env s) (hfresh : Fresh s fd) (halone : Alone s fd)
    (herr : systemErrID (Int32.ofInt err).toInt = eConnErrMessage)
    (hs : (s.ending fd).deleteChannelEx env fd err = some s') : Good env s' := by
  rcases hf : s.mgr.session[fd]? with _ | o
  · exact h.closesNone hf hs
  · have ht : s.mgr.timeOutSe[fd]? = none := by
      rcases ht : s.mgr.timeOutSe[fd]? with _ | i
      · rfl
      · have hnone := h.fit.books.apart fd (ht ▸ rfl)
        rw [hf] at hnone
        cases hnone
    obtain ⟨mgr, hd, rfl⟩ := Option.map_eq_some_iff.mp hs
    have hd' : s.mgr.deleteSessionEx env fd err = some mgr := hd
    rcases deleteSessionEx_eq hd' with ⟨i, hi, -⟩ | ⟨i, con, -, -, hch, hcon, rfl⟩ | ⟨-, hnone, -⟩
    · rw [ht] at hi
      cases hi
    · exact h.tells hf hfresh halone hch (hcon ▸ herr)
    · rw [hf] at hnone
      cases hnone

/-! ### Each of the steps -/

theorem branch_setStage {close : Bool} {err : NetWorkRet} {st : Stage} :
    (s.setStage loop st).branch env o close err =
      (s.branch env o close err).map fun s' => s'.setStage loop st := by
  unfold Loops.branch Loops.deleteChannelEx
  split_ifs
  · rw [Option.map_map]
    rfl
  · rfl

/-- A branch of an event, which does not close what an earlier one has. -/
theorem Good.branch {close : Bool} {err : NetWorkRet} {st : Stage} (h : Good env s)
    (hc : current (s.stage loop) = some (o, closed))
    (honce : closed = true → close = true → s.mgr.session[(s.mgr.object o).accSock]? = none)
    (herr : systemErrID (Int32.ofInt err.code).toInt = eConnErrMessage)
    (hst : current st = none ∨ current st = some (o, closed || close))
    (hs : s.branch env o close err = some s') : Good env (s'.setStage loop st) := by
  have hin := h.stage loop o closed hc
  have hnext : Good env (s.setStage loop st) := by
    refine h.setStage fun o' closed' hc' => ?_
    rcases hst with hst | hst
    · rw [hst] at hc'
      cases hc'
    · rw [hst] at hc'
      cases hc'
      exact { hin with fresh := fun hf => hin.fresh (Bool.or_eq_false_iff.mp hf).1 }
  have hs' : (s.setStage loop st).branch env o close err = some (s'.setStage loop st) := by
    rw [branch_setStage, hs]
    rfl
  unfold Loops.branch at hs'
  split at hs'
  case isFalse => exact Option.some.inj hs' ▸ hnext
  case isTrue hclose =>
    cases hcl : closed with
    | true => exact hnext.closesNone (honce hcl hclose) hs'
    | false =>
      refine hnext.closes (hin.fresh hcl) ⟨fun loop' hm => ?_, fun loop' o' hc' heq => ?_⟩ herr hs'
      · -- an event of this session is of this loop
        obtain ⟨e, he, hfd⟩ := List.mem_map.mp hm
        have hloop := (h.batch loop' e he).1
        rw [hfd, hin.ofLoop] at hloop
        subst hloop
        exact hin.rest (List.mem_map.mpr ⟨e, he, hfd⟩)
      · have hloop := (hnext.stage loop' o' false hc').ofLoop
        rw [heq, hin.ofLoop] at hloop
        subst hloop
        dsimp only [Loops.setStage] at hc'
        rw [Function.update_self] at hc'
        rcases hst with hst | hst
        · rw [hst] at hc'
          cases hc'
        · rw [hst, hclose, Bool.or_true] at hc'
          cases hc'

/-- What the first part of `ConnectSuccess` may say of a packet. -/
def Answers (res : NetWorkRet) : Prop :=
  res = .eConMessageErr ∨ res = .eNetSuccess ∨ res = .eGroupContinue

theorem identify_answers {message : Message} {se : Session} {g : GroupSession}
    {r : SessionManager.SessionMgr.Identity} (h : identify env message se g = some r) : Answers r.1 := by
  have hrefuse : Answers (refuse message se g).1 := Or.inl rfl
  have hnet : Answers .eNetSuccess := Or.inr (Or.inl rfl)
  have hgroup : Answers .eGroupContinue := Or.inr (Or.inr rfl)
  unfold identify at h
  split_ifs at h
  · cases h
    unfold identifyC2S
    dsimp only
    split_ifs
    · exact hrefuse
    · exact hrefuse
    · exact hnet
  · unfold identifyS2C at h
    split_ifs at h
    · cases h
      exact hrefuse
    · cases h
      exact hrefuse
    · obtain ⟨conf, -, h⟩ := Option.bind_eq_some_iff.mp h
      cases h
      exact hnet
  · cases h
    unfold identifyC2SGroup
    dsimp only
    split_ifs
    · exact hrefuse
    · exact hrefuse
    · exact hrefuse
    · exact hnet
    · exact hgroup
  · unfold identifyS2CGroup at h
    split_ifs at h
    · cases h
      exact hrefuse
    · cases h
      exact hrefuse
    · obtain ⟨conf, -, h⟩ := Option.bind_eq_some_iff.mp h
      dsimp only at h
      split_ifs at h
      · cases h
        exact hrefuse
      · cases h
        exact hnet
      · cases h
        exact hgroup
  · cases h
    exact hrefuse

theorem connectSuccess_channel {m : SessionMgr} {message m' : Message} {ctl : Bool} {res : NetWorkRet}
    (h : m.connectSuccess env message ctl = some (res, m', mgr)) : m'.channelID = message.channelID := by
  unfold connectSuccess at h
  split at h
  case h_1 =>
    cases h
    rfl
  case h_2 o ht =>
    obtain ⟨⟨res', m'', se, g⟩, hi, h⟩ := Option.bind_eq_some_iff.mp h
    have hch := (identify_cases hi).2
    dsimp only at h
    split at h
    case isTrue =>
      cases h
      exact hch
    case isFalse =>
      obtain ⟨s₁, -, h⟩ := Option.bind_eq_some_iff.mp h
      cases h
      exact hch

/-- `AddMessage` closes no session in `m_session` where there was none at the descriptor. -/
theorem connectSuccess_none {m : SessionMgr} {message m' : Message} {ctl : Bool} {res : NetWorkRet}
    (hf : m.session[message.channelID]? = none) (hres : res ≠ .eNetSuccess ∧ res ≠ .eGroupContinue)
    (h : m.connectSuccess env message ctl = some (res, m', mgr)) : mgr.session[m'.channelID]? = none := by
  rw [connectSuccess_channel h]
  rcases connectSuccess_cases h with ⟨-, -, rfl⟩ | ⟨o, m'', se, g, -, hi, -, ⟨-, rfl⟩ | ⟨hne, -⟩⟩
  · exact hf
  · exact hf
  · rcases identify_answers hi with he | he | he
    · exact absurd he hne
    · exact absurd he hres.1
    · exact absurd he hres.2

theorem Good.addMessage {message : Message} (h : Good env s) (hf : s.mgr.session[message.channelID]? = none)
    (hs : s.addMessage env o message = some s') : Good env s' := by
  obtain ⟨⟨res, m', mgr⟩, hc, hs⟩ := Option.bind_eq_some_iff.mp hs
  have hb := books_connectSuccess h.fit.books hc
  have hnote := h.note hb (effect_connectSuccess h.fit.books hc)
  dsimp only at hs
  split at hs
  case isTrue hres =>
    cases hs
    rw [ending_none (connectSuccess_none hf hres hc)]
    exact hnote.deleteChannel _
  case isFalse =>
    split at hs
    case isTrue =>
      cases hs
      have hsilent (con : SystemMessageCon) (hcon : con.err = 0) : IsSilent con := by
        unfold IsSilent
        rw [hcon]
        decide
      exact hnote.note { hb with } (effect_event (hsilent _ rfl))
    case isFalse =>
      cases hs
      exact hnote

/-- The session that a branch of an event closes, where an earlier branch has closed it. -/
def closedTwice (s : Loops) : Label → Option ℕ
  | .sent loop close =>
    match s.stage loop with
    | .sending o mask true => if mask.epollout && close then some o else none
    | _ => none
  | .hungUp loop =>
    match s.stage loop with
    | .closing o mask true => if mask.hangs || !mask.exe then some o else none
    | _ => none
  | _ => none

def connPacket : Label → Option Message
  | .packet _ message => some message
  | _ => none

/-- A connection packet comes on a session that still waits for it, and no session in `m_session` is closed
by two branches of an event. -/
def Once (s : Loops) (a : Label) : Prop :=
  (∀ message ∈ connPacket a, s.mgr.session[message.channelID]? = none) ∧
  ∀ o ∈ closedTwice s a, s.mgr.session[(s.mgr.object o).accSock]? = none

instance (s : Loops) (a : Label) : Decidable (Once s a) := inferInstanceAs (Decidable (_ ∧ _))

theorem Good.wait {events : List (ℤ × Mask)} (h : Good env s) (hs : s.wait env loop events = some s') :
    Good env s' := by
  unfold Loops.wait at hs
  split at hs
  case h_1 hst hbatch =>
    split_ifs at hs with hev
    cases hs
    refine { h with distinct := fun loop' => ?_, batch := fun loop' e he => ?_, stage := fun loop' o closed hc => ?_ }
    · dsimp only
      rcases eq_or_ne loop' loop with rfl | hne
      · rw [Function.update_self]
        exact hev.2
      · rw [Function.update_of_ne hne]
        exact h.distinct loop'
    · dsimp only at he
      rcases eq_or_ne loop' loop with rfl | hne
      · rw [Function.update_self] at he
        obtain ⟨hw, hloop⟩ := hev.1 e he
        obtain ⟨o, ho, hnot⟩ := h.watched e.1 hw
        refine ⟨hloop, fun o' ho' => ?_⟩
        rcases ho with ht | ho
        · have hnone := h.fit.books.apart e.1 (ht ▸ rfl)
          have ho' : s.mgr.session[e.1]? = some o' := ho'
          rw [hnone] at ho'
          cases ho'
        · cases ho.symm.trans ho'
          exact hnot
      · rw [Function.update_of_ne hne] at he
        exact h.batch loop' e he
    · obtain ⟨hmade, hloop, hrest, hfresh⟩ := h.stage loop' o closed hc
      refine ⟨hmade, hloop, ?_, hfresh⟩
      have hne : loop' ≠ loop := by
        rintro rfl
        dsimp only at hc
        rw [hst] at hc
        cases hc
      dsimp only
      rwa [Function.update_of_ne hne]
  case h_2 => cases hs

theorem Good.next (h : Good env s) (hs : s.next loop = some s') : Good env s' := by
  unfold Loops.next at hs
  split at hs
  case h_1 fd mask rest hst hbatch =>
    have hnodup := h.distinct loop
    rw [hbatch, List.map_cons, List.nodup_cons] at hnodup
    have hdrop : Good env { s with batch := Function.update s.batch loop rest } := by
      refine { h with distinct := fun loop' => ?_, batch := fun loop' e he => ?_, stage := fun loop' o closed hc => ?_ }
      · dsimp only
        rcases eq_or_ne loop' loop with rfl | hne
        · rw [Function.update_self]
          exact hnodup.2
        · rw [Function.update_of_ne hne]
          exact h.distinct loop'
      · refine h.batch loop' e ?_
        dsimp only at he
        rcases eq_or_ne loop' loop with rfl | hne
        · rw [Function.update_self] at he
          rw [hbatch]
          exact List.mem_cons_of_mem _ he
        · rwa [Function.update_of_ne hne] at he
      · obtain ⟨hmade, hloop, hrest, hfresh⟩ := h.stage loop' o closed hc
        refine ⟨hmade, hloop, ?_, hfresh⟩
        have hne : loop' ≠ loop := by
          rintro rfl
          dsimp only at hc
          rw [hst] at hc
          cases hc
        dsimp only
        rwa [Function.update_of_ne hne]
    dsimp only at hs
    split at hs
    case h_1 =>
      cases hs
      exact hdrop
    case h_2 o ho =>
      cases hs
      refine hdrop.setStage fun o' closed hc => ?_
      obtain ⟨hloop, hfresh⟩ := h.batch loop (fd, mask) (hbatch ▸ List.mem_cons_self)
      obtain ⟨hmade, hsock⟩ := h.fit.ptr fd o ho
      have hcur : some (o, false) = some (o', closed) := by
        rw [← hc]
        split_ifs <;> rfl
      cases hcur
      subst hsock
      refine ⟨hmade, hloop, ?_, fun _ => hfresh⟩
      dsimp only
      rw [Function.update_self]
      exact hnodup.1
  case h_2 => cases hs

theorem Good.readCommd {sock now : ℤ} {addr : Inet_Addr} {index type : UInt8} {ctl : Bool}
    (h : Good env s) (hs : s.step env (.readCommd sock addr index type now ctl) = some s') : Good env s' := by
  dsimp only [Loops.step] at hs
  split at hs
  case isFalse => cases hs
  case isTrue =>
    obtain ⟨mgr, hr, hs⟩ := Option.bind_eq_some_iff.mp hs
    have hb := books_step h.fit.books hr
    have hnote := h.note hb (effect_readCommd h.fit hr)
    split at hs
    case isFalse =>
      cases hs
      exact hnote
    case isTrue hin =>
      split at hs
      case isFalse =>
        cases hs
        exact hnote.note (books_deleteSession sock hb) (effect_deleteSession hb sock)
      case isTrue =>
        cases hs
        refine { hnote with
          batch := hnote.batch
          watched := fun fd hfd => ?_
          stage := fun loop o closed hc =>
            ⟨(hnote.stage loop o closed hc).made, (hnote.stage loop o closed hc).ofLoop,
              (hnote.stage loop o closed hc).rest, (hnote.stage loop o closed hc).fresh⟩ }
        dsimp only at hfd
        rcases eq_or_ne fd sock with rfl | hne
        · obtain ⟨o, ho⟩ := Option.isSome_iff_exists.mp hin
          exact ⟨o, Or.inl ho, fun hm => (hb.timed fd o ho).2.2.2 (hnote.promoted hm)⟩
        · rw [Function.update_of_ne hne] at hfd
          exact hnote.watched fd hfd

/-- **A step keeps what holds of the loops**, where no session is closed without a report or twice. -/
theorem Good.step {a : Label} (h : Good env s) (honce : Once s a) (hs : s.step env a = some s') :
    Good env s' := by
  cases a with
  | accept sock =>
    obtain ⟨mgr, hm, rfl⟩ := Option.map_eq_some_iff.mp hs
    refine h.note (books_step h.fit.books hm) ?_
    dsimp only [SessionMgr.step] at hm
    split_ifs at hm with hno
    cases hm
    obtain ⟨hf, h0⟩ := not_or.mp hno
    exact effect_accept (Bool.eq_false_iff.mpr hf) (Int.not_lt.mp h0)
  | readCommd sock addr index type now ctl => exact h.readCommd hs
  | tick loop nowTime =>
    dsimp only [Loops.step] at hs
    split_ifs at hs
    cases hs
    exact h.note (books_tick env loop nowTime h.fit.books).1 (effect_tick h.fit.books loop nowTime)
  | closeChannel fd =>
    cases hs
    exact h.deleteChannel fd
  | write message =>
    obtain ⟨mgr, hm, rfl⟩ := Option.map_eq_some_iff.mp hs
    exact h.note (effect_write h.fit.books hm).1 (effect_write h.fit.books hm).2
  | epollWait loop events => exact h.wait hs
  | next loop => exact h.next hs
  | packet loop message =>
    dsimp only [Loops.step] at hs
    split at hs
    case h_1 =>
      split at hs
      case isTrue => exact h.addMessage (honce.1 message rfl) hs
      case isFalse => cases hs
    case h_2 => cases hs
  | received loop close =>
    dsimp only [Loops.step] at hs
    split at hs
    case h_1 o mask hst =>
      obtain ⟨s₁, hb, hs⟩ := Option.bind_eq_some_iff.mp hs
      cases hs
      refine @Good.branch env s s₁ loop o false close .eSocketClose _ h (hst ▸ rfl) ?_ (by decide) ?_ hb
      · exact fun hf => absurd hf Bool.false_ne_true
      · exact Or.inr rfl
    case h_2 => cases hs
  | sent loop close =>
    dsimp only [Loops.step] at hs
    split at hs
    case h_1 o mask closed hst =>
      obtain ⟨s₁, hb, hs⟩ := Option.bind_eq_some_iff.mp hs
      cases hs
      refine @Good.branch env s s₁ loop o closed _ _ _ h (hst ▸ rfl) ?_ (by decide) (Or.inr rfl) hb
      rintro rfl hclose
      refine honce.2 o ?_
      dsimp only [closedTwice]
      rw [hst]
      exact if_pos hclose
    case h_2 => cases hs
  | hungUp loop =>
    dsimp only [Loops.step] at hs
    split at hs
    case h_1 o mask closed hst =>
      obtain ⟨s₁, hb, hs⟩ := Option.bind_eq_some_iff.mp hs
      cases hs
      refine @Good.branch env s s₁ loop o closed _ _ _ h (hst ▸ rfl) ?_ ?_ (Or.inl rfl) hb
      · rintro rfl hclose
        refine honce.2 o ?_
        dsimp only [closedTwice]
        rw [hst]
        exact if_pos hclose
      · split_ifs <;> decide
    case h_2 => cases hs

end

/-! ### A run -/

variable {env : Env}

theorem good_new (object : ℕ → Session) (clock : ℕ → ℤ × Int32) : Good env (Loops.new object clock) where
  fit :=
    { books := books_new object clock
      range := fun fd o h => by
        unfold Present at h
        simp [Loops.new, SessionMgr.new] at h
      arriving := fun fd h => absurd h List.not_mem_nil
      promoted := fun fd o h => by simp [Loops.new, SessionMgr.new] at h
      ptr := fun fd o h => by simp [Loops.new, SessionMgr.new] at h }
  promoted := List.nil_subset _
  reported := rfl
  nodup := List.nodup_nil
  watched _ h := absurd h Bool.false_ne_true
  distinct _ := List.nodup_nil
  batch _ _ h := absurd h List.not_mem_nil
  stage _ _ _ h := nomatch h

/-- **Each session that the loops close is reported exactly once, and no other is**, in every run in which
none is closed by a second connection packet or by two branches of one event. -/
theorem ended_reported {object : ℕ → Session} {clock : ℕ → ℤ × Int32} {l : List Label} {s : Loops}
    (h : run (Loops.step env) (Loops.new object clock) l = some s)
    (honce : Along (Loops.step env) Once (Loops.new object clock) l) (o : ℕ) :
    s.reports.count o = if o ∈ s.ended then 1 else 0 := by
  have hgood : Good env s := run_inv_along (Q := fun _ => True) (fun s a s' hg _ ho hs => hg.step ho hs) h
    (fun _ _ => trivial) honce (good_new object clock)
  rw [hgood.reported]
  exact hgood.nodup.count

/-- The connection packet of a server. -/
def hello : Message :=
  { content := fun i => if i = 0 then 2 else 0
    length := 3
    messageID := C2SMessage
    messageType := ConnMessage
    channelID := 5 }

/-- Loops without a session. -/
def noLoops : Loops := .new (fun _ => Session.new (fun _ => 0) 0 0 anyAddr false) fun _ => (0, 0)

/-- A server connects, and the loop reads its connection packet. -/
def promoting : List Label :=
  [.accept 5, .readCommd 5 anyAddr 0 eAcceptEpoll 0 true, .epollWait 0 [(5, { epollin := true })], .next 0,
    .packet 0 hello]

/-- The rest of the event, and another one with the bits `mask`. -/
def another (mask : Mask) : List Label :=
  [.received 0 false, .sent 0 false, .hungUp 0, .epollWait 0 [(5, mask)], .next 0]

/-- The connection is closed, and another one gets its descriptor. -/
def reusing : List Label :=
  [.closeChannel 5, .accept 5, .readCommd 5 anyAddr 0 eAcceptEpoll 0 true,
    .epollWait 0 [(5, { epollin := true })], .next 0, .packet 0 hello]

/-- The peer closes the connection. -/
theorem ended_reported_hungUp :
    ∃ s, run (Loops.step gateEnv) noLoops (promoting ++ another { epollin := true, epollrdhup := true } ++
        [.sent 0 false, .hungUp 0] ++ reusing) = some s ∧
      s.ended = [0] ∧ s.mgr.promoted = [0, 1] ∧ s.reports.count 0 = 1 ∧ s.reports.count 1 = 0 := by
  obtain ⟨s, hs⟩ := Option.isSome_iff_exists.mp (by decide +kernel :
    (run (Loops.step gateEnv) noLoops (promoting ++ another { epollin := true, epollrdhup := true } ++
      [.sent 0 false, .hungUp 0] ++ reusing)).isSome)
  have hended : s.ended = [0] ∧ s.mgr.promoted = [0, 1] := by
    cases hs
    decide +kernel
  refine ⟨s, hs, hended.1, hended.2, ?_, ?_⟩
  · rw [ended_reported hs (by decide +kernel), hended.1]
    rfl
  · rw [ended_reported hs (by decide +kernel), hended.1]
    rfl

/-- A peer that sends its connection packet twice is closed without a report; one that is gone where `Recv`
finds the end of the stream and the event tells of an error too is reported twice. -/
theorem ended_unreported :
    (∃ s, run (Loops.step gateEnv) noLoops (promoting ++ [.packet 0 hello]) = some s ∧
      0 ∈ s.mgr.promoted ∧ 0 ∈ s.ended ∧ s.reports.count 0 = 0) ∧
    ∃ s, run (Loops.step gateEnv) noLoops (promoting ++ another { epollin := true, epollerr := true } ++
        [.received 0 true, .sent 0 false, .hungUp 0]) = some s ∧
      0 ∈ s.mgr.promoted ∧ 0 ∈ s.ended ∧ s.reports.count 0 = 2 := by
  constructor
  · obtain ⟨s, hs⟩ := Option.isSome_iff_exists.mp (by decide +kernel :
      (run (Loops.step gateEnv) noLoops (promoting ++ [.packet 0 hello])).isSome)
    refine ⟨s, hs, ?_⟩
    cases hs
    decide +kernel
  · obtain ⟨s, hs⟩ := Option.isSome_iff_exists.mp (by decide +kernel :
      (run (Loops.step gateEnv) noLoops (promoting ++ another { epollin := true, epollerr := true } ++
        [.received 0 true, .sent 0 false, .hungUp 0])).isSome)
    refine ⟨s, hs, ?_⟩
    cases hs
    decide +kernel

end ChatShow.CommBase.LostReports
