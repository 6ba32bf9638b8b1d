import ChatShow.CommBase.SessionManager

/-! # The books of the session managers

The three maps are keyed by the descriptor, which the kernel uses again once it is closed. In every
run `m_timeout` and `m_timeOutSe` have the same keys, a descriptor is not both in `m_timeOutSe` and
in `m_session`, and `Tick` closes only sessions that have not been promoted (`sessions_apart`). -/

namespace ChatShow.CommBase.SessionBooks

open ChatShow.CommBase.NetWorkConfig ChatShow.CommBase.MessageManager
open ChatShow.CommBase.NetContext ChatShow.CommBase.Groups
open ChatShow.CommBase.SessionManager ChatShow.CommBase.SessionManager.SessionMgr
open ChatShow.Lib.Maps ChatShow.Lib.Runs Std

variable {env : Env} {s s' : SessionMgr}

/-! ### What a connection packet says -/

/-- The type, the id and the count with which a packet asks for a group. -/
def groupRequest (env : Env) (message : Message) (se : Session) : Option (UInt8 × Int16 × UInt8) :=
  if message.messageID = C2SGroupMessage then
    if message.length = 4 ∧ message.content 0 < eMax then
      some (message.content 0, contentID message, message.content 3)
    else none
  else if message.messageID = S2CGroupMessage then
    if message.length = 1 ∧ message.content 0 = 0 then
      (env.context.getConnConfig se.config).map fun conf =>
        (conf.remote_type_, conf.remote_id_, conf.group_count)
    else none
  else none

/-- What `identify` may return for a packet on the channel `c`. -/
inductive Identified (env : Env) (message : Message) (se : Session) (g : GroupSession) :
    NetWorkRet → Session → GroupSession → Prop
  | refused : Identified env message se g .eConMessageErr se g
  | alone (id : Int16) (type : UInt8) (hr : groupRequest env message se = none) :
    Identified env message se g .eNetSuccess (se.setRemote id type) g
  | noRoom (type : UInt8) (id : Int16) (count : UInt8)
      (hr : groupRequest env message se = some (type, id, count))
      (h : (g.addGroupSession type id message.channelID count).1 < 0) :
    Identified env message se g .eConMessageErr (se.setRemote id type)
      (g.addGroupSession type id message.channelID count).2.2
  | member (type : UInt8) (id : Int16) (count : UInt8) (res : NetWorkRet)
      (hr : groupRequest env message se = some (type, id, count))
      (h : -1 ≤ (g.addGroupSession type id message.channelID count).1)
      (hres : res ≠ .eConMessageErr) :
    Identified env message se g res
      { se.setRemote id type with groupID := (g.addGroupSession type id message.channelID count).1 }
      (g.addGroupSession type id message.channelID count).2.2

theorem joined_ne (b : Bool) :
    (if b then NetWorkRet.eNetSuccess else .eGroupContinue) ≠ .eConMessageErr := by
  cases b <;> decide

/-- The outcome is one of `Identified`, and the message stays on its channel. -/
def IsIdentified (env : Env) (message : Message) (se : Session) (g : GroupSession) (r : Identity) :
    Prop :=
  Identified env message se g r.1 r.2.2.1 r.2.2.2 ∧ r.2.1.channelID = message.channelID

section
variable {message : Message} {se : Session} {g : GroupSession}

theorem identified_refuse : IsIdentified env message se g (refuse message se g) := ⟨.refused, rfl⟩

theorem identifyC2S_cases (hid : message.messageID = C2SMessage) :
    IsIdentified env message se g (identifyC2S message se g) := by
  have hr : groupRequest env message se = none := by
    have h1 : message.messageID ≠ C2SGroupMessage := by rw [hid]; decide
    have h2 : message.messageID ≠ S2CGroupMessage := by rw [hid]; decide
    rw [groupRequest, if_neg h1, if_neg h2]
  unfold identifyC2S
  split
  case isTrue => exact identified_refuse
  case isFalse =>
  dsimp only
  split
  case isTrue => exact identified_refuse
  case isFalse => exact ⟨.alone _ _ hr, rfl⟩

theorem identifyS2C_cases (hid : message.messageID = S2CMessage) {r : Identity}
    (h : identifyS2C env message se g = some r) : IsIdentified env message se g r := by
  have hr : groupRequest env message se = none := by
    have h1 : message.messageID ≠ C2SGroupMessage := by rw [hid]; decide
    have h2 : message.messageID ≠ S2CGroupMessage := by rw [hid]; decide
    rw [groupRequest, if_neg h1, if_neg h2]
  unfold identifyS2C at h
  split at h
  case isTrue =>
    cases h
    exact identified_refuse
  case isFalse =>
  split at h
  case isTrue =>
    cases h
    exact identified_refuse
  case isFalse =>
    obtain ⟨conf, -, h⟩ := Option.bind_eq_some_iff.mp h
    cases h
    exact ⟨.alone _ _ hr, rfl⟩

theorem identifyC2SGroup_cases (hid : message.messageID = C2SGroupMessage) :
    IsIdentified env message se g (identifyC2SGroup message se g) := by
  unfold identifyC2SGroup
  split
  case isTrue => exact identified_refuse
  case isFalse hl =>
  dsimp only
  split
  case isTrue => exact identified_refuse
  case isFalse ht =>
    have hr : groupRequest env message se =
        some (message.content 0, contentID message, message.content 3) := by
      rw [groupRequest, if_pos hid, if_pos ⟨not_not.mp hl, UInt8.not_le.mp ht⟩]
    split
    case isTrue hn => exact ⟨.noRoom _ _ _ hr (by omega), rfl⟩
    case isFalse hn => exact ⟨.member _ _ _ _ hr (by omega) (joined_ne _), rfl⟩

theorem identifyS2CGroup_cases (hid : message.messageID = S2CGroupMessage) {r : Identity}
    (h : identifyS2CGroup env message se g = some r) : IsIdentified env message se g r := by
  unfold identifyS2CGroup at h
  split at h
  case isTrue =>
    cases h
    exact identified_refuse
  case isFalse hl =>
  split at h
  case isTrue =>
    cases h
    exact identified_refuse
  case isFalse hc =>
    obtain ⟨conf, hconf, h⟩ := Option.bind_eq_some_iff.mp h
    have hne : message.messageID ≠ C2SGroupMessage := by
      rw [hid]
      decide
    have hr : groupRequest env message se =
        some (conf.remote_type_, conf.remote_id_, conf.group_count) := by
      rw [groupRequest, if_neg hne, if_pos hid, if_pos ⟨not_not.mp hl, not_not.mp hc⟩, hconf]
      rfl
    dsimp only at h
    split at h
    case isTrue hn =>
      cases h
      exact ⟨.noRoom _ _ _ hr hn, rfl⟩
    case isFalse hn =>
      cases h
      exact ⟨.member _ _ _ _ hr (by omega) (joined_ne _), rfl⟩

/-- **What the first part of `ConnectSuccess` does.** -/
theorem identify_cases {r : Identity} (h : identify env message se g = some r) :
    IsIdentified env message se g r := by
  unfold identify at h
  split_ifs at h with h1 h2 h3 h4
  · cases h
    exact identifyC2S_cases h1
  · exact identifyS2C_cases h2 h
  · cases h
    exact identifyC2SGroup_cases h3
  · exact identifyS2CGroup_cases h4 h
  · cases h
    exact identified_refuse

end

/-! ### What `ConnectSuccess` does -/

/-- Only the send buffers and the events differ. -/
structure SameBooks (s s' : SessionMgr) : Prop where
  session : s'.session = s.session
  timeOutSe : s'.timeOutSe = s.timeOutSe
  timeout : s'.timeout = s.timeout
  groups : s'.groups = s.groups
  object : ∀ o, (s'.object o).toSession = (s.object o).toSession
  made : s'.made = s.made
  fds : s'.fds = s.fds
  arriving : s'.arriving = s.arriving
  promoted : s'.promoted = s.promoted

namespace SameBooks

theorem rfl : SameBooks s s := by
  constructor
  all_goals intros; exact Eq.refl _

theorem trans {s₁ : SessionMgr} (h : SameBooks s s₁) (h' : SameBooks s₁ s') : SameBooks s s' where
  session := h'.session.trans h.session
  timeOutSe := h'.timeOutSe.trans h.timeOutSe
  timeout := h'.timeout.trans h.timeout
  groups := h'.groups.trans h.groups
  object o := (h'.object o).trans (h.object o)
  made := h'.made.trans h.made
  fds := h'.fds.trans h.fds
  arriving := h'.arriving.trans h.arriving
  promoted := h'.promoted.trans h.promoted

theorem systemErr (fd : ℤ) (lid : Int16) (ltype : UInt8) (rid : Int16) (rtype : UInt8) (err : ℤ)
    (addr : Inet_Addr) : SameBooks s (s.systemErr fd lid ltype rid rtype err addr) := by
  constructor
  all_goals intros; exact Eq.refl _

theorem bufSend (o : ℕ) (buf : CircleBuffer.CCircleBuff) :
    SameBooks s (s.setObject o { s.object o with bufSend := buf }) where
  session := Eq.refl _
  timeOutSe := Eq.refl _
  timeout := Eq.refl _
  groups := Eq.refl _
  object i := by
    dsimp only [setObject]
    rcases eq_or_ne i o with h | hne
    · rw [h, Function.update_self]
    · rw [Function.update_of_ne hne]
  made := Eq.refl _
  fds := Eq.refl _
  arriving := Eq.refl _
  promoted := Eq.refl _

end SameBooks

/-- `DeleteSessionEx` for a descriptor that waits for no connection packet tells of an event, and no
more. -/
theorem deleteSessionEx_of_none {fd err : ℤ} (ht : s.timeOutSe[fd]? = none)
    (h : s.deleteSessionEx env fd err = some s') : SameBooks s s' := by
  unfold deleteSessionEx at h
  rw [ht] at h
  dsimp only at h
  split at h
  case h_1 o hs =>
    obtain ⟨conf, -, h⟩ := Option.bind_eq_some_iff.mp h
    cases h
    exact .systemErr ..
  case h_2 =>
    cases h
    exact .rfl

theorem write_sameBooks {message : Message} {ctl : Bool}
    (ht : s.timeOutSe[message.channelID]? = none) (h : s.write env message ctl = some s') :
    SameBooks s s' := by
  unfold write at h
  split at h
  case h_1 =>
    cases h
    exact .rfl
  case h_2 o ho =>
    obtain ⟨m, -, h⟩ := Option.bind_eq_some_iff.mp h
    dsimp only at h
    split at h
    case isTrue =>
      exact SameBooks.trans (.bufSend o _) (deleteSessionEx_of_none ht h)
    case isFalse =>
      cases h
      exact .bufSend o _

theorem reply_sameBooks {se : Session} {channel : ℤ} {id : UInt32} {ctl : Bool}
    (ht : s.timeOutSe[channel]? = none) (h : s.reply env se channel id ctl = some s') :
    SameBooks s s' := by
  obtain ⟨config, -, h⟩ := Option.bind_eq_some_iff.mp h
  obtain ⟨m, hm, h⟩ := Option.bind_eq_some_iff.mp h
  obtain ⟨c, capacity, length, rfl⟩ := Message.setContent_eq hm
  exact write_sameBooks ht h

theorem answer_sameBooks {se : Session} {message : Message} {ctl : Bool}
    (ht : s.timeOutSe[message.channelID]? = none) (h : s.answer env se message ctl = some s') :
    SameBooks s s' := by
  unfold answer at h
  split_ifs at h
  · exact reply_sameBooks ht h
  · exact reply_sameBooks ht h
  · cases h
    exact .rfl

/-- The books after a session has been put into `m_session`. -/
def established (s : SessionMgr) (channel : ℤ) (o : ℕ) (se : Session) (g : GroupSession) :
    SessionMgr :=
  { s.setObject o se with
    groups := g
    timeOutSe := s.timeOutSe.erase channel
    timeout := s.timeout.erase channel
    session := s.session.insert se.accSock o
    promoted := s.promoted ++ [o] }

theorem promote_sameBooks (channel : ℤ) (o : ℕ) (se : Session) (g : GroupSession) :
    SameBooks (established s channel o se g)
      ({ s.setObject o se with groups := g }.promote channel o) where
  session := by
    have hse : (s.setObject o se).object o = se := Function.update_self ..
    dsimp only [promote, established]
    rw [hse]
    rfl
  timeOutSe := rfl
  timeout := rfl
  groups := rfl
  object i := by
    dsimp only [promote, established]
    split_ifs
    · rcases eq_or_ne i o with rfl | hne
      · rw [Function.update_self]
      · rw [Function.update_of_ne hne]
    · rfl
  made := rfl
  fds := rfl
  arriving := rfl
  promoted := rfl

/-- **What `ConnectSuccess` does to the books:** nothing, or the session learns what the packet says
of the peer, or it is promoted as well. -/
theorem connectSuccess_cases {message m' : Message} {ctl : Bool} {res : NetWorkRet}
    (h : s.connectSuccess env message ctl = some (res, m', s')) :
    (s.timeOutSe[message.channelID]? = none ∧ res = .eConnPacketErr ∧ s' = s) ∨
    ∃ o m'' se g, s.timeOutSe[message.channelID]? = some o ∧
      identify env message (s.object o) s.groups = some (res, m'', se, g) ∧
      Identified env message (s.object o) s.groups res se g ∧
      ((res = .eConMessageErr ∧ s' = { s.setObject o se with groups := g }) ∨
        (res ≠ .eConMessageErr ∧ SameBooks (established s message.channelID o se g) s')) := by
  unfold connectSuccess at h
  split at h
  case h_1 ht =>
    cases h
    exact Or.inl ⟨ht, rfl, rfl⟩
  case h_2 o ht =>
    obtain ⟨⟨res', m'', se, g⟩, hi, h⟩ := Option.bind_eq_some_iff.mp h
    obtain ⟨hid, hch⟩ := identify_cases hi
    dsimp only at h
    split at h
    case isTrue hres =>
      cases h
      exact Or.inr ⟨o, _, se, g, ht, hi, hid, Or.inl ⟨hres, rfl⟩⟩
    case isFalse hres =>
      obtain ⟨s₁, h₁, h⟩ := Option.bind_eq_some_iff.mp h
      cases h
      refine Or.inr ⟨o, _, se, g, ht, hi, hid, Or.inr ⟨hres, ?_⟩⟩
      rw [hch] at h₁
      have hp := promote_sameBooks (s := s) message.channelID o se g
      refine hp.trans (answer_sameBooks ?_ h₁)
      rw [hch]
      exact get_erase_self ..

/-! ### The invariant -/

/-- The books are in order, where the descriptors `late` have left `m_timeout` and are still to be
deleted. -/
structure Books (late : List ℤ) (s : SessionMgr) : Prop where
  keys : ∀ fd : ℤ, (s.timeOutSe[fd]?).isSome ↔ (s.timeout[fd]?).isSome ∨ fd ∈ late
  apart : ∀ fd : ℤ, (s.timeOutSe[fd]?).isSome → s.session[fd]? = none
  timed : ∀ (fd : ℤ) o, s.timeOutSe[fd]? = some o →
    (s.object o).accSock = fd ∧ o < s.made ∧ s.fds fd = true ∧ o ∉ s.promoted
  sock : ∀ (fd : ℤ) o, s.session[fd]? = some o →
    (s.object o).accSock = fd ∧ o < s.made ∧ s.fds fd = true
  arriving : ∀ fd ∈ s.arriving, s.fds fd = true ∧ s.timeOutSe[fd]? = none ∧ s.session[fd]? = none
  nodup : s.arriving.Nodup
  promoted : ∀ o ∈ s.promoted, o < s.made

namespace Books

variable {late : List ℤ}

theorem sameBooks (h : Books late s) (hb : SameBooks s s') : Books late s' := by
  obtain ⟨hse, ht, hto, -, ho, hm, hf, ha, hp⟩ := hb
  have hacc : ∀ o, (s'.object o).accSock = (s.object o).accSock := fun o =>
    congrArg (·.accSock) (ho o)
  constructor
  · rw [ht, hto]
    exact h.keys
  · rw [ht, hse]
    exact h.apart
  · intro fd o hfd
    rw [ht] at hfd
    rw [hacc, hm, hf, hp]
    exact h.timed fd o hfd
  · intro fd o hfd
    rw [hse] at hfd
    rw [hacc, hm, hf]
    exact h.sock fd o hfd
  · rw [ha, hf, ht, hse]
    exact h.arriving
  · rw [ha]
    exact h.nodup
  · rw [hp, hm]
    exact h.promoted

/-- A descriptor that is not open is in no map, and not on its way. -/
theorem of_closed (h : Books late s) {fd : ℤ} (hf : s.fds fd = false) :
    s.timeOutSe[fd]? = none ∧ s.session[fd]? = none ∧ fd ∉ s.arriving := by
  refine ⟨?_, ?_, fun ha => ?_⟩
  · rcases ht : s.timeOutSe[fd]? with _ | o
    · rfl
    · exact absurd (h.timed fd o ht).2.2.1 (by rw [hf]; decide)
  · rcases hs : s.session[fd]? with _ | o
    · rfl
    · exact absurd (h.sock fd o hs).2.2 (by rw [hf]; decide)
  · exact absurd (h.arriving fd ha).1 (by rw [hf]; decide)

/-- The two maps have no session in common. -/
theorem object_ne (h : Books late s) {fd fd' : ℤ} {o o' : ℕ} (ht : s.timeOutSe[fd]? = some o)
    (hs : s.session[fd']? = some o') : o ≠ o' := by
  rintro rfl
  have hfd : fd = fd' := (h.timed fd o ht).1.symm.trans (h.sock fd' o hs).1
  subst hfd
  rw [h.apart fd (ht ▸ rfl)] at hs
  cases hs

end Books

/-! ### What the steps do to it -/

theorem books_accept {sock : ℤ} (h : Books [] s) (hf : s.fds sock = false) :
    Books [] { s with fds := Function.update s.fds sock true, arriving := sock :: s.arriving } := by
  obtain ⟨hno, hno', hna⟩ := h.of_closed hf
  have hopen : ∀ fd, s.fds fd = true → Function.update s.fds sock true fd = true := by
    intro fd hfd
    rcases eq_or_ne fd sock with rfl | hne
    · exact Function.update_self ..
    · rw [Function.update_of_ne hne]
      exact hfd
  constructor
  · exact h.keys
  · exact h.apart
  · intro fd o hfd
    obtain ⟨h1, h2, h3, h4⟩ := h.timed fd o hfd
    exact ⟨h1, h2, hopen fd h3, h4⟩
  · intro fd o hfd
    obtain ⟨h1, h2, h3⟩ := h.sock fd o hfd
    exact ⟨h1, h2, hopen fd h3⟩
  · intro fd hfd
    rcases List.mem_cons.mp hfd with rfl | hfd
    · exact ⟨Function.update_self .., hno, hno'⟩
    · obtain ⟨h1, h2, h3⟩ := h.arriving fd hfd
      exact ⟨hopen fd h1, h2, h3⟩
  · exact List.nodup_cons.mpr ⟨hna, h.nodup⟩
  · exact h.promoted

/-- A descriptor that no map has is closed. -/
theorem books_close {fd : ℤ} (h : Books [] s) (ht : s.timeOutSe[fd]? = none)
    (hs : s.session[fd]? = none) (ha : fd ∉ s.arriving) :
    Books [] { s with fds := Function.update s.fds fd false } := by
  have hopen : ∀ {fd'}, fd' ≠ fd → s.fds fd' = true →
      Function.update s.fds fd false fd' = true := by
    intro fd' hne hfd
    rw [Function.update_of_ne hne]
    exact hfd
  constructor
  · exact h.keys
  · exact h.apart
  · intro fd' o hfd
    obtain ⟨h1, h2, h3, h4⟩ := h.timed fd' o hfd
    refine ⟨h1, h2, hopen ?_ h3, h4⟩
    rintro rfl
    rw [ht] at hfd
    cases hfd
  · intro fd' o hfd
    obtain ⟨h1, h2, h3⟩ := h.sock fd' o hfd
    refine ⟨h1, h2, hopen ?_ h3⟩
    rintro rfl
    rw [hs] at hfd
    cases hfd
  · intro fd' hfd
    obtain ⟨h1, h2, h3⟩ := h.arriving fd' hfd
    exact ⟨hopen (fun he => ha (he ▸ hfd)) h1, h2, h3⟩
  · exact h.nodup
  · exact h.promoted

theorem books_arrived {sock : ℤ} (h : Books [] s) :
    Books [] { s with arriving := s.arriving.erase sock } :=
  { h with
    arriving := fun fd hfd => h.arriving fd (List.mem_of_mem_erase hfd)
    nodup := h.nodup.erase sock }

/-- The books after a session has been made. -/
def added (s : SessionMgr) (sock : ℤ) (se : Session) (time : ℤ) : SessionMgr :=
  { s with
    timeOutSe := s.timeOutSe.insert sock s.made
    timeout := s.timeout.insert sock time
    epollPtr := s.epollPtr.insert sock s.made
    object := Function.update s.object s.made se
    made := s.made + 1 }

/-- A session that is made waits for its connection packet. -/
theorem books_added {sock time : ℤ} {se : Session} (h : Books [] s) (hsock : se.accSock = sock)
    (hf : s.fds sock = true) (hs : s.session[sock]? = none) (ha : sock ∉ s.arriving) :
    Books [] (added s sock se time) := by
  have hobj : ∀ o, o < s.made → Function.update s.object s.made se o = s.object o := fun o ho =>
    Function.update_of_ne ho.ne ..
  constructor
  · intro fd
    dsimp only [added]
    rw [get_insert, get_insert]
    split_ifs with hfd
    · simp
    · exact h.keys fd
  · intro fd hfd
    dsimp only [added] at hfd ⊢
    rw [get_insert] at hfd
    split_ifs at hfd with he
    · exact he ▸ hs
    · exact h.apart fd hfd
  · intro fd o hfd
    dsimp only [added] at hfd ⊢
    rw [get_insert] at hfd
    split_ifs at hfd with he
    · cases hfd
      subst he
      refine ⟨?_, Nat.lt_succ_self _, hf, fun hp => (h.promoted _ hp).false⟩
      rw [Function.update_self]
      exact hsock
    · obtain ⟨h1, h2, h3, h4⟩ := h.timed fd o hfd
      exact ⟨by rw [hobj o h2]; exact h1, Nat.lt_succ_of_lt h2, h3, h4⟩
  · intro fd o hfd
    obtain ⟨h1, h2, h3⟩ := h.sock fd o hfd
    exact ⟨by dsimp only [added]; rw [hobj o h2]; exact h1, Nat.lt_succ_of_lt h2, h3⟩
  · intro fd hfd
    obtain ⟨h1, h2, h3⟩ := h.arriving fd hfd
    refine ⟨h1, ?_, h3⟩
    dsimp only [added]
    have hne : sock ≠ fd := by
      rintro rfl
      exact ha hfd
    rw [get_insert_of_ne _ _ hne]
    exact h2
  · exact h.nodup
  · exact fun o ho => Nat.lt_succ_of_lt (h.promoted o ho)

theorem addTimerSessionEx_cases {sock : ℤ} (ht : s.timeOutSe[sock]? = none) (addr : Inet_Addr)
    (config : ChannelConfig) (index : UInt16) (type : UInt8) (now : ℤ) :
    s.addTimerSessionEx env sock addr config index type now = (false, s) ∨
    ∃ flag time, s.addTimerSessionEx env sock addr config index type now =
      (true, added s sock (Session.new env.block sock flag addr config.security_) time) := by
  unfold addTimerSessionEx
  rw [ht]
  split_ifs
  · exact Or.inl rfl
  · exact Or.inr ⟨_, _, rfl⟩
  · exact Or.inl rfl

/-- What `ReadCommd` does with a descriptor: it closes it, or makes a session for it. -/
theorem readCommd_cases {sock now : ℤ} {addr : Inet_Addr} {index type : UInt8}
    (ht : s.timeOutSe[sock]? = none) (h : s.readCommd env sock addr index type now = some s') :
    s' = { s with fds := Function.update s.fds sock false } ∨
    ∃ flag security time,
      s' = added s sock (Session.new env.block sock flag addr security) time := by
  obtain ⟨config, -, h⟩ := Option.bind_eq_some_iff.mp h
  rcases @addTimerSessionEx_cases env s sock ht addr config
    ((index.toUInt16 <<< 8) ||| (UInt8.ofNat (loopOf env sock)).toUInt16) type now with
    hr | ⟨flag, time, hr⟩
  · rw [hr] at h
    cases h
    exact Or.inl rfl
  · rw [hr] at h
    cases h
    exact Or.inr ⟨flag, config.security_, time, rfl⟩

theorem books_readCommd {sock now : ℤ} {addr : Inet_Addr} {index type : UInt8} (h : Books [] s)
    (ha : sock ∈ s.arriving)
    (hr : { s with arriving := s.arriving.erase sock }.readCommd env sock addr index type now =
      some s') : Books [] s' := by
  obtain ⟨hf, ht, hs⟩ := h.arriving sock ha
  have hna : sock ∉ s.arriving.erase sock := fun hm => (h.nodup.mem_erase_iff.mp hm).1 rfl
  have harr : Books [] { s with arriving := s.arriving.erase sock } := books_arrived h
  rcases readCommd_cases (s := { s with arriving := s.arriving.erase sock }) ht hr with
    rfl | ⟨flag, security, time, rfl⟩
  · exact books_close harr ht hs hna
  · exact books_added harr rfl hf hs hna

theorem accSock_identified {message : Message} {se se' : Session} {g g' : GroupSession}
    {res : NetWorkRet} (h : Identified env message se g res se' g') : se'.accSock = se.accSock := by
  cases h with
  | refused => rfl
  | alone => rfl
  | noRoom => rfl
  | member => rfl

theorem books_setObject {o : ℕ} {se : Session} {g : GroupSession} (h : Books [] s)
    (hse : se.accSock = (s.object o).accSock) :
    Books [] { s.setObject o se with groups := g } := by
  have hobj : ∀ i, (Function.update s.object o se i).accSock = (s.object i).accSock := by
    intro i
    rcases eq_or_ne i o with rfl | hne
    · rw [Function.update_self, hse]
    · rw [Function.update_of_ne hne]
  constructor
  · exact h.keys
  · exact h.apart
  · intro fd i hfd
    obtain ⟨h1, h2⟩ := h.timed fd i hfd
    exact ⟨(hobj i).trans h1, h2⟩
  · intro fd i hfd
    obtain ⟨h1, h2⟩ := h.sock fd i hfd
    exact ⟨(hobj i).trans h1, h2⟩
  · exact h.arriving
  · exact h.nodup
  · exact h.promoted

theorem books_established {fd : ℤ} {o : ℕ} {se : Session} {g : GroupSession} (h : Books [] s)
    (ht : s.timeOutSe[fd]? = some o) (hse : se.accSock = (s.object o).accSock) :
    Books [] (established s fd o se g) := by
  obtain ⟨hacc, hmade, hf, -⟩ := h.timed fd o ht
  have hset := books_setObject (g := g) h hse
  have hsock : se.accSock = fd := hse.trans hacc
  constructor
  · intro fd'
    dsimp only [established]
    rw [get_erase, get_erase]
    split_ifs
    · simp
    · exact h.keys fd'
  · intro fd' hfd
    dsimp only [established] at hfd ⊢
    rw [get_erase] at hfd
    split_ifs at hfd with he
    · cases hfd
    · rw [hsock, get_insert_of_ne _ _ he]
      exact h.apart fd' hfd
  · intro fd' i hfd
    dsimp only [established] at hfd
    rw [get_erase] at hfd
    split_ifs at hfd with he
    obtain ⟨h1, h2, h3, h4⟩ := hset.timed fd' i hfd
    refine ⟨h1, h2, h3, fun hp => ?_⟩
    rcases List.mem_append.mp hp with hp | hp
    · exact h4 hp
    · rw [List.mem_singleton.mp hp] at hfd
      exact he (hacc.symm.trans (h.timed fd' o hfd).1)
  · intro fd' i hfd
    dsimp only [established] at hfd
    rw [hsock, get_insert] at hfd
    split_ifs at hfd with he
    · cases hfd
      subst he
      refine ⟨?_, hmade, hf⟩
      dsimp only [established, setObject]
      rw [Function.update_self]
      exact hsock
    · exact hset.sock fd' i hfd
  · intro fd' hfd
    obtain ⟨h1, h2, h3⟩ := h.arriving fd' hfd
    have hne : fd ≠ fd' := by
      rintro rfl
      rw [ht] at h2
      cases h2
    refine ⟨h1, ?_, ?_⟩
    · dsimp only [established]
      rw [get_erase_of_ne _ hne]
      exact h2
    · dsimp only [established]
      rw [hsock, get_insert_of_ne _ _ hne]
      exact h3
  · exact h.nodup
  · intro i hi
    rcases List.mem_append.mp hi with hi | hi
    · exact h.promoted i hi
    · rw [List.mem_singleton.mp hi]
      exact hmade

theorem books_connectSuccess {message m' : Message} {ctl : Bool} {res : NetWorkRet}
    (h : Books [] s) (hc : s.connectSuccess env message ctl = some (res, m', s')) :
    Books [] s' := by
  rcases connectSuccess_cases hc with
    ⟨-, -, rfl⟩ | ⟨o, -, se, g, ht, -, hi, ⟨-, rfl⟩ | ⟨-, hb⟩⟩
  · exact h
  · exact books_setObject h (accSock_identified hi)
  · exact (books_established h ht (accSock_identified hi)).sameBooks hb

/-- The books after a session that waits for its connection packet has been deleted. -/
def forgotten (s : SessionMgr) (fd : ℤ) (o : ℕ) : SessionMgr :=
  { s.closeSocket o with timeOutSe := s.timeOutSe.erase fd, timeout := s.timeout.erase fd }

/-- Closing the socket of a session leaves those of the others open. -/
theorem fds_closeSocket {fd fd' : ℤ} {o : ℕ} (hacc : (s.object o).accSock = fd) (hne : fd ≠ fd') :
    (s.closeSocket o).fds fd' = s.fds fd' := by
  dsimp only [closeSocket]
  rw [hacc, Function.update_of_ne (Ne.symm hne)]

theorem books_forgotten {late late' : List ℤ} {fd : ℤ} {o : ℕ} (h : Books late s)
    (ht : s.timeOutSe[fd]? = some o) (hl : ∀ fd', fd' ∈ late' ↔ fd' ∈ late ∧ fd ≠ fd') :
    Books late' (forgotten s fd o) := by
  have hacc := (h.timed fd o ht).1
  constructor
  · intro fd'
    dsimp only [forgotten]
    rw [get_erase, get_erase, hl]
    split_ifs with he
    · simp [he]
    · rw [and_iff_left he]
      exact h.keys fd'
  · intro fd' hfd
    dsimp only [forgotten] at hfd
    rw [get_erase] at hfd
    split_ifs at hfd
    · cases hfd
    · exact h.apart fd' hfd
  · intro fd' i hfd
    dsimp only [forgotten] at hfd
    rw [get_erase] at hfd
    split_ifs at hfd with he
    obtain ⟨h1, h2, h3, h4⟩ := h.timed fd' i hfd
    exact ⟨h1, h2, (fds_closeSocket hacc he).trans h3, h4⟩
  · intro fd' i hfd
    obtain ⟨h1, h2, h3⟩ := h.sock fd' i hfd
    refine ⟨h1, h2, (fds_closeSocket hacc ?_).trans h3⟩
    rintro rfl
    have hi : s.session[fd]? = some i := hfd
    rw [h.apart fd (ht ▸ rfl)] at hi
    cases hi
  · intro fd' hfd
    obtain ⟨h1, h2, h3⟩ := h.arriving fd' hfd
    have hne : fd ≠ fd' := by
      rintro rfl
      rw [ht] at h2
      cases h2
    refine ⟨(fds_closeSocket hacc hne).trans h1, ?_, h3⟩
    dsimp only [forgotten]
    rw [get_erase_of_ne _ hne]
    exact h2
  · exact h.nodup
  · exact h.promoted

/-- The books after a session of `m_session` has been deleted. -/
def left (s : SessionMgr) (fd : ℤ) (o : ℕ) : SessionMgr :=
  { s.closeSocket o with
    session := s.session.erase fd
    groups := if (s.object o).groupID > 0 then
        s.groups.deleteGroupSession (s.object o).groupID fd
      else s.groups }

theorem books_left {fd : ℤ} {o : ℕ} (h : Books [] s) (ht : s.timeOutSe[fd]? = none)
    (hs : s.session[fd]? = some o) : Books [] (left s fd o) := by
  have hacc := (h.sock fd o hs).1
  constructor
  · exact h.keys
  · intro fd' hfd
    have hne : fd ≠ fd' := by
      rintro rfl
      rw [left, closeSocket, ht] at hfd
      cases hfd
    exact (get_erase_of_ne _ hne).trans (h.apart fd' hfd)
  · intro fd' i hfd
    have hne : fd ≠ fd' := by
      rintro rfl
      rw [left, closeSocket, ht] at hfd
      cases hfd
    obtain ⟨h1, h2, h3, h4⟩ := h.timed fd' i hfd
    exact ⟨h1, h2, (fds_closeSocket hacc hne).trans h3, h4⟩
  · intro fd' i hfd
    dsimp only [left] at hfd
    rw [get_erase] at hfd
    split_ifs at hfd with he
    obtain ⟨h1, h2, h3⟩ := h.sock fd' i hfd
    exact ⟨h1, h2, (fds_closeSocket hacc he).trans h3⟩
  · intro fd' hfd
    obtain ⟨h1, h2, h3⟩ := h.arriving fd' hfd
    have hne : fd ≠ fd' := by
      rintro rfl
      rw [hs] at h3
      cases h3
    exact ⟨(fds_closeSocket hacc hne).trans h1, h2, (get_erase_of_ne _ hne).trans h3⟩
  · exact h.nodup
  · exact h.promoted

/-- What `DeleteSession` does. -/
theorem deleteSession_cases (fd : ℤ) :
    (∃ o, s.timeOutSe[fd]? = some o ∧ s.deleteSession fd = forgotten s fd o) ∨
    (∃ o, s.timeOutSe[fd]? = none ∧ s.session[fd]? = some o ∧ s.deleteSession fd = left s fd o) ∨
    (s.timeOutSe[fd]? = none ∧ s.session[fd]? = none ∧ s.deleteSession fd = s) := by
  unfold deleteSession
  rcases ht : s.timeOutSe[fd]? with _ | o
  · rcases hs : s.session[fd]? with _ | o
    · exact Or.inr (Or.inr ⟨rfl, rfl, rfl⟩)
    · exact Or.inr (Or.inl ⟨o, rfl, rfl, rfl⟩)
  · exact Or.inl ⟨o, rfl, rfl⟩

theorem books_deleteSession (fd : ℤ) (h : Books [] s) : Books [] (s.deleteSession fd) := by
  rcases deleteSession_cases (s := s) fd with ⟨o, ht, he⟩ | ⟨o, ht, hs, he⟩ | ⟨-, -, he⟩
  · rw [he]
    exact books_forgotten h ht fun fd' => by simp
  · rw [he]
    exact books_left h ht hs
  · rw [he]
    exact h

/-- What `DeleteSessionEx` does. -/
theorem deleteSessionEx_cases {fd err : ℤ} (h : s.deleteSessionEx env fd err = some s') :
    (∃ o, s.timeOutSe[fd]? = some o ∧ s' = forgotten s fd o) ∨ SameBooks s s' := by
  rcases ht : s.timeOutSe[fd]? with _ | o
  · exact Or.inr (deleteSessionEx_of_none ht h)
  · refine Or.inl ⟨o, rfl, ?_⟩
    unfold deleteSessionEx at h
    rw [ht] at h
    exact (Option.some.inj h).symm

theorem books_deleteSessionEx {fd err : ℤ} (h : Books [] s)
    (hd : s.deleteSessionEx env fd err = some s') : Books [] s' := by
  rcases deleteSessionEx_cases hd with ⟨o, ht, rfl⟩ | hb
  · exact books_forgotten h ht fun fd' => by simp
  · exact h.sameBooks hb

/-! ### `Tick` -/

theorem mem_expired {loop : ℕ} {nowTime fd : ℤ} (h : fd ∈ s.expired env loop nowTime) :
    (s.timeout[fd]?).isSome := by
  obtain ⟨time, ht, -⟩ := mem_keysOf.mp (List.mem_of_mem_filter h)
  rw [ht]
  rfl

/-- The descriptors whose time has come leave `m_timeout`. -/
theorem books_late {late : List ℤ} (clock : ℕ → ℤ × Int32) (h : Books [] s)
    (hl : ∀ fd ∈ late, (s.timeout[fd]?).isSome) :
    Books late { s with clock := clock, timeout := eraseAll s.timeout late } := by
  refine { h with keys := fun fd => ?_ }
  dsimp only
  rw [get_eraseAll, h.keys]
  split_ifs with hm
  · simp [hm, hl fd hm]
  · simp [hm]

/-- Sessions that wait have gone, and that is all. -/
structure Fewer (s s' : SessionMgr) : Prop where
  session : s'.session = s.session
  groups : s'.groups = s.groups
  object : s'.object = s.object
  arriving : s'.arriving = s.arriving
  promoted : s'.promoted = s.promoted
  timeOutSe : ∀ (fd : ℤ) o, s'.timeOutSe[fd]? = some o → s.timeOutSe[fd]? = some o

theorem fewer_forgotten (fd : ℤ) (o : ℕ) : Fewer s (forgotten s fd o) where
  session := rfl
  groups := rfl
  object := rfl
  arriving := rfl
  promoted := rfl
  timeOutSe fd' i hfd := by
    dsimp only [forgotten] at hfd
    rw [get_erase] at hfd
    split_ifs at hfd
    exact hfd

theorem Fewer.trans {s₁ : SessionMgr} (h : Fewer s s₁) (h' : Fewer s₁ s') : Fewer s s' where
  session := h'.session.trans h.session
  groups := h'.groups.trans h.groups
  object := h'.object.trans h.object
  arriving := h'.arriving.trans h.arriving
  promoted := h'.promoted.trans h.promoted
  timeOutSe fd o hfd := h.timeOutSe fd o (h'.timeOutSe fd o hfd)

/-- Deleting them one after the other closes each of them and nothing else. -/
theorem deleteSession_late {late : List ℤ} (hn : late.Nodup) (h : Books late s) :
    Books [] (late.foldl deleteSession s) ∧ Fewer s (late.foldl deleteSession s) ∧
    ∀ fd, fd ∉ late → (late.foldl deleteSession s).fds fd = s.fds fd := by
  induction late generalizing s with
  | nil => exact ⟨h, ⟨rfl, rfl, rfl, rfl, rfl, fun _ _ h => h⟩, fun _ _ => rfl⟩
  | cons fd late ih =>
    obtain ⟨hnot, hn⟩ := List.nodup_cons.mp hn
    obtain ⟨o, ht⟩ := Option.isSome_iff_exists.mp ((h.keys fd).mpr (Or.inr List.mem_cons_self))
    have he : s.deleteSession fd = forgotten s fd o := by
      rw [deleteSession, ht]
      rfl
    have hb : Books late (forgotten s fd o) := by
      refine books_forgotten h ht fun fd' => ?_
      rw [List.mem_cons]
      constructor
      · intro hm
        refine ⟨Or.inr hm, ?_⟩
        rintro rfl
        exact hnot hm
      · rintro ⟨rfl | hm, hne⟩
        · exact absurd rfl hne
        · exact hm
    obtain ⟨h1, h2, h3⟩ := ih hn hb
    rw [List.foldl_cons, he]
    refine ⟨h1, (fewer_forgotten fd o).trans h2, fun fd' hfd => ?_⟩
    have hne : fd' ≠ fd := List.ne_of_not_mem_cons hfd
    exact (h3 fd' (List.not_mem_of_not_mem_cons hfd)).trans
      (fds_closeSocket (h.timed fd o ht).1 hne.symm)

/-- **`Tick` keeps the books, deletes only sessions that wait, and closes only descriptors that wait
for a connection packet.** -/
theorem books_tick (env : Env) (loop : ℕ) (nowTime : ℤ) (h : Books [] s) :
    Books [] (s.tick env loop nowTime) ∧ Fewer s (s.tick env loop nowTime) ∧
    ∀ fd, (s.timeOutSe[fd]?) = none → (s.tick env loop nowTime).fds fd = s.fds fd := by
  unfold tick
  dsimp only
  split_ifs
  · have hn : (s.expired env loop nowTime).Nodup := (nodup_keysOf _ _).filter _
    obtain ⟨h1, h2, h3⟩ := deleteSession_late hn
      (books_late (Function.update s.clock loop _) h fun fd hfd => mem_expired hfd)
    refine ⟨h1, ⟨h2.session, h2.groups, h2.object, h2.arriving, h2.promoted, h2.timeOutSe⟩,
      fun fd hfd => h3 fd fun hm => ?_⟩
    have := (h.keys fd).mpr (Or.inl (mem_expired hm))
    rw [hfd] at this
    cases this
  · exact ⟨{ h with }, ⟨rfl, rfl, rfl, rfl, rfl, fun _ _ h => h⟩, fun _ _ => rfl⟩

/-! ### A run -/

theorem books_step {a : Label} (h : Books [] s) (hs : step env s a = some s') : Books [] s' := by
  cases a with
  | accept sock =>
    dsimp only [step] at hs
    split_ifs at hs with hf
    cases hs
    exact books_accept h (Bool.eq_false_iff.mpr fun hc => hf (Or.inl hc))
  | addTimerSessionEx sock addr index type now =>
    dsimp only [step] at hs
    split_ifs at hs with ha
    exact books_readCommd h ha hs
  | connectSuccess message ctl =>
    obtain ⟨⟨res, m', s''⟩, hc, rfl⟩ := Option.map_eq_some_iff.mp hs
    exact books_connectSuccess h hc
  | deleteSession fd =>
    cases hs
    exact books_deleteSession fd h
  | deleteSessionEx fd err => exact books_deleteSessionEx h hs
  | tick loop nowTime =>
    cases hs
    exact (books_tick env loop nowTime h).1

theorem books_new (object : ℕ → Session) (clock : ℕ → ℤ × Int32) : Books [] (new object clock) := by
  constructor
  · intro fd
    simp [new]
  · intro fd hfd
    simp [new]
  · intro fd o hfd
    exact absurd hfd (by simp [new])
  · intro fd o hfd
    exact absurd hfd (by simp [new])
  · exact fun _ h => absurd h List.not_mem_nil
  · exact List.nodup_nil
  · exact fun _ h => absurd h List.not_mem_nil

theorem books_run {object : ℕ → Session} {clock : ℕ → ℤ × Int32} {l : List Label}
    (h : run (step env) (new object clock) l = some s) : Books [] s :=
  run_inv (fun _ _ _ hs h => books_step hs h) h (books_new object clock)

/-- **The books of the session managers.** In every run `m_timeout` and `m_timeOutSe` have the same
keys, no descriptor is both in `m_timeOutSe` and in `m_session`, and a descriptor that `Tick` closes
is that of a session which waits for its connection packet and has never been promoted. -/
theorem sessions_apart {object : ℕ → Session} {clock : ℕ → ℤ × Int32} {l : List Label}
    (h : run (step env) (new object clock) l = some s) :
    (∀ fd : ℤ, (s.timeout[fd]?).isSome ↔ (s.timeOutSe[fd]?).isSome) ∧
    (∀ fd : ℤ, ¬ ((s.timeOutSe[fd]?).isSome ∧ (s.session[fd]?).isSome)) ∧
    ∀ loop nowTime s', step env s (.tick loop nowTime) = some s' →
      s'.session = s.session ∧
      ∀ fd, s.fds fd = true → s'.fds fd = false →
        ∃ o, s.timeOutSe[fd]? = some o ∧ (s.object o).accSock = fd ∧ o ∉ s.promoted := by
  have hb := books_run h
  refine ⟨fun fd => ?_, ?_, ?_⟩
  · rw [hb.keys fd]
    exact ⟨Or.inl, fun ht => ht.resolve_right List.not_mem_nil⟩
  · rintro fd ⟨ht, hs⟩
    rw [hb.apart fd ht] at hs
    cases hs
  · rintro loop nowTime s' ⟨⟩
    obtain ⟨-, hfewer, hfds⟩ := books_tick env loop nowTime hb
    refine ⟨hfewer.session, fun fd hopen hclosed => ?_⟩
    rcases ht : s.timeOutSe[fd]? with _ | o
    · rw [hfds fd ht, hopen] at hclosed
      cases hclosed
    · obtain ⟨hacc, -, -, hp⟩ := hb.timed fd o ht
      exact ⟨o, rfl, hacc, hp⟩

/-- A connection sends no connection packet for 4 seconds. -/
theorem sessions_apart_timedOut :
    ∃ s s', run (step gateEnv) noSessions (connected 5) = some s ∧
      step gateEnv s (.tick 0 4000000) = some s' ∧
      ∃ o, s.timeOutSe[(5 : ℤ)]? = some o ∧ (s.object o).accSock = 5 ∧ o ∉ s.promoted := by
  obtain ⟨s, hs⟩ := Option.isSome_iff_exists.mp
    (by decide +kernel : (run (step gateEnv) noSessions (connected 5)).isSome)
  refine ⟨s, s.tick gateEnv 0 4000000, hs, rfl, ?_⟩
  refine ((sessions_apart hs).2.2 0 4000000 _ rfl).2 5 ?_ ?_
  · cases hs
    decide +kernel
  · cases hs
    decide +kernel

end ChatShow.CommBase.SessionBooks
