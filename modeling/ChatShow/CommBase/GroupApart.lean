import ChatShow.CommBase.SessionBooks
import Mathlib.Data.List.Nodup

/-! # Groups and their channels

A group is meant to be the connections of one server, given by its type and its id. `m_group` has a
key of 16 bits for the pair, into which an id from 256 on and a negative id spill over, and the group
is known by the descriptor of its first channel, which the kernel may use again while the group lives
on. Where neither makes two peers meet, and every group asks for a channel at least and has no
descriptor 0, the groups are apart and messages to a group go to its own channels (`groups_apart`). -/

namespace ChatShow.CommBase.GroupApart

open ChatShow.CommBase.NetWorkConfig ChatShow.CommBase.MessageManager
open ChatShow.CommBase.NetContext ChatShow.CommBase.Groups ChatShow.CommBase.SessionBooks
open ChatShow.CommBase.SessionManager ChatShow.CommBase.SessionManager.SessionMgr
open ChatShow.Lib.Maps ChatShow.Lib.Runs Std

/-! ### Groups over what the channels are -/

/-- The group of a channel, and the server at its other end. -/
structure Membership where
  group : ℤ
  type : UInt8
  id : Int16
deriving DecidableEq

/-- **The groups are in order**, where `member` says which channels are in one. -/
structure GroupBooks (g : GroupSession) (member : ℤ → Option Membership) : Prop where
  channels : ∀ (k : UInt16) group, g.group[k]? = some group → 0 < group ∧
    ∃ info, g.groupChannel[group]? = some info ∧ info.channel ≠ [] ∧ info.channel.Nodup ∧
      info.channel.length ≤ info.count.toNat ∧
      ∀ fd, fd ∈ info.channel ↔ ∃ m, member fd = some m ∧ m.group = group
  ids : ∀ (k k' : UInt16) group, g.group[k]? = some group → g.group[k']? = some group → k = k'
  live : ∀ fd m, member fd = some m → g.group[groupKey m.type m.id]? = some m.group
  pairs : ∀ fd fd' m m', member fd = some m → member fd' = some m' → m.group = m'.group →
    m.type = m'.type ∧ m.id = m'.id

section
variable {g : GroupSession} {member : ℤ → Option Membership} {type : UInt8} {id : Int16}
  {channel : ℤ} {count : UInt8}

/-- The channels after one has got a membership. -/
theorem member_joined {c fd : ℤ} {m m₀ : Membership}
    (h : Function.update member c (some m₀) fd = some m) :
    (fd = c ∧ m = m₀) ∨ (fd ≠ c ∧ member fd = some m) := by
  rcases eq_or_ne fd c with rfl | hne
  · rw [Function.update_self] at h
    exact Or.inl ⟨rfl, (Option.some.inj h).symm⟩
  · rw [Function.update_of_ne hne] at h
    exact Or.inr ⟨hne, h⟩

theorem member_kept {c fd : ℤ} {m : Membership} {m₀ : Option Membership} (hc : member c = none)
    (h : member fd = some m) : Function.update member c m₀ fd = some m := by
  rw [Function.update_of_ne, h]
  rintro rfl
  rw [hc] at h
  cases h

/-- The channels after one has lost its membership. -/
theorem member_left {c fd : ℤ} {m : Membership} (h : Function.update member c none fd = some m) :
    fd ≠ c ∧ member fd = some m := by
  rcases eq_or_ne fd c with rfl | hne
  · rw [Function.update_self] at h
    cases h
  · rw [Function.update_of_ne hne] at h
    exact ⟨hne, h⟩

/-- The first channel of a server makes a group. -/
theorem addGroupSession_of_none (channel : ℤ) (count : UInt8)
    (hk : g.group[groupKey type id]? = none) :
    g.addGroupSession type id channel count = (channel, decide (count.toNat = 1),
      { group := g.group.insert (groupKey type id) channel
        groupChannel := g.groupChannel.insert channel { channel := [channel], count := count } }) := by
  unfold GroupSession.addGroupSession
  rw [hk]

theorem groupBooks_new (h : GroupBooks g member) (hk : g.group[groupKey type id]? = none)
    (hc : 0 < channel) (hcount : 1 ≤ count.toNat) (hm : member channel = none)
    (hnew : ∀ (k : UInt16), g.group[k]? ≠ some channel) :
    GroupBooks (g.addGroupSession type id channel count).2.2
      (Function.update member channel (some ⟨channel, type, id⟩)) := by
  rw [addGroupSession_of_none channel count hk]
  -- nobody is in a group of this name yet
  have hnone : ∀ fd m, member fd = some m → m.group ≠ channel := by
    rintro fd m hfd hg
    exact hnew _ (hg ▸ h.live fd m hfd)
  constructor
  · intro k group hg
    dsimp only at hg ⊢
    rw [get_insert] at hg
    split_ifs at hg with he
    · cases hg
      refine ⟨hc, _, get_insert_self .., List.cons_ne_nil _ _, List.nodup_singleton _, hcount, ?_⟩
      intro fd
      rw [List.mem_singleton]
      constructor
      · rintro rfl
        exact ⟨_, Function.update_self .., rfl⟩
      · rintro ⟨m, hfd, hmg⟩
        rcases member_joined hfd with ⟨rfl, -⟩ | ⟨-, hfd⟩
        · rfl
        · exact absurd hmg (hnone fd m hfd)
    · have hne : channel ≠ group := by
        rintro rfl
        exact hnew k hg
      obtain ⟨hpos, info, hi, h1, h2, h3, h4⟩ := h.channels k group hg
      refine ⟨hpos, info, (get_insert_of_ne _ _ hne).trans hi, h1, h2, h3, fun fd => ?_⟩
      rw [h4 fd]
      constructor
      · rintro ⟨m, hfd, hmg⟩
        exact ⟨m, member_kept hm hfd, hmg⟩
      · rintro ⟨m, hfd, hmg⟩
        rcases member_joined hfd with ⟨-, rfl⟩ | ⟨-, hfd⟩
        · exact absurd hmg hne
        · exact ⟨m, hfd, hmg⟩
  · intro k k' group hg hg'
    dsimp only at hg hg'
    rw [get_insert] at hg hg'
    split_ifs at hg hg' with he he'
    · exact he.symm.trans he'
    · cases hg
      exact absurd hg' (hnew k')
    · cases hg'
      exact absurd hg (hnew k)
    · exact h.ids k k' group hg hg'
  · intro fd m hfd
    dsimp only
    rcases member_joined hfd with ⟨-, rfl⟩ | ⟨-, hfd⟩
    · exact get_insert_self ..
    · have hlive := h.live fd m hfd
      rw [get_insert_of_ne, hlive]
      intro he
      rw [← he, hk] at hlive
      cases hlive
  · intro fd fd' m m' hfd hfd' hg
    rcases member_joined hfd with ⟨-, rfl⟩ | ⟨-, hfd⟩ <;> rcases member_joined hfd' with ⟨-, rfl⟩ | ⟨-, hfd'⟩
    · exact ⟨rfl, rfl⟩
    · exact absurd hg.symm (hnone fd' m' hfd')
    · exact absurd hg (hnone fd m hfd)
    · exact h.pairs fd fd' m m' hfd hfd' hg

/-- A group takes another channel, or has no room for it. -/
theorem addGroupSession_of_some {group : ℤ} {info : GroupSessionInfo} (channel : ℤ)
    (count : UInt8) (hk : g.group[groupKey type id]? = some group) (hi : g.groupChannel[group]? = some info) :
    g.addGroupSession type id channel count =
      if info.channel.length ≥ info.count.toNat then (-2, false, g)
      else (group, decide (info.channel.length = info.count.toNat - 1),
        { g with groupChannel :=
          g.groupChannel.insert group { info with channel := info.channel ++ [channel] } }) := by
  unfold GroupSession.addGroupSession GroupSession.entry
  rw [hk]
  dsimp only
  rw [hi]

theorem groupBooks_joined {group : ℤ} {info : GroupSessionInfo} (h : GroupBooks g member)
    (hk : g.group[groupKey type id]? = some group) (hi : g.groupChannel[group]? = some info)
    (hroom : info.channel.length < info.count.toNat) (hm : member channel = none)
    (hpair : ∀ fd m, member fd = some m → m.group = group → m.type = type ∧ m.id = id) :
    GroupBooks { g with groupChannel :=
        g.groupChannel.insert group { info with channel := info.channel ++ [channel] } }
      (Function.update member channel (some ⟨group, type, id⟩)) := by
  obtain ⟨hpos, info', hi', h1, h2, h3, h4⟩ := h.channels _ group hk
  rw [hi] at hi'
  cases hi'
  have hnot : channel ∉ info.channel := by
    intro hc
    obtain ⟨m, hfd, -⟩ := (h4 channel).mp hc
    rw [hm] at hfd
    cases hfd
  constructor
  · intro k group' hg
    obtain ⟨hpos', info', hi', h1', h2', h3', h4'⟩ := h.channels k group' hg
    dsimp only
    rw [get_insert]
    split_ifs with he
    · subst he
      have hnodup : (info.channel ++ [channel]).Nodup :=
        List.nodup_append.mpr ⟨h2, List.nodup_singleton _, fun a ha b hb hab =>
          hnot (List.mem_singleton.mp hb ▸ hab ▸ ha)⟩
      have hlen : (info.channel ++ [channel]).length ≤ info.count.toNat := by
        rw [List.length_append, List.length_singleton]
        exact hroom
      refine ⟨hpos', _, rfl, by simp, hnodup, hlen, ?_⟩
      · intro fd
        rw [List.mem_append, List.mem_singleton, h4 fd]
        constructor
        · rintro (⟨m, hfd, hmg⟩ | rfl)
          · exact ⟨m, member_kept hm hfd, hmg⟩
          · exact ⟨_, Function.update_self .., rfl⟩
        · rintro ⟨m, hfd, hmg⟩
          rcases member_joined hfd with ⟨rfl, -⟩ | ⟨-, hfd⟩
          · exact Or.inr rfl
          · exact Or.inl ⟨m, hfd, hmg⟩
    · refine ⟨hpos', info', hi', h1', h2', h3', fun fd => ?_⟩
      rw [h4' fd]
      constructor
      · rintro ⟨m, hfd, hmg⟩
        exact ⟨m, member_kept hm hfd, hmg⟩
      · rintro ⟨m, hfd, hmg⟩
        rcases member_joined hfd with ⟨-, rfl⟩ | ⟨-, hfd⟩
        · exact absurd hmg he
        · exact ⟨m, hfd, hmg⟩
  · exact h.ids
  · intro fd m hfd
    rcases member_joined hfd with ⟨-, rfl⟩ | ⟨-, hfd⟩
    · exact hk
    · exact h.live fd m hfd
  · intro fd fd' m m' hfd hfd' hg
    rcases member_joined hfd with ⟨-, rfl⟩ | ⟨-, hfd⟩ <;> rcases member_joined hfd' with ⟨-, rfl⟩ | ⟨-, hfd'⟩
    · exact ⟨rfl, rfl⟩
    · obtain ⟨ht, hid⟩ := hpair fd' m' hfd' hg.symm
      exact ⟨ht.symm, hid.symm⟩
    · exact hpair fd m hfd hg
    · exact h.pairs fd fd' m m' hfd hfd' hg

theorem deleteGroupSession_eq {group fd : ℤ} {info : GroupSessionInfo}
    (hi : g.groupChannel[group]? = some info) : g.deleteGroupSession group fd = {
      group := if (info.channel.erase fd).isEmpty then GroupSession.eraseGroup g.group group
        else g.group
      groupChannel := g.groupChannel.insert group
        { info with channel := info.channel.erase fd } } := by
  unfold GroupSession.deleteGroupSession GroupSessionInfo.deleteChannel
  rw [hi]
  dsimp only
  cases (info.channel.erase fd).isEmpty <;> rfl

/-- The groups that there are have been there before, and the group that a channel has left still has
channels. -/
theorem group_deleteGroupSession {fd : ℤ} {m : Membership} {info : GroupSessionInfo}
    (h : GroupBooks g member) (hk : g.group[groupKey m.type m.id]? = some m.group)
    (hi : g.groupChannel[m.group]? = some info) {k : UInt16} {group : ℤ}
    (hg : (g.deleteGroupSession m.group fd).group[k]? = some group) :
    g.group[k]? = some group ∧ (group = m.group → info.channel.erase fd ≠ []) := by
  rw [deleteGroupSession_eq hi] at hg
  dsimp only at hg
  split_ifs at hg with he
  · rw [GroupSession.get_eraseGroup hk h.ids] at hg
    split_ifs at hg with hke
    exact ⟨hg, fun hgm => absurd (h.ids _ _ _ hk (hgm ▸ hg)) hke⟩
  · exact ⟨hg, fun _ hnil => he (by rw [hnil]; rfl)⟩

/-- A channel leaves its group, and the last one takes the group with it. -/
theorem groupBooks_left {fd : ℤ} {m : Membership} (h : GroupBooks g member)
    (hm : member fd = some m) :
    GroupBooks (g.deleteGroupSession m.group fd) (Function.update member fd none) := by
  have hk := h.live fd m hm
  obtain ⟨hpos, info, hi, h1, h2, h3, h4⟩ := h.channels _ _ hk
  -- what is left of the group
  have hleft : ∀ fd', fd' ∈ info.channel.erase fd ↔
      ∃ m', Function.update member fd none fd' = some m' ∧ m'.group = m.group := by
    intro fd'
    rw [h2.mem_erase_iff, h4 fd']
    constructor
    · rintro ⟨hne, m', hfd, hg⟩
      exact ⟨m', (Function.update_of_ne hne ..).trans hfd, hg⟩
    · rintro ⟨m', hfd, hg⟩
      obtain ⟨hne, hfd⟩ := member_left hfd
      exact ⟨hne, m', hfd, hg⟩
  constructor
  · intro k group hg
    obtain ⟨hg, hne⟩ := group_deleteGroupSession h hk hi hg
    obtain ⟨hpos', info', hi', h1', h2', h3', h4'⟩ := h.channels k group hg
    rw [deleteGroupSession_eq hi]
    dsimp only
    rw [get_insert]
    split_ifs with he
    · subst he
      refine ⟨hpos', _, rfl, hne rfl, h2.erase fd, ?_, hleft⟩
      exact (List.length_erase_le ..).trans h3
    · refine ⟨hpos', info', hi', h1', h2', h3', fun fd' => ?_⟩
      rw [h4' fd']
      constructor
      · rintro ⟨m', hfd, hmg⟩
        refine ⟨m', (Function.update_of_ne ?_ ..).trans hfd, hmg⟩
        rintro rfl
        rw [hm] at hfd
        cases hfd
        exact he hmg
      · rintro ⟨m', hfd, hmg⟩
        exact ⟨m', (member_left hfd).2, hmg⟩
  · intro k k' group hg hg'
    exact h.ids k k' group (group_deleteGroupSession h hk hi hg).1
      (group_deleteGroupSession h hk hi hg').1
  · intro fd' m' hfd
    have hlive := h.live fd' m' (member_left hfd).2
    rw [deleteGroupSession_eq hi]
    dsimp only
    split_ifs with he
    · rw [GroupSession.get_eraseGroup hk h.ids, if_neg, hlive]
      intro hke
      rw [← hke, hk] at hlive
      have : fd' ∈ info.channel.erase fd := (hleft fd').mpr ⟨m', hfd, (Option.some.inj hlive).symm⟩
      rw [List.isEmpty_iff.mp he] at this
      exact absurd this List.not_mem_nil
    · exact hlive
  · intro fd' fd'' m' m'' hfd hfd'
    exact h.pairs fd' fd'' m' m'' (member_left hfd).2 (member_left hfd').2

end

/-! ### The channels of the managers -/

variable {env : Env} {s s' : SessionMgr}

/-- The membership that a session has. -/
def membership (se : Session) : Option Membership :=
  if se.groupID < 0 then none else some ⟨se.groupID, se.remoteType, se.remoteID⟩

/-- The membership of a channel: that of its session in `m_session`. -/
def memberOf (s : SessionMgr) (fd : ℤ) : Option Membership :=
  s.session[fd]?.bind fun o => membership (s.object o)

theorem membership_congr {se se' : Session} (h : se'.toSession = se.toSession) :
    membership se' = membership se := by
  unfold membership
  rw [h]

/-- Where a packet that `ConnectSuccess` accepts comes on a channel, the channel is not the name of a
live group, but of the one that the packet asks for; and where the packet asks for a group, no other
server has a channel with its key, and a new group has a positive name and room for a channel. -/
def Apart (env : Env) (s : SessionMgr) : Label → Prop
  | .connectSuccess message _ => ∀ o, s.timeOutSe[message.channelID]? = some o →
    ∀ r, identify env message (s.object o) s.groups = some r → r.1 ≠ .eConMessageErr →
      (∀ k : UInt16, s.groups.group[k]? = some message.channelID → ∃ type id count,
        groupRequest env message (s.object o) = some (type, id, count) ∧ groupKey type id = k) ∧
      ∀ type id count, groupRequest env message (s.object o) = some (type, id, count) →
        (∀ fd m, memberOf s fd = some m → groupKey m.type m.id = groupKey type id →
          m.type = type ∧ m.id = id) ∧
        (s.groups.group[groupKey type id]? = none → 0 < message.channelID ∧ 1 ≤ count.toNat)
  | _ => True

/-- The books with those of the groups. A session that waits is in no group, and the descriptor that
a live group is called by is no channel of anybody else. -/
structure Inv (s : SessionMgr) : Prop where
  books : Books [] s
  groups : GroupBooks s.groups (memberOf s)
  waiting : ∀ (fd : ℤ) o, s.timeOutSe[fd]? = some o → 0 ≤ fd ∧ (s.object o).groupID = -1
  arriving : ∀ fd ∈ s.arriving, 0 ≤ fd
  named : ∀ (k : UInt16) group, s.groups.group[k]? = some group → (s.session[group]?).isSome →
    ∃ m, memberOf s group = some m ∧ m.group = group

theorem memberOf_eq (hse : s'.session = s.session)
    (ho : ∀ (fd : ℤ) o, s.session[fd]? = some o →
      membership (s'.object o) = membership (s.object o)) :
    memberOf s' = memberOf s := by
  funext fd
  unfold memberOf
  rw [hse]
  rcases hs : s.session[fd]? with _ | o
  · rfl
  · exact ho fd o hs

/-- What leaves `m_session` and the groups as they are. -/
theorem Inv.frame (h : Inv s) (hb : Books [] s') (hse : s'.session = s.session)
    (hg : s'.groups = s.groups)
    (ho : ∀ (fd : ℤ) o, s.session[fd]? = some o →
      membership (s'.object o) = membership (s.object o))
    (hw : ∀ (fd : ℤ) o, s'.timeOutSe[fd]? = some o → 0 ≤ fd ∧ (s'.object o).groupID = -1)
    (ha : ∀ fd ∈ s'.arriving, 0 ≤ fd) : Inv s' where
  books := hb
  groups := by
    rw [hg, memberOf_eq hse ho]
    exact h.groups
  waiting := hw
  arriving := ha
  named := by
    rw [hg, hse, memberOf_eq hse ho]
    exact h.named

theorem Inv.sameBooks (h : Inv s) (hb : SameBooks s s') : Inv s' := by
  refine h.frame (h.books.sameBooks hb) hb.session hb.groups
    (fun _ o _ => membership_congr (hb.object o)) (fun fd o hfd => ?_) ?_
  · rw [hb.timeOutSe] at hfd
    rw [hb.object]
    exact h.waiting fd o hfd
  · rw [hb.arriving]
    exact h.arriving

/-! ### Promotion -/

theorem memberOf_established {c : ℤ} {o : ℕ} {se : Session} {g : GroupSession} (h : Books [] s)
    (ht : s.timeOutSe[c]? = some o) (hse : se.accSock = c) :
    memberOf (established s c o se g) = Function.update (memberOf s) c (membership se) := by
  funext fd
  unfold memberOf established
  dsimp only [setObject]
  rw [hse, get_insert]
  rcases eq_or_ne c fd with rfl | hne
  · rw [if_pos rfl, Function.update_self, Option.bind_some, Function.update_self]
  · rw [if_neg hne, Function.update_of_ne (Ne.symm hne)]
    rcases hs : s.session[fd]? with _ | o'
    · rfl
    · rw [Option.bind_some, Option.bind_some, Function.update_of_ne (Ne.symm (h.object_ne ht hs))]

theorem memberOf_eq_none {c : ℤ} (hs : s.session[c]? = none) : memberOf s c = none := by
  unfold memberOf
  rw [hs]
  rfl

/-- Sessions that still wait, after one has been promoted. -/
theorem waiting_established {c : ℤ} {o : ℕ} {se : Session} {g : GroupSession} (h : Inv s)
    (ht : s.timeOutSe[c]? = some o) (fd : ℤ) (i : ℕ)
    (hfd : (established s c o se g).timeOutSe[fd]? = some i) :
    0 ≤ fd ∧ ((established s c o se g).object i).groupID = -1 := by
  dsimp only [established] at hfd
  rw [get_erase] at hfd
  split_ifs at hfd with he
  have hne : i ≠ o := by
    rintro rfl
    exact he ((h.books.timed c i ht).1.symm.trans (h.books.timed fd i hfd).1)
  dsimp only [established, setObject]
  rw [Function.update_of_ne hne]
  exact h.waiting fd i hfd

/-- A session that is in no group is promoted. -/
theorem inv_alone {c : ℤ} {o : ℕ} {se : Session} (h : Inv s) (ht : s.timeOutSe[c]? = some o)
    (hse : se.accSock = c) (hg : se.groupID < 0)
    (hname : ∀ k : UInt16, s.groups.group[k]? ≠ some c)
    (hb : Books [] (established s c o se s.groups)) : Inv (established s c o se s.groups) := by
  have hnone : memberOf s c = none := memberOf_eq_none (h.books.apart c (ht ▸ rfl))
  have hmem : memberOf (established s c o se s.groups) = memberOf s := by
    rw [memberOf_established h.books ht hse, membership, if_pos hg, ← hnone, Function.update_eq_self]
  refine ⟨hb, ?_, waiting_established h ht, h.arriving, fun k group hk hs => ?_⟩
  · rw [hmem]
    exact h.groups
  · have hne : c ≠ group := by
      rintro rfl
      exact hname k hk
    rw [hmem]
    refine h.named k group hk ?_
    dsimp only [established] at hs
    rw [hse, get_insert_of_ne _ _ hne] at hs
    exact hs

/-- A session that is in a group is promoted. -/
theorem inv_member {c : ℤ} {o : ℕ} {se : Session} {g : GroupSession} {m₀ : Membership}
    (h : Inv s) (ht : s.timeOutSe[c]? = some o) (hse : se.accSock = c)
    (hm : membership se = some m₀)
    (hg : GroupBooks g (Function.update (memberOf s) c (some m₀)))
    (hname : ∀ (k : UInt16) group, g.group[k]? = some group →
      (group = c → m₀.group = c) ∧ (group ≠ c → s.groups.group[k]? = some group))
    (hb : Books [] (established s c o se g)) : Inv (established s c o se g) := by
  have hmem : memberOf (established s c o se g) = Function.update (memberOf s) c (some m₀) := by
    rw [memberOf_established h.books ht hse, hm]
  refine ⟨hb, ?_, waiting_established h ht, h.arriving, fun k group hk hs => ?_⟩
  · rw [hmem]
    exact hg
  · rw [hmem]
    obtain ⟨hself, hother⟩ := hname k group hk
    rcases eq_or_ne group c with rfl | hne
    · exact ⟨m₀, Function.update_self .., hself rfl⟩
    · rw [Function.update_of_ne hne]
      refine h.named k group (hother hne) ?_
      dsimp only [established] at hs
      rw [hse, get_insert_of_ne _ _ (Ne.symm hne)] at hs
      exact hs

/-- `AddGroupSession` finds no room: it changes nothing. -/
theorem groups_noRoom {c : ℤ} {type : UInt8} {id : Int16} {count : UInt8} (h : Inv s)
    (hc : 0 ≤ c) (hn : (s.groups.addGroupSession type id c count).1 < 0) :
    (s.groups.addGroupSession type id c count).2.2 = s.groups := by
  rcases hk : s.groups.group[groupKey type id]? with _ | group
  · rw [addGroupSession_of_none c count hk] at hn
    exact absurd hn (Int.not_lt.mpr hc)
  · obtain ⟨hg, info, hi, -⟩ := h.groups.channels _ group hk
    rw [addGroupSession_of_some c count hk hi] at hn ⊢
    split_ifs at hn ⊢ with hroom
    · rfl
    · exact absurd hn (Int.not_lt.mpr hg.le)

theorem groupID_identified {message : Message} {se se' : Session} {g g' : GroupSession}
    (h : Identified env message se g .eConMessageErr se' g') : se'.groupID = se.groupID := by
  cases h with
  | refused => rfl
  | noRoom => rfl
  | member type id count res hr hres hne => exact absurd rfl hne

/-- A packet that is refused leaves a session that waits. -/
theorem inv_refused {message : Message} {o : ℕ} {se : Session} {g : GroupSession} (h : Inv s)
    (ht : s.timeOutSe[message.channelID]? = some o)
    (hi : Identified env message (s.object o) s.groups .eConMessageErr se g) :
    Inv { s.setObject o se with groups := g } := by
  obtain ⟨hc, hgroup⟩ := h.waiting _ o ht
  have hg : g = s.groups := by
    cases hi with
    | refused => rfl
    | noRoom type id count hr hn => exact groups_noRoom h hc hn
    | member type id count res hr hres hne => exact absurd rfl hne
  subst hg
  refine h.frame (books_setObject h.books (accSock_identified hi)) rfl rfl (fun fd i hs => ?_)
    (fun fd i hfd => ?_) h.arriving
  · dsimp only [setObject]
    rw [Function.update_of_ne (Ne.symm (h.books.object_ne ht hs))]
  · obtain ⟨hfd0, hi0⟩ := h.waiting fd i hfd
    refine ⟨hfd0, ?_⟩
    dsimp only [setObject]
    rcases eq_or_ne i o with rfl | hne
    · rw [Function.update_self, groupID_identified hi]
      exact hgroup
    · rw [Function.update_of_ne hne]
      exact hi0

/-- A packet that is accepted promotes its session. -/
theorem inv_accepted {message : Message} {o : ℕ} {se : Session} {g : GroupSession}
    {res : NetWorkRet} (h : Inv s) (ht : s.timeOutSe[message.channelID]? = some o)
    (hi : Identified env message (s.object o) s.groups res se g) (hres : res ≠ .eConMessageErr)
    (hname : ∀ k : UInt16, s.groups.group[k]? = some message.channelID → ∃ type id count,
      groupRequest env message (s.object o) = some (type, id, count) ∧ groupKey type id = k)
    (hpair : ∀ type id count, groupRequest env message (s.object o) = some (type, id, count) →
      (∀ fd m, memberOf s fd = some m → groupKey m.type m.id = groupKey type id →
        m.type = type ∧ m.id = id) ∧
      (s.groups.group[groupKey type id]? = none → 0 < message.channelID ∧ 1 ≤ count.toNat)) :
    Inv (established s message.channelID o se g) := by
  have hacc := accSock_identified hi
  have hse : se.accSock = message.channelID := hacc.trans (h.books.timed _ o ht).1
  have hb := books_established (g := g) h.books ht hacc
  have hgroup := (h.waiting _ o ht).2
  have hnone : memberOf s message.channelID = none :=
    memberOf_eq_none (h.books.apart _ (ht ▸ rfl))
  cases hi with
  | refused => exact absurd rfl hres
  | noRoom => exact absurd rfl hres
  | alone id type hr =>
    refine inv_alone h ht hse (hgroup.trans_lt (by decide)) (fun k hk => ?_) hb
    obtain ⟨type, id, count, hr', -⟩ := hname k hk
    rw [hr] at hr'
    cases hr'
  | member type id count res hr hroom hne =>
    obtain ⟨hother, hnew⟩ := hpair type id count hr
    have hkey : ∀ k : UInt16, s.groups.group[k]? = some message.channelID →
        groupKey type id = k := by
      intro k hk
      obtain ⟨type', id', count', hr', hk'⟩ := hname k hk
      rw [hr] at hr'
      cases hr'
      exact hk'
    rcases hk : s.groups.group[groupKey type id]? with _ | group
    · obtain ⟨hc, hcount⟩ := hnew hk
      have hfresh : ∀ k : UInt16, s.groups.group[k]? ≠ some message.channelID := by
        intro k hk'
        rw [← hkey k hk', hk] at hk'
        cases hk'
      have hadd := addGroupSession_of_none message.channelID count hk
      have hbooks := groupBooks_new h.groups hk hc hcount hnone hfresh
      rw [hadd] at hb ⊢
      rw [hadd] at hbooks
      refine inv_member h ht hse ?_ hbooks (fun k group hg => ?_) hb
      · exact if_neg (Int.not_lt.mpr hc.le)
      · refine ⟨fun _ => rfl, fun hne' => ?_⟩
        dsimp only at hg
        rw [get_insert] at hg
        split_ifs at hg with he
        · exact absurd (Option.some.inj hg).symm hne'
        · exact hg
    · obtain ⟨hg, info, hinfo, -⟩ := h.groups.channels _ group hk
      have hadd := addGroupSession_of_some message.channelID count hk hinfo
      by_cases hfull : info.channel.length ≥ info.count.toNat
      · rw [if_pos hfull] at hadd
        rw [hadd] at hroom
        dsimp only at hroom
        omega
      · rw [if_neg hfull] at hadd
        have hbooks := groupBooks_joined h.groups hk hinfo (Nat.lt_of_not_ge hfull) hnone
          fun fd m hfd hmg => hother fd m hfd (h.groups.ids _ _ group
            (hmg ▸ h.groups.live fd m hfd) hk)
        rw [hadd] at hb ⊢
        refine inv_member h ht hse ?_ hbooks (fun k group' hg' => ?_) hb
        · exact if_neg (Int.not_lt.mpr hg.le)
        · refine ⟨fun he => ?_, fun _ => hg'⟩
          subst he
          have hkk := hkey k hg'
          rw [← hkk] at hg'
          exact Option.some.inj (hk.symm.trans hg')

theorem inv_connectSuccess {message m' : Message} {ctl : Bool} {res : NetWorkRet} (h : Inv s)
    (ha : Apart env s (.connectSuccess message ctl))
    (hc : s.connectSuccess env message ctl = some (res, m', s')) : Inv s' := by
  rcases connectSuccess_cases hc with
    ⟨-, -, rfl⟩ | ⟨o, m'', se, g, ht, hr, hi, ⟨rfl, rfl⟩ | ⟨hres, hb⟩⟩
  · exact h
  · exact inv_refused h ht hi
  · obtain ⟨hname, hpair⟩ := ha o ht _ hr hres
    exact (inv_accepted h ht hi hres hname hpair).sameBooks hb

/-! ### The other steps -/

/-- Sessions that wait are deleted. -/
theorem Inv.fewer (h : Inv s) (hb : Books [] s') (hf : Fewer s s') : Inv s' := by
  refine h.frame hb hf.session hf.groups (fun fd o _ => ?_) (fun fd o hfd => ?_) ?_
  · rw [hf.object]
  · rw [hf.object]
    exact h.waiting fd o (hf.timeOutSe fd o hfd)
  · rw [hf.arriving]
    exact h.arriving

theorem memberOf_erase {fd : ℤ} (hse : s'.session = s.session.erase fd)
    (ho : s'.object = s.object) : memberOf s' = Function.update (memberOf s) fd none := by
  funext fd'
  unfold memberOf
  rw [hse, ho, get_erase]
  rcases eq_or_ne fd fd' with rfl | hne
  · rw [if_pos rfl, Function.update_self]
    rfl
  · rw [if_neg hne, Function.update_of_ne (Ne.symm hne)]

/-- `DeleteSession` for a session of `m_session`: the channel leaves its group. -/
theorem groups_left {fd : ℤ} {o : ℕ} (h : Inv s) (hs : s.session[fd]? = some o) :
    GroupBooks (left s fd o).groups (Function.update (memberOf s) fd none) ∧
    ∀ (k : UInt16) group, (left s fd o).groups.group[k]? = some group →
      s.groups.group[k]? = some group := by
  have hm : memberOf s fd = membership (s.object o) := by
    rw [memberOf, hs]
    rfl
  dsimp only [left]
  split_ifs with hg
  · have hmem : memberOf s fd =
        some ⟨(s.object o).groupID, (s.object o).remoteType, (s.object o).remoteID⟩ :=
      hm.trans (if_neg (Int.not_lt.mpr hg.le))
    have hk := h.groups.live fd _ hmem
    obtain ⟨-, info, hi, -⟩ := h.groups.channels _ _ hk
    exact ⟨groupBooks_left h.groups hmem,
      fun k group hgr => (group_deleteGroupSession h.groups hk hi hgr).1⟩
  · have hnone : memberOf s fd = none := by
      rw [hm, membership]
      split_ifs with hneg
      · rfl
      -- a group has no descriptor 0
      · have hk := h.groups.live fd _ (hm.trans (if_neg hneg))
        exact absurd (h.groups.channels _ _ hk).1 hg
    rw [← hnone, Function.update_eq_self]
    exact ⟨h.groups, fun _ _ hgr => hgr⟩

theorem inv_left {fd : ℤ} {o : ℕ} (h : Inv s) (ht : s.timeOutSe[fd]? = none)
    (hs : s.session[fd]? = some o) : Inv (left s fd o) := by
  have hmem : memberOf (left s fd o) = Function.update (memberOf s) fd none := memberOf_erase rfl rfl
  obtain ⟨hgroups, hgroup⟩ := groups_left h hs
  refine ⟨books_left h.books ht hs, ?_, h.waiting, h.arriving, fun k group hg hse => ?_⟩
  · rw [hmem]
    exact hgroups
  · dsimp only [left] at hse
    rw [get_erase] at hse
    split_ifs at hse with hne
    · cases hse
    · rw [hmem, Function.update_of_ne (Ne.symm hne)]
      exact h.named k group (hgroup k group hg) hse

theorem inv_deleteSession (fd : ℤ) (h : Inv s) : Inv (s.deleteSession fd) := by
  have hb := books_deleteSession fd h.books
  rcases deleteSession_cases (s := s) fd with ⟨o, ht, he⟩ | ⟨o, ht, hs, he⟩ | ⟨-, -, he⟩
  · rw [he] at hb ⊢
    exact h.fewer hb (fewer_forgotten fd o)
  · rw [he]
    exact inv_left h ht hs
  · rw [he]
    exact h

theorem inv_deleteSessionEx {fd err : ℤ} (h : Inv s)
    (hd : s.deleteSessionEx env fd err = some s') : Inv s' := by
  rcases deleteSessionEx_cases hd with ⟨o, ht, rfl⟩ | hb
  · exact h.fewer (books_deleteSessionEx h.books hd) (fewer_forgotten fd o)
  · exact h.sameBooks hb

/-- A new connection is in no group. -/
theorem inv_added {sock time : ℤ} {se : Session} (h : Inv s) (hb : Books [] (added s sock se time))
    (hsock : 0 ≤ sock) (hg : se.groupID = -1) : Inv (added s sock se time) := by
  refine h.frame hb rfl rfl (fun fd o hs => ?_) (fun fd o hfd => ?_) h.arriving
  · dsimp only [added]
    rw [Function.update_of_ne (h.books.sock fd o hs).2.1.ne]
  · dsimp only [added] at hfd ⊢
    rw [get_insert] at hfd
    split_ifs at hfd with he
    · cases hfd
      rw [Function.update_self]
      exact ⟨he ▸ hsock, hg⟩
    · rw [Function.update_of_ne (h.books.timed fd o hfd).2.1.ne]
      exact h.waiting fd o hfd

theorem inv_readCommd {sock now : ℤ} {addr : Inet_Addr} {index type : UInt8} (h : Inv s)
    (ha : sock ∈ s.arriving)
    (hr : { s with arriving := s.arriving.erase sock }.readCommd env sock addr index type now =
      some s') : Inv s' := by
  have hb := books_readCommd h.books ha hr
  have harr : Inv { s with arriving := s.arriving.erase sock } :=
    h.frame (books_arrived h.books) rfl rfl (fun _ _ _ => rfl) h.waiting
      fun fd hfd => h.arriving fd (List.mem_of_mem_erase hfd)
  rcases readCommd_cases (s := { s with arriving := s.arriving.erase sock })
    (h.books.arriving sock ha).2.1 hr with rfl | ⟨flag, security, time, rfl⟩
  · exact harr.frame hb rfl rfl (fun _ _ _ => rfl) harr.waiting harr.arriving
  · exact inv_added harr hb (h.arriving sock ha) rfl

/-! ### A run -/

theorem inv_step {a : Label} (h : Inv s) (ha : Apart env s a) (hs : step env s a = some s') :
    Inv s' := by
  have hb := books_step h.books hs
  cases a with
  | accept sock =>
    dsimp only [step] at hs
    split_ifs at hs with hf
    cases hs
    refine h.frame hb rfl rfl (fun _ _ _ => rfl) h.waiting fun fd hfd => ?_
    rcases List.mem_cons.mp hfd with rfl | hfd
    · exact Int.not_lt.mp fun hn => hf (Or.inr hn)
    · exact h.arriving fd hfd
  | addTimerSessionEx sock addr index type now =>
    dsimp only [step] at hs
    split_ifs at hs with harr
    exact inv_readCommd h harr hs
  | connectSuccess message ctl =>
    obtain ⟨⟨res, m', s''⟩, hc, rfl⟩ := Option.map_eq_some_iff.mp hs
    exact inv_connectSuccess h ha hc
  | deleteSession fd =>
    cases hs
    exact inv_deleteSession fd h
  | deleteSessionEx fd err => exact inv_deleteSessionEx h hs
  | tick loop nowTime =>
    cases hs
    exact h.fewer hb (books_tick env loop nowTime h.books).2.1

theorem inv_new (object : ℕ → Session) (clock : ℕ → ℤ × Int32) : Inv (new object clock) := by
  have hno : ∀ fd m, memberOf (new object clock) fd ≠ some m := by
    intro fd m hm
    simp [memberOf, new] at hm
  refine ⟨books_new object clock, ⟨?_, ?_, ?_, ?_⟩, ?_, ?_, ?_⟩
  · intro k group hg
    exact absurd hg (by simp [new])
  · intro k k' group hg
    exact absurd hg (by simp [new])
  · intro fd m hm
    exact absurd hm (hno fd m)
  · intro fd fd' m m' hm
    exact absurd hm (hno fd m)
  · intro fd o hfd
    exact absurd hfd (by simp [new])
  · exact fun _ h => absurd h List.not_mem_nil
  · intro k group hg
    exact absurd hg (by simp [new])

/-- What is sent to a group for a key goes to one of its channels, if it goes to a session. -/
theorem bindSession_member {fd : ℤ} {m : Membership} (h : Inv s) (hm : memberOf s fd = some m)
    (key : ℤ) :
    (0 ≤ key → ∃ m', memberOf s (s.groups.bindSession key m.group) = some m' ∧
      m'.group = m.group) ∧
    ((s.session[s.groups.bindSession key m.group]?).isSome →
      ∃ m', memberOf s (s.groups.bindSession key m.group) = some m' ∧ m'.group = m.group) := by
  have hk := h.groups.live fd m hm
  obtain ⟨hpos, info, hi, hne, -, -, hmem⟩ := h.groups.channels _ _ hk
  have hkeyed : 0 ≤ key → ∃ m', memberOf s (s.groups.bindSession key m.group) = some m' ∧
      m'.group = m.group := fun hkey =>
    (hmem _).mp (GroupSession.bindSession_of_some hpos.le hkey hi hne)
  refine ⟨hkeyed, fun hs => ?_⟩
  by_cases hkey : 0 ≤ key
  · exact hkeyed hkey
  -- without a key it goes to the channel that the group is called by
  · have hb : s.groups.bindSession key m.group = m.group := by
      rw [GroupSession.bindSession, if_pos (Or.inr (Int.not_le.mp hkey))]
    rw [hb] at hs ⊢
    exact h.named _ _ hk hs

theorem inv_run {object : ℕ → Session} {clock : ℕ → ℤ × Int32} {l : List Label}
    (h : run (step env) (new object clock) l = some s)
    (ha : Along (step env) (Apart env) (new object clock) l) : Inv s :=
  run_inv_along (Q := fun _ => True) (fun _ _ _ hi _ hg hs => inv_step hi hg hs) h
    (fun _ _ => trivial) ha (inv_new object clock)

/-- A server asks for a group of `count` channels. -/
def groupPacket (channel : ℤ) (type idLow idHigh count : UInt8) : Message where
  content := fun i => [type, idLow, idHigh, count].getD i 0
  length := 4
  channelID := channel
  messageID := C2SGroupMessage
  messageType := ConnMessage

/-- A connection on the descriptor `sock` comes into a group. -/
def grouped (sock : ℤ) (type idLow idHigh count : UInt8) : List Label :=
  connected sock ++ [.connectSuccess (groupPacket sock type idLow idHigh count) true]

end ChatShow.CommBase.GroupApart
