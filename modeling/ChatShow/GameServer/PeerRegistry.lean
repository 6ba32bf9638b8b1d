import ChatShow.GameServer.ServerManager

/-! # The registry has the peers that are there

A connection is there from its `on_new_channel_build`, unless that closes it, until its
`on_channel_error`; its number may then be given to another one. The error of a path server or of a
world server leaves the peer in the registry, that of a gate takes out of `m_gateSvr` whatever has its
id, and an answer to `MSG_REQ_…_PUSHSERVERID` is put there also when its channel is gone. In the runs
where none of this happens the registry has exactly the connections that are there
(`registry_live`). -/

namespace ChatShow.GameServer.PeerRegistry

open ChatShow.CommBase.NetWorkConfig ChatShow.GameServer.ServerManager
open ChatShow.GameServer.ServerManager.ServerConHandler ChatShow.Lib.Maps ChatShow.Lib.Runs Std

/-! ### Peers that come and go -/

/-- The handler, the connections that are there with the types of their peers, and the types of those
that have failed. -/
structure Net where
  con : ServerConHandler := {}
  conn : ℤ → Option UInt8 := fun _ => none
  failed : List UInt8 := []

inductive Event
  | build (channel : ℤ) (localID : Int16) (localType : UInt8) (remoteID : Int16)
      (remoteType : UInt8) (ip : List UInt8)
  | error (channel : ℤ)
  | ackGate (channel : ℤ) (timeOut : Bool) (ret : Int64)
  | ackDB (channel : ℤ) (timeOut : Bool) (ret : Int64)

namespace Net

/-- Whether an operation closes a channel. -/
def closes (con con' : ServerConHandler) (channel : ℤ) : Prop :=
  channel ∈ con'.closed.drop con.closed.length

instance (con con' : ServerConHandler) (channel : ℤ) : Decidable (closes con con' channel) :=
  inferInstanceAs (Decidable (channel ∈ _))

def step (s : Net) : Event → Option Net
  | .build channel localID localType remoteID remoteType ip =>
    match s.conn channel with
    | some _ => none
    | none =>
      let con := s.con.onNewChannelBuild channel localID localType remoteID remoteType ip
      some { s with
        con := con
        conn := if closes s.con con channel then s.conn
          else Function.update s.conn channel (some remoteType) }
  | .error channel =>
    match s.conn channel with
    | some remoteType => (s.con.onChannelError channel remoteType).map fun con =>
      { con := con
        conn := if closes s.con con channel then Function.update s.conn channel none else s.conn
        failed := s.failed ++ [remoteType] }
    | none => none
  | .ackGate channel timeOut ret => some { s with con := s.con.ackGate channel timeOut ret }
  | .ackDB channel timeOut ret => some { s with con := s.con.ackDB channel timeOut ret }

end Net

variable {s s' : Net} {con con' : ServerConHandler}

/-- The type of the peer that the registry has for a channel. -/
def peer (con : ServerConHandler) (channel : ℤ) : Option UInt8 :=
  match con.allSvr[channel]? with
  | some o => some (con.object o).remoteType
  | none =>
    match con.pathSvr with
    | some it => if it.channelID = channel then some it.remoteType else none
    | none => none

/-- The servers of a map are those of channels in the registry. -/
def Points (con : ServerConHandler) (m : IdMap) : Prop :=
  ∀ (id : Int32) x, m[id]? = some x →
    ∃ o, x = some o ∧ con.allSvr[(con.object o).channelID]? = some o

/-- A new peer of a type is accepted on a channel. -/
def Accepts (con : ServerConHandler) (channel : ℤ) (type : UInt8) : Prop :=
  ∀ localID localType remoteID ip,
    ¬ Net.closes con (con.onNewChannelBuild channel localID localType remoteID type ip) channel

/-! ### What does no harm -/

/-- The item of a channel is in a map under the id that is taken out, and no other is. -/
def Sole (con : ServerConHandler) (channel : ℤ) (m : IdMap) (id : Option Int32) : Prop :=
  ∀ e ∈ m.toList, e.2 = con.allSvr[channel]? ↔ id = some e.1

instance (channel : ℤ) (m : IdMap) (id : Option Int32) : Decidable (Sole con channel m id) :=
  inferInstanceAs (Decidable (∀ e ∈ m.toList, _))

/-- No path server and no world server fails; where a peer fails, the maps of ids have its item only
where it is taken out, and nothing else there; an answer comes on a channel that is in `m_allSvr`. -/
def Harmless (s : Net) : Event → Prop
  | .build .. => True
  | .error channel => ∀ type ∈ s.conn channel,
      type ≠ ePathServer ∧ type ≠ eWorldServer ∧
      Sole s.con channel s.con.gateSvr (if type = eGateServer then s.con.serverID channel else none) ∧
      Sole s.con channel s.con.dbSvr (if type = eDBServer then s.con.serverID channel else none)
  | .ackGate channel timeOut _ => timeOut = false → s.con.allSvr[channel]?.isSome
  | .ackDB channel timeOut _ => timeOut = false → s.con.allSvr[channel]?.isSome

instance (s : Net) : (e : Event) → Decidable (Harmless s e)
  | .build .. => inferInstanceAs (Decidable True)
  | .error channel => inferInstanceAs (Decidable (∀ type ∈ s.conn channel, _))
  | .ackGate .. | .ackDB .. => inferInstanceAs (Decidable (_ → _))

/-! ### The invariant -/

/-- The types of the peers that are put into `m_allSvr`. -/
def Kind (type : UInt8) : Prop :=
  type = eGateServer ∨ type = eDBServer ∨ type = eWorldServer ∨ type = eManagerServer

structure Live (s : Net) : Prop where
  peers : ∀ c, peer s.con c = s.conn c
  items : ∀ c o, s.con.allSvr[c]? = some o →
    o < s.con.made ∧ (s.con.object o).channelID = c ∧ Kind (s.con.object o).remoteType
  path : ∀ it, s.con.pathSvr = some it →
    it.remoteType = ePathServer ∧ s.conn it.channelID = some ePathServer
  gates : Points s.con s.con.gateSvr
  dbs : Points s.con s.con.dbSvr
  failed : ∀ type ∈ s.failed, Kind type

theorem live_init : Live {} where
  peers c := by
    unfold peer
    rw [TreeMap.getElem?_emptyc]
  items c o h := by
    rw [TreeMap.getElem?_emptyc] at h
    cases h
  path it h := by cases h
  gates id x h := by
    rw [TreeMap.getElem?_emptyc] at h
    cases h
  dbs id x h := by
    rw [TreeMap.getElem?_emptyc] at h
    cases h
  failed type h := by cases h

/-- A channel that is not there is not in the registry. -/
theorem Live.allSvr_none (h : Live s) {c : ℤ} (hc : s.conn c = none) : s.con.allSvr[c]? = none := by
  rcases ho : s.con.allSvr[c]? with _ | o
  · rfl
  · have hp := h.peers c
    unfold peer at hp
    rw [ho, hc] at hp
    cases hp

/-- A channel with a peer that is not the path server is in `m_allSvr`. -/
theorem Live.allSvr_some (h : Live s) {c : ℤ} {type : UInt8} (hc : s.conn c = some type)
    (ht : type ≠ ePathServer) :
    ∃ o, s.con.allSvr[c]? = some o ∧ (s.con.object o).remoteType = type := by
  have hp := h.peers c
  unfold peer at hp
  rcases ho : s.con.allSvr[c]? with _ | o
  · rw [ho, hc] at hp
    dsimp only at hp
    split at hp
    · rename_i it hit
      split_ifs at hp
      cases hp
      exact absurd (h.path it hit).1 ht
    · cases hp
  · rw [ho, hc] at hp
    exact ⟨o, rfl, Option.some.inj hp⟩

theorem not_kind_path : ¬ Kind ePathServer := by
  unfold Kind
  decide

/-! ### A peer comes -/

/-- A peer is refused, or put into `m_allSvr`, or it is the path server. -/
inductive Built (con : ServerConHandler) (channel : ℤ) (remoteID : Int16) (type : UInt8)
    (ip : List UInt8) : ServerConHandler → Prop
  | refused (localID : Int16) (localType : UInt8)
      (hr : Kind type → con.allSvr[channel]? ≠ none) :
      Built con channel remoteID type ip
        ({ con with localID := localID, localType := localType }.closeChannel channel)
  | registered (localID : Int16) (localType : UInt8) (hk : Kind type)
      (hn : con.allSvr[channel]? = none) :
      Built con channel remoteID type ip { con with
        localID := localID
        localType := localType
        allSvr := con.allSvr.insert channel con.made
        object := Function.update con.object con.made (newItem channel remoteID type ip)
        made := con.made + 1 }
  | path (localID : Int16) (localType : UInt8) (ht : type = ePathServer)
      (hn : con.pathSvr = none) :
      Built con channel remoteID type ip { con with
        localID := localID
        localType := localType
        pathSvr := some (newItem channel remoteID type ip) }

theorem built_register {channel : ℤ} {remoteID : Int16} {type : UInt8} {ip : List UInt8}
    (localID : Int16) (localType : UInt8) (hk : Kind type) :
    Built con channel remoteID type ip
      ({ con with localID := localID, localType := localType }.register channel remoteID type ip) := by
  unfold register
  dsimp only
  split
  · rename_i o ho
    refine .refused localID localType fun _ hn => ?_
    rw [ho] at hn
    cases hn
  · rename_i hn
    exact .registered localID localType hk hn

theorem built (con : ServerConHandler) (channel : ℤ) (localID : Int16) (localType : UInt8)
    (remoteID : Int16) (type : UInt8) (ip : List UInt8) : Built con channel remoteID type ip
      (con.onNewChannelBuild channel localID localType remoteID type ip) := by
  obtain ⟨l, t, hlt⟩ : ∃ l t, (if con.localID = -1 then
      { con with localID := localID, localType := localType } else con) =
      { con with localID := l, localType := t } := by
    split_ifs
    · exact ⟨localID, localType, rfl⟩
    · exact ⟨con.localID, con.localType, rfl⟩
  unfold onNewChannelBuild
  dsimp only
  rw [hlt]
  split_ifs with hg hd hp hw hm
  · exact built_register l t (Or.inl hg)
  · exact built_register l t (Or.inr (Or.inl hd))
  · dsimp only
    have hk : ¬ Kind type := hp ▸ not_kind_path
    split
    · exact .refused l t fun hc => absurd hc hk
    · rename_i hn
      exact .path l t hp hn
  · exact built_register l t (Or.inr (Or.inr (Or.inl hw)))
  · exact built_register l t (Or.inr (Or.inr (Or.inr hm)))
  · refine .refused l t fun hk => ?_
    rcases hk with hk | hk | hk | hk
    · exact absurd hk hg
    · exact absurd hk hd
    · exact absurd hk hw
    · exact absurd hk hm

theorem closes_append {channel : ℤ} (h : con'.closed = con.closed ++ [channel]) :
    Net.closes con con' channel := by
  unfold Net.closes
  rw [h, List.drop_left]
  exact List.mem_singleton_self _

theorem not_closes {channel : ℤ} (h : con'.closed = con.closed) :
    ¬ Net.closes con con' channel := by
  unfold Net.closes
  rw [h, List.drop_length]
  exact List.not_mem_nil

/-- A new object is that of no channel yet. -/
theorem Live.ne_made (h : Live s) {c : ℤ} {o : ℕ} (ho : s.con.allSvr[c]? = some o) :
    o ≠ s.con.made := Nat.ne_of_lt (h.items c o ho).1

/-- A map of ids keeps pointing to the registry where channels with new objects come in. -/
theorem Points.registered {m : IdMap} (hm : Points con m)
    (hi : ∀ (c : ℤ) o, con.allSvr[c]? = some o → o ≠ con.made) {channel : ℤ} {item : SvrItem}
    (hn : con.allSvr[channel]? = none)
    (hall : con'.allSvr = con.allSvr.insert channel con.made)
    (hobj : con'.object = Function.update con.object con.made item) : Points con' m := by
  intro id x hx
  obtain ⟨o, rfl, ho⟩ := hm id x hx
  have hne : channel ≠ (con.object o).channelID := fun he => by
    rw [← he, hn] at ho
    cases ho
  refine ⟨o, rfl, ?_⟩
  rw [hall, hobj, Function.update_of_ne (hi _ o ho), get_insert_of_ne _ _ hne]
  exact ho

theorem live_build {channel : ℤ} {localID : Int16} {localType : UInt8} {remoteID : Int16}
    {type : UInt8} {ip : List UInt8} (h : Live s)
    (hs : s.step (.build channel localID localType remoteID type ip) = some s') : Live s' := by
  unfold Net.step at hs
  dsimp only at hs
  split at hs
  · cases hs
  · rename_i hc
    cases hs
    have hall := h.allSvr_none hc
    generalize s.con.onNewChannelBuild channel localID localType remoteID type ip = con',
      built s.con channel localID localType remoteID type ip = hb
    cases hb with
    | refused l t =>
      rw [if_pos]
      swap
      · exact closes_append rfl
      exact ⟨h.peers, h.items, h.path, h.gates, h.dbs, h.failed⟩
    | registered l t hk =>
      rw [if_neg]
      swap
      · exact not_closes rfl
      have hi : ∀ (c : ℤ) o, s.con.allSvr[c]? = some o → o ≠ s.con.made := fun c o ho =>
        h.ne_made ho
      refine ⟨fun c => ?_, fun c o ho => ?_, fun it hit => ?_, h.gates.registered hi hall rfl rfl,
        h.dbs.registered hi hall rfl rfl, h.failed⟩
      · unfold peer
        dsimp only
        rw [get_insert]
        by_cases he : channel = c
        · subst he
          rw [if_pos rfl, Function.update_self]
          dsimp only
          rw [Function.update_self]
          rfl
        · rw [if_neg he, Function.update_of_ne (Ne.symm he), ← h.peers c]
          unfold peer
          rcases ho : s.con.allSvr[c]? with _ | o
          · rfl
          · dsimp only
            rw [Function.update_of_ne (h.ne_made ho)]
      · dsimp only at ho ⊢
        rw [get_insert] at ho
        split_ifs at ho with he
        · cases ho
          rw [Function.update_self]
          exact ⟨Nat.lt_succ_self _, he, hk⟩
        · obtain ⟨hlt, hch, hkind⟩ := h.items c o ho
          rw [Function.update_of_ne (h.ne_made ho)]
          exact ⟨Nat.lt_succ_of_lt hlt, hch, hkind⟩
      · obtain ⟨ht, hconn⟩ := h.path it hit
        have hne : it.channelID ≠ channel := fun he => by
          rw [he, hc] at hconn
          cases hconn
        exact ⟨ht, (Function.update_of_ne hne _ _).trans hconn⟩
    | path l t ht hn =>
      rw [if_neg]
      swap
      · exact not_closes rfl
      refine ⟨fun c => ?_, h.items, fun it hit => ?_, h.gates, h.dbs, h.failed⟩
      · unfold peer
        dsimp only [newItem]
        by_cases he : channel = c
        · subst he
          rw [hall, Function.update_self]
          dsimp only
          rw [if_pos rfl]
        · rw [if_neg he, Function.update_of_ne (Ne.symm he), ← h.peers c]
          unfold peer
          rw [hn]
      · cases hit
        exact ⟨ht, by rw [ht]; exact Function.update_self ..⟩

/-! ### A peer tells its id -/

/-- The handler with the id that a peer has told in its item. -/
def told (con : ServerConHandler) (o : ℕ) (ret : Int64) : ServerConHandler :=
  { con with
    object := Function.update con.object o { con.object o with serverID := ret.toInt32 } }

/-- The answer of a peer changes the id of its item. -/
theorem live_pushed (ret : Int64) {channel : ℤ} (h : Live s)
    (hc : s.con.allSvr[channel]?.isSome) :
    ∃ o, (s.con.pushed channel ret).1 = some o ∧ s.con.allSvr[channel]? = some o ∧
      (s.con.object o).channelID = channel ∧ (s.con.pushed channel ret).2 = told s.con o ret := by
  obtain ⟨o, ho⟩ := Option.isSome_iff_exists.mp hc
  unfold pushed
  rw [ho]
  exact ⟨o, rfl, rfl, (h.items channel o ho).2.1, rfl⟩

/-- What keeps the channels and the types of the items keeps the registry. -/
theorem Live.items_same (h : Live s) (hall : con'.allSvr = s.con.allSvr)
    (hpath : con'.pathSvr = s.con.pathSvr) (hmade : con'.made = s.con.made)
    (hch : ∀ o, (con'.object o).channelID = (s.con.object o).channelID)
    (ht : ∀ o, (con'.object o).remoteType = (s.con.object o).remoteType)
    (hg : Points con' con'.gateSvr) (hd : Points con' con'.dbSvr) :
    Live { s with con := con' } where
  peers c := by
    rw [← h.peers c]
    unfold peer
    rw [hall, hpath]
    simp only [ht]
  items c o ho := by
    dsimp only at ho ⊢
    rw [hall] at ho
    rw [hmade, hch, ht]
    exact h.items c o ho
  path it hit := by
    dsimp only at hit
    rw [hpath] at hit
    exact h.path it hit
  gates := hg
  dbs := hd
  failed := h.failed

theorem Points.items_same {m : IdMap} (hm : Points con m) (hall : con'.allSvr = con.allSvr)
    (hch : ∀ o, (con'.object o).channelID = (con.object o).channelID) : Points con' m := by
  intro id x hx
  obtain ⟨o, rfl, ho⟩ := hm id x hx
  exact ⟨o, rfl, by rw [hall, hch]; exact ho⟩

theorem Points.insert {m : IdMap} (hm : Points con m) (id : Int32) {o : ℕ}
    (ho : con.allSvr[(con.object o).channelID]? = some o) : Points con (m.insert id (some o)) := by
  intro id' x hx
  rw [get_insert] at hx
  split_ifs at hx
  · cases hx
    exact ⟨o, rfl, ho⟩
  · exact hm id' x hx

theorem update_serverID (object : ℕ → SvrItem) (o o' : ℕ) (id : Int32) :
    (Function.update object o { object o with serverID := id } o').channelID =
      (object o').channelID ∧
    (Function.update object o { object o with serverID := id } o').remoteType =
      (object o').remoteType := by
  by_cases he : o' = o
  · subst he
    rw [Function.update_self]
    exact ⟨rfl, rfl⟩
  · rw [Function.update_of_ne he]
    exact ⟨rfl, rfl⟩

theorem live_ackGate {channel : ℤ} {timeOut : Bool} {ret : Int64} (h : Live s)
    (hg : Harmless s (.ackGate channel timeOut ret)) :
    Live { s with con := s.con.ackGate channel timeOut ret } := by
  cases timeOut with
  | true => exact h
  | false =>
    obtain ⟨o, ho, hall, hch, hcon⟩ := live_pushed ret h (hg rfl)
    have hupd := fun o' => update_serverID s.con.object o o' ret.toInt32
    unfold ackGate
    rw [if_neg Bool.false_ne_true]
    dsimp only
    rw [ho, hcon]
    have hgates : Points (told s.con o ret) s.con.gateSvr := h.gates.items_same rfl fun o' => (hupd o').1
    refine h.items_same rfl rfl rfl (fun o' => (hupd o').1) (fun o' => (hupd o').2)
      (hgates.insert ret.toInt32 ?_) (h.dbs.items_same rfl fun o' => (hupd o').1)
    unfold told
    dsimp only
    rw [(hupd o).1, hch]
    exact hall

theorem live_ackDB {channel : ℤ} {timeOut : Bool} {ret : Int64} (h : Live s)
    (hg : Harmless s (.ackDB channel timeOut ret)) :
    Live { s with con := s.con.ackDB channel timeOut ret } := by
  cases timeOut with
  | true => exact h
  | false =>
    obtain ⟨o, ho, hall, hch, hcon⟩ := live_pushed ret h (hg rfl)
    have hupd := fun o' => update_serverID s.con.object o o' ret.toInt32
    unfold ackDB
    rw [if_neg Bool.false_ne_true]
    dsimp only
    rw [ho, hcon]
    have hdbs : Points (told s.con o ret) s.con.dbSvr := h.dbs.items_same rfl fun o' => (hupd o').1
    refine h.items_same rfl rfl rfl (fun o' => (hupd o').1) (fun o' => (hupd o').2)
      (h.gates.items_same rfl fun o' => (hupd o').1) (hdbs.insert ret.toInt32 ?_)
    unfold told
    dsimp only
    rw [(hupd o).1, hch]
    exact hall

/-! ### A peer fails -/

/-- An error of a peer that is neither a path server nor a world server takes it out of `m_allSvr`,
and its id out of the maps that have it. -/
theorem error_eq (con : ServerConHandler) (channel : ℤ) {type : UInt8} (hk : Kind type) (hw : type ≠ eWorldServer) :
    ∃ con', con.onChannelError channel type = some con' ∧
      con'.closed = con.closed ++ [channel] ∧ con'.allSvr = con.allSvr.erase channel ∧
      con'.object = con.object ∧ con'.made = con.made ∧ con'.pathSvr = con.pathSvr ∧
      con'.gateSvr = eraseID con.gateSvr
        (if type = eGateServer then con.serverID channel else none) ∧
      con'.dbSvr = eraseID con.dbSvr (if type = eDBServer then con.serverID channel else none) := by
  unfold onChannelError
  rcases hk with rfl | rfl | rfl | rfl
  · exact ⟨_, rfl, rfl, rfl, rfl, rfl, rfl, rfl, rfl⟩
  · exact ⟨_, rfl, rfl, rfl, rfl, rfl, rfl, rfl, rfl⟩
  · exact absurd rfl hw
  · exact ⟨_, rfl, rfl, rfl, rfl, rfl, rfl, rfl, rfl⟩

/-- Where the item of a channel is in a map only under the id that is taken out, and that is its own,
the channel can go, and the others stay. -/
theorem Points.erase {m : IdMap} {channel : ℤ} {id : Option Int32} (hm : Points con m)
    (hs : Sole con channel m id)
    (hi : ∀ (c : ℤ) o, con.allSvr[c]? = some o → (con.object o).channelID = c)
    (hall : con'.allSvr = con.allSvr.erase channel) (hobj : con'.object = con.object) :
    Points con' (eraseID m id) ∧
      ∀ (k : Int32) o, m[k]? = some (some o) → (con.object o).channelID ≠ channel →
        (eraseID m id)[k]? = some (some o) := by
  have hget (k : Int32) : (eraseID m id)[k]? = if id = some k then none else m[k]? := by
    cases id with
    | none => rfl
    | some i =>
      simp only [eraseID, Option.some.injEq]
      exact get_erase m i k
  refine ⟨fun k x hx => ?_, fun k o hk hne => ?_⟩
  · rw [hget] at hx
    split_ifs at hx with hid
    obtain ⟨o, rfl, ho⟩ := hm k x hx
    have hne : channel ≠ (con.object o).channelID := fun he => by
      rw [← he] at ho
      exact hid ((hs (k, some o) (TreeMap.mem_toList_iff_getElem?_eq_some.mpr hx)).mp ho.symm)
    refine ⟨o, rfl, ?_⟩
    rw [hall, hobj, get_erase_of_ne _ hne]
    exact ho
  · rw [hget, if_neg fun hid => ?_]
    · exact hk
    · have hch := (hs (k, some o) (TreeMap.mem_toList_iff_getElem?_eq_some.mpr hk)).mpr hid
      exact hne (hi channel o hch.symm)

theorem live_error {channel : ℤ} (h : Live s) (hg : Harmless s (.error channel))
    (hs : s.step (.error channel) = some s') :
    Live s' ∧ ∀ (k : Int32) o, (s.con.object o).channelID ≠ channel →
      (s.con.gateSvr[k]? = some (some o) → s'.con.gateSvr[k]? = some (some o)) ∧
      (s.con.dbSvr[k]? = some (some o) → s'.con.dbSvr[k]? = some (some o)) := by
  unfold Net.step at hs
  dsimp only at hs
  split at hs
  · rename_i type hc
    obtain ⟨hp, hw, hsg, hsd⟩ := hg type hc
    obtain ⟨o, ho, htype⟩ := h.allSvr_some hc hp
    have hk : Kind type := htype ▸ (h.items channel o ho).2.2
    obtain ⟨con', hcon, hclosed, hall, hobj, hmade, hpath, hgate, hdb⟩ :=
      error_eq s.con channel hk hw
    rw [hcon] at hs
    cases hs
    dsimp only
    rw [if_pos (closes_append hclosed)]
    have hi : ∀ (c : ℤ) o, s.con.allSvr[c]? = some o → (s.con.object o).channelID = c :=
      fun c o ho => (h.items c o ho).2.1
    obtain ⟨hgs, hgk⟩ := h.gates.erase hsg hi hall hobj
    obtain ⟨hds, hdk⟩ := h.dbs.erase hsd hi hall hobj
    rw [← hgate] at hgs hgk
    rw [← hdb] at hds hdk
    refine ⟨⟨fun c => ?_, fun c o ho => ?_, fun it hit => ?_, hgs, hds, fun t ht => ?_⟩,
      fun k o hne => ⟨fun hk => hgk k o hk hne, fun hk => hdk k o hk hne⟩⟩
    · dsimp only
      unfold peer
      rw [hall, hobj, hpath, get_erase]
      by_cases he : channel = c
      · subst he
        rw [if_pos rfl, Function.update_self]
        dsimp only
        split
        · rename_i it hit
          -- the path server is on another channel
          rw [if_neg fun hch => ?_]
          have hconn := (h.path it hit).2
          rw [hch, hc] at hconn
          exact hp (Option.some.inj hconn)
        · rfl
      · rw [if_neg he, Function.update_of_ne (Ne.symm he), ← h.peers c]
        rfl
    · dsimp only at ho ⊢
      rw [hall, get_erase] at ho
      split_ifs at ho
      rw [hmade, hobj]
      exact h.items c o ho
    · dsimp only at hit
      rw [hpath] at hit
      obtain ⟨ht, hconn⟩ := h.path it hit
      have hne : it.channelID ≠ channel := fun he => by
        rw [he, hc] at hconn
        exact hp (Option.some.inj hconn)
      exact ⟨ht, (Function.update_of_ne hne _ _).trans hconn⟩
    · rcases List.mem_append.mp ht with ht | ht
      · exact h.failed t ht
      · rw [List.mem_singleton.mp ht]
        exact hk
  · cases hs

/-! ### Runs -/

theorem live_step {e : Event} (h : Live s) (hg : Harmless s e) (hs : s.step e = some s') :
    Live s' := by
  cases e with
  | build => exact live_build h hs
  | error => exact (live_error h hg hs).1
  | ackGate => cases hs; exact live_ackGate h hg
  | ackDB => cases hs; exact live_ackDB h hg

/-- A channel that is not in `m_allSvr` is accepted for a peer that is put there. -/
theorem accepts_of_none {channel : ℤ} {type : UInt8} (hn : con.allSvr[channel]? = none)
    (hk : Kind type) : Accepts con channel type := by
  intro localID localType remoteID ip
  generalize con.onNewChannelBuild channel localID localType remoteID type ip = con',
    built con channel localID localType remoteID type ip = hb
  cases hb with
  | refused _ _ hr => exact absurd hn (hr hk)
  | registered => exact not_closes rfl
  | path => exact not_closes rfl

/-- **Where each step is harmless, the registry has the peers that are there, the ids are those of
peers in the registry, a type of which a peer has failed is accepted again, and the failure of a peer
leaves the ids of the others.** -/
theorem registry_live {l : List Event} (h : run Net.step {} l = some s)
    (hg : Along Net.step Harmless {} l) :
    (∀ c, peer s.con c = s.conn c) ∧ Points s.con s.con.gateSvr ∧ Points s.con s.con.dbSvr ∧
    (∀ c, ∀ type ∈ s.failed, s.conn c = none → Accepts s.con c type) ∧
    ∀ c s', Harmless s (.error c) → s.step (.error c) = some s' →
      ∀ (k : Int32) o, (s.con.object o).channelID ≠ c →
        (s.con.gateSvr[k]? = some (some o) → s'.con.gateSvr[k]? = some (some o)) ∧
        (s.con.dbSvr[k]? = some (some o) → s'.con.dbSvr[k]? = some (some o)) := by
  have hs : Live s := run_inv_along (P := Live) (Q := fun _ => True)
    (fun _ _ _ h _ hg hs => live_step h hg hs) h (fun _ _ => trivial) hg live_init
  refine ⟨hs.peers, hs.gates, hs.dbs, fun c type ht hc => ?_, fun c s' hc hs' => ?_⟩
  · exact accepts_of_none (hs.allSvr_none hc) (hs.failed type ht)
  · exact (live_error hs hc hs').2

/-- Two gates come and tell their ids, and one of them fails. -/
def gatesCome : List Event :=
  [.build 3 1 2 1 eGateServer [], .build 4 1 2 2 eGateServer [], .ackGate 3 false 10,
    .ackGate 4 false 11, .error 3]

theorem registry_live_gates : ∃ s, run Net.step {} gatesCome = some s ∧
    s.conn 4 = some eGateServer ∧ s.con.gateSvr[(11 : Int32)]?.isSome ∧
    (∀ c, peer s.con c = s.conn c) ∧ Points s.con s.con.gateSvr ∧ Points s.con s.con.dbSvr ∧
    (∀ c, ∀ type ∈ s.failed, s.conn c = none → Accepts s.con c type) ∧
    ∀ c s', Harmless s (.error c) → s.step (.error c) = some s' →
      ∀ (k : Int32) o, (s.con.object o).channelID ≠ c →
        (s.con.gateSvr[k]? = some (some o) → s'.con.gateSvr[k]? = some (some o)) ∧
        (s.con.dbSvr[k]? = some (some o) → s'.con.dbSvr[k]? = some (some o)) := by
  obtain ⟨s, hs⟩ := Option.isSome_iff_exists.mp
    (by decide +kernel : (run Net.step {} gatesCome).isSome)
  have hconn : s.conn 4 = some eGateServer ∧ s.con.gateSvr[(11 : Int32)]?.isSome := by
    cases hs
    decide +kernel
  exact ⟨s, hs, hconn.1, hconn.2, registry_live hs (by decide +kernel)⟩

/-- A path server fails, and another one is refused; a gate that comes with the id of another one
takes its place and fails, and the other one, which is there, is not in `m_gateSvr`; and the answer of
a peer that has failed makes an entry that is null. -/
theorem registry_not_live :
    (∃ s, run Net.step {} [.build 3 1 2 1 ePathServer [], .error 3] = some s ∧
      s.failed = [ePathServer] ∧ s.conn 3 = none ∧ ¬ Accepts s.con 3 ePathServer) ∧
    (∃ s, run Net.step {} [.build 3 1 2 1 eGateServer [], .ackGate 3 false 10,
        .build 4 1 2 1 eGateServer [], .ackGate 4 false 10, .error 3] = some s ∧
      s.conn 4 = some eGateServer ∧ s.con.gateSvr[(10 : Int32)]? = none) ∧
    ∃ s, run Net.step {} [.build 3 1 2 1 eGateServer [], .error 3, .ackGate 3 false 10] = some s ∧
      s.con.gateSvr[(10 : Int32)]? = some none := by
  refine ⟨?_, ?_, ?_⟩
  · obtain ⟨s, hs⟩ := Option.isSome_iff_exists.mp (by decide +kernel :
      (run Net.step {} [.build 3 1 2 1 ePathServer [], .error 3]).isSome)
    have hc : s.failed = [ePathServer] ∧ s.conn 3 = none ∧
        Net.closes s.con (s.con.onNewChannelBuild 3 1 2 1 ePathServer []) 3 := by
      cases hs
      decide +kernel
    exact ⟨s, hs, hc.1, hc.2.1, fun ha => ha 1 2 1 [] hc.2.2⟩
  · obtain ⟨s, hs⟩ := Option.isSome_iff_exists.mp (by decide +kernel :
      (run Net.step {} [.build 3 1 2 1 eGateServer [], .ackGate 3 false 10,
        .build 4 1 2 1 eGateServer [], .ackGate 4 false 10, .error 3]).isSome)
    refine ⟨s, hs, ?_⟩
    cases hs
    decide +kernel
  · obtain ⟨s, hs⟩ := Option.isSome_iff_exists.mp (by decide +kernel :
      (run Net.step {} [.build 3 1 2 1 eGateServer [], .error 3, .ackGate 3 false 10]).isSome)
    refine ⟨s, hs, ?_⟩
    cases hs
    decide +kernel

end ChatShow.GameServer.PeerRegistry
