import ChatShow.DBServer.CharMemCache
import ChatShow.GameServer.SavePlayer
import ChatShow.Lib.Runs

/-! # From the player to the cache

A save on the game server is a list of messages, and the DBServer passes each to `SaveToCache`. The
messages carry a bit for every structure that was to be saved (`bits_sent`) and no data at all
(`blank_sent`), so the base data of the cache is overwritten with defaults, and the friends are
left as they are (`deliver_spec`). `save_exact` says when that is what the player holds. -/

namespace ChatShow.DBServer.SaveChain

open ChatShow.Dependence.CharDefine ChatShow.Dependence.CharDefine.ECharBaseStruct
open ChatShow.DBServer.PlayerDBManager ChatShow.DBServer.CharMemCache
open ChatShow.GameServer.SavePlayer ChatShow.Lib.Maps ChatShow.Lib.Runs

/-! ### The messages of a save -/

variable {byteSize : SaveTypeInfo → ℕ}

/-- The messages that a save sends. -/
def infos (calls : List SaveCall) : List SaveTypeInfo := calls.filterMap SaveCall.info

theorem infos_cons {call : SaveCall} {m : SaveTypeInfo} (h : call.info = some m)
    (calls : List SaveCall) : infos (call :: calls) = m :: infos calls :=
  List.filterMap_cons_some h

/-- The structure is to be saved. -/
def Saved (p : Player) (flag : Bool) (i : ECharBaseStruct) : Prop :=
  ((p.dirtyData i || flag) && p.initpartData i) = true

/-- One of the messages has the bit of the structure. -/
def Bits (msgs : List SaveTypeInfo) (i : ECharBaseStruct) : Prop := ∃ m ∈ msgs, hasBit m.type i

instance (msgs : List SaveTypeInfo) (i : ECharBaseStruct) : Decidable (Bits msgs i) :=
  inferInstanceAs (Decidable (∃ m ∈ msgs, _))

/-- The messages are those of the player, and carry no data. -/
def Blank (charid : Int64) (msgs : List SaveTypeInfo) : Prop :=
  ∀ m ∈ msgs, getPlayerCharid m.id = charid ∧ m.bsinfo = none

theorem bits_append {l l' : List SaveTypeInfo} {i : ECharBaseStruct} :
    Bits (l ++ l') i ↔ Bits l i ∨ Bits l' i := by
  simp only [Bits, List.mem_append, or_and_right, exists_or]

theorem bits_cons {m : SaveTypeInfo} {l : List SaveTypeInfo} {i : ECharBaseStruct} :
    Bits (m :: l) i ↔ hasBit m.type i ∨ Bits l i := by
  simp only [Bits, List.mem_cons, exists_eq_or_imp]

theorem bits_nil {i : ECharBaseStruct} : ¬ Bits [] i := by
  simp [Bits]

theorem bits_singleton {m : SaveTypeInfo} {i : ECharBaseStruct} :
    Bits [m] i ↔ hasBit m.type i := by
  rw [bits_cons, or_iff_left bits_nil]

/-- What the loop of `SaveAllPlayer` has collected once it is through with the structures `done`. -/
structure Through (p : Player) (flag : Bool) (done : ECharBaseStruct → Prop) (c : Collected) :
    Prop where
  bits : ∀ i, hasBit c.type i ∨ Bits c.infoVec i ↔ done i ∧ Saved p flag i
  dirty : ∀ i, ¬ done i → c.dirtyData i = p.dirtyData i
  empty : c.info.bsinfo = none
  blank : Blank (getPlayerCharid p.id) c.infoVec

theorem blank_packet {p : Player} {c : Collected} (hv : Blank (getPlayerCharid p.id) c.infoVec)
    (he : c.info.bsinfo = none) : Blank (getPlayerCharid p.id) (c.infoVec ++ [c.packet p]) := by
  intro m hm
  rcases List.mem_append.mp hm with hm | hm
  · exact hv m hm
  · rw [List.mem_singleton.mp hm]
    exact ⟨getPlayerCharid_getPlayerCharid p.id, he⟩

theorem bits_packet {p : Player} {c : Collected} {i : ECharBaseStruct} :
    Bits (c.infoVec ++ [c.packet p]) i ↔ hasBit c.type i ∨ Bits c.infoVec i := by
  rw [bits_append, bits_singleton, or_comm]
  rfl

theorem through_flush {p : Player} {flag : Bool} {done : ECharBaseStruct → Prop} {c : Collected}
    (h : Through p flag done c) : Through p flag done (c.flush p) where
  bits i := by
    have hz : hasBit (c.flush p).type i = false := hasBit_zero i
    rw [hz, or_iff_right Bool.false_ne_true]
    exact bits_packet.trans (h.bits i)
  dirty := h.dirty
  empty := rfl
  blank := blank_packet h.blank h.empty

theorem through_mark {p : Player} {flag : Bool} {done : ECharBaseStruct → Prop} {c : Collected}
    (h : Through p flag done c) {i : ECharBaseStruct} (hs : Saved p flag i) :
    Through p flag (fun j => done j ∨ j = i) (c.mark i) where
  bits j := by
    have hb : hasBit (c.mark i).type j = (hasBit c.type j || decide (i = j)) :=
      hasBit_setBit c.type i j
    rw [hb, Bool.or_eq_true, decide_eq_true_eq, or_right_comm]
    refine (or_congr (h.bits j) Iff.rfl).trans ?_
    constructor
    · rintro (⟨hd, hj⟩ | rfl)
      · exact ⟨Or.inl hd, hj⟩
      · exact ⟨Or.inr rfl, hs⟩
    · rintro ⟨hd | rfl, hj⟩
      · exact Or.inl ⟨hd, hj⟩
      · exact Or.inr rfl
  dirty j hj := by
    rw [not_or] at hj
    exact (Function.update_of_ne hj.2 _ _).trans (h.dirty j hj.1)
  empty := h.empty
  blank := h.blank

theorem through_skip {p : Player} {flag : Bool} {done : ECharBaseStruct → Prop} {c : Collected}
    (h : Through p flag done c) {i : ECharBaseStruct} (hs : ¬ Saved p flag i) :
    Through p flag (fun j => done j ∨ j = i) c where
  bits j := by
    refine (h.bits j).trans ⟨fun ⟨hd, hj⟩ => ⟨Or.inl hd, hj⟩, ?_⟩
    rintro ⟨hd | rfl, hj⟩
    · exact ⟨hd, hj⟩
    · exact absurd hj hs
  dirty j hj := h.dirty j fun hd => hj (Or.inl hd)
  empty := h.empty
  blank := h.blank

variable (byteSize) in
/-- A turn of the loop. -/
theorem collect_spec {p : Player} {flag : Bool} {done : ECharBaseStruct → Prop} {c : Collected}
    (h : Through p flag done c) {i : ECharBaseStruct} (hi : ¬ done i) :
    Through p flag (fun j => done j ∨ j = i) (p.collect byteSize flag c i) := by
  have hsaved : ((c.dirtyData i || flag) && p.initpartData i) = true ↔ Saved p flag i := by
    rw [h.dirty i hi, Saved]
  unfold Player.collect
  dsimp only
  split_ifs with hs
  · exact through_flush (through_mark h (hsaved.mp hs))
  · exact through_mark h (hsaved.mp hs)
  · exact through_skip h (mt hsaved.mpr hs)

variable (byteSize) in
/-- The vector that the loop of `SaveAllPlayer` leaves. -/
theorem collectAll_spec (p : Player) (flag : Bool) :
    (∀ i, Bits (p.collectAll byteSize flag).infoVec i ↔ Saved p flag i) ∧
    Blank (getPlayerCharid p.id) (p.collectAll byteSize flag).infoVec := by
  have h0 : Through p flag (fun _ => False) { dirtyData := p.dirtyData } :=
    ⟨fun i => by simp [bits_nil], fun i _ => rfl, rfl, fun m hm => by cases hm⟩
  have h1 := collect_spec byteSize h0 (i := eBaseInfo) id
  have h2 := collect_spec byteSize h1 (i := eFriendInfo) (by simp)
  have hall : ∀ i, ((False ∨ i = eBaseInfo) ∨ i = eFriendInfo) ∧ Saved p flag i ↔
      Saved p flag i := fun i => and_iff_right (by cases i <;> simp)
  unfold Player.collectAll all
  rw [List.foldl_cons, List.foldl_cons, List.foldl_nil]
  revert h2
  generalize p.collect byteSize flag _ eFriendInfo = c
  intro h2
  dsimp only
  split_ifs with hpos
  · exact ⟨fun i => bits_packet.trans ((h2.bits i).trans (hall i)), blank_packet h2.blank h2.empty⟩
  · have hz : c.type = 0 := by grind
    refine ⟨fun i => ?_, h2.blank⟩
    rw [← hall i, ← h2.bits i, hz, hasBit_zero, or_iff_right Bool.false_ne_true]

/-- Sending changes no bit, and adds no data. -/
theorem sendAll_spec (p : Player) (sendData : SaveDataInfo) (isDel : Bool) (charid : Int64)
    (l : List SaveTypeInfo) :
    (∀ i, Bits (infos (p.sendAll sendData isDel l)) i ↔ Bits l i) ∧
    (Blank charid l → Blank charid (infos (p.sendAll sendData isDel l))) := by
  induction l with
  | nil => exact ⟨fun i => Iff.rfl, id⟩
  | cons m l ih =>
    obtain ⟨m', hm', htype, hid, hbs⟩ : ∃ m', infos (p.sendAll sendData isDel (m :: l)) =
        m' :: infos (p.sendAll sendData isDel l) ∧ m'.type = m.type ∧ m'.id = m.id ∧
        m'.bsinfo = m.bsinfo := by
      refine ⟨if l = [] then { m with isdel := isDel } else m, ?_, ?_, ?_, ?_⟩
      · rw [Player.sendAll]
        refine infos_cons ?_ _
        by_cases h : sendData.msgtype = 0
        · rw [if_pos h]; rfl
        · rw [if_neg h]; rfl
      all_goals split_ifs <;> rfl
    rw [hm']
    refine ⟨fun i => ?_, fun hb => ?_⟩
    · rw [bits_cons, bits_cons, htype, ih.1]
    · rintro x hx
      rcases List.mem_cons.mp hx with rfl | hx
      · rw [hid, hbs]
        exact hb m List.mem_cons_self
      · exact ih.2 (fun y hy => hb y (List.mem_cons_of_mem _ hy)) x hx

theorem infos_append (calls calls' : List SaveCall) :
    infos (calls ++ calls') = infos calls ++ infos calls' := List.filterMap_append

variable (byteSize) in
/-- Behind the messages of the vector, a save may send one that only tells that the player is gone. -/
theorem infos_saveAllPlayer (p : Player) (sendData : SaveDataInfo) (flag isDel : Bool) :
    ∃ rest, infos (p.saveAllPlayer byteSize sendData flag isDel).2.2 =
        infos (p.sendAll { sendData with count := (p.collectAll byteSize flag).infoVec.length } isDel
          (p.collectAll byteSize flag).infoVec) ++ rest ∧
      (∀ i, ¬ Bits rest i) ∧ Blank (getPlayerCharid p.id) rest := by
  have hnil : (∀ i, ¬ Bits [] i) ∧ Blank (getPlayerCharid p.id) [] :=
    ⟨fun i => bits_nil, fun m hm => by cases hm⟩
  have hdel : (∀ i, ¬ Bits [{ type := 0, id := getPlayerCharid p.id, isdel := isDel }] i) ∧
      Blank (getPlayerCharid p.id) [{ type := 0, id := getPlayerCharid p.id, isdel := isDel }] := by
    refine ⟨fun i => ?_, fun m hm => ?_⟩
    · rw [bits_singleton, hasBit_zero]
      exact Bool.false_ne_true
    · rw [List.mem_singleton.mp hm]
      exact ⟨getPlayerCharid_getPlayerCharid p.id, rfl⟩
  unfold Player.saveAllPlayer
  dsimp only
  split_ifs
  · exact ⟨_, by rw [infos_append, infos_append, List.append_assoc]; rfl, hdel⟩
  · exact ⟨_, infos_append _ _, hnil⟩
  · exact ⟨_, infos_append _ _, hdel⟩
  · exact ⟨[], (List.append_nil _).symm, hnil⟩

variable (byteSize) in
/-- **What a save sends**: a bit for every structure that was to be saved, and no data. -/
theorem sent_spec (p : Player) (sendData : SaveDataInfo) (flag isDel : Bool) :
    (∀ i, Bits (infos (p.saveAllPlayer byteSize sendData flag isDel).2.2) i ↔ Saved p flag i) ∧
    Blank (getPlayerCharid p.id) (infos (p.saveAllPlayer byteSize sendData flag isDel).2.2) := by
  obtain ⟨hbits, hblank⟩ := collectAll_spec byteSize p flag
  obtain ⟨rest, hinfos, hrest, hrestBlank⟩ := infos_saveAllPlayer byteSize p sendData flag isDel
  obtain ⟨hsent, hsentBlank⟩ := sendAll_spec p
    { sendData with count := (p.collectAll byteSize flag).infoVec.length } isDel
    (getPlayerCharid p.id) (p.collectAll byteSize flag).infoVec
  rw [hinfos]
  refine ⟨fun i => ?_, fun m hm => ?_⟩
  · rw [bits_append, or_iff_left (hrest i), hsent, hbits]
  · rcases List.mem_append.mp hm with hm | hm
    · exact hsentBlank hblank m hm
    · exact hrestBlank m hm

/-! ### What the cache makes of them -/

/-- A message on its way: when it is processed, and what becomes of the statement it may cause. -/
structure Arrival where
  info : SaveTypeInfo
  now : ℕ
  outcome : SqlOutcome

/-- Both handlers of the DBServer pass the message to `SaveToCache`. -/
def process (s : Store) (a : Arrival) : Option Store := s.saveToCache a.now a.outcome a.info

/-- The cache holds these contents of a player. -/
def Holds (s : Store) (charid : Int64) (content : (i : ECharBaseStruct) → Option (Content i)) :
    Prop :=
  ∃ mgr, s.allPlayer[charid]? = some (some mgr) ∧ ∀ i, (mgr i).content = content i

/-- The contents after messages without data, one of which has the bit of the base data if `bit`. -/
def blanked (bit : Bool) (content : (i : ECharBaseStruct) → Option (Content i)) :
    (i : ECharBaseStruct) → Option (Content i)
  | eBaseInfo => if bit then some {} else content eBaseInfo
  | eFriendInfo => content eFriendInfo

theorem savePlayer_get (s : Store) (o : SqlOutcome) (charid : Int64) (mgr : PlayerDBMgr) :
    (s.savePlayer o charid mgr).allPlayer[charid]? =
      some (some (mgr.savePlayerStruct o s.roleInfo).2.1) :=
  get_insert_self _ _ _

/-- A message of a player whose base data is loaded. -/
theorem overwritten_some {info : SaveTypeInfo} {mgr : PlayerDBMgr}
    (h : hasBit info.type eBaseInfo → (mgr eBaseInfo).content.isSome) (hi : info.bsinfo = none) :
    ∃ mgr', overwritten info mgr = some mgr' ∧
      ∀ i, (mgr' i).content = blanked (hasBit info.type eBaseInfo) (fun i => (mgr i).content) i := by
  unfold overwritten
  split_ifs with hb
  · obtain ⟨base, hbase⟩ := Option.isSome_iff_exists.mp (h hb)
    refine ⟨_, by unfold PlayerDBMgr.addStruct CStructTemplate.addContent; rw [hbase]; rfl, ?_⟩
    intro i
    cases i with
    | eBaseInfo =>
      rw [Function.update_self, hi]
      exact (if_pos hb).symm
    | eFriendInfo => rfl
  · refine ⟨mgr, rfl, fun i => ?_⟩
    cases i with
    | eBaseInfo => exact (if_neg hb).symm
    | eFriendInfo => rfl

theorem overwritten_null {info : SaveTypeInfo} {mgr : PlayerDBMgr}
    (hb : hasBit info.type eBaseInfo) (h : (mgr eBaseInfo).content = none) :
    overwritten info mgr = none := by
  unfold overwritten PlayerDBMgr.addStruct CStructTemplate.addContent
  rw [if_pos hb, h]
  rfl

/-- A message without data. -/
theorem process_spec {s : Store} {charid : Int64}
    {content : (i : ECharBaseStruct) → Option (Content i)} (hs : Holds s charid content)
    {a : Arrival} (hid : getPlayerCharid a.info.id = charid) (hi : a.info.bsinfo = none)
    (h : hasBit a.info.type eBaseInfo → (content eBaseInfo).isSome) :
    ∃ s', process s a = some s' ∧
      Holds s' charid (blanked (hasBit a.info.type eBaseInfo) content) := by
  obtain ⟨mgr, hget, hmgr⟩ := hs
  obtain rfl : (fun i => (mgr i).content) = content := funext hmgr
  subst hid
  obtain ⟨mgr', hov, hcont⟩ := overwritten_some h hi
  unfold process
  rw [saveToCache_eq _ _ hget, hov, Option.map_some]
  refine ⟨_, rfl, ?_⟩
  dsimp only
  split_ifs
  · refine ⟨_, savePlayer_get _ _ _ _, fun i => ?_⟩
    rw [savePlayerStruct_content, setFlag_content, hcont]
  · exact ⟨mgr', get_insert_self _ _ _, hcont⟩

/-- **A list of messages without data**: the base data is blank afterwards if a message has its bit,
and everything else is as before. -/
theorem deliver_spec {charid : Int64} (l : List Arrival) {s : Store}
    {content : (i : ECharBaseStruct) → Option (Content i)} (hs : Holds s charid content)
    (hl : Blank charid (l.map Arrival.info))
    (h : Bits (l.map Arrival.info) eBaseInfo → (content eBaseInfo).isSome) :
    ∃ s' bit, run process s l = some s' ∧ (bit = true ↔ Bits (l.map Arrival.info) eBaseInfo) ∧
      Holds s' charid (blanked bit content) := by
  induction l generalizing s content with
  | nil =>
    refine ⟨s, false, rfl, by simp [bits_nil], ?_⟩
    obtain ⟨mgr, hget, hmgr⟩ := hs
    exact ⟨mgr, hget, fun i => by rw [hmgr]; cases i <;> rfl⟩
  | cons a l ih =>
    rw [List.map_cons] at hl h
    obtain ⟨hid, hi⟩ := hl a.info List.mem_cons_self
    obtain ⟨s₁, h₁, hs₁⟩ := process_spec hs hid hi fun hb => h (bits_cons.mpr (Or.inl hb))
    have hsome : Bits (l.map Arrival.info) eBaseInfo →
        (blanked (hasBit a.info.type eBaseInfo) content eBaseInfo).isSome := fun hb => by
      unfold blanked
      split_ifs
      · rfl
      · exact h (bits_cons.mpr (Or.inr hb))
    obtain ⟨s', bit, hrun, hbit, hs'⟩ := ih hs₁ (fun m hm => hl m (List.mem_cons_of_mem _ hm)) hsome
    refine ⟨s', hasBit a.info.type eBaseInfo || bit, ?_, ?_, ?_⟩
    · rw [run_cons, h₁, Option.bind_some, hrun]
    · rw [Bool.or_eq_true, hbit, List.map_cons, bits_cons]
    · obtain ⟨mgr, hget, hmgr⟩ := hs'
      refine ⟨mgr, hget, fun i => (hmgr i).trans ?_⟩
      cases i with
      | eBaseInfo => cases bit <;> cases hasBit a.info.type eBaseInfo <;> rfl
      | eFriendInfo => rfl

/-- The base data of a player that is not loaded cannot be overwritten. -/
theorem deliver_null {charid : Int64} (l : List Arrival) {s : Store}
    {content : (i : ECharBaseStruct) → Option (Content i)} (hs : Holds s charid content)
    (hl : Blank charid (l.map Arrival.info)) (hb : Bits (l.map Arrival.info) eBaseInfo)
    (hnull : content eBaseInfo = none) : run process s l = none := by
  induction l generalizing s content with
  | nil => exact absurd hb bits_nil
  | cons a l ih =>
    rw [List.map_cons] at hl hb
    obtain ⟨hid, hi⟩ := hl a.info List.mem_cons_self
    by_cases ha : hasBit a.info.type eBaseInfo
    · obtain ⟨mgr, hget, hmgr⟩ := hs
      subst hid
      have hproc : process s a = none := by
        unfold process
        rw [saveToCache_eq _ _ hget, overwritten_null ha ((hmgr eBaseInfo).trans hnull),
          Option.map_none]
      rw [run_cons, hproc, Option.bind_none]
    · obtain ⟨s₁, h₁, hs₁⟩ := process_spec hs hid hi fun hb => absurd hb ha
      rw [run_cons, h₁, Option.bind_some]
      refine ih hs₁ (fun m hm => hl m (List.mem_cons_of_mem _ hm))
        ((bits_cons.mp hb).resolve_left ha) ?_
      exact (if_neg ha).trans hnull

/-! ### When a save is exact -/

/-- After the messages `msgs`, the cache holds what the player does of every structure whose bit one
of them has, and what it did before of the others. -/
def Exact (p : Player) (msgs : List SaveTypeInfo) (mgr : PlayerDBMgr) (s' : Store) : Prop :=
  ∃ mgr', s'.allPlayer[getPlayerCharid p.id]? = some (some mgr') ∧
    ∀ i, (Bits msgs i → (mgr' i).content = some (p.inMemory i)) ∧
      (¬ Bits msgs i → (mgr' i).content = (mgr i).content)

/-- The structures to be saved are loaded in the cache, the player's base data is all defaults, and
its friends are in the cache already. -/
structure AlreadySaved (p : Player) (flag : Bool) (mgr : PlayerDBMgr) : Prop where
  loaded : Saved p flag eBaseInfo → (mgr eBaseInfo).content.isSome
  base : Saved p flag eBaseInfo → p.setBaseInfo = {}
  friend : Saved p flag eFriendInfo → (mgr eFriendInfo).content = some p.friendMgr.getFriendsInfo

/-- **When a save is exact.** For every player, every way of saving it and every cache that has the
player, whenever the messages arrive and whatever the database does: the messages are processed
without a fault, and leave in the cache what the player holds of the structures saved and what there
was of the others, exactly if nothing that is saved could have changed. -/
theorem save_exact (byteSize : SaveTypeInfo → ℕ) (p : Player) (sendData : SaveDataInfo)
    (flag isDel : Bool) (s : Store) (mgr : PlayerDBMgr)
    (hs : s.allPlayer[getPlayerCharid p.id]? = some (some mgr)) (arrivals : List Arrival)
    (ha : arrivals.map Arrival.info =
      infos (p.saveAllPlayer byteSize sendData flag isDel).2.2) :
    (∃ s', run process s arrivals = some s' ∧ Exact p (arrivals.map Arrival.info) mgr s') ↔
      AlreadySaved p flag mgr := by
  obtain ⟨hbits, hblank⟩ := sent_spec byteSize p sendData flag isDel
  rw [← ha] at hbits hblank
  have hholds : Holds s (getPlayerCharid p.id) fun i => (mgr i).content :=
    ⟨mgr, hs, fun i => rfl⟩
  constructor
  · rintro ⟨s', hrun, mgr', hget, hexact⟩
    have hloaded : Saved p flag eBaseInfo → (mgr eBaseInfo).content.isSome := fun hsaved => by
      by_contra hnull
      rw [deliver_null arrivals hholds hblank ((hbits _).mpr hsaved)
        (Option.not_isSome_iff_eq_none.mp hnull)] at hrun
      cases hrun
    obtain ⟨s'', bit, hrun', hbit, mgr'', hget', hmgr''⟩ :=
      deliver_spec arrivals hholds hblank fun hb => hloaded ((hbits _).mp hb)
    obtain rfl : s' = s'' := Option.some.inj (hrun.symm.trans hrun')
    obtain rfl : mgr' = mgr'' := Option.some.inj (Option.some.inj (hget.symm.trans hget'))
    refine ⟨hloaded, fun hsaved => ?_, fun hsaved => ?_⟩
    · have hb := (hbits _).mpr hsaved
      have h1 := (hexact eBaseInfo).1 hb
      rw [hmgr'' eBaseInfo, hbit.mpr hb] at h1
      exact (Option.some.inj h1).symm
    · have h1 := (hexact eFriendInfo).1 ((hbits _).mpr hsaved)
      rw [hmgr'' eFriendInfo] at h1
      exact h1
  · rintro ⟨hloaded, hbase, hfriend⟩
    obtain ⟨s', bit, hrun, hbit, mgr', hget, hmgr'⟩ :=
      deliver_spec arrivals hholds hblank fun hb => hloaded ((hbits _).mp hb)
    refine ⟨s', hrun, mgr', hget, fun i => ?_⟩
    cases i with
    | eBaseInfo =>
      refine ⟨fun hb => ?_, fun hb => ?_⟩
      · rw [hmgr' eBaseInfo, hbit.mpr hb]
        exact congrArg some (hbase ((hbits _).mp hb)).symm
      · rw [hmgr' eBaseInfo, Bool.eq_false_iff.mpr (mt hbit.mp hb)]
        rfl
    | eFriendInfo =>
      exact ⟨fun hb => (hmgr' eFriendInfo).trans (hfriend ((hbits _).mp hb)),
        fun _ => hmgr' eFriendInfo⟩

/-! ### Two players with dirty base data -/

/-- A player whose base data is loaded and dirty. -/
def loaded (id : Int64) (name : List UInt8) : Player where
  id := id
  name := name
  dirtyData i := i = eBaseInfo
  initpartData i := i = eBaseInfo

/-- A cache with the base data of the player. -/
def caching (p : Player) : Store where
  allPlayer := (∅ : Std.TreeMap Int64 (Option PlayerDBMgr)).insert (getPlayerCharid p.id)
    (some (PlayerDBMgr.new.setStruct eBaseInfo (some p.setBaseInfo)))

/-- What the timer of the player sends, each message processed on its own. -/
def arrivalsOf (p : Player) : List Arrival :=
  (infos (p.saveAllPlayer (fun _ => 0) {} false false).2.2).map fun info => ⟨info, 0, .success⟩

/-- A player without a name and an id is saved as it is. -/
theorem save_exact_nobody :
    ∃ s', run process (caching (loaded 0 [])) (arrivalsOf (loaded 0 [])) = some s' ∧
      Exact (loaded 0 []) ((arrivalsOf (loaded 0 [])).map Arrival.info)
        (PlayerDBMgr.new.setStruct eBaseInfo (some (loaded 0 []).setBaseInfo)) s' :=
  (save_exact (fun _ => 0) (loaded 0 []) {} false false (caching (loaded 0 [])) _
    (get_insert_self _ _ _) (arrivalsOf (loaded 0 [])) rfl).mpr
    ⟨fun _ => by decide, fun _ => by decide, fun h => absurd h (by unfold Saved; decide)⟩

/-- A player with a name is overwritten with defaults, although the message has its bit. -/
theorem named_blanked :
    Bits ((arrivalsOf (loaded 1 [97])).map Arrival.info) eBaseInfo ∧
    (loaded 1 [97]).setBaseInfo.charname = [97] ∧
    (run process (caching (loaded 1 [97])) (arrivalsOf (loaded 1 [97]))).map
      (fun s => s.allPlayer[(1 : Int64)]?.map fun it =>
        it.map fun mgr => (mgr eBaseInfo).content) = some (some (some (some {}))) :=
  ⟨by unfold Bits; decide, rfl, by decide +kernel⟩

end ChatShow.DBServer.SaveChain
