import ChatShow.Lib.Runs
import Mathlib.Data.List.Count
import Mathlib.Data.List.Nodup
import Mathlib.Data.List.Perm.Basic
import Mathlib.Tactic.Common
import Mathlib.Data.Int.Notation

/-! # Handlers, groups and threads

`handlerlib.c` keeps the handlers in one array and each group's in a list of its own; `register_handler`
gives a handler its id, in which the group and the place in the array are. `start_all_handlers` makes the
threads: one for each handler of a group that has no more handlers than threads, and as many as it has
threads for the list of a larger one. `none` is an `ASSERT` that fails.

`_index` and `_size` of a list are those of its array while handlers are registered; the threads find the
number of handlers in `_size`, and take their turns by `_index` (`Antlib/HandlerThreads`). -/

namespace ChatShow.Antlib.HandlerGroups

open ChatShow.Lib.Runs

/-! ### The lists of the groups -/

/-- `struct handlers_list`. A place of `_handlers` that has not been written is `none`. -/
structure HandlersList where
  handlers : ℕ → Option ℕ := fun _ => none
  id : Int32
  size : ℕ := 0
  index : ℕ := 0
  threadsNum : ℕ

/-- What `create_thread` is given: `thread_proc_handler` with a handler, or `handlers_list_thread_proc`
with the list of a group. -/
inductive Thread
  | handler (hl : Option ℕ)
  | list (id : Int32)
  deriving DecidableEq

namespace HandlersList

/-- `add_handler`. -/
def addHandler (list : HandlersList) (hl : ℕ) : Option HandlersList :=
  let list := if list.index = list.size then
      { list with
        handlers := fun k => if k < list.size then list.handlers k else none, size := list.size + 32 }
    else list
  if list.index < list.size then
    some { list with
      handlers := Function.update list.handlers list.index (some hl), index := list.index + 1 }
  else none

/-- `crate_handlers_thread`: the threads, and the list. -/
def crateHandlersThread (list : HandlersList) : List Thread × HandlersList :=
  if list.index ≤ list.threadsNum then
    ((List.range list.index).map fun i => .handler (list.handlers i),
      { list with threadsNum := list.index, size := list.index, index := 0 })
  else (List.replicate list.threadsNum (.list list.id), { list with size := list.index, index := 0 })

/-- The first `n` places. -/
def places (list : HandlersList) (n : ℕ) : List (Option ℕ) := (List.range n).map list.handlers

end HandlersList

/-! ### The library -/

/-- `struct handlerlib`. A handler is its id here, and 0 where there is none. -/
structure HandlerLib where
  pools : List HandlersList := []
  serverId : Int32
  listIndex : ℕ := 0
  listCount : ℕ
  state : ℕ := 1
  handlerid : ℕ → UInt32 := fun _ => 0
  threads : List Thread := []

/-- `init_handlerlib`. -/
def initHandlerlib (serverId handlersMax : Int32) : Option HandlerLib :=
  if 0 < handlersMax ∧ handlersMax ≤ 2048 then
    some { serverId := serverId, listCount := handlersMax.toInt.toNat }
  else none

/-- The id of the handler at a place of the array. -/
def handlerId (serverId groupId : Int32) (index : ℕ) : UInt32 :=
  serverId.toUInt32 <<< 16 ||| groupId.toUInt32 <<< 11 ||| UInt32.ofNat index &&& 0x7FF

/-- `_get_handler_group`. -/
def getHandlerGroup (pools : List HandlersList) (groupid : Int32) : Option HandlersList :=
  pools.find? fun list => list.id = groupid

/-- The list of a group is changed to `list`. -/
def put (list : HandlersList) : List HandlersList → List HandlersList
  | [] => []
  | node :: pools => if node.id = list.id then list :: pools else node :: put list pools

namespace HandlerLib

def createHandlersGroup (s : HandlerLib) (groupid threadCount : Int32) : Option HandlerLib :=
  if 0 < groupid ∧ groupid < 31 ∧ 0 < threadCount ∧ threadCount < 1024 ∧
      getHandlerGroup s.pools groupid = none then
    some { s with pools := { id := groupid, threadsNum := threadCount.toInt.toNat } :: s.pools }
  else none

/-- `register_handler`, which returns the id. -/
def registerHandler (s : HandlerLib) (groupId : Int32) : Option (UInt32 × HandlerLib) :=
  if s.listIndex < s.listCount ∧ 0 ≤ groupId ∧ groupId < 32 ∧ s.handlerid s.listIndex = 0 then
    (getHandlerGroup s.pools groupId).bind fun list =>
      let index := s.listIndex
      let id := handlerId s.serverId groupId index
      (list.addHandler index).map fun list =>
        (id, { s with
          listIndex := index + 1, handlerid := Function.update s.handlerid index id
          pools := put list s.pools })
  else none

def startAllHandlers (s : HandlerLib) : Option HandlerLib :=
  if s.state = 1 then
    some { s with
      state := 2
      pools := s.pools.map fun list => list.crateHandlersThread.2
      threads := s.threads ++ s.pools.flatMap fun list => list.crateHandlersThread.1 }
  else none

/-- `send_handler_msg`: the handler whose queue the message is put into. -/
def sendHandlerMsg (s : HandlerLib) (handlerid : UInt32) : Option ℕ :=
  let index := (handlerid &&& 0x7FF).toNat
  if (s.state = 2 ∨ s.state = 1) ∧ index < s.listCount ∧ s.handlerid index > 0 then some index else none

inductive Label
  | createGroup (groupid threadCount : Int32)
  | register (groupId : Int32)

/-- What is done before the threads are started. -/
def step (s : HandlerLib) : Label → Option HandlerLib
  | .createGroup groupid threadCount => s.createHandlersGroup groupid threadCount
  | .register groupId => (s.registerHandler groupId).map Prod.snd

end HandlerLib

/-! ### Ids -/

/-- The bits that a mask of a place leaves of numbers that have been shifted. -/
theorem shift_mask (x : BitVec 32) {n : ℕ} (h : 11 ≤ n) : x <<< n &&& 0x7FF#32 = 0#32 := by
  refine BitVec.eq_of_getLsbD_eq fun i hi => ?_
  have hmask : (0x7FF#32).getLsbD i = decide (i < 11) := Nat.testBit_two_pow_sub_one 11 i
  rw [BitVec.getLsbD_and, BitVec.getLsbD_shiftLeft, hmask, BitVec.getLsbD_zero]
  by_cases h11 : i < 11
  · rw [decide_eq_true (show i < n by omega), Bool.not_true, Bool.and_false, Bool.false_and, Bool.false_and]
  · rw [decide_eq_false h11, Bool.and_false]

/-- The id has the place of the handler in its lower bits. -/
theorem handlerId_mask (serverId groupId : Int32) (index : ℕ) :
    handlerId serverId groupId index &&& 0x7FF = UInt32.ofNat index &&& 0x7FF := by
  refine UInt32.toBitVec_inj.mp ?_
  show (serverId.toBitVec <<< 16 ||| groupId.toBitVec <<< 11 ||| (UInt32.ofNat index).toBitVec &&& 0x7FF#32) &&&
    0x7FF#32 = (UInt32.ofNat index).toBitVec &&& 0x7FF#32
  rw [BitVec.and_or_distrib_right, BitVec.and_or_distrib_right, shift_mask _ (by decide), shift_mask _ (Nat.le_refl 11),
    BitVec.or_zero, BitVec.zero_or, BitVec.and_assoc, BitVec.and_self]

theorem handlerId_ne_zero (serverId : Int32) {groupId : Int32} (index : ℕ) (h : 0 < groupId)
    (h' : groupId < 31) :
    handlerId serverId groupId index ≠ 0 := by
  intro hzero
  obtain ⟨hshift, -⟩ := UInt32.or_eq_zero_iff.mp hzero
  obtain ⟨-, hgroup⟩ := UInt32.or_eq_zero_iff.mp hshift
  have hlt : groupId.toInt < 31 := Int32.lt_iff_toInt_lt.mp h'
  have hpos : 0 < groupId.toInt := Int32.lt_iff_toInt_lt.mp h
  have hnat : groupId.toUInt32.toNat = groupId.toInt.toNat :=
    Int32.toNat_toUInt32_of_le (Int32.le_iff_toInt_le.mpr (Int.le_of_lt hpos))
  have hmul : groupId.toUInt32.toNat * 2 ^ 11 < 2 ^ 32 := by omega
  have hnone := congrArg UInt32.toNat hgroup
  rw [UInt32.toNat_shiftLeft, Nat.shiftLeft_eq, show (11 : UInt32).toNat % 32 = 11 from rfl, Nat.mod_eq_of_lt hmul]
    at hnone
  have : (0 : UInt32).toNat = 0 := rfl
  omega

/-! ### What is kept while handlers are registered -/

/-- Each handler is in the list of one group, at one place, and has that group in its id. -/
structure Registered (s : HandlerLib) : Prop where
  count : s.listIndex ≤ s.listCount ∧ s.listCount ≤ 2048
  state : s.state = 1
  threads : s.threads = []
  fresh : ∀ i, s.listIndex ≤ i → s.handlerid i = 0
  nodup : (s.pools.map HandlersList.id).Nodup
  groups : ∀ list ∈ s.pools, 0 < list.id ∧ list.id < 31 ∧ 0 < list.threadsNum ∧ list.index ≤ list.size
  places : (s.pools.flatMap fun list => list.places list.index).Perm ((List.range s.listIndex).map some)
  ids : ∀ list ∈ s.pools, ∀ i, some i ∈ list.places list.index →
    s.handlerid i = handlerId s.serverId list.id i

variable {s s' : HandlerLib} {list : HandlersList} {i : ℕ}

theorem registered_init {serverId handlersMax : Int32} (h : initHandlerlib serverId handlersMax = some s) :
    Registered s := by
  unfold initHandlerlib at h
  split_ifs at h with hmax
  cases h
  have hle : handlersMax.toInt ≤ 2048 := Int32.le_iff_toInt_le.mp hmax.2
  refine ⟨⟨Nat.zero_le _, ?_⟩, rfl, rfl, fun _ _ => rfl, List.nodup_nil, ?_, List.Perm.nil, ?_⟩
  · dsimp only
    omega
  · exact fun list h => absurd h List.not_mem_nil
  · exact fun list h => absurd h List.not_mem_nil

/-- A handler is added behind the others, in a larger array where the old one is full. -/
theorem addHandler_some (h : list.index ≤ list.size) (hl : ℕ) :
    ∃ list', list.addHandler hl = some list' ∧ list'.id = list.id ∧ list'.threadsNum = list.threadsNum ∧
      list'.index ≤ list'.size ∧ list'.places list'.index = list.places list.index ++ [some hl] := by
  have hplaces (handlers : ℕ → Option ℕ) (hsame : ∀ k < list.index, handlers k = list.handlers k) :
      (List.range (list.index + 1)).map (Function.update handlers list.index (some hl)) =
        list.places list.index ++ [some hl] := by
    rw [List.range_succ, List.map_append, List.map_singleton, Function.update_self]
    congr 1
    refine List.map_congr_left fun k hk => ?_
    have hlt := List.mem_range.mp hk
    rw [Function.update_of_ne (Nat.ne_of_lt hlt), hsame k hlt]
  unfold HandlersList.addHandler
  by_cases hfull : list.index = list.size
  · rw [if_pos hfull]
    dsimp only
    rw [if_pos (by omega)]
    refine ⟨_, rfl, rfl, rfl, ?_, hplaces _ fun k hk => if_pos (hfull ▸ hk)⟩
    dsimp only
    omega
  · rw [if_neg hfull]
    dsimp only
    rw [if_pos (by omega)]
    refine ⟨_, rfl, rfl, rfl, ?_, hplaces _ fun _ _ => rfl⟩
    dsimp only
    omega

/-- The list of a group is one of the lists, and is the one that is changed. -/
theorem getHandlerGroup_some {pools : List HandlersList} {groupid : Int32}
    (h : getHandlerGroup pools groupid = some list) :
    list.id = groupid ∧ ∃ l₁ l₂, pools = l₁ ++ list :: l₂ ∧
      ∀ list' : HandlersList, list'.id = groupid → put list' pools = l₁ ++ list' :: l₂ := by
  induction pools with
  | nil => cases h
  | cons node pools ih =>
    unfold getHandlerGroup at h ih
    rw [List.find?_cons] at h
    by_cases hnode : node.id = groupid
    · rw [decide_eq_true hnode] at h
      cases h
      refine ⟨hnode, [], pools, rfl, fun list' hid => ?_⟩
      rw [put, if_pos (hnode.trans hid.symm), List.nil_append]
    · rw [decide_eq_false hnode] at h
      obtain ⟨hid, l₁, l₂, rfl, hput⟩ := ih h
      refine ⟨hid, node :: l₁, l₂, rfl, fun list' hid' => ?_⟩
      rw [put, if_neg fun he => hnode (he.trans hid'), hput list' hid', List.cons_append]

theorem Registered.createGroup (h : Registered s) {groupid threadCount : Int32}
    (hs : s.createHandlersGroup groupid threadCount = some s') : Registered s' := by
  unfold HandlerLib.createHandlersGroup at hs
  split_ifs at hs with hok
  cases hs
  obtain ⟨hpos, hlt, hthreads, -, hnone⟩ := hok
  have hnum : 0 < threadCount.toInt := Int32.lt_iff_toInt_lt.mp hthreads
  refine ⟨h.count, h.state, h.threads, h.fresh, ?_, ?_, h.places, ?_⟩
  · refine List.nodup_cons.mpr ⟨fun hmem => ?_, h.nodup⟩
    obtain ⟨list, hlist, hid⟩ := List.mem_map.mp hmem
    exact List.find?_eq_none.mp hnone list hlist (decide_eq_true hid)
  · refine List.forall_mem_cons.mpr ⟨⟨hpos, hlt, ?_, Nat.le_refl _⟩, h.groups⟩
    dsimp only
    omega
  · exact List.forall_mem_cons.mpr ⟨fun i hi => absurd hi List.not_mem_nil, h.ids⟩

theorem Registered.register (h : Registered s) {groupId : Int32} {id : UInt32}
    (hs : s.registerHandler groupId = some (id, s')) : Registered s' := by
  unfold HandlerLib.registerHandler at hs
  split_ifs at hs with hok
  obtain ⟨list, hget, hs⟩ := Option.bind_eq_some_iff.mp hs
  obtain ⟨hid, l₁, l₂, hpools, hput⟩ := getHandlerGroup_some hget
  have hmem : list ∈ s.pools := hpools ▸ List.mem_append_right _ List.mem_cons_self
  obtain ⟨hpos, hlt, hthreads, hle⟩ := h.groups list hmem
  obtain ⟨list', hadd, hid', hnum, hle', hplaces⟩ := addHandler_some hle s.listIndex
  dsimp only at hs
  rw [hadd] at hs
  cases hs
  have hput' := hput list' (hid'.trans hid)
  have hothers : ∀ q ∈ l₁ ++ l₂, q ∈ s.pools := by
    intro q hq
    rw [hpools]
    rcases List.mem_append.mp hq with hq | hq
    · exact List.mem_append_left _ hq
    · exact List.mem_append_right _ (List.mem_cons_of_mem _ hq)
  have hall {P : HandlersList → Prop} (hlist : P list') (hrest : ∀ q ∈ s.pools, P q) :
      ∀ q ∈ put list' s.pools, P q := by
    intro q hq
    rw [hput', List.mem_append, List.mem_cons] at hq
    rcases hq with hq | rfl | hq
    · exact hrest q (hothers q (List.mem_append_left _ hq))
    · exact hlist
    · exact hrest q (hothers q (List.mem_append_right _ hq))
  have hold : ∀ q ∈ s.pools, ∀ i, some i ∈ q.places q.index → i < s.listIndex := by
    intro q hq i hi
    have := h.places.mem_iff.mp (List.mem_flatMap.mpr ⟨q, hq, hi⟩)
    simpa using this
  have hkeep {q : HandlersList} {i : ℕ} (hq : q ∈ s.pools) (hi : some i ∈ q.places q.index) :
      Function.update s.handlerid s.listIndex (handlerId s.serverId groupId s.listIndex) i =
        handlerId s.serverId q.id i := by
    rw [Function.update_of_ne (Nat.ne_of_lt (hold q hq i hi))]
    exact h.ids q hq i hi
  refine ⟨⟨hok.1, h.count.2⟩, h.state, h.threads, fun i hi => ?_, ?_, ?_, ?_, ?_⟩
  · dsimp only at hi ⊢
    rw [Function.update_of_ne (by omega)]
    exact h.fresh i (by omega)
  · have hnodup := h.nodup
    rw [hpools] at hnodup
    dsimp only
    rw [hput']
    simpa only [List.map_append, List.map_cons, hid'] using hnodup
  · exact hall ⟨hid'.symm ▸ hpos, hid'.symm ▸ hlt, hnum.symm ▸ hthreads, hle'⟩ h.groups
  · have hperm := h.places
    rw [hpools] at hperm
    dsimp only
    rw [hput', List.range_succ, List.map_append]
    simp only [List.flatMap_append, List.flatMap_cons, hplaces] at hperm ⊢
    refine List.Perm.trans ?_ (hperm.append_right [some s.listIndex])
    simp only [List.append_assoc]
    exact (List.perm_append_comm.append_left _).append_left _
  · refine hall (P := fun q => ∀ i, some i ∈ q.places q.index → _ = handlerId s.serverId q.id i) ?_ ?_
    · intro i hi
      rw [hplaces, List.mem_append, List.mem_singleton, Option.some.injEq] at hi
      rw [hid']
      rcases hi with hi | rfl
      · exact hkeep hmem hi
      · rw [hid]
        exact Function.update_self ..
    · exact fun q hq i hi => hkeep hq hi

theorem Registered.step (h : Registered s) {a : HandlerLib.Label} (hs : s.step a = some s') : Registered s' := by
  cases a with
  | createGroup groupid threadCount => exact h.createGroup hs
  | register groupId =>
    obtain ⟨⟨id, s'⟩, hr, rfl⟩ := Option.map_eq_some_iff.mp hs
    exact h.register hr

/-! ### The threads -/

theorem count_handler (list : HandlersList) (i : ℕ) :
    list.crateHandlersThread.1.count (.handler (some i)) =
      if list.index ≤ list.threadsNum then (list.places list.index).count (some i) else 0 := by
  unfold HandlersList.crateHandlersThread HandlersList.places
  split_ifs with h
  · have hinj : Function.Injective Thread.handler := fun a b hab => Thread.handler.inj hab
    rw [← List.count_map_of_injective _ Thread.handler hinj, List.map_map]
    rfl
  · exact List.count_eq_zero.mpr fun hmem => by cases List.eq_of_mem_replicate hmem

theorem count_list (list : HandlersList) (id : Int32) :
    list.crateHandlersThread.1.count (.list id) =
      if list.threadsNum < list.index ∧ list.id = id then list.threadsNum else 0 := by
  unfold HandlersList.crateHandlersThread
  by_cases h : list.index ≤ list.threadsNum
  · rw [if_pos h, if_neg fun hc => absurd hc.1 (Nat.not_lt.mpr h)]
    refine List.count_eq_zero.mpr fun hmem => ?_
    obtain ⟨k, -, hk⟩ := List.mem_map.mp hmem
    cases hk
  · rw [if_neg h, List.count_replicate]
    by_cases hid : list.id = id
    · rw [hid, if_pos (by rw [beq_self_eq_true]), if_pos ⟨Nat.lt_of_not_le h, rfl⟩]
    · rw [if_neg (by simpa using hid), if_neg fun hc => hid hc.2]

/-- A handler is in one list, at one place. -/
theorem Registered.exists_place (h : Registered s) (hi : i < s.listIndex) :
    ∃ l₁ list l₂, s.pools = l₁ ++ list :: l₂ ∧ (list.places list.index).Nodup ∧
      some i ∈ list.places list.index ∧ ∀ q ∈ l₁ ++ l₂, some i ∉ q.places q.index := by
  have hinj : Function.Injective (some : ℕ → Option ℕ) := fun _ _ hab => Option.some.inj hab
  have hnodup : (s.pools.flatMap fun q => q.places q.index).Nodup :=
    h.places.nodup_iff.mpr (List.nodup_range.map hinj)
  have hmem : some i ∈ s.pools.flatMap fun q => q.places q.index :=
    h.places.mem_iff.mpr (List.mem_map_of_mem (List.mem_range.mpr hi))
  obtain ⟨list, hlist, hmem⟩ := List.mem_flatMap.mp hmem
  obtain ⟨l₁, l₂, hpools⟩ := List.append_of_mem hlist
  rw [hpools, List.flatMap_append, List.flatMap_cons] at hnodup
  obtain ⟨-, hrest, hfront⟩ := List.nodup_append'.mp hnodup
  obtain ⟨hown, -, hback⟩ := List.nodup_append'.mp hrest
  refine ⟨l₁, list, l₂, hpools, hown, hmem, fun q hq hqi => ?_⟩
  rcases List.mem_append.mp hq with hq | hq
  · have hq' : some i ∈ l₁.flatMap fun q => q.places q.index := List.mem_flatMap.mpr ⟨q, hq, hqi⟩
    exact hfront hq' (List.mem_append_left _ hmem)
  · have hq' : some i ∈ l₂.flatMap fun q => q.places q.index := List.mem_flatMap.mpr ⟨q, hq, hqi⟩
    exact hback hmem hq'

/-- Once the threads are started, a handler is at the place `k` of `list` and at no other; a thread of its
own calls `do_handler` with it, and no other thread does, or else as many threads as the group has do,
which all take it from the list. -/
structure Served (s : HandlerLib) (i : ℕ) (list : HandlersList) (k : ℕ) : Prop where
  mem : list ∈ s.pools
  place : k < list.size ∧ list.handlers k = some i
  only : ∀ list' ∈ s.pools, ∀ k' < list'.size, list'.handlers k' = some i → list' = list ∧ k' = k
  index : list.index = 0
  id : s.handlerid i = handlerId s.serverId list.id i
  threads :
    (list.size ≤ list.threadsNum ∧ s.threads.count (.handler (some i)) = 1 ∧
      s.threads.count (.list list.id) = 0) ∨
    (list.threadsNum < list.size ∧ 0 < list.threadsNum ∧ s.threads.count (.handler (some i)) = 0 ∧
      s.threads.count (.list list.id) = list.threadsNum)

theorem crate_snd (list : HandlersList) :
    list.crateHandlersThread.2.handlers = list.handlers ∧ list.crateHandlersThread.2.id = list.id ∧
      list.crateHandlersThread.2.size = list.index ∧ list.crateHandlersThread.2.index = 0 ∧
      list.crateHandlersThread.2.threadsNum = min list.threadsNum list.index := by
  unfold HandlersList.crateHandlersThread
  split_ifs with h
  · exact ⟨rfl, rfl, rfl, rfl, (Nat.min_eq_right h).symm⟩
  · exact ⟨rfl, rfl, rfl, rfl, (Nat.min_eq_left (Nat.le_of_not_le h)).symm⟩

/-- The threads of the other lists do not count. -/
theorem count_threads {l₁ l₂ : List HandlersList} {t : Thread}
    (h : ∀ q ∈ l₁ ++ l₂, q.crateHandlersThread.1.count t = 0) :
    ((l₁ ++ list :: l₂).flatMap fun q => q.crateHandlersThread.1).count t =
      list.crateHandlersThread.1.count t := by
  have hzero (l : List HandlersList) (hl : ∀ q ∈ l, q.crateHandlersThread.1.count t = 0) :
      (l.flatMap fun q => q.crateHandlersThread.1).count t = 0 := by
    refine List.count_eq_zero.mpr fun hmem => ?_
    obtain ⟨q, hq, hqt⟩ := List.mem_flatMap.mp hmem
    exact List.count_eq_zero.mp (hl q hq) hqt
  rw [List.flatMap_append, List.flatMap_cons, List.count_append, List.count_append,
    hzero l₁ fun q hq => h q (List.mem_append_left _ hq), hzero l₂ fun q hq => h q (List.mem_append_right _ hq),
    Nat.zero_add, Nat.add_zero]

theorem Registered.start (h : Registered s) (hs : s.startAllHandlers = some s') (hi : i < s'.listIndex) :
    ∃ list k, Served s' i list k := by
  unfold HandlerLib.startAllHandlers at hs
  rw [if_pos h.state] at hs
  cases hs
  obtain ⟨l₁, list, l₂, hpools, hnodup, hmem, hnot⟩ := h.exists_place hi
  have hlist : list ∈ s.pools := hpools ▸ List.mem_append_right _ List.mem_cons_self
  obtain ⟨hhandlers, hid, hsize, hindex, hnum⟩ := crate_snd list
  obtain ⟨k, hk, hki⟩ := List.mem_map.mp hmem
  have hlt := List.mem_range.mp hk
  have hothers : ∀ q ∈ l₁ ++ l₂, q.id ≠ list.id := by
    have hids := h.nodup
    rw [hpools] at hids
    intro q hq he
    rw [List.map_append, List.map_cons, List.nodup_middle, ← List.map_append] at hids
    exact (List.nodup_cons.mp hids).1 (he ▸ List.mem_map_of_mem hq)
  have hhandler : ∀ q ∈ l₁ ++ l₂, q.crateHandlersThread.1.count (.handler (some i)) = 0 := by
    intro q hq
    rw [count_handler, List.count_eq_zero.mpr (hnot q hq), ite_self]
  have hshared : ∀ q ∈ l₁ ++ l₂, q.crateHandlersThread.1.count (.list list.id) = 0 := by
    intro q hq
    rw [count_list, if_neg fun hc => hothers q hq hc.2]
  refine ⟨list.crateHandlersThread.2, k, ⟨List.mem_map_of_mem hlist, ⟨hsize.symm ▸ hlt, ?_⟩, ?_, hindex, ?_, ?_⟩⟩
  · rw [hhandlers]
    exact hki
  · intro list' hlist' k' hk' hki'
    obtain ⟨q, hq, rfl⟩ := List.mem_map.mp hlist'
    obtain ⟨hhandlers', -, hsize', -⟩ := crate_snd q
    rw [hhandlers'] at hki'
    rw [hsize'] at hk'
    have hqi : some i ∈ q.places q.index := List.mem_map.mpr ⟨k', List.mem_range.mpr hk', hki'⟩
    rw [hpools, List.mem_append, List.mem_cons] at hq
    rcases hq with hq | rfl | hq
    · exact absurd hqi (hnot q (List.mem_append_left _ hq))
    · exact ⟨rfl, List.inj_on_of_nodup_map hnodup (List.mem_range.mpr hk') hk (hki'.trans hki.symm)⟩
    · exact absurd hqi (hnot q (List.mem_append_right _ hq))
  · rw [hid]
    exact h.ids list hlist i hmem
  · dsimp only
    rw [h.threads, List.nil_append, hpools, hid, count_threads hhandler, count_threads hshared, count_handler,
      count_list, hsize, hnum]
    have hpos := (h.groups list hlist).2.2.1
    by_cases hown : list.index ≤ list.threadsNum
    · left
      rw [if_pos hown, if_neg fun hc => absurd hc.1 (Nat.not_lt.mpr hown), Nat.min_eq_right hown]
      exact ⟨Nat.le_refl _, List.count_eq_one_of_mem hnodup hmem, rfl⟩
    · right
      have hmore := Nat.lt_of_not_le hown
      rw [if_neg hown, if_pos ⟨hmore, rfl⟩, Nat.min_eq_left (Nat.le_of_lt hmore)]
      exact ⟨hmore, hpos, rfl, rfl⟩

/-! ### From the first group to the threads -/

/-- The id of a handler is not 0, and has its place in the array. -/
theorem Registered.handlerid (h : Registered s) (hi : i < s.listIndex) :
    s.handlerid i ≠ 0 ∧ (s.handlerid i &&& 0x7FF).toNat = i := by
  obtain ⟨l₁, list, l₂, hpools, -, hmem, -⟩ := h.exists_place hi
  have hlist : list ∈ s.pools := hpools ▸ List.mem_append_right _ List.mem_cons_self
  obtain ⟨hpos, hlt, -⟩ := h.groups list hlist
  have hid := h.ids list hlist i hmem
  have hcount := h.count
  have hsmall : i < UInt32.size := by
    unfold UInt32.size
    omega
  constructor
  · rw [hid]
    exact handlerId_ne_zero _ i hpos hlt
  · rw [hid, handlerId_mask, UInt32.toNat_and, UInt32.toNat_ofNat_of_lt' hsmall]
    exact (Nat.and_two_pow_sub_one_eq_mod i 11).trans (Nat.mod_eq_of_lt (by omega))

/-- **Every handler gets its messages, and its threads.** Whatever groups and handlers there are, the id
that `register_handler` returns leads `send_handler_msg` to that handler and to no other; and after
`start_all_handlers` the handler is run by one thread of its own, or by all those of its group, which find
it at just one place of their list. -/
theorem handlers_started {serverId handlersMax : Int32} {s₀ : HandlerLib} {l : List HandlerLib.Label}
    (hinit : initHandlerlib serverId handlersMax = some s₀) (h : run HandlerLib.step s₀ l = some s)
    (hs : s.startAllHandlers = some s') (hi : i < s'.listIndex) :
    s'.handlerid i ≠ 0 ∧ s'.sendHandlerMsg (s'.handlerid i) = some i ∧ ∃ list k, Served s' i list k := by
  have hreg : Registered s := run_inv (fun _ _ _ hp hstep => hp.step hstep) h (registered_init hinit)
  have hserved := hreg.start hs hi
  unfold HandlerLib.startAllHandlers at hs
  rw [if_pos hreg.state] at hs
  cases hs
  obtain ⟨hne, hplace⟩ := hreg.handlerid hi
  have hlt : i < s.listCount := Nat.lt_of_lt_of_le hi hreg.count.1
  refine ⟨hne, ?_, hserved⟩
  unfold HandlerLib.sendHandlerMsg
  dsimp only
  rw [hplace, if_pos ⟨.inl rfl, hlt, UInt32.pos_iff_ne_zero.mpr hne⟩]

/-- A group of two handlers with a thread, and one of a handler with three threads. -/
def twoGroups : List HandlerLib.Label :=
  [.createGroup 1 1, .register 1, .createGroup 2 3, .register 2, .register 1]

theorem handlers_started_two : ∃ s₀ s s', initHandlerlib 1 64 = some s₀ ∧
    run HandlerLib.step s₀ twoGroups = some s ∧ s.startAllHandlers = some s' ∧ 2 < s'.listIndex ∧
    (s'.handlerid 2 ≠ 0 ∧ s'.sendHandlerMsg (s'.handlerid 2) = some 2 ∧ ∃ list k, Served s' 2 list k) := by
  have hinit : initHandlerlib 1 64 = some { serverId := 1, listCount := 64 } := rfl
  obtain ⟨s, hrun, hstate, hindex⟩ : ∃ s, run HandlerLib.step { serverId := 1, listCount := 64 } twoGroups = some s ∧
      s.state = 1 ∧ s.listIndex = 3 := ⟨_, rfl, rfl, rfl⟩
  have hs : s.startAllHandlers = some _ := if_pos hstate
  have hlt : 2 < s.listIndex := by
    rw [hindex]
    decide
  exact ⟨_, s, _, hinit, hrun, hs, hlt, handlers_started hinit hrun hs hlt⟩

end ChatShow.Antlib.HandlerGroups
