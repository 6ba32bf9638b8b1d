import ChatShow.Lib.Maps
import ChatShow.Lib.Runs
import Mathlib.Data.Int.Notation
import Mathlib.Logic.Function.Iterate

/-! # The pools of connections

`CSqlConnPool` and `CRedisConnPool` are the same but for their texts and for what can fail while a
connection is made. A connection is an object with a number, and `m_key` is its name in the map of those
that are used. A call is a step, and an exception is returned with the pool as it is when it is thrown.

A connection is idle or used, and the pool counts them (`Conserved`). `GetConnection` has moved a
connection before it lets the pool grow, so that an exception from there leaves the connection used, with
nobody who has it (`keeps_iff`). -/

namespace ChatShow.CommBase.ConnPools

open ChatShow.Lib.Maps ChatShow.Lib.Runs Std

/-! ### The pool -/

structure Conn where
  id : ℕ
  key : UInt32
deriving DecidableEq

structure ConnPool where
  poolSize : Int16 := 0
  rate : Int16 := 0
  /-- `m_key` -/
  nextKey : UInt32 := 1
  idleConn : List Conn := []
  usedConn : TreeMap UInt32 Conn := ∅
  /-- the connections so far -/
  made : ℕ := 0

/-- What a pool says in its exceptions, where `φ` has what can fail while a connection is made. -/
structure Texts (φ : Type) where
  failed : φ → String
  idleZero : String
  notUsed : UInt32 → String

namespace ConnPool

/-- `GetKey`. -/
def getKey (s : ConnPool) : UInt32 × ConnPool :=
  let key := if s.nextKey ≥ 1000000000 then 1 else s.nextKey
  (key, { s with nextKey := key + 1 })

/-- A connection that has been made is idle. -/
def addIdle (s : ConnPool) : ConnPool :=
  let (key, s) := s.getKey
  { s with
    idleConn := s.idleConn ++ [⟨s.made, key⟩], poolSize := s.poolSize + 1, made := s.made + 1 }

variable {φ : Type} (texts : Texts φ)

/-- The loop of `AddConnecton` from its turn `i` on: `connect` says of a turn what fails in it. -/
def addLoop (connect : ℕ → Option φ) : ℕ → ℕ → ConnPool → Except String Unit × ConnPool
  | 0, _, s => (.ok (), s)
  | n + 1, i, s =>
    match connect i with
    | some f => (.error (texts.failed f), s)
    | none => addLoop connect n (i + 1) s.addIdle

def addConnecton (s : ConnPool) (connect : ℕ → Option φ) (count : Int16) :
    Except String Unit × ConnPool :=
  addLoop texts connect count.toInt.toNat 0 s

def init (s : ConnPool) (connect : ℕ → Option φ) (size rate : Int16) :
    Except String Unit × ConnPool :=
  { s with rate := rate }.addConnecton texts connect size

def getConnection (s : ConnPool) (connect : ℕ → Option φ) : Except String Conn × ConnPool :=
  match s.idleConn with
  | [] => (.error texts.idleZero, s)
  | con :: idle =>
    let size : ℤ := s.idleConn.length
    let s := { s with idleConn := idle, usedConn := s.usedConn.insert con.key con }
    if size - 1 < s.rate.toInt then
      match s.addConnecton texts connect s.rate with
      | (.error what, s) => (.error what, s)
      | (.ok _, s) => (.ok con, s)
    else (.ok con, s)

def releaseConn (s : ConnPool) (onlyID : UInt32) : Except String Unit × ConnPool :=
  match s.usedConn[onlyID]? with
  | none => (.error (texts.notUsed onlyID), s)
  | some con =>
    (.ok (), { s with usedConn := s.usedConn.erase onlyID, idleConn := s.idleConn ++ [con] })

end ConnPool

/-! ### The two pools -/

inductive SqlFailure
  | create
  | init
  | connect
deriving DecidableEq

/-- The texts of `CSqlConnPool`. -/
def sqlTexts : Texts SqlFailure where
  failed
    | .create => "[CSqlConnPool::AddConnecton] : message = [Create connection failed], errno = [6]"
    | .init => "[CSqlConnPool::AddConnecton] : message = [new connection init failed], errno = [2]"
    | .connect => "[CSqlConnPool::AddConnecton] : message = [handle connect failed], errno = [7]"
  idleZero := "[CSqlConnPool::GetConnection] idle connection is zero"
  notUsed key := "Failed when Releasing Connection[ID=" ++ toString key.toNat ++ "] to pool"

/-- `CRedisConn::Connect` does not return `false`: it throws. -/
inductive RedisFailure
  | err (errstr : String)
  | context
deriving DecidableEq

/-- The texts of `CRedisConnPool`. -/
def redisTexts : Texts RedisFailure where
  failed
    | .err errstr =>
      "[CRedisConn::Connect] : message = [Create connection failed], errno = [" ++ errstr ++ "]"
    | .context => "[CRedisConn::Connect] : message = [can not allocate redis context"
  idleZero := "[CRedisConnPool::GetConnection] idle connection is zero"
  notUsed key := "[CRedisConnPool::ReleaseConn] Failed when Releasing Connection[ID=" ++
    toString key.toNat ++ "] to pool"

/-! ### Runs -/

/-- A call, with what fails while it makes connections. -/
inductive Call (φ : Type)
  | init (connect : ℕ → Option φ) (size rate : Int16)
  | getConnection (connect : ℕ → Option φ)
  | releaseConn (onlyID : UInt32)

def ConnPool.step {φ : Type} (texts : Texts φ) (s : ConnPool) : Call φ → Option ConnPool
  | .init connect size rate => some (s.init texts connect size rate).2
  | .getConnection connect => some (s.getConnection texts connect).2
  | .releaseConn onlyID => some (s.releaseConn texts onlyID).2

/-- The connections of a pool. -/
def ConnPool.conns (s : ConnPool) : List Conn := s.idleConn ++ s.usedConn.toList.map Prod.snd

/-- Every connection that has been made is once idle or used, and the pool counts them all. -/
structure Conserved (s : ConnPool) : Prop where
  once : (s.conns.map Conn.id).Perm (List.range s.made)
  count : s.poolSize.toInt = s.idleConn.length + s.usedConn.size

/-- `GetConnection` throws only with all used connections as they were, and with all that were idle. -/
def Keeps {φ : Type} (texts : Texts φ) (s : ConnPool) (connect : ℕ → Option φ) : Prop :=
  ∀ what, (s.getConnection texts connect).1 = .error what →
    (s.getConnection texts connect).2.usedConn = s.usedConn ∧
      ∀ c ∈ s.idleConn, c ∈ (s.getConnection texts connect).2.idleConn

/-- Where `GetConnection` lets the pool grow, every connection is made. -/
def Grows {φ : Type} (s : ConnPool) (connect : ℕ → Option φ) : Prop :=
  s.idleConn ≠ [] → (s.idleConn.length : ℤ) - 1 < s.rate.toInt →
    ∀ i < s.rate.toInt.toNat, connect i = none

/-- The connections that a call may make. -/
def ConnPool.most {φ : Type} (s : ConnPool) : Call φ → ℤ
  | .init _ size _ => size.toInt.toNat
  | .getConnection _ => s.rate.toInt.toNat
  | .releaseConn _ => 0

/-- There is room for more connections, as the size is a `short`. -/
def Room {φ : Type} (s : ConnPool) (a : Call φ) : Prop := s.made + s.most a < 32768

instance {φ : Type} (s : ConnPool) (a : Call φ) : Decidable (Room s a) :=
  inferInstanceAs (Decidable (_ < _))

/-! ### Making connections -/

namespace ConnPool

variable {φ : Type} (texts : Texts φ)

/-- The loop makes some connections, and all of them where nothing fails. -/
theorem addLoop_spec (connect : ℕ → Option φ) (n i : ℕ) (s : ConnPool) :
    (∃ k ≤ n, (addLoop texts connect n i s).2 = addIdle^[k] s) ∧
      ((∃ what, (addLoop texts connect n i s).1 = .error what) ↔
        ∃ j < n, (connect (i + j)).isSome) := by
  induction n generalizing i s with
  | zero =>
    refine ⟨⟨0, Nat.le_refl 0, rfl⟩, ?_⟩
    simp [addLoop]
  | succ n ih =>
    unfold addLoop
    cases hc : connect i with
    | some f =>
      refine ⟨⟨0, Nat.zero_le _, rfl⟩, fun _ => ⟨0, Nat.succ_pos n, ?_⟩, fun _ => ⟨_, rfl⟩⟩
      rw [Nat.add_zero, hc]
      rfl
    | none =>
      obtain ⟨⟨k, hk, hs⟩, hfail⟩ := ih (i + 1) s.addIdle
      refine ⟨⟨k + 1, Nat.succ_le_succ hk, hs⟩, hfail.trans ⟨?_, ?_⟩⟩
      · rintro ⟨j, hj, hsome⟩
        exact ⟨j + 1, Nat.succ_lt_succ hj, by rwa [Nat.add_comm j 1, ← Nat.add_assoc]⟩
      · rintro ⟨j, hj, hsome⟩
        cases j with
        | zero => rw [Nat.add_zero, hc] at hsome; cases hsome
        | succ j =>
          exact ⟨j, Nat.lt_of_succ_lt_succ hj, by rwa [Nat.add_comm j 1, ← Nat.add_assoc] at hsome⟩

/-- New connections leave the others where they are. -/
theorem addIdle_iterate (k : ℕ) (s : ConnPool) :
    (addIdle^[k] s).usedConn = s.usedConn ∧ s.idleConn <+: (addIdle^[k] s).idleConn := by
  induction k generalizing s with
  | zero => exact ⟨rfl, List.prefix_refl _⟩
  | succ k ih =>
    obtain ⟨hused, hidle⟩ := ih s.addIdle
    exact ⟨hused, (List.prefix_append _ _).trans hidle⟩

/-- The connection at the front of the idle ones is used. -/
def moved (s : ConnPool) (con : Conn) (idle : List Conn) : ConnPool :=
  { s with idleConn := idle, usedConn := s.usedConn.insert con.key con }

/-- Everything that `GetConnection` can do where there is an idle connection. -/
theorem getConnection_cons {s : ConnPool} {con : Conn} {idle : List Conn}
    (hidle : s.idleConn = con :: idle) (connect : ℕ → Option φ) :
    (∃ k ≤ s.rate.toInt.toNat, (s.getConnection texts connect).2 = addIdle^[k] (s.moved con idle)) ∧
      ((∃ what, (s.getConnection texts connect).1 = .error what) ↔
        (s.idleConn.length : ℤ) - 1 < s.rate.toInt ∧
          ∃ i < s.rate.toInt.toNat, (connect i).isSome) := by
  unfold getConnection
  rw [hidle]
  dsimp only
  split_ifs with hgrow
  · obtain ⟨hs, hfail⟩ := addLoop_spec texts connect s.rate.toInt.toNat 0 (s.moved con idle)
    simp only [Nat.zero_add] at hfail
    rw [← hfail]
    change _ ∧ (_ ↔ _ ∧ ∃ what, ((s.moved con idle).addConnecton texts connect s.rate).1 = _)
    change ∃ k ≤ _, ((s.moved con idle).addConnecton texts connect s.rate).2 = _ at hs
    rw [show ({ s with idleConn := idle, usedConn := s.usedConn.insert con.key con } : ConnPool) =
      s.moved con idle from rfl]
    cases hr : (s.moved con idle).addConnecton texts connect s.rate with
    | mk r s' =>
      rw [hr] at hs
      cases r with
      | error what => exact ⟨hs, fun h => ⟨hgrow, what, rfl⟩, fun _ => ⟨what, rfl⟩⟩
      | ok _ =>
        refine ⟨hs, ?_, ?_⟩
        · rintro ⟨_, h⟩
          cases h
        · rintro ⟨-, _, h⟩
          cases h
  · refine ⟨⟨0, Nat.zero_le _, rfl⟩, ?_, fun h => absurd h.1 hgrow⟩
    rintro ⟨_, h⟩
    cases h

end ConnPool

/-! ### What every call keeps -/

/-- Keys tell connections apart, as `GetKey` has not come round. -/
structure Good (s : ConnPool) : Prop extends Conserved s where
  nextKey : s.nextKey.toNat = s.made + 1
  key : ∀ c ∈ s.conns, c.key.toNat = c.id + 1
  used : ∀ (k : UInt32) (c : Conn), s.usedConn[k]? = some c → c.key = k
  small : s.made < 32768

theorem good_start : Good {} where
  once := List.Perm.refl _
  count := rfl
  nextKey := rfl
  key c hc := by cases hc
  used k c hc := by cases hc
  small := by decide

theorem mem_conns {s : ConnPool} {c : Conn} :
    c ∈ s.conns ↔ c ∈ s.idleConn ∨ ∃ k : UInt32, s.usedConn[k]? = some c := by
  unfold ConnPool.conns
  rw [List.mem_append, List.mem_map]
  refine or_congr_right ⟨?_, ?_⟩
  · rintro ⟨⟨k, c'⟩, hmem, rfl⟩
    exact ⟨k, TreeMap.mem_toList_iff_getElem?_eq_some.mp hmem⟩
  · rintro ⟨k, hk⟩
    exact ⟨(k, c), TreeMap.mem_toList_iff_getElem?_eq_some.mpr hk, rfl⟩

theorem length_conns (s : ConnPool) : s.conns.length = s.idleConn.length + s.usedConn.size := by
  unfold ConnPool.conns
  rw [List.length_append, List.length_map, TreeMap.length_toList]

theorem Conserved.made {s : ConnPool} (h : Conserved s) :
    s.idleConn.length + s.usedConn.size = s.made := by
  have hlen := h.once.length_eq
  rwa [List.length_map, length_conns, List.length_range] at hlen

/-- A call that only moves connections keeps the invariant. -/
theorem Good.of_perm {s s' : ConnPool} (h : Good s) (hperm : s'.conns.Perm s.conns)
    (hsize : s'.poolSize = s.poolSize) (hmade : s'.made = s.made) (hnext : s'.nextKey = s.nextKey)
    (hused : ∀ (k : UInt32) (c : Conn), s'.usedConn[k]? = some c → c.key = k) : Good s' where
  once := by rw [hmade]; exact (hperm.map _).trans h.once
  count := by
    have hlen := hperm.length_eq
    rw [length_conns, length_conns] at hlen
    rw [hsize, h.count]
    omega
  nextKey := by rw [hnext, hmade]; exact h.nextKey
  key c hc := h.key c (hperm.mem_iff.mp hc)
  used := hused
  small := by rw [hmade]; exact h.small

theorem good_addIdle {s : ConnPool} (h : Good s) (hroom : s.made + 1 < 32768) : Good s.addIdle := by
  have hmade := h.made
  have hkey : s.nextKey < 1000000000 := by
    rw [UInt32.lt_iff_toNat_lt, h.nextKey]
    exact Nat.lt_of_lt_of_le hroom (by decide)
  have hadd : s.addIdle = { s with
      nextKey := s.nextKey + 1, idleConn := s.idleConn ++ [⟨s.made, s.nextKey⟩]
      poolSize := s.poolSize + 1, made := s.made + 1 } := by
    unfold ConnPool.addIdle ConnPool.getKey
    rw [if_neg (UInt32.not_le.mpr hkey)]
  have hconns : s.addIdle.conns.Perm (⟨s.made, s.nextKey⟩ :: s.conns) := by
    rw [hadd]
    unfold ConnPool.conns
    dsimp only
    rw [List.append_assoc]
    exact List.perm_middle
  have hsize : (s.poolSize + 1).toInt = s.poolSize.toInt + 1 := by
    have hcount := h.count
    rw [Int16.toInt_add, show (1 : Int16).toInt = 1 from rfl]
    exact Int.bmod_eq_of_le (by omega) (by omega)
  constructor
  case toConserved =>
    constructor
    · refine (hconns.map _).trans ?_
      rw [hadd, List.map_cons, List.range_succ]
      exact (h.once.cons s.made).trans (List.perm_append_singleton _ _).symm
    · rw [hadd]
      dsimp only
      rw [hsize, h.count, List.length_append, List.length_singleton]
      push_cast
      omega
  case nextKey =>
    rw [hadd]
    dsimp only
    rw [UInt32.toNat_add, h.nextKey, show (1 : UInt32).toNat = 1 from rfl]
    exact Nat.mod_eq_of_lt (by omega)
  case key =>
    intro c hc
    rcases List.mem_cons.mp (hconns.mem_iff.mp hc) with rfl | hc
    · exact h.nextKey
    · exact h.key c hc
  case used =>
    rw [hadd]
    exact h.used
  case small =>
    rw [hadd]
    exact hroom

theorem good_iterate {s : ConnPool} (k : ℕ) (h : Good s) (hroom : s.made + k < 32768) :
    Good (ConnPool.addIdle^[k] s) := by
  induction k generalizing s with
  | zero => exact h
  | succ k ih =>
    have hmade : s.addIdle.made = s.made + 1 := rfl
    exact ih (good_addIdle h (by omega)) (by omega)

/-- A connection that is idle is not in the map. -/
theorem key_unused {s : ConnPool} (h : Good s) {con : Conn} (hcon : con ∈ s.idleConn) :
    s.usedConn[con.key]? = none := by
  cases hc : s.usedConn[con.key]? with
  | none => rfl
  | some c =>
    have hids := h.once.nodup_iff.mpr List.nodup_range
    unfold ConnPool.conns at hids
    rw [List.map_append] at hids
    obtain ⟨-, -, hdisj⟩ := List.nodup_append.mp hids
    have hck := h.key c (mem_conns.mpr (Or.inr ⟨_, hc⟩))
    rw [h.used _ _ hc, h.key con (mem_conns.mpr (Or.inl hcon))] at hck
    have hmem : (con.key, c) ∈ s.usedConn.toList := TreeMap.mem_toList_iff_getElem?_eq_some.mpr hc
    exact absurd (Nat.succ.inj hck) (hdisj con.id (List.mem_map_of_mem hcon) c.id
      (List.mem_map_of_mem (List.mem_map_of_mem hmem)))

theorem good_moved {s : ConnPool} (h : Good s) {con : Conn} {idle : List Conn}
    (hidle : s.idleConn = con :: idle) : Good (s.moved con idle) := by
  have hnone : s.usedConn[con.key]? = none :=
    key_unused h (by rw [hidle]; exact List.mem_cons_self)
  refine h.of_perm ?_ rfl rfl rfl fun k c hc => ?_
  · unfold ConnPool.moved ConnPool.conns
    rw [hidle]
    refine (((toList_insert_of_none con hnone).map Prod.snd).append_left idle).trans ?_
    exact List.perm_middle
  · unfold ConnPool.moved at hc
    dsimp only at hc
    rw [get_insert] at hc
    split_ifs at hc with hk
    · cases hc
      exact hk
    · exact h.used k c hc

theorem good_releaseConn {φ : Type} (texts : Texts φ) {s : ConnPool} (h : Good s) (key : UInt32) :
    Good (s.releaseConn texts key).2 := by
  unfold ConnPool.releaseConn
  cases hc : s.usedConn[key]? with
  | none => exact h
  | some con =>
    refine h.of_perm ?_ rfl rfl rfl fun k c hk => ?_
    · unfold ConnPool.conns
      dsimp only
      rw [List.append_assoc]
      exact ((toList_erase_of_some hc).map Prod.snd).symm.append_left s.idleConn
    · dsimp only at hk
      rw [get_erase] at hk
      split_ifs at hk
      exact h.used k c hk

theorem good_step {φ : Type} {texts : Texts φ} {s s' : ConnPool} {a : Call φ} (h : Good s)
    (hroom : Room s a) (hs : s.step texts a = some s') : Good s' := by
  unfold Room ConnPool.most at hroom
  cases a with
  | init connect size rate =>
    cases hs
    have hrate : Good { s with rate := rate } := h.of_perm (List.Perm.refl _) rfl rfl rfl h.used
    obtain ⟨⟨k, hk, hs⟩, -⟩ :=
      ConnPool.addLoop_spec texts connect size.toInt.toNat 0 { s with rate := rate }
    unfold ConnPool.init ConnPool.addConnecton
    rw [hs]
    exact good_iterate k hrate (by dsimp only at hroom ⊢; omega)
  | getConnection connect =>
    cases hs
    cases hidle : s.idleConn with
    | nil =>
      unfold ConnPool.getConnection
      rw [hidle]
      exact h
    | cons con idle =>
      obtain ⟨⟨k, hk, hs⟩, -⟩ := ConnPool.getConnection_cons texts hidle connect
      rw [hs]
      exact good_iterate k (good_moved h hidle)
        (by rw [show (s.moved con idle).made = s.made from rfl]; dsimp only at hroom; omega)
  | releaseConn key =>
    cases hs
    exact good_releaseConn texts h key

theorem good_run {φ : Type} {texts : Texts φ} {s : ConnPool} {l : List (Call φ)}
    (hs : run (ConnPool.step texts) {} l = some s)
    (hroom : Along (ConnPool.step texts) Room {} l) : Good s :=
  run_inv_along (Q := fun _ => True) (fun _ _ _ h _ hroom hs => good_step h hroom hs) hs
    (fun _ _ => trivial) hroom good_start

/-! ### What a failed call keeps -/

theorem keeps_iff {φ : Type} (texts : Texts φ) {s : ConnPool} (h : Good s)
    (connect : ℕ → Option φ) : Keeps texts s connect ↔ Grows s connect := by
  cases hidle : s.idleConn with
  | nil =>
    have hsame : (s.getConnection texts connect).2 = s := by
      unfold ConnPool.getConnection
      rw [hidle]
    refine ⟨fun _ hne => absurd hidle hne, fun _ what hthrow => ?_⟩
    rw [hsame]
    exact ⟨rfl, fun c hc => hc⟩
  | cons con idle =>
    obtain ⟨⟨k, -, hs⟩, hfail⟩ := ConnPool.getConnection_cons texts hidle connect
    have hused : (s.getConnection texts connect).2.usedConn[con.key]? = some con := by
      rw [hs, (ConnPool.addIdle_iterate k _).1]
      exact get_insert_self _ _ _
    constructor
    · intro hkeeps _ hgrow i hi
      by_contra hsome
      obtain ⟨what, hthrow⟩ := hfail.mpr ⟨hgrow, i, hi, Option.isSome_iff_ne_none.mpr hsome⟩
      rw [(hkeeps what hthrow).1, key_unused h (by rw [hidle]; exact List.mem_cons_self)] at hused
      cases hused
    · intro hgrows what hthrow
      obtain ⟨hgrow, i, hi, hsome⟩ := hfail.mp ⟨what, hthrow⟩
      rw [hgrows (by rw [hidle]; exact List.cons_ne_nil _ _) hgrow i hi] at hsome
      cases hsome

/-- **The pools count their connections**, in every state that calls lead to which leave room for the
size, and there `GetConnection` throws with all connections where they were if and only if it is not
one that has to make connections and fails to. -/
theorem pool_conserved {φ : Type} (texts : Texts φ) {s : ConnPool} {l : List (Call φ)}
    (hs : run (ConnPool.step texts) {} l = some s)
    (hroom : Along (ConnPool.step texts) Room {} l) :
    Conserved s ∧ ∀ connect, Keeps texts s connect ↔ Grows s connect :=
  have h := good_run hs hroom
  ⟨h.toConserved, fun connect => keeps_iff texts h connect⟩

/-! ### Failures -/

/-- A connection of the SQL pool that is taken and given back, while MySQL is there. -/
def sqlCalls : List (Call SqlFailure) :=
  [.init (fun _ => none) 2 1, .getConnection fun _ => none, .releaseConn 1]

/-- A Redis pool that is empty after its second call. -/
def redisCalls : List (Call RedisFailure) :=
  [.init (fun _ => none) 1 0, .getConnection fun _ => some .context, .getConnection fun _ => none]

theorem pool_conserved_calls :
    (∃ s, run (ConnPool.step sqlTexts) {} sqlCalls = some s ∧ Conserved s ∧
      (Keeps sqlTexts s (fun _ => none) ↔ Grows s fun _ => none (α := SqlFailure))) ∧
    ∃ s, run (ConnPool.step redisTexts) {} redisCalls = some s ∧ Conserved s := by
  refine ⟨⟨_, rfl, ?_⟩, ⟨_, rfl, ?_⟩⟩
  · obtain ⟨h, hkeeps⟩ := pool_conserved sqlTexts (l := sqlCalls) rfl (by decide +kernel)
    exact ⟨h, hkeeps _⟩
  · exact (pool_conserved redisTexts (l := redisCalls) rfl (by decide +kernel)).1

/-- A pool with one connection, which is to grow by one where it is used. -/
def lone : ConnPool := ((ConnPool.init sqlTexts {}) (fun _ => none) 1 1).2

/-- MySQL goes away before the pool grows. -/
theorem connection_lost :
    run (ConnPool.step sqlTexts) {} [.init (fun _ => none) 1 1] = some lone ∧
    ¬ Keeps sqlTexts lone fun _ => some .connect := by
  refine ⟨rfl, fun hkeeps => ?_⟩
  have hused := (hkeeps _ rfl).1
  exact absurd (congrArg TreeMap.size hused) (by decide +kernel)

end ChatShow.CommBase.ConnPools
