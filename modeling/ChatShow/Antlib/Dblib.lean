import ChatShow.Lib.Runs
import Mathlib.Data.Int.Notation

/-! # The connections of a database

`_get_dbconnection` takes the first connection of the list that is not used, and marks it as used
before it looks at how long it has not been. One that has expired is closed, and stays marked:
nobody has it, and nobody gives it back. All connections are kept where a call never meets one that
has expired before one that it can take (`kept_iff`). -/

namespace ChatShow.Antlib.Dblib

open ChatShow.Lib.Runs

/-! ### The connections -/

def DNCON_STATE_CONNECT : Int32 := 1
def DNCON_TYPE_LONG : Int32 := 0

/-- A `db_connection`. The result of a statement is in `_recordset`. -/
structure Connection where
  used : Int32 := 0
  state : Int32 := DNCON_STATE_CONNECT
  lastUsedTime : UInt32
  isOpen : Bool := true
  hasResult : Bool := false

structure Mydb where
  contype : Int32
  maxUnusedTime : UInt32
  conList : List Connection

/-- `mysql_free_dbrecord` and `mysql_close_dbconnection`. -/
def freeFun (con : Connection) : Connection := { con with hasResult := false }
def closeFun (con : Connection) : Connection := { freeFun con with isOpen := false }

/-- `open_mydb`, where the connections are made at the times `times`. -/
def openMydb (contype : Int32) (times : List UInt32) : Mydb where
  contype := contype
  maxUnusedTime := 365 * 24 * 3600
  conList := times.map fun now => { lastUsedTime := now }

/-! ### The functions -/

def Connection.expired (con : Connection) (maxUnusedTime nowTime : UInt32) : Bool :=
  con.lastUsedTime + maxUnusedTime < nowTime

/-- The loop of `_get_dbconnection`: the place of the connection that it returns, and the
connections. `LOCK_SET` marks each connection it comes to. -/
def getLoop (maxUnusedTime nowTime : UInt32) : List Connection → Option ℕ × List Connection
  | [] => (none, [])
  | con :: cons =>
    if con.used = 0 then
      let con := { con with used := 1 }
      if con.expired maxUnusedTime nowTime then
        let (r, cons) := getLoop maxUnusedTime nowTime cons
        (r.map (· + 1), closeFun con :: cons)
      else (some 0, { con with lastUsedTime := nowTime } :: cons)
    else
      let (r, cons) := getLoop maxUnusedTime nowTime cons
      (r.map (· + 1), { con with used := 1 } :: cons)

def getDbconnection (db : Mydb) (nowTime : UInt32) : Option ℕ × Mydb :=
  let (r, cons) := getLoop db.maxUnusedTime nowTime db.conList
  (r, { db with conList := cons })

/-- `_back_dbconnection`, of the connection at a place. `none` is a failed assertion. -/
def backDbconnection (db : Mydb) (i : ℕ) : Option Mydb :=
  match db.conList[i]? with
  | none => none
  | some con =>
    let con :=
      if db.contype = DNCON_TYPE_LONG ∧ con.state = DNCON_STATE_CONNECT then freeFun con
      else closeFun con
    if con.used = 1 then some { db with conList := db.conList.set i { con with used := 0 } } else none

/-- What comes of a statement: what `_dosql_fun` returns, and whether there is a result then. -/
structure Outcome where
  result : Int32
  hasResult : Bool

/-- `_dosql_fun`, of the connection at a place. -/
def dosqlFun (db : Mydb) (i : ℕ) (o : Outcome) : Mydb :=
  match db.conList[i]? with
  | none => db
  | some con => { db with conList := db.conList.set i { con with hasResult := o.hasResult } }

/-- The database, with the connections whose record sets callers have. -/
structure State where
  db : Mydb
  held : List ℕ := []
  /-- The last call has not got a connection. -/
  refused : Bool := false

/-- A call at a time, with what comes of its statement; a record set is known by its connection. -/
inductive Call
  | doSql (nowTime : UInt32) (o : Outcome)
  | getRecordset (nowTime : UInt32) (o : Outcome)
  | backRecordset (i : ℕ)

def State.doSql (s : State) (nowTime : UInt32) (o : Outcome) : Option State :=
  match getDbconnection s.db nowTime with
  | (some i, db) => (backDbconnection (dosqlFun db i o) i).map fun db =>
    { s with db, refused := false }
  | (none, db) => some { s with db, refused := true }

def State.getRecordset (s : State) (nowTime : UInt32) (o : Outcome) : Option State :=
  match getDbconnection s.db nowTime with
  | (some i, db) =>
    let db := dosqlFun db i o
    if o.result = 0 then some { db, held := i :: s.held, refused := false }
    else (backDbconnection db i).map fun db => { s with db, refused := false }
  | (none, db) => some { s with db, refused := true }

/-- A caller gives back a record set that it has. -/
def State.backRecordset (s : State) (i : ℕ) : Option State :=
  if i ∈ s.held then
    (backDbconnection s.db i).map fun db => { db, held := s.held.erase i, refused := false }
  else none

def State.step (s : State) : Call → Option State
  | .doSql nowTime o => s.doSql nowTime o
  | .getRecordset nowTime o => s.getRecordset nowTime o
  | .backRecordset i => s.backRecordset i

/-! ### What is asked -/

/-- The connection at a place is available or held by one caller. -/
def Available (s : State) (i : ℕ) (con : Connection) : Prop :=
  con.used = 0 ∧ s.held.count i = 0 ∨ con.used = 1 ∧ s.held.count i = 1

structure Kept (s : State) : Prop where
  available : ∀ i con, s.db.conList[i]? = some con → Available s i con
  /-- No connection is got only where all of them are held. -/
  refused : s.refused = true → ∀ i < s.db.conList.length, i ∈ s.held

/-- The first connection that can be taken has not expired. -/
def NotExpired (s : State) : Call → Prop
  | .doSql nowTime _ | .getRecordset nowTime _ =>
    ∀ con ∈ s.db.conList.find? (·.used = 0), con.expired s.db.maxUnusedTime nowTime = false
  | .backRecordset _ => True

/-! ### What the loop takes -/

variable {s s' : State} {l : List Connection} {con : Connection} {maxUnusedTime nowTime : UInt32}
    {o : Outcome} {i j : ℕ}

theorem getLoop_none (h : ∀ c ∈ l, c.used = 0 ∨ c.used = 1) (hf : l.find? (·.used = 0) = none) :
    getLoop maxUnusedTime nowTime l = (none, l) := by
  induction l with
  | nil => rfl
  | cons c l ih =>
    rw [List.find?_cons] at hf
    split at hf
    · cases hf
    · rename_i hused
      have hne : c.used ≠ 0 := of_decide_eq_false hused
      have hone : c.used = 1 := (h c List.mem_cons_self).resolve_left hne
      rw [getLoop, if_neg hne, ih (fun d hd => h d (List.mem_cons_of_mem _ hd)) hf, ← hone]
      rfl

/-- A connection that has not expired is taken. -/
theorem getLoop_fresh (nowTime : UInt32) (h : ∀ c ∈ l, c.used = 0 ∨ c.used = 1)
    (hf : l.find? (·.used = 0) = some con) (he : con.expired maxUnusedTime nowTime = false) :
    ∃ j, l[j]? = some con ∧
      getLoop maxUnusedTime nowTime l =
        (some j, l.set j { con with used := 1, lastUsedTime := nowTime }) := by
  induction l with
  | nil => cases hf
  | cons c l ih =>
    rw [List.find?_cons] at hf
    split at hf
    · rename_i hused
      obtain rfl : c = con := Option.some.inj hf
      refine ⟨0, rfl, ?_⟩
      rw [getLoop, if_pos (of_decide_eq_true hused), if_neg (Bool.not_eq_true _ ▸ he)]
      rfl
    · rename_i hused
      have hne : c.used ≠ 0 := of_decide_eq_false hused
      have hone : c.used = 1 := (h c List.mem_cons_self).resolve_left hne
      obtain ⟨j, hj, hloop⟩ := ih (fun d hd => h d (List.mem_cons_of_mem _ hd)) hf
      refine ⟨j + 1, hj, ?_⟩
      rw [getLoop, if_neg hne, hloop, ← hone]
      rfl

/-- One that has expired is marked, and not taken. -/
theorem getLoop_expired (hf : l.find? (·.used = 0) = some con)
    (he : con.expired maxUnusedTime nowTime = true) :
    ∃ j con', l[j]? = some con ∧ (getLoop maxUnusedTime nowTime l).1 ≠ some j ∧
      (getLoop maxUnusedTime nowTime l).2[j]? = some con' ∧ con'.used = 1 := by
  induction l with
  | nil => cases hf
  | cons c l ih =>
    rw [List.find?_cons] at hf
    split at hf
    · rename_i hused
      obtain rfl : c = con := Option.some.inj hf
      refine ⟨0, closeFun { c with used := 1 }, rfl, ?_⟩
      have he' : Connection.expired { c with used := 1 } maxUnusedTime nowTime = true := he
      rw [getLoop, if_pos (of_decide_eq_true hused)]
      dsimp only
      rw [if_pos he']
      refine ⟨fun hr => ?_, rfl, rfl⟩
      obtain ⟨k, -, hk⟩ := Option.map_eq_some_iff.mp hr
      exact Nat.succ_ne_zero k hk
    · rename_i hused
      have hne : c.used ≠ 0 := of_decide_eq_false hused
      obtain ⟨j, con', hj, hr, hcon', hone⟩ := ih hf
      refine ⟨j + 1, con', hj, ?_⟩
      rw [getLoop, if_neg hne]
      refine ⟨fun hr' => ?_, hcon', hone⟩
      obtain ⟨k, hk, hkj⟩ := Option.map_eq_some_iff.mp hr'
      exact hr (Nat.succ.inj hkj ▸ hk)

/-- What is taken is marked. -/
theorem getLoop_some {k : ℕ} (h : (getLoop maxUnusedTime nowTime l).1 = some k) :
    ∃ c, (getLoop maxUnusedTime nowTime l).2[k]? = some c ∧ c.used = 1 := by
  induction l generalizing k with
  | nil => cases h
  | cons c l ih =>
    have hnext : ∀ r, (r.map (· + 1) : Option ℕ) = some k → r = (getLoop maxUnusedTime nowTime l).1 →
        ∃ k', k = k' + 1 ∧ ∃ c, (getLoop maxUnusedTime nowTime l).2[k']? = some c ∧ c.used = 1 := by
      rintro r hr rfl
      obtain ⟨k', hk', rfl⟩ := Option.map_eq_some_iff.mp hr
      exact ⟨k', rfl, ih hk'⟩
    rw [getLoop] at h ⊢
    dsimp only at h ⊢
    split_ifs at h ⊢
    · obtain ⟨k', rfl, hc⟩ := hnext _ h rfl
      exact hc
    · cases h
      exact ⟨_, rfl, rfl⟩
    · obtain ⟨k', rfl, hc⟩ := hnext _ h rfl
      exact hc

/-! ### What a call does -/

/-- Nothing but the connection at one place, and who holds it, has changed. -/
theorem available_set {con' : Connection}
    (h : ∀ i con, s.db.conList[i]? = some con → Available s i con)
    (hlist : s'.db.conList = s.db.conList.set j con')
    (hcount : ∀ i ≠ j, s'.held.count i = s.held.count i)
    (hj : Available s' j con') (i : ℕ) (con : Connection) (hi : s'.db.conList[i]? = some con) :
    Available s' i con := by
  rw [hlist, List.getElem?_set] at hi
  split_ifs at hi with hij hlt
  · obtain rfl : j = i := hij
    cases hi
    exact hj
  · have hav := h i con hi
    unfold Available
    rw [hcount i (Ne.symm hij)]
    exact hav

/-- A connection that is given back is available. -/
theorem back_spec (db : Mydb) (hi : db.conList[i]? = some con) (hused : con.used = 1) :
    ∃ con', backDbconnection db i = some { db with conList := db.conList.set i con' } ∧
    con'.used = 0 := by
  unfold backDbconnection
  rw [hi]
  dsimp only
  split_ifs
  all_goals first | exact ⟨_, rfl, rfl⟩ | contradiction

theorem dosqlFun_spec (db : Mydb) (hi : db.conList[i]? = some con) (o : Outcome) :
    ∃ con', dosqlFun db i o = { db with conList := db.conList.set i con' } ∧
    con'.used = con.used := by
  unfold dosqlFun
  rw [hi]
  exact ⟨_, rfl, rfl⟩

theorem getElem?_dosqlFun_ne {db : Mydb} (h : i ≠ j) :
    (dosqlFun db i o).conList[j]? = db.conList[j]? := by
  unfold dosqlFun
  split
  · rfl
  · exact List.getElem?_set_ne h

theorem getElem?_back_ne {db db' : Mydb} (hb : backDbconnection db i = some db') (h : i ≠ j) :
    db'.conList[j]? = db.conList[j]? := by
  unfold backDbconnection at hb
  split at hb
  · cases hb
  · dsimp only at hb
    split_ifs at hb
    all_goals
      cases hb
      exact List.getElem?_set_ne h

/-- The connection that is taken can be given back. -/
theorem back_taken {db : Mydb} {k : ℕ} (h : (getDbconnection db nowTime).1 = some k) (o : Outcome) :
    ∃ db', backDbconnection (dosqlFun (getDbconnection db nowTime).2 k o) k = some db' := by
  obtain ⟨c, hc, hused⟩ := getLoop_some h
  obtain ⟨c', hdo, hused'⟩ := dosqlFun_spec (getDbconnection db nowTime).2 hc o
  have hlt : k < (getDbconnection db nowTime).2.conList.length := (List.getElem?_eq_some_iff.mp hc).1
  have hi : (dosqlFun (getDbconnection db nowTime).2 k o).conList[k]? = some c' := by
    rw [hdo]
    exact List.getElem?_set_self hlt
  obtain ⟨c'', hback, -⟩ := back_spec _ hi (hused'.trans hused)
  exact ⟨_, hback⟩

/-- What comes of a call with a statement: no connection is got, or one that is given back, or one
that is held from then on. -/
inductive Served (s : State) (nowTime : UInt32) (o : Outcome) (s' : State) : Prop
  | refused (hget : (getDbconnection s.db nowTime).1 = none)
      (hdb : s'.db = (getDbconnection s.db nowTime).2)
      (hheld : s'.held = s.held) (href : s'.refused = true)
  | back (k : ℕ) (hget : (getDbconnection s.db nowTime).1 = some k)
      (hdb : backDbconnection (dosqlFun (getDbconnection s.db nowTime).2 k o) k = some s'.db)
      (hheld : s'.held = s.held) (href : s'.refused = false)
  | held (k : ℕ) (hget : (getDbconnection s.db nowTime).1 = some k)
      (hdb : s'.db = dosqlFun (getDbconnection s.db nowTime).2 k o)
      (hheld : s'.held = k :: s.held) (href : s'.refused = false)

theorem served_doSql (s : State) (nowTime : UInt32) (o : Outcome) :
    ∃ s', s.doSql nowTime o = some s' ∧ Served s nowTime o s' := by
  unfold State.doSql
  rcases hg : getDbconnection s.db nowTime with ⟨_ | k, db⟩
  · exact ⟨_, rfl, .refused (by rw [hg]) (by rw [hg]) rfl rfl⟩
  · obtain ⟨db', hback⟩ := back_taken (show (getDbconnection s.db nowTime).1 = some k by rw [hg]) o
    rw [hg] at hback
    dsimp only
    rw [hback]
    exact ⟨_, rfl, .back k (by rw [hg]) (by rw [hg]; exact hback) rfl rfl⟩

theorem served_getRecordset (s : State) (nowTime : UInt32) (o : Outcome) :
    ∃ s', s.getRecordset nowTime o = some s' ∧ Served s nowTime o s' := by
  unfold State.getRecordset
  rcases hg : getDbconnection s.db nowTime with ⟨_ | k, db⟩
  · exact ⟨_, rfl, .refused (by rw [hg]) (by rw [hg]) rfl rfl⟩
  · obtain ⟨db', hback⟩ := back_taken (show (getDbconnection s.db nowTime).1 = some k by rw [hg]) o
    rw [hg] at hback
    dsimp only
    split_ifs
    · exact ⟨_, rfl, .held k (by rw [hg]) (by rw [hg]) rfl rfl⟩
    · rw [hback]
      exact ⟨_, rfl, .back k (by rw [hg]) (by rw [hg]; exact hback) rfl rfl⟩

/-! ### What is kept -/

/-- The state between calls. -/
structure Good (s : State) : Prop extends Kept s where
  valid : ∀ i ∈ s.held, i < s.db.conList.length

theorem Good.used_cases (h : Good s) : ∀ c ∈ s.db.conList, c.used = 0 ∨ c.used = 1 := by
  intro c hc
  obtain ⟨i, hi, rfl⟩ := List.getElem_of_mem hc
  exact (h.available i _ (List.getElem?_eq_getElem hi)).imp And.left And.left

/-- Nobody holds the first connection that is available. -/
theorem Good.count_first (h : Good s) (hf : s.db.conList.find? (·.used = 0) = some con)
    (hj : s.db.conList[j]? = some con) :
    s.held.count j = 0 := by
  have hfound := List.find?_some hf
  have hzero : con.used = 0 := of_decide_eq_true hfound
  obtain ⟨-, hcount⟩ | ⟨hone, -⟩ := h.available j con hj
  · exact hcount
  · rw [hzero] at hone
    cases hone

/-- A call that finds no connection available changes nothing: all are held. -/
theorem Good.served_none (h : Good s) (hs : Served s nowTime o s')
    (hf : s.db.conList.find? (·.used = 0) = none) : Good s' := by
  have hget : getDbconnection s.db nowTime = (none, s.db) := by
    unfold getDbconnection
    rw [getLoop_none h.used_cases hf]
  have hall : ∀ i < s.db.conList.length, i ∈ s.held := fun i hi => by
    have hne : s.db.conList[i].used ≠ 0 := of_decide_eq_false (Bool.not_eq_true _ ▸
      List.find?_eq_none.mp hf _ (List.getElem_mem hi))
    obtain ⟨hzero, -⟩ | ⟨-, hcount⟩ := h.available i _ (List.getElem?_eq_getElem hi)
    · exact absurd hzero hne
    · exact List.count_pos_iff.mp (hcount ▸ Nat.one_pos)
  cases hs with
  | refused hget' hdb hheld href =>
    rw [hget] at hdb
    refine ⟨⟨fun i c hi => ?_, fun _ i hi => ?_⟩, fun i hi => ?_⟩
    · unfold Available
      rw [hheld]
      rw [hdb] at hi
      exact h.available i c hi
    · rw [hdb] at hi
      rw [hheld]
      exact hall i hi
    · rw [hheld] at hi
      rw [hdb]
      exact h.valid i hi
  | back k hget' =>
    rw [hget] at hget'
    cases hget'
  | held k hget' =>
    rw [hget] at hget'
    cases hget'

/-- Nobody holds the connection that is taken, and its statement leaves it in use. -/
theorem Good.taken (h : Good s) (hf : s.db.conList.find? (·.used = 0) = some con)
    (hfresh : con.expired s.db.maxUnusedTime nowTime = false) (o : Outcome) :
    ∃ (j : ℕ) (con' : Connection), j < s.db.conList.length ∧ s.held.count j = 0 ∧
      (getDbconnection s.db nowTime).1 = some j ∧ con'.used = 1 ∧
      (dosqlFun (getDbconnection s.db nowTime).2 j o).conList = s.db.conList.set j con' := by
  obtain ⟨j, hj, hloop⟩ := getLoop_fresh nowTime h.used_cases hf hfresh
  have hlt : j < s.db.conList.length := (List.getElem?_eq_some_iff.mp hj).1
  have hget : getDbconnection s.db nowTime = (some j, { s.db with
      conList := s.db.conList.set j { con with used := 1, lastUsedTime := nowTime } }) := by
    unfold getDbconnection
    rw [hloop]
  rw [hget]
  obtain ⟨con', hdo, hused⟩ := dosqlFun_spec { s.db with
    conList := s.db.conList.set j { con with used := 1, lastUsedTime := nowTime } }
    (List.getElem?_set_self hlt) o
  refine ⟨j, con', hlt, h.count_first hf hj, rfl, hused, ?_⟩
  rw [hdo]
  exact List.set_set ..

/-- A call that gets a connection which has not expired, or none where all are held, keeps them all. -/
theorem Good.served (h : Good s) (hs : Served s nowTime o s')
    (hfresh : ∀ con ∈ s.db.conList.find? (·.used = 0),
      con.expired s.db.maxUnusedTime nowTime = false) : Good s' := by
  cases hf : s.db.conList.find? (·.used = 0) with
  | none => exact h.served_none hs hf
  | some con =>
    obtain ⟨j, con', hlt, hcount, hget, hused, hlist⟩ := h.taken hf (hfresh con hf) o
    cases hs with
    | refused hget' =>
      rw [hget] at hget'
      cases hget'
    | back k hget' hdb hheld href =>
      obtain rfl : j = k := Option.some.inj (hget.symm.trans hget')
      obtain ⟨con'', hback, hzero⟩ := back_spec (dosqlFun (getDbconnection s.db nowTime).2 j o)
        (by rw [hlist]; exact List.getElem?_set_self hlt) hused
      have hlist' : s'.db.conList = s.db.conList.set j con'' := by
        rw [hback] at hdb
        rw [← Option.some.inj hdb, hlist]
        exact List.set_set ..
      refine ⟨⟨available_set h.available hlist' (fun i _ => by rw [hheld])
        (.inl ⟨hzero, by rw [hheld, hcount]⟩), fun hr => ?_⟩,
        fun i hi => ?_⟩
      · rw [href] at hr
        cases hr
      · rw [hlist', List.length_set]
        exact h.valid i (hheld ▸ hi)
    | held k hget' hdb hheld href =>
      obtain rfl : j = k := Option.some.inj (hget.symm.trans hget')
      have hlist' : s'.db.conList = s.db.conList.set j con' := (congrArg Mydb.conList hdb).trans hlist
      have hothers : ∀ i ≠ j, s'.held.count i = s.held.count i := fun i hi => by
        rw [hheld, List.count_cons_of_ne hi.symm]
      refine ⟨⟨available_set h.available hlist' hothers (.inr ⟨hused, ?_⟩), fun hr => ?_⟩,
        fun i hi => ?_⟩
      · rw [hheld, List.count_cons_self, hcount]
      · rw [href] at hr
        cases hr
      · rw [hheld] at hi
        rw [hlist', List.length_set]
        obtain rfl | hi := List.mem_cons.mp hi
        · exact hlt
        · exact h.valid i hi

/-- The connection that has expired is lost. -/
theorem Good.not_kept (h : Good s) (hs : Served s nowTime o s')
    (hf : s.db.conList.find? (·.used = 0) = some con)
    (he : con.expired s.db.maxUnusedTime nowTime = true) : ¬ Kept s' := by
  intro hkept
  obtain ⟨j, con', hj, hne, hj', hused⟩ := getLoop_expired hf he
  have hfree := h.count_first hf hj
  have hlost : ∀ s', s'.db.conList[j]? = some con' → s'.held.count j = 0 → ¬ Kept s' :=
    fun s' hl hc hk => by
    obtain ⟨hzero, -⟩ | ⟨-, hone⟩ := hk.available j con' hl
    · rw [hused] at hzero
      cases hzero
    · rw [hc] at hone
      cases hone
  cases hs with
  | refused hget hdb hheld href =>
    exact hlost s' (by rw [hdb]; exact hj') (by rw [hheld, hfree]) hkept
  | back k hget hdb hheld href =>
    have hkj : k ≠ j := fun hk => hne (hk ▸ hget)
    refine hlost s' ?_ (by rw [hheld, hfree]) hkept
    rw [getElem?_back_ne hdb hkj, getElem?_dosqlFun_ne hkj]
    exact hj'
  | held k hget hdb hheld href =>
    have hkj : k ≠ j := fun hk => hne (hk ▸ hget)
    refine hlost s' ?_ (by rw [hheld, List.count_cons_of_ne hkj, hfree]) hkept
    rw [hdb, getElem?_dosqlFun_ne hkj]
    exact hj'

theorem Good.backRecordset (h : Good s) (hs : s.backRecordset i = some s') : Good s' := by
  unfold State.backRecordset at hs
  split_ifs at hs with hmem
  obtain ⟨db, hback, rfl⟩ := Option.map_eq_some_iff.mp hs
  have hlt := h.valid i hmem
  have hget := List.getElem?_eq_getElem hlt
  obtain ⟨hused, hcount⟩ : s.db.conList[i].used = 1 ∧ s.held.count i = 1 := by
    refine (h.available i _ hget).resolve_left fun hzero => ?_
    exact absurd hmem (List.count_eq_zero.mp hzero.2)
  obtain ⟨con', hback', hzero⟩ := back_spec s.db hget hused
  rw [hback'] at hback
  cases hback
  refine ⟨⟨available_set h.available rfl (fun k hk => List.count_erase_of_ne hk)
    (.inl ⟨hzero, ?_⟩), ?_⟩, fun k hk => ?_⟩
  · show (s.held.erase i).count i = 0
    rw [List.count_erase_self, hcount]
  · intro hr
    cases hr
  · rw [List.length_set]
    exact h.valid k (List.mem_of_mem_erase hk)

/-! ### Runs -/

/-- A database that has been opened. -/
def State.init (contype : Int32) (times : List UInt32) : State := { db := openMydb contype times }

theorem good_init (contype : Int32) (times : List UInt32) : Good (.init contype times) := by
  refine ⟨⟨fun i con hi => ?_, fun hr => by cases hr⟩, fun i hi => by cases hi⟩
  obtain ⟨now, -, rfl⟩ := Option.map_eq_some_iff.mp (List.getElem?_map.symm.trans hi)
  exact .inl ⟨rfl, rfl⟩

/-- **When all connections are kept: where no call meets one that has expired before it gets one.** -/
theorem pool_kept_iff (contype : Int32) (times : List UInt32) (calls : List Call) :
    (∀ calls' s, calls' <+: calls → run State.step (.init contype times) calls' = some s → Kept s) ↔
      Along State.step NotExpired (.init contype times) calls := by
  refine along_iff_of_steps (I := Good) (fun s h => h.toKept) (fun s c h hnone => ?_)
    (fun s c s' h hs => ?_) calls
    (good_init contype times)
  · cases c with
    | doSql nowTime o =>
      obtain ⟨s', hs', -⟩ := served_doSql s nowTime o
      exact absurd (hs'.symm.trans hnone) (Option.some_ne_none s')
    | getRecordset nowTime o =>
      obtain ⟨s', hs', -⟩ := served_getRecordset s nowTime o
      exact absurd (hs'.symm.trans hnone) (Option.some_ne_none s')
    | backRecordset i => exact trivial
  · have hlose : ∀ nowTime o, Served s nowTime o s' →
        ¬ (∀ con ∈ s.db.conList.find? (·.used = 0),
          con.expired s.db.maxUnusedTime nowTime = false) → ¬ Kept s' := by
      intro nowTime o hserved hn
      obtain ⟨con, hcon⟩ := not_forall.mp hn
      obtain ⟨hf, he⟩ := Classical.not_imp.mp hcon
      exact h.not_kept hserved hf (Bool.not_eq_false _ ▸ he)
    cases c with
    | doSql nowTime o =>
      obtain ⟨s₁, hs₁, hserved⟩ := served_doSql s nowTime o
      obtain rfl : s₁ = s' := Option.some.inj (hs₁.symm.trans hs)
      exact ⟨h.served hserved, hlose nowTime o hserved⟩
    | getRecordset nowTime o =>
      obtain ⟨s₁, hs₁, hserved⟩ := served_getRecordset s nowTime o
      obtain rfl : s₁ = s' := Option.some.inj (hs₁.symm.trans hs)
      exact ⟨h.served hserved, hlose nowTime o hserved⟩
    | backRecordset i => exact ⟨fun _ => h.backRecordset hs, fun hn => absurd trivial hn⟩

/-- A pool of one connection is used a year and a second after it has been opened. -/
theorem not_pool_kept : ¬ ∀ calls' s, calls' <+: [.doSql 1431536001 ⟨0, false⟩] →
    run State.step (.init 0 [1400000000]) calls' = some s → Kept s := by
  intro h
  obtain ⟨hzero, -⟩ | ⟨-, hone⟩ := (h _ _ (List.prefix_refl _) rfl).available 0 _ rfl
  · exact absurd hzero (by decide)
  · exact absurd hone (by decide)

end ChatShow.Antlib.Dblib
