import ChatShow.CSLoginService.LoginNames
import ChatShow.Lib.Owners
import ChatShow.Lib.Runs
import Mathlib.Logic.Function.Basic

/-! # The records of the users

A record is made by a login, or taken from the pool, and put into the hash of a group under its name. A
sweep takes those out that have not been used for an hour, to the pool or back to the allocator. The
answer of the gate takes its record out as well, and does not give it to anyone. So each record has
one owner just as long as no answer of the gate finds a record (`kept_iff`). -/

namespace ChatShow.CSLoginService.UserRecords

open ChatShow.Lib.CStrings ChatShow.Lib.Owners ChatShow.Lib.Runs ChatShow.CSLoginService.UserLogin
  ChatShow.CSLoginService.LoginNames

/-! ### A record -/

/-- `user_account`, as `memset` leaves it. The last byte of `_password` is not written. -/
structure UserAccount where
  netid : UInt64 := 0
  id : UInt64 := 0
  time : UInt32 := 0
  lastused : UInt32 := 0
  count : UInt8 := 0
  name : List UInt8 := List.replicate 33 0
  password : List UInt8 := List.replicate 33 0
  ends : 0 ∈ password := by decide

/-- The string at `_name`, which runs on into `_password` where the name has no NUL. -/
def UserAccount.key (u : UserAccount) : List UInt8 := (u.name ++ u.password).takeWhile (· ≠ 0)

/-- What `get_user_byname` does to a record that it finds. -/
def UserAccount.touch (u : UserAccount) (cur : UInt32) : UserAccount :=
  let u :=
    if u.time < cur then
      if u.lastused &&& 0xFFFFFF00 = cur &&& 0xFFFFFF00 then
        let u := { u with count := u.count + 1 }
        if 32 < u.count then { u with time := cur + 3600 } else u
      else { u with time := 0, count := 1 }
    else u
  { u with lastused := cur }

/-- The characters of `_g_keylist`, from 1 on. -/
def keylist : List UInt8 :=
  (List.range 26).map (97 + UInt8.ofNat ·) ++ (List.range 26).map (65 + UInt8.ofNat ·) ++
    (List.range 10).map (48 + UInt8.ofNat ·) ++
    [33, 64, 35, 36, 37, 94, 61, 38, 42, 45, 95, 46, 63, 59, 58, 44, 32, 9]

/-- `get_strindex`. -/
def getStrindex : List UInt8 → ℕ
  | [] => 0
  | c :: _ => if c ∈ keylist then keylist.idxOf c + 1 else 0

/-- `STRHASH_CAP_MAX`. -/
def strhashCapMax : ℕ := 80

/-! ### The service -/

/-- `squeue`, with what is in it from its head on. -/
structure Squeue where
  count : ℤ := 0
  queue : List ℕ := []

/-- The records have numbers, in the order in which they were allocated. -/
structure Service where
  /-- The time, of which `get_mytime` has 32 bits. -/
  now : ℕ := 0
  next : ℕ := 0
  heap : ℕ → UserAccount := fun _ => {}
  caches : Squeue := {}
  /-- `_users` of each group: the records of each chain of the hash. -/
  users : ℕ → ℕ → List ℕ := fun _ _ => []
  lastUpdateTime : ℕ → UInt32 := fun _ => 3600
  /-- What has been given to `my_free`. -/
  freed : List ℕ := []
  /-- When a record was used last, which the service does not know. -/
  used : ℕ → ℕ := fun _ => 0

namespace Service

variable (s : Service)

def getMytime : UInt32 := UInt32.ofNat s.now

def setChain (i c : ℕ) (l : List ℕ) : Service :=
  { s with users := fun i' c' => if i' = i ∧ c' = c then l else s.users i' c' }

/-! ### The pool -/

/-- `push_squeue`. -/
def pushSqueue (r : ℕ) : Service :=
  { s with caches := { count := s.caches.count + 1, queue := s.caches.queue ++ [r] } }

/-- `pop_squeue`: `_count` is made less at its beginning and again at its end. It waits for ever where
there is nothing. -/
def popSqueue : Option (Option ℕ × Service) :=
  if s.caches.count < 1 then some (none, s)
  else
    match s.caches.queue with
    | [] => none
    | r :: queue => some (some r, { s with caches := { count := s.caches.count - 1 - 1, queue := queue } })

/-- `get_user_cache`, which clears the record. -/
def getUserCache : Option (ℕ × Service) := do
  let (cache, s) ← s.popSqueue
  match cache with
  | some r => some (r, { s with heap := Function.update s.heap r {} })
  | none => some (s.next, { s with next := s.next + 1, heap := Function.update s.heap s.next {} })

/-- `free_user_cache`. -/
def freeUserCache (maxCache : ℕ) (r : ℕ) : Service :=
  if maxCache < s.caches.count then { s with freed := s.freed ++ [r] } else s.pushSqueue r

/-! ### The hash -/

/-- `get_str_hash`. -/
def getStrHash (i : ℕ) (name : List UInt8) : Option ℕ :=
  (s.users i (getStrindex name)).find? fun r => (s.heap r).key = name

/-- `set_str_hash`: it fails where there is one of the name. -/
def setStrHash (i r : ℕ) : Option Service :=
  let key := (s.heap r).key
  if (s.getStrHash i key).isSome then none
  else some (s.setChain i (getStrindex key) (r :: s.users i (getStrindex key)))

/-- `del_str_hash`. -/
def delStrHash (i : ℕ) (name : List UInt8) : Service :=
  s.setChain i (getStrindex name)
    ((s.users i (getStrindex name)).eraseP fun r => (s.heap r).key = name)

end Service

/-- The loop of `doall_strhash` over the nodes behind a head: what is left of them. -/
def doallTail {σ : Type} (dof : ℕ → Bool) (freef : σ → ℕ → σ) : List ℕ → σ → List ℕ × σ
  | [], s => ([], s)
  | r :: l, s =>
    if dof r then doallTail dof freef l (freef s r)
    else
      let (l', s') := doallTail dof freef l s
      (r :: l', s')

/-- A chain, whose head comes last. -/
def doallChain {σ : Type} (dof : ℕ → Bool) (freef : σ → ℕ → σ) : List ℕ → σ → List ℕ × σ
  | [], s => ([], s)
  | r :: l, s =>
    let (l', s') := doallTail dof freef l s
    if dof r then (l', freef s' r) else (r :: l', s')

namespace Service

variable (s : Service)

/-- `doall_strhash` for the hash of a group. -/
def doallStrhash (dof : ℕ → Bool) (freef : Service → ℕ → Service) (i : ℕ) : Service :=
  (List.range strhashCapMax).foldl (fun s c =>
    let (l, s') := doallChain dof freef (s.users i c) s
    s'.setChain i c l) s

/-! ### The handlers -/

/-- A record is used. -/
def use (r : ℕ) (u : UserAccount) : Service :=
  { s with heap := Function.update s.heap r u, used := Function.update s.used r s.now }

/-- `get_user_byname`. -/
def getUserByname (i : ℕ) (name : List UInt8) : Option ℕ × Service :=
  match s.getStrHash i name with
  | some r => (some r, s.use r ((s.heap r).touch s.getMytime))
  | none => (none, s)

/-- `add_user`, where the hash must take the record. -/
def addUser (i r : ℕ) : Option Service :=
  (s.use r { s.heap r with lastused := s.getMytime }).setStrHash i r

/-- `_load_user_cache`, where the database has `row` for the name. -/
def loadUserCache (i : ℕ) (name : List UInt8) (row : Option Row) : Option (Option ℕ × Service) :=
  match s.getUserByname i name with
  | (some r, s) => some (some r, s)
  | (none, s) =>
    match row with
    | none => some (none, s)
    | some row => do
      let (r, s) ← s.getUserCache
      let u := { s.heap r with
        name := strncpy userNameSize name, id := row.charID
        password := strncpy 32 row.psd ++ [0], ends := by simp }
      let s ← { s with heap := Function.update s.heap r u }.addUser i r
      some (some r, s)

/-- `pushmsg_byname` and `handle_usermsg_login`; what they send is left out here. -/
def login (netid : UInt64) (message : List UInt8) (row : Option Row) : Option Service :=
  if ¬ checkUsername message then some s
  else do
    let (user, s) ← s.loadUserCache (nameWord (message.headD 0)) (toSmallwords message) row
    match user with
    | some r => some { s with heap := Function.update s.heap r { s.heap r with netid := netid } }
    | none => some s

/-- `pop_user_netid_byname`: the connection, the character and what it leaves. -/
def popUserNetidByname (name : List UInt8) : UInt64 × UInt64 × Service :=
  if ¬ checkUsername name then (0xFFFFFFFFFFFFFFFF, 0, s)
  else
    let i := nameWord (name.headD 0)
    match s.getUserByname i name with
    | (some r, s) => ((s.heap r).netid, (s.heap r).id, s.delStrHash i name)
    | (none, s) => (0, 0, s)

/-- `CONN_GATE_INFO`. -/
def gateInfo (content : List UInt8) : Option Service :=
  (connGateInfo content).map fun reply => (s.popUserNetidByname reply.name).2.2

/-- `_is_user_timeout`. -/
def isUserTimeout (t : UInt32) (r : ℕ) : Bool := (s.heap r).lastused < t

/-- `user_account_doproc`. -/
def accountDoproc (maxCache i : ℕ) : Option Service :=
  let cur := s.getMytime
  if s.lastUpdateTime i < cur then
    if 3600 < cur then
      let s := s.doallStrhash (s.isUserTimeout (cur - 3600)) (fun s r => s.freeUserCache maxCache r) i
      some { s with lastUpdateTime := Function.update s.lastUpdateTime i (cur + 3600) }
    else none
  else some s

end Service

/-- `USERLIST_NUM`. -/
abbrev userlistNum : ℕ := 39

inductive Label
  | login (netid : UInt64) (message : List UInt8) (row : Option Row)
  | gateInfo (content : List UInt8)
  | doproc (i : Fin userlistNum)
  | wait (seconds : ℕ)

def step (maxCache : ℕ) (s : Service) : Label → Option Service
  | .login netid message row => s.login netid message row
  | .gateInfo content => s.gateInfo content
  | .doproc i => s.accountDoproc maxCache i
  | .wait seconds => some { s with now := s.now + seconds }

/-! ### What is asked -/

/-- Where a record may be. -/
inductive Place
  | hash (i c : ℕ)
  | pool
  | freed
deriving DecidableEq

namespace Service

variable (s : Service)

/-- The records at a place. -/
def records : Place → List ℕ
  | .hash i c => s.users i c
  | .pool => s.caches.queue
  | .freed => s.freed

/-- Each record that was allocated is at one place, and there once; in a hash it is in that of its
group. -/
structure Owned : Prop where
  one : ∀ r < s.next, ∃! p, r ∈ s.records p
  once : ∀ p, (s.records p).Nodup
  group : ∀ i c, ∀ r ∈ s.users i c, (s.heap r).key.head?.map nameWord = some i

/-- A sweep leaves the records that were used within the last hour. -/
def Spares (maxCache : ℕ) : Prop :=
  ∀ i s', s.accountDoproc maxCache i = some s' →
    ∀ c, ∀ r ∈ s.users i c, s.now ≤ s.used r + 3600 → r ∈ s'.users i c

/-- No record in the chain of the name has it. -/
def Absent (name : List UInt8) : Prop :=
  ∀ r ∈ s.users (nameWord (name.headD 0)) (getStrindex name), (s.heap r).key ≠ name

/-- An answer of the gate whose name is a name finds no record. -/
def Ok : Label → Prop
  | .gateInfo content => ∀ reply ∈ connGateInfo content,
    checkUsername reply.name = true → s.Absent reply.name
  | _ => True

instance (name : List UInt8) : Decidable (s.Absent name) :=
  inferInstanceAs (Decidable (∀ r ∈ _, _))

instance : ∀ a, Decidable (s.Ok a)
  | .gateInfo content => inferInstanceAs (Decidable (∀ reply ∈ connGateInfo content,
    checkUsername reply.name = true → s.Absent reply.name))
  | .login .. => inferInstanceAs (Decidable True)
  | .doproc _ => inferInstanceAs (Decidable True)
  | .wait _ => inferInstanceAs (Decidable True)

end Service

/-! ### Keys and times -/

namespace UserAccount

variable (u : UserAccount) (cur : UInt32)

@[simp] theorem lastused_touch : (u.touch cur).lastused = cur := rfl

@[simp] theorem key_touch : (u.touch cur).key = u.key := by
  unfold touch key
  dsimp only
  split_ifs <;> rfl

/-- The key of a record starts as its name does. -/
theorem key_strncpy {name : List UInt8} (hne : name ≠ []) (hz : 0 ∉ name)
    (hu : u.name = strncpy userNameSize name) : u.key.head? = name.head? := by
  cases name with
  | nil => exact absurd rfl hne
  | cons c l =>
    have hc : c ≠ 0 := fun he => hz (he ▸ List.mem_cons_self)
    unfold key
    rw [hu, strncpy, userNameSize, List.take_succ_cons, List.cons_append, List.cons_append,
      List.takeWhile_cons_of_pos (by simpa using hc)]
    rfl

end UserAccount

/-- A name that passes the check is in the group of its small letters. -/
theorem head_toSmallwords {name : List UInt8} (h : checkUsername name = true) :
    (toSmallwords name).head?.map nameWord = some (nameWord (name.headD 0)) := by
  cases name with
  | nil => exact absurd rfl (of_decide_eq_true h).1
  | cons c l => exact congrArg some (nameWord_toSmallword c)

/-- A character of a name has a chain. -/
theorem getStrindex_lt {name : List UInt8} (h : checkUsername name = true) :
    getStrindex name < strhashCapMax := by
  have hall : ∀ n < 256, nameWord (UInt8.ofNat n) ≠ 255 →
      getStrindex [UInt8.ofNat n] < strhashCapMax := by decide +kernel
  obtain ⟨hne, hname⟩ := of_decide_eq_true h
  cases name with
  | nil => exact absurd rfl hne
  | cons c l =>
    have := hall c.toNat c.toNat_lt
    rw [UInt8.ofNat_toNat] at this
    exact this (hname c List.mem_cons_self)

/-! ### The invariant -/

namespace Service

variable {s s' : Service} {i c r : ℕ} {name : List UInt8} {l gone : List ℕ} {maxCache : ℕ}

theorem records_setChain (p : Place) :
    (s.setChain i c l).records p = if p = .hash i c then l else s.records p := by
  cases p with
  | hash i' c' =>
    simp only [records, setChain, Place.hash.injEq]
  | pool => rfl
  | freed => rfl

theorem setChain_self : (s.setChain i c l).records (.hash i c) = l := by
  rw [records_setChain, if_pos rfl]

theorem setChain_of_ne {p : Place} (h : p ≠ .hash i c) :
    (s.setChain i c l).records p = s.records p := by
  rw [records_setChain, if_neg h]

/-- A record of a hash has a name of its group, and the time when it was used last. -/
structure Linked (s : Service) (i r : ℕ) : Prop where
  group : (s.heap r).key.head?.map nameWord = some i
  lastused : (s.heap r).lastused = UInt32.ofNat (s.used r)
  used : s.used r ≤ s.now

/-- A record that is not written stays as it is. -/
theorem Linked.congr (h : s.Linked i r) (hheap : s'.heap r = s.heap r) (hused : s'.used r = s.used r)
    (hnow : s'.now = s.now) : s'.Linked i r where
  group := hheap ▸ h.group
  lastused := by
    rw [hheap, hused]
    exact h.lastused
  used := by
    rw [hused, hnow]
    exact h.used

structure Inv (s : Service) : Prop where
  exclusive : Exclusive s.records
  fresh : ∀ r, Held s.records r → r < s.next
  linked : ∀ i c, ∀ r ∈ s.users i c, s.Linked i r

theorem inv_init : Inv {} where
  exclusive := by
    refine ⟨fun p => ?_, fun r p q hp => ?_⟩
    · cases p <;> exact List.nodup_nil
    · cases p <;> cases hp
  fresh r := by
    rintro ⟨p, hp⟩
    cases p <;> cases hp
  linked i c r hr := by cases hr

/-- A record that no one has. -/
def Lost (s : Service) (r : ℕ) : Prop := r < s.next ∧ ¬ Held s.records r

theorem Inv.owned_iff (h : s.Inv) : s.Owned ↔ ∀ r, ¬ s.Lost r := by
  constructor
  · rintro ho r ⟨hr, hno⟩
    exact hno (h.exclusive.existsUnique.mp (ho.one r hr))
  · intro hno
    refine ⟨fun r hr => ?_, h.exclusive.nodup, fun i c r hr => (h.linked i c r hr).group⟩
    exact h.exclusive.existsUnique.mpr (Classical.byContradiction fun hn => hno r ⟨hr, hn⟩)

/-- A step that loses nothing and finds nothing again. -/
structure Keeps (s s' : Service) : Prop where
  inv : s'.Inv
  lost : ∀ r, s'.Lost r ↔ s.Lost r

theorem Keeps.refl (h : s.Inv) : s.Keeps s := ⟨h, fun _ => Iff.rfl⟩

theorem Keeps.trans {s₁ s₂ s₃ : Service} (h : s₁.Keeps s₂) (h' : s₂.Keeps s₃) : s₁.Keeps s₃ :=
  ⟨h'.inv, fun r => (h'.lost r).trans (h.lost r)⟩

/-! ### Records that change where they are -/

/-- The records of the places are as before where their lists are. -/
theorem Inv.keeps (h : s.Inv) (hrec : s'.records = s.records) (hnext : s'.next = s.next)
    (hl : ∀ i c, ∀ r ∈ s.users i c, s.Linked i r → s'.Linked i r) : s.Keeps s' where
  inv := by
    refine ⟨hrec ▸ h.exclusive, fun r hr => ?_, fun i c r hr => ?_⟩
    · rw [hrec] at hr
      rw [hnext]
      exact h.fresh r hr
    · have hr : r ∈ s.records (.hash i c) := by
        rw [← hrec]
        exact hr
      exact hl i c r hr (h.linked i c r hr)
  lost r := by
    unfold Lost
    rw [hrec, hnext]

theorem records_heap {heap : ℕ → UserAccount} : records { s with heap := heap } = s.records := by
  funext p
  cases p <;> rfl

theorem records_use (u : UserAccount) : (s.use r u).records = s.records := by
  funext p
  cases p <;> rfl

/-- A write into a record that leaves its name and its time. -/
theorem Inv.keeps_heap (h : s.Inv) {u : UserAccount} (hk : u.key = (s.heap r).key)
    (hl : u.lastused = (s.heap r).lastused) :
    s.Keeps { s with heap := Function.update s.heap r u } := by
  refine h.keeps records_heap rfl fun i c b _ hb => ?_
  obtain rfl | hne := eq_or_ne b r
  · refine ⟨?_, ?_, hb.used⟩
    · dsimp only
      rw [Function.update_self, hk]
      exact hb.group
    · dsimp only
      rw [Function.update_self, hl]
      exact hb.lastused
  · exact hb.congr (Function.update_of_ne hne ..) rfl rfl

/-- A use of a record that leaves its name. -/
theorem Inv.keeps_use (h : s.Inv) {u : UserAccount} (hk : u.key = (s.heap r).key)
    (hl : u.lastused = s.getMytime) : s.Keeps (s.use r u) := by
  refine h.keeps (records_use u) rfl fun i c b _ hb => ?_
  unfold use
  obtain rfl | hne := eq_or_ne b r
  · refine ⟨?_, ?_, ?_⟩
    · dsimp only
      rw [Function.update_self, hk]
      exact hb.group
    · dsimp only
      rw [Function.update_self, Function.update_self, hl]
      rfl
    · dsimp only
      rw [Function.update_self]
  · exact hb.congr (Function.update_of_ne hne ..) (Function.update_of_ne hne ..) rfl

theorem Inv.keeps_getUserByname (h : s.Inv) : s.Keeps (s.getUserByname i name).2 := by
  unfold getUserByname
  split
  next r _ => exact h.keeps_use (UserAccount.key_touch ..) rfl
  next => exact Keeps.refl h

/-- Records that are taken from where they are: no one has them then. -/
theorem Inv.drop (h : s.Inv) {p : Place} (hw : (s.records p).Perm (gone ++ s'.records p))
    (ho : ∀ q ≠ p, s'.records q = s.records q) (hnext : s'.next = s.next) (hheap : s'.heap = s.heap)
    (hused : s'.used = s.used) (hnow : s'.now = s.now) :
    s'.Inv ∧ (∀ b, s'.Lost b ↔ s.Lost b ∨ b ∈ gone) ∧ ∀ b ∈ gone, ¬ s.Lost b := by
  have hheld (b : ℕ) := @Exclusive.held_drop _ _ _ _ b _ _ h.exclusive hw ho
  have hgone : ∀ b ∈ gone, Held s.records b := fun b hb =>
    ⟨p, hw.symm.subset (List.mem_append_left _ hb)⟩
  refine ⟨⟨h.exclusive.drop hw ho, fun b hb => ?_, fun i c b hb => ?_⟩, fun b => ?_,
    fun b hb hl => hl.2 (hgone b hb)⟩
  · rw [hnext]
    exact h.fresh b ((hheld b).mp hb).1
  · change b ∈ s'.records (.hash i c) at hb
    have hb : b ∈ s.records (.hash i c) := by
      by_cases hp : Place.hash i c = p
      · subst hp
        exact hw.symm.subset (List.mem_append_right _ hb)
      · rwa [← ho _ hp]
    exact (h.linked i c b hb).congr (congrFun hheap b) (congrFun hused b) hnow
  · unfold Lost
    rw [hheld, hnext]
    constructor
    · rintro ⟨hlt, hno⟩
      by_cases hb : b ∈ gone
      · exact Or.inr hb
      · exact Or.inl ⟨hlt, fun hh => hno ⟨hh, hb⟩⟩
    · rintro (⟨hlt, hno⟩ | hb)
      · exact ⟨hlt, fun hh => hno hh.1⟩
      · exact ⟨h.fresh b (hgone b hb), fun hh => hh.2 hb⟩

/-- A record that no one has is given to a place, in a hash where it has a name of the group. -/
theorem Inv.give (h : s.Inv) (hr : s.Lost r) {p : Place} (hw : (s'.records p).Perm (r :: s.records p))
    (ho : ∀ q ≠ p, s'.records q = s.records q) (hlink : ∀ i c, p = .hash i c → s.Linked i r)
    (hnext : s'.next = s.next) (hheap : s'.heap = s.heap) (hused : s'.used = s.used)
    (hnow : s'.now = s.now) : s'.Inv ∧ ∀ b, s'.Lost b ↔ s.Lost b ∧ b ≠ r := by
  have hheld (b : ℕ) := @held_give _ _ s.records _ r b _ hw ho
  refine ⟨⟨h.exclusive.give hr.2 hw ho, fun b hb => ?_, fun i c b hb => ?_⟩, fun b => ?_⟩
  · rw [hnext]
    obtain hb | rfl := (hheld b).mp hb
    · exact h.fresh b hb
    · exact hr.1
  · change b ∈ s'.records (.hash i c) at hb
    have hl : s.Linked i b := by
      by_cases hp : Place.hash i c = p
      · subst hp
        obtain rfl | hb := List.mem_cons.mp (hw.subset hb)
        · exact hlink i c rfl
        · exact h.linked i c b hb
      · rw [ho _ hp] at hb
        exact h.linked i c b hb
    exact hl.congr (congrFun hheap b) (congrFun hused b) hnow
  · unfold Lost
    rw [hheld, hnext, not_or, and_assoc]

/-! ### A record that is made -/

/-- A step that takes a record into its hand, which no one has then. -/
structure Takes (s s' : Service) (r : ℕ) : Prop where
  inv : s'.Inv
  lost : ∀ b, s'.Lost b ↔ s.Lost b ∨ b = r
  had : ¬ s.Lost r

theorem Inv.takes_pool (h : s.Inv) {count : ℤ} {queue : List ℕ} (hq : s.caches.queue = r :: queue) :
    s.Takes { s with caches := ⟨count, queue⟩ } r := by
  obtain ⟨hinv, hlost, hhad⟩ := @Inv.drop s { s with caches := ⟨count, queue⟩ } [r] h .pool
    (List.Perm.of_eq hq)
    (fun p hp => by
      cases p with
      | pool => exact absurd rfl hp
      | hash i c => rfl
      | freed => rfl) rfl rfl rfl rfl
  simp only [List.mem_singleton] at hlost hhad
  exact ⟨hinv, hlost, hhad r rfl⟩

theorem Inv.takes_new (h : s.Inv) : s.Takes { s with next := s.next + 1 } s.next := by
  have hrec : records { s with next := s.next + 1 } = s.records := by
    funext p
    cases p <;> rfl
  have hno : ¬ Held s.records s.next := fun hh => Nat.lt_irrefl _ (h.fresh _ hh)
  refine ⟨⟨hrec ▸ h.exclusive, fun b hb => ?_, fun i c b hb => (h.linked i c b hb).congr rfl rfl rfl⟩,
    fun b => ?_, fun hl => Nat.lt_irrefl _ hl.1⟩
  · rw [hrec] at hb
    exact Nat.lt_succ_of_lt (h.fresh b hb)
  · unfold Lost
    rw [hrec]
    constructor
    · rintro ⟨hlt, hb⟩
      exact (Nat.lt_succ_iff_lt_or_eq.mp hlt).imp_left fun hlt => ⟨hlt, hb⟩
    · rintro (⟨hlt, hb⟩ | rfl)
      · exact ⟨Nat.lt_succ_of_lt hlt, hb⟩
      · exact ⟨Nat.lt_succ_self _, hno⟩

/-- A record that no one has may be written. -/
theorem Inv.keeps_write (h : s.Inv) (hr : s.Lost r) (u : UserAccount) :
    s.Keeps { s with heap := Function.update s.heap r u } := by
  refine h.keeps records_heap rfl fun i c b hb hl => ?_
  have hne : b ≠ r := fun he => hr.2 ⟨.hash i c, he ▸ hb⟩
  exact hl.congr (Function.update_of_ne hne ..) rfl rfl

theorem Takes.keeps {s₁ s₂ : Service} (h : s.Takes s₁ r) (h' : s₁.Keeps s₂) : s.Takes s₂ r :=
  ⟨h'.inv, fun b => (h'.lost b).trans (h.lost b), h.had⟩

theorem Takes.lost_self (h : s.Takes s' r) : s'.Lost r := (h.lost r).mpr (Or.inr rfl)

theorem Inv.takes_getUserCache (h : s.Inv) (hg : s.getUserCache = some (r, s')) : s.Takes s' r := by
  unfold getUserCache popSqueue at hg
  split_ifs at hg with hc
  · cases hg
    exact h.takes_new.keeps (h.takes_new.inv.keeps_write h.takes_new.lost_self _)
  · cases hq : s.caches.queue with
    | nil =>
      rw [hq] at hg
      cases hg
    | cons a queue =>
      rw [hq] at hg
      cases hg
      have ht := @Inv.takes_pool s r h (s.caches.count - 1 - 1) _ hq
      exact ht.keeps (ht.inv.keeps_write ht.lost_self _)

/-- A record in the hand that is put into the hash of its group. -/
theorem Inv.addUser (h : s.Inv) (hr : s.Lost r)
    (hg : (s.heap r).key.head?.map nameWord = some i) (ha : s.addUser i r = some s') :
    s'.Inv ∧ ∀ b, s'.Lost b ↔ s.Lost b ∧ b ≠ r := by
  have hk : s.Keeps (s.use r { s.heap r with lastused := s.getMytime }) :=
    h.keeps_use rfl rfl
  have hheap : (s.use r { s.heap r with lastused := s.getMytime }).heap r =
      { s.heap r with lastused := s.getMytime } := Function.update_self ..
  have hused : (s.use r { s.heap r with lastused := s.getMytime }).used r = s.now :=
    Function.update_self ..
  have hlink : (s.use r { s.heap r with lastused := s.getMytime }).Linked i r := by
    refine ⟨?_, ?_, ?_⟩
    · rw [hheap]
      exact hg
    · rw [hheap, hused]
      rfl
    · rw [hused]
      exact Nat.le_refl _
  unfold Service.addUser at ha
  generalize s.use r { s.heap r with lastused := s.getMytime } = s₁ at hk hlink ha
  unfold setStrHash at ha
  dsimp only at ha
  split_ifs at ha
  cases ha
  obtain ⟨hinv, hlost⟩ := hk.inv.give ((hk.lost r).mpr hr) (p := .hash i (getStrindex (s₁.heap r).key))
    (List.Perm.of_eq setChain_self) (fun p hp => setChain_of_ne hp)
    (fun i' c' he => by
      cases he
      exact hlink) rfl rfl rfl rfl
  exact ⟨hinv, fun b => (hlost b).trans (and_congr_left fun _ => hk.lost b)⟩

/-- **A login keeps the records**, found or made. -/
theorem Inv.keeps_loadUserCache (h : s.Inv) {row : Option Row} {user : Option ℕ} (hne : name ≠ [])
    (hz : 0 ∉ name) (hg : name.head?.map nameWord = some i)
    (hl : s.loadUserCache i name row = some (user, s')) : s.Keeps s' := by
  have hk : s.Keeps (s.getUserByname i name).2 := h.keeps_getUserByname
  unfold loadUserCache at hl
  generalize s.getUserByname i name = p at hk hl
  obtain ⟨_ | r, s₁⟩ := p
  · cases row with
    | none =>
      cases hl
      exact hk
    | some row =>
      obtain ⟨⟨r, s₂⟩, hc, hl⟩ := Option.bind_eq_some_iff.mp hl
      obtain ⟨s₃, ha, hl⟩ := Option.bind_eq_some_iff.mp hl
      cases hl
      have ht := hk.inv.takes_getUserCache hc
      have ht := ht.keeps (ht.inv.keeps_write ht.lost_self { s₂.heap r with
        name := strncpy userNameSize name, id := row.charID
        password := strncpy 32 row.psd ++ [0], ends := by simp })
      obtain ⟨hinv, hlost⟩ := ht.inv.addUser ht.lost_self
        (by
          dsimp only
          rw [Function.update_self, UserAccount.key_strncpy _ hne hz rfl]
          exact hg) ha
      refine hk.trans ⟨hinv, fun b => ?_⟩
      rw [hlost, ht.lost]
      constructor
      · rintro ⟨hb | hb, hne⟩
        · exact hb
        · exact absurd hb hne
      · intro hb
        exact ⟨Or.inl hb, fun he => ht.had (he ▸ hb)⟩
  · cases hl
    exact hk

theorem Inv.keeps_login (h : s.Inv) {netid : UInt64} {message : List UInt8} {row : Option Row}
    (hl : s.login netid message row = some s') : s.Keeps s' := by
  unfold login at hl
  by_cases hc : checkUsername message = true
  · rw [if_neg (not_not_intro hc)] at hl
    have hc' := checkUsername_toSmallwords hc
    obtain ⟨⟨user, s₁⟩, hu, hl⟩ := Option.bind_eq_some_iff.mp hl
    have hk := h.keeps_loadUserCache (of_decide_eq_true hc').1 (not_mem_zero hc')
      (head_toSmallwords hc) hu
    cases user with
    | none =>
      cases hl
      exact hk
    | some r =>
      cases hl
      exact hk.trans (hk.inv.keeps_heap rfl rfl)
  · rw [if_pos hc] at hl
    cases hl
    exact Keeps.refl h

/-! ### The answer of the gate -/

theorem absent_iff : s.Absent name ↔ s.getStrHash (nameWord (name.headD 0)) name = none := by
  unfold Absent getStrHash
  rw [List.find?_eq_none]
  simp only [decide_eq_true_eq]

/-- A record that is deleted is lost, and no other one is. -/
theorem Inv.delStrHash (h : s.Inv) (hf : s.getStrHash i name = some r) :
    (s.delStrHash i name).Inv ∧ (∀ b, (s.delStrHash i name).Lost b ↔ s.Lost b ∨ b = r) ∧
      ¬ s.Lost r := by
  unfold Service.delStrHash
  obtain ⟨hp, l₁, l₂, hl, hno⟩ := List.find?_eq_some_iff_append.mp hf
  generalize getStrindex name = c at hl ⊢
  have he : (s.users i c).eraseP (fun r => (s.heap r).key = name) = l₁ ++ l₂ := by
    rw [hl, List.eraseP_append_right _ fun b hb => by simpa using hno b hb]
    exact congrArg (l₁ ++ ·) (List.eraseP_cons_of_pos hp)
  have hw : (s.records (.hash i c)).Perm
      ([r] ++ (s.setChain i c (l₁ ++ l₂)).records (.hash i c)) := by
    rw [setChain_self]
    exact (List.Perm.of_eq hl).trans List.perm_middle
  obtain ⟨hinv, hlost, hhad⟩ := h.drop hw (fun p hp => setChain_of_ne hp) rfl rfl rfl rfl
  simp only [List.mem_singleton] at hlost hhad
  rw [he]
  exact ⟨hinv, hlost, hhad r rfl⟩

/-- **An answer of the gate loses the record that it finds**, and keeps the others. -/
theorem Inv.gateInfo (h : s.Inv) {content : List UInt8} (hg : s.gateInfo content = some s') :
    s'.Inv ∧ (∀ b, s.Lost b → s'.Lost b) ∧
      (s.Ok (.gateInfo content) ↔ ∀ b, s'.Lost b → s.Lost b) := by
  obtain ⟨reply, hr, rfl⟩ := Option.map_eq_some_iff.mp hg
  have hok : s.Ok (.gateInfo content) ↔ (checkUsername reply.name = true → s.Absent reply.name) := by
    refine ⟨fun ho => ho reply hr, fun ho reply' hr' => ?_⟩
    rw [hr] at hr'
    cases hr'
    exact ho
  rw [hok]
  unfold Service.popUserNetidByname
  by_cases hc : checkUsername reply.name = true
  · rw [if_neg (not_not_intro hc)]
    dsimp only
    rw [imp_iff_right hc, absent_iff]
    have hk : s.Keeps (s.getUserByname (nameWord (reply.name.headD 0)) reply.name).2 :=
      h.keeps_getUserByname
    generalize hi : nameWord (reply.name.headD 0) = i at hk ⊢
    unfold getUserByname at hk ⊢
    cases hf : s.getStrHash i reply.name with
    | none =>
      rw [hf] at hk
      exact ⟨h, fun _ => id, fun _ _ => id, fun _ => rfl⟩
    | some r =>
      rw [hf] at hk
      have hf' : (s.use r ((s.heap r).touch s.getMytime)).getStrHash i reply.name = some r := by
        have hkey (b : ℕ) : ((s.use r ((s.heap r).touch s.getMytime)).heap b).key = (s.heap b).key := by
          unfold use
          dsimp only
          obtain rfl | hne := eq_or_ne b r
          · rw [Function.update_self, UserAccount.key_touch]
          · rw [Function.update_of_ne hne]
        unfold getStrHash
        simp only [hkey]
        exact hf
      obtain ⟨hinv, hlost, hno⟩ := hk.inv.delStrHash hf'
      refine ⟨hinv, fun b hb => ?_, fun hn => ?_, fun hall => ?_⟩
      · exact (hlost b).mpr (Or.inl ((hk.lost b).mpr hb))
      · cases hn
      · exact absurd ((hk.lost r).mpr (hall r ((hlost r).mpr (Or.inr rfl)))) hno
  · rw [if_pos hc]
    exact ⟨h, fun _ => id, fun _ _ => id, fun _ hn => absurd hn hc⟩

end Service

/-! ### A sweep -/

section

variable {σ : Type} (dof : ℕ → Bool) (freef : σ → ℕ → σ)

theorem doallTail_eq (l : List ℕ) (s : σ) :
    doallTail dof freef l s = (l.filter (! dof ·), (l.filter dof).foldl freef s) := by
  induction l generalizing s with
  | nil => rfl
  | cons r l ih =>
    unfold doallTail
    by_cases hr : dof r = true
    · rw [if_pos hr, ih, List.filter_cons_of_pos hr, List.filter_cons_of_neg (by simp [hr])]
      rfl
    · rw [if_neg hr, ih, List.filter_cons_of_neg hr, List.filter_cons_of_pos (by simp [hr])]

/-- A chain keeps what is not to be freed, and the rest is freed in some order. -/
theorem doallChain_eq (l : List ℕ) (s : σ) :
    ∃ gone : List ℕ, gone.Perm (l.filter dof) ∧
      doallChain dof freef l s = (l.filter (! dof ·), gone.foldl freef s) := by
  cases l with
  | nil => exact ⟨[], List.Perm.refl _, rfl⟩
  | cons r l =>
    unfold doallChain
    dsimp only
    rw [doallTail_eq]
    dsimp only
    by_cases hr : dof r = true
    · refine ⟨l.filter dof ++ [r], ?_, ?_⟩
      · rw [List.filter_cons_of_pos hr]
        exact List.perm_append_singleton r _
      · rw [if_pos hr, List.filter_cons_of_neg (by simp [hr]), List.foldl_append]
        rfl
    · refine ⟨l.filter dof, ?_, ?_⟩
      · rw [List.filter_cons_of_neg hr]
      · rw [if_neg hr, List.filter_cons_of_pos (by simp [hr])]

end

namespace Service

variable {s s' : Service} {i c r : ℕ} {l gone : List ℕ} {maxCache : ℕ} {dof : ℕ → Bool}

/-- A record that is freed goes to the pool or to the allocator, and nothing else changes. -/
theorem Inv.freeUserCache (h : s.Inv) (hr : s.Lost r) :
    (s.freeUserCache maxCache r).Inv ∧
      ∀ b, (s.freeUserCache maxCache r).Lost b ↔ s.Lost b ∧ b ≠ r := by
  unfold Service.freeUserCache
  split_ifs
  · refine h.give hr (p := .freed) List.perm_append_comm (fun p hp => ?_) nofun rfl rfl rfl rfl
    cases p with
    | freed => exact absurd rfl hp
    | hash i c => rfl
    | pool => rfl
  · refine h.give hr (p := .pool) List.perm_append_comm (fun p hp => ?_) nofun rfl rfl rfl rfl
    cases p with
    | pool => exact absurd rfl hp
    | hash i c => rfl
    | freed => rfl

theorem Inv.foldl_freeUserCache (h : s.Inv) (hn : gone.Nodup) (hl : ∀ r ∈ gone, s.Lost r) :
    (gone.foldl (fun s r => s.freeUserCache maxCache r) s).Inv ∧
      ∀ b, (gone.foldl (fun s r => s.freeUserCache maxCache r) s).Lost b ↔ s.Lost b ∧ b ∉ gone := by
  induction gone generalizing s with
  | nil => exact ⟨h, fun b => by simp⟩
  | cons r gone ih =>
    obtain ⟨hr, hn⟩ := List.nodup_cons.mp hn
    obtain ⟨hinv, hlost⟩ := @Inv.freeUserCache s r maxCache h (hl r List.mem_cons_self)
    obtain ⟨hinv', hlost'⟩ := ih hinv hn fun b hb => (hlost b).mpr
      ⟨hl b (List.mem_cons_of_mem _ hb), fun he => hr (he ▸ hb)⟩
    refine ⟨hinv', fun b => (hlost' b).trans ?_⟩
    rw [hlost, List.mem_cons, not_or, and_assoc]

theorem users_freeUserCache (s : Service) (r : ℕ) : (s.freeUserCache maxCache r).users = s.users := by
  unfold Service.freeUserCache
  split_ifs <;> rfl

theorem freeUserCache_setChain :
    (s.setChain i c l).freeUserCache maxCache r = (s.freeUserCache maxCache r).setChain i c l := by
  unfold Service.freeUserCache
  change (if (maxCache : ℤ) < s.caches.count then _ else _) = _
  split_ifs <;> rfl

theorem foldl_freeUserCache_setChain :
    gone.foldl (fun s r => s.freeUserCache maxCache r) (s.setChain i c l) =
      (gone.foldl (fun s r => s.freeUserCache maxCache r) s).setChain i c l := by
  induction gone generalizing s with
  | nil => rfl
  | cons r gone ih =>
    rw [List.foldl_cons, List.foldl_cons, freeUserCache_setChain]
    exact ih

/-- The sweep of a chain. -/
def doallCap (maxCache : ℕ) (dof : ℕ → Bool) (i : ℕ) (s : Service) (c : ℕ) : Service :=
  let (l, s') := doallChain dof (fun s r => s.freeUserCache maxCache r) (s.users i c) s
  s'.setChain i c l

theorem doallCap_eq : ∃ gone : List ℕ, gone.Perm ((s.users i c).filter dof) ∧
    doallCap maxCache dof i s c = gone.foldl (fun s r => s.freeUserCache maxCache r)
      (s.setChain i c ((s.users i c).filter (! dof ·))) := by
  obtain ⟨gone, hperm, he⟩ :=
    doallChain_eq dof (fun s r => s.freeUserCache maxCache r) (s.users i c) s
  refine ⟨gone, hperm, ?_⟩
  unfold doallCap
  rw [he]
  exact foldl_freeUserCache_setChain.symm

theorem users_doallCap (i' c' : ℕ) : (doallCap maxCache dof i s c).users i' c' =
    if i' = i ∧ c' = c then (s.users i c).filter (! dof ·) else s.users i' c' := by
  obtain ⟨gone, -, he⟩ := @doallCap_eq s i c maxCache dof
  rw [he, foldl_keep Service.users users_freeUserCache]
  rfl

theorem Inv.keeps_doallCap (h : s.Inv) : s.Keeps (doallCap maxCache dof i s c) := by
  obtain ⟨gone, hperm, he⟩ := @doallCap_eq s i c maxCache dof
  have hw : (s.records (.hash i c)).Perm (gone ++
      (s.setChain i c ((s.users i c).filter (! dof ·))).records (.hash i c)) := by
    rw [setChain_self]
    exact (List.filter_append_perm dof _).symm.trans (hperm.symm.append_right _)
  obtain ⟨hinv, hlost, hhad⟩ := h.drop hw (fun p hp => setChain_of_ne hp) rfl rfl rfl rfl
  have hnodup : gone.Nodup := hperm.nodup_iff.mpr ((h.exclusive.nodup (.hash i c)).filter _)
  obtain ⟨hinv', hlost'⟩ := @Inv.foldl_freeUserCache _ _ maxCache hinv hnodup
    fun r hr => (hlost r).mpr (Or.inr hr)
  rw [he]
  refine ⟨hinv', fun b => (hlost' b).trans ?_⟩
  rw [hlost]
  constructor
  · rintro ⟨hb | hb, hno⟩
    · exact hb
    · exact absurd hb hno
  · intro hb
    exact ⟨Or.inl hb, fun hg => hhad b hg hb⟩

/-- **A sweep keeps the records**, and leaves those in the hash that are not to be freed. -/
theorem Inv.keeps_foldl_doallCap (h : s.Inv) (l : List ℕ) :
    s.Keeps (l.foldl (doallCap maxCache dof i) s) ∧
      ∀ i' c', ∀ r ∈ s.users i' c', dof r = false →
        r ∈ (l.foldl (doallCap maxCache dof i) s).users i' c' := by
  induction l generalizing s with
  | nil => exact ⟨Keeps.refl h, fun _ _ _ hr _ => hr⟩
  | cons c l ih =>
    have hk : s.Keeps (doallCap maxCache dof i s c) := h.keeps_doallCap
    obtain ⟨hkeep, hleft⟩ := ih hk.inv
    refine ⟨hk.trans hkeep, fun i' c' r hr hd => hleft i' c' r ?_ hd⟩
    rw [users_doallCap]
    split_ifs with he
    · obtain ⟨rfl, rfl⟩ := he
      exact List.mem_filter.mpr ⟨hr, by simp [hd]⟩
    · exact hr

/-- A sweep of the hash of a group. -/
theorem Inv.keeps_doallStrhash (h : s.Inv) :
    s.Keeps (s.doallStrhash dof (fun s r => s.freeUserCache maxCache r) i) ∧
      ∀ i' c', ∀ r ∈ s.users i' c', dof r = false →
        r ∈ (s.doallStrhash dof (fun s r => s.freeUserCache maxCache r) i).users i' c' := by
  unfold doallStrhash
  generalize List.range strhashCapMax = caps
  exact h.keeps_foldl_doallCap caps

theorem Inv.keeps_accountDoproc (h : s.Inv) (hd : s.accountDoproc maxCache i = some s') :
    s.Keeps s' := by
  unfold accountDoproc at hd
  dsimp only at hd
  split_ifs at hd
  · obtain rfl := Option.some.inj hd
    have hk := (@Inv.keeps_doallStrhash s i maxCache (s.isUserTimeout (s.getMytime - 3600)) h).1
    generalize s.doallStrhash _ _ i = s₁ at hk ⊢
    refine hk.trans (hk.inv.keeps ?_ rfl fun i c r _ hl => hl.congr rfl rfl rfl)
    funext p
    cases p <;> rfl
  · cases hd
    exact Keeps.refl h

/-- A record that was used within the last hour has not timed out, also where the time has more than
32 bits. -/
theorem Linked.not_timeout (h : s.Linked i r) (hcur : 3600 < s.getMytime)
    (hused : s.now ≤ s.used r + 3600) : s.isUserTimeout (s.getMytime - 3600) r = false := by
  have hle := h.used
  have hcur' : 3600 < s.getMytime.toNat := UInt32.lt_iff_toNat_lt.mp hcur
  have hsub : (s.getMytime - 3600).toNat = s.getMytime.toNat - 3600 :=
    UInt32.toNat_sub_of_le _ _ (UInt32.le_of_lt hcur)
  have hnow : s.getMytime.toNat = s.now % 4294967296 := UInt32.toNat_ofNat'
  have hlast : (s.heap r).lastused.toNat = s.used r % 4294967296 := by
    rw [h.lastused]
    exact UInt32.toNat_ofNat'
  unfold isUserTimeout
  rw [decide_eq_false_iff_not, UInt32.lt_iff_toNat_lt, hsub, hnow, hlast]
  omega

/-- **A sweep spares what was used within the last hour.** -/
theorem Inv.spares (h : s.Inv) (maxCache : ℕ) : s.Spares maxCache := by
  intro i s' hd c r hr hused
  unfold accountDoproc at hd
  dsimp only at hd
  split_ifs at hd with hup hcur
  · obtain rfl := Option.some.inj hd
    have hleft := (@Inv.keeps_doallStrhash s i maxCache (s.isUserTimeout (s.getMytime - 3600)) h).2 i c r
      hr ((h.linked i c r hr).not_timeout hcur hused)
    generalize s.doallStrhash _ _ i = s₁ at hleft ⊢
    exact hleft
  · cases hd
    exact hr

/-! ### The runs -/

/-- **What a step does to the records**: what is lost stays lost, and no more is lost just where the step
meets the condition. -/
theorem Inv.step (h : s.Inv) (a : Label) (hs : step maxCache s a = some s') :
    s'.Inv ∧ (∀ b, s.Lost b → s'.Lost b) ∧ (s.Ok a ↔ ∀ b, s'.Lost b → s.Lost b) := by
  have hkeeps : s.Ok a → s.Keeps s' → s'.Inv ∧ (∀ b, s.Lost b → s'.Lost b) ∧
      (s.Ok a ↔ ∀ b, s'.Lost b → s.Lost b) := fun hok hk =>
    ⟨hk.inv, fun b => (hk.lost b).mpr, ⟨fun _ b => (hk.lost b).mp, fun _ => hok⟩⟩
  cases a with
  | login => exact hkeeps trivial (h.keeps_login hs)
  | gateInfo => exact h.gateInfo hs
  | doproc => exact hkeeps trivial (h.keeps_accountDoproc hs)
  | wait seconds =>
    cases hs
    refine hkeeps trivial (h.keeps ?_ rfl fun i c r _ hl => ?_)
    · funext p
      cases p <;> rfl
    · exact ⟨hl.group, hl.lastused, Nat.le_add_right_of_le hl.used⟩

theorem Inv.run (h : s.Inv) {l : List Label} (hr : run (UserRecords.step maxCache) s l = some s') :
    s'.Inv ∧ ((∀ b, ¬ s'.Lost b) ↔
      (∀ b, ¬ s.Lost b) ∧ Along (UserRecords.step maxCache) Service.Ok s l) := by
  induction l generalizing s with
  | nil =>
    cases hr
    exact ⟨h, (and_iff_left trivial).symm⟩
  | cons a l ih =>
    obtain ⟨s₁, h₁, hr⟩ := run_cons_some.mp hr
    obtain ⟨hinv, hmono, hok⟩ := h.step a h₁
    obtain ⟨hinv', hiff⟩ := ih hinv hr
    refine ⟨hinv', hiff.trans ?_⟩
    rw [along_cons_some h₁, ← and_assoc]
    refine and_congr_left fun _ => ⟨fun hno => ⟨fun b hb => hno b (hmono b hb), ?_⟩, ?_⟩
    · exact hok.mpr fun b hb => absurd hb (hno b)
    · rintro ⟨hno, ho⟩ b hb
      exact hno b (hok.mp ho b hb)

end Service

open Service

/-- **Each record has one owner, and a sweep spares those that were used within the last hour, in all
runs in which no answer of the gate finds a record, and in no other.** -/
theorem kept_iff {maxCache : ℕ} {l : List Label} {s : Service}
    (h : run (step maxCache) {} l = some s) :
    s.Owned ∧ s.Spares maxCache ↔ Along (step maxCache) Service.Ok {} l := by
  obtain ⟨hinv, hiff⟩ := inv_init.run h
  have hinit : ∀ b, ¬ Lost {} b := fun b hb => Nat.not_lt_zero b hb.1
  rw [hinv.owned_iff, hiff, and_iff_right hinit, and_iff_left (hinv.spares maxCache)]

/-- Two users log in, the first of them is not heard of for more than an hour and is swept, and the gate
answers too late. -/
def lateSteps : List Label :=
  [.wait 4000, .login 5 [97, 100, 109, 105, 110] (some {}), .wait 3601, .login 6 [98, 111, 98] (some {}),
    .doproc ⟨0, by decide⟩, .gateInfo (answer localGate [97, 100, 109, 105, 110])]

theorem kept_late : ∃ s, run (step 100) {} lateSteps = some s ∧ s.Owned ∧ s.Spares 100 := by
  obtain ⟨s, hs⟩ := Option.isSome_iff_exists.mp
    (by decide +kernel : (run (step 100) {} lateSteps).isSome)
  exact ⟨s, hs, (kept_iff hs).mpr (by decide +kernel)⟩

/-- A user logs in and the gate answers: its record is nowhere then. -/
theorem not_kept : ∃ s, run (step 100) {} [.login 5 [97, 100, 109, 105, 110] (some {}),
    .gateInfo (answer localGate [97, 100, 109, 105, 110])] = some s ∧
    s.next = 1 ∧ (∀ p, 0 ∉ s.records p) ∧ ¬ s.Owned := by
  have hnext : (run (step 100) {} [.login 5 [97, 100, 109, 105, 110] (some {}),
      .gateInfo (answer localGate [97, 100, 109, 105, 110])]).map Service.next = some 1 := by
    decide +kernel
  obtain ⟨s, hs, hnext⟩ := Option.map_eq_some_iff.mp hnext
  obtain ⟨hinv, hiff⟩ := inv_init.run hs
  have hlost : ∃ b, s.Lost b := by
    by_contra hno
    exact absurd (hiff.mp (not_exists.mp hno)).2 (by decide +kernel)
  obtain ⟨b, hb⟩ := hlost
  have hb0 : b = 0 := by
    have := hb.1
    omega
  refine ⟨s, hs, hnext, fun p hp => hb.2 ⟨p, hb0 ▸ hp⟩, fun ho => ?_⟩
  exact hinv.owned_iff.mp ho b hb

end ChatShow.CSLoginService.UserRecords
