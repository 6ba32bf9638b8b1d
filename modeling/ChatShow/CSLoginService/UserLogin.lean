import ChatShow.Lib.Bytes
import ChatShow.Lib.CStrings
import Mathlib.Data.FinEnum

/-! # A login at the login service

`handle_usermsg_login` finds the record of a user by its name, or makes one of its row in the
database, puts the connection into it and asks the gate; the answer of the gate has the name, and
`pop_user_netid_byname` takes the connection from the record. The records of the 39 groups are one
list here, as the first character of a name says which group it is in. A name is a list of bytes.
`none` is a fault: an `ASSERT` that fails, a buffer that is written past its end, or a string that is
read past it. -/

namespace ChatShow.CSLoginService.UserLogin

open ChatShow.Lib.Bytes ChatShow.Lib.CStrings

/-! ### Names -/

/-- `to_smallwords`, for a character. -/
def toSmallword (c : UInt8) : UInt8 := if 65 ≤ c ∧ c ≤ 90 then 97 + (c - 65) else c

def toSmallwords (words : List UInt8) : List UInt8 := words.map toSmallword

/-- `_name_word`: the group of a name that starts with the character, and 255 where no name has it. -/
def nameWord (c : UInt8) : ℕ :=
  if 97 ≤ c ∧ c ≤ 122 then c.toNat - 97
  else if 65 ≤ c ∧ c ≤ 90 then c.toNat - 65
  else if 48 ≤ c ∧ c ≤ 57 then 26 + (c.toNat - 48)
  else if c = 46 then 36
  else if c = 64 then 37
  else if c = 95 then 38
  else 255

/-- `_check_username`. -/
def checkUsername (name : List UInt8) : Bool := name ≠ [] ∧ ∀ c ∈ name, nameWord c ≠ 255

/-- A name that the table of messages accepts and `pushmsg_byname` passes on. -/
def Accepted (name : List UInt8) : Prop :=
  3 ≤ name.length ∧ name.length ≤ 33 ∧ checkUsername name = true

instance (name : List UInt8) : Decidable (Accepted name) := inferInstanceAs (Decidable (_ ∧ _))

/-! ### The records -/

/-- The lengths of `_name`, of `mess`, of `namebuff` in the gate, and of `name` and `ip` in the handler
of its answer. -/
def userNameSize : ℕ := 33
def messSize : ℕ := 33
def namebuffSize : ℕ := 33
def replyNameSize : ℕ := 32
def replyIpSize : ℕ := 32

structure UserAccount where
  netid : UInt64 := 0
  id : UInt64 := 0
  lastused : ℕ := 0
  name : List UInt8
  password : List UInt8

/-- The row of a user in the database. -/
structure Row where
  psd : List UInt8 := []
  charID : UInt64 := 0

/-- The key of a record is a pointer to its name, behind which its password stands. -/
def UserAccount.key (u : UserAccount) : Option (List UInt8) := cstr (u.name ++ u.password)

/-- The record that is made of a row. -/
def newUser (name : List UInt8) (row : Row) (netid : UInt64) (cur : ℕ) : UserAccount :=
  { netid := netid, id := row.charID, lastused := cur
    name := strncpy userNameSize name
    password := strncpy 32 row.psd ++ [0] }

abbrev Users := List UserAccount

namespace Users

/-- `get_user_byname`, which sets `_lastused` as well. -/
def get (users : Users) (name : List UInt8) : Option UserAccount :=
  users.find? fun u => u.key = some name

/-- The record of a name is changed. -/
def update (f : UserAccount → UserAccount) (name : List UInt8) : Users → Users
  | [] => []
  | u :: users => if u.key = some name then f u :: users else u :: update f name users

/-- `del_str_hash`. -/
def del (users : Users) (name : List UInt8) : Users := users.eraseP fun u => u.key = some name

/-- `add_user`. -/
def add (users : Users) (u : UserAccount) : Option Users :=
  match u.key with
  | none => none
  | some key => if (users.get key).isSome then none else some (u :: users)

end Users

/-! ### The handlers -/

/-- What a login does: the gate is asked, or the user is not there. -/
inductive Outcome
  | call (charid : UInt64) (name : List UInt8)
  | notFound (mess : List UInt8)

/-- `handle_usermsg_login`, where the database has `row` for the name. -/
def handleLogin (users : Users) (netid : UInt64) (message : List UInt8) (row : Option Row)
    (cur : ℕ) : Option (Users × Outcome) :=
  let name := toSmallwords message
  match users.get name with
  | some user =>
    some (users.update (fun u => { u with netid := netid, lastused := cur }) name,
      .call user.id name)
  | none =>
    match row with
    | some row =>
      (users.add (newUser name row netid cur)).map fun users => (users, .call row.charID name)
    | none => (cstr (strncpy messSize name)).map fun mess => (users, .notFound mess)

/-- A user is there, or its row is. -/
def Known (users : Users) (message : List UInt8) (row : Option Row) : Prop :=
  (users.get (toSmallwords message)).isSome ∨ row.isSome

instance (users : Users) (message : List UInt8) (row : Option Row) :
    Decidable (Known users message row) := inferInstanceAs (Decidable (_ ∨ _))

/-- `pop_user_netid_byname`: the connection and the character. -/
def popUserNetidByname (users : Users) (name : List UInt8) : UInt64 × UInt64 × Users :=
  if ¬ checkUsername name then (0xFFFFFFFFFFFFFFFF, 0, users)
  else
    match users.get name with
    | some u => (u.netid, u.id, users.del name)
    | none => (0, 0, users)

/-- `_is_user_timeout`, for a user of the group `i`. -/
def isUserTimeout (i cur : ℕ) (u : UserAccount) : Bool :=
  u.name.head?.map nameWord = some i ∧ u.lastused < cur - 3600

/-- The sweep of a group by `user_account_doproc`. -/
def sweep (i cur : ℕ) (users : Users) : Users := users.filter fun u => ¬ isUserTimeout i cur u

/-! ### The messages of the gate -/

/-- A number in the byte order of the network. -/
def beBytes (n x : ℕ) : List UInt8 := (leBytes n x).reverse

/-- `gate_service_call`: the content of the message to the gate. -/
def callContent (charid : UInt64) (name : List UInt8) : List UInt8 :=
  beBytes 8 charid.toNat ++ beBytes 4 name.length ++ name

/-- What the gate has to tell: whether the player is waited for, and where. Its address is a string. -/
structure GateInfo where
  added : Bool := true
  port : UInt32 := 0
  localID : UInt16 := 0
  ip : List UInt8
  ip_nul : 0 ∉ ip

/-- The handler of `MSG_REQ_LS2GT_WILLLOGIN` in the gate: the content of its answer, which is in
`buf[128]`. -/
def willLogin (g : GateInfo) (content : List UInt8) : Option (List UInt8) := do
  let namelen := ofLe ((content.drop 8).take 4).reverse
  let namebuff ← memcpy namebuffSize ((content.drop 12).take namelen)
  let buf := leBytes 4 (if g.added then 0 else 1) ++ leBytes 4 g.port.toNat ++
    leBytes 2 g.localID.toNat ++ leBytes 4 g.ip.length ++ g.ip ++ leBytes 4 namelen ++
    namebuff.take namelen
  if buf.length ≤ 128 then some buf else none

structure GateReply where
  code : ℕ
  port : ℕ
  localID : ℕ
  ip : List UInt8
  name : List UInt8
deriving DecidableEq

/-- `normal_pop_tcpstream_int…`, and what is left of the stream. -/
def popInt (n : ℕ) (l : List UInt8) : Option (ℕ × List UInt8) :=
  if n ≤ l.length then some (ofLe (l.take n), l.drop n) else none

/-- `pop_tcpstream_str` into a buffer of a size. -/
def popStr (size n : ℕ) (l : List UInt8) : Option (List UInt8 × List UInt8) :=
  if 0 < n ∧ n ≤ l.length then (memcpy size (l.take n)).map fun buf => (buf, l.drop n) else none

/-- `CONN_GATE_INFO`: the answer of the gate is read. -/
def connGateInfo (l : List UInt8) : Option GateReply := do
  let (code, l) ← popInt 4 l
  let (port, l) ← popInt 4 l
  let (localID, l) ← popInt 2 l
  let (len, l) ← popInt 4 l
  let (ip, l) ← popStr replyIpSize len l
  let (len, l) ← popInt 4 l
  let (name, _) ← popStr replyNameSize len l
  let name ← cstr name
  let ip ← cstr ip
  some { code := code, port := port, localID := localID, ip := ip, name := name }

/-! ### Names and records -/

variable {users users' : Users} {name : List UInt8}

/-- A capital letter is in the group of its small letter. -/
theorem nameWord_toSmallword (c : UInt8) : nameWord (toSmallword c) = nameWord c := by
  have hall : ∀ n < 256, nameWord (toSmallword (UInt8.ofNat n)) = nameWord (UInt8.ofNat n) := by
    decide +kernel
  have := hall c.toNat c.toNat_lt
  rwa [UInt8.ofNat_toNat] at this

theorem not_mem_zero (h : checkUsername name = true) : 0 ∉ name := by
  intro hz
  exact (of_decide_eq_true h).2 0 hz (by decide)

/-- The small letters of a name are a name. -/
theorem checkUsername_toSmallwords (h : checkUsername name = true) :
    checkUsername (toSmallwords name) = true := by
  obtain ⟨hne, hall⟩ := of_decide_eq_true h
  refine decide_eq_true ⟨fun hn => hne (List.map_eq_nil_iff.mp hn), fun c hc => ?_⟩
  obtain ⟨b, hb, rfl⟩ := List.mem_map.mp hc
  rw [nameWord_toSmallword]
  exact hall b hb

@[simp] theorem length_toSmallwords : (toSmallwords name).length = name.length := List.length_map ..

namespace Users

theorem get_nil (a : List UInt8) : get [] a = none := rfl

theorem get_cons (u : UserAccount) (users : Users) (a : List UInt8) :
    get (u :: users) a = if u.key = some a then some u else get users a := by
  unfold get
  rw [List.find?_cons]
  by_cases h : u.key = some a <;> simp [h]

theorem del_cons (u : UserAccount) (users : Users) (a : List UInt8) :
    del (u :: users) a = if u.key = some a then users else u :: del users a := by
  unfold del
  rw [List.eraseP_cons]
  by_cases h : u.key = some a <;> simp [h]

theorem get_update {f : UserAccount → UserAccount} {a : List UInt8}
    (hf : ∀ u : UserAccount, (f u).key = u.key) :
    (users.update f name).get a = if a = name then (users.get a).map f else users.get a := by
  induction users with
  | nil => exact (ite_self _).symm
  | cons u users ih =>
    rw [update]
    by_cases hu : u.key = some name
    · rw [if_pos hu, get_cons, get_cons, hf, hu]
      by_cases ha : a = name
      · rw [ha, if_pos rfl, if_pos rfl, if_pos rfl, Option.map_some]
      · have hne : some name ≠ some a := fun he => ha (Option.some.inj he).symm
        rw [if_neg ha, if_neg hne, if_neg hne]
    · rw [if_neg hu, get_cons, get_cons, ih]
      by_cases hua : u.key = some a
      · have ha : a ≠ name := fun he => hu (he ▸ hua)
        rw [if_pos hua, if_neg ha, if_pos hua]
      · rw [if_neg hua, if_neg hua]

/-- Another name is found as before where one is deleted. -/
theorem get_del {a : List UInt8} (h : a ≠ name) : (users.del name).get a = users.get a := by
  induction users with
  | nil => rfl
  | cons u users ih =>
    rw [del_cons]
    by_cases hu : u.key = some name
    · have hne : u.key ≠ some a := fun he => h (Option.some.inj (he.symm.trans hu))
      rw [if_pos hu, get_cons, if_neg hne]
    · rw [if_neg hu, get_cons, get_cons, ih]

/-- A record that has been added is found, and so are the others. -/
theorem get_add {u : UserAccount} {key a : List UInt8} (hk : u.key = some key)
    (h : users.add u = some users') :
    users'.get a = if a = key then some u else users.get a := by
  unfold add at h
  rw [hk] at h
  dsimp only at h
  split_ifs at h
  cases h
  rw [get_cons, hk]
  by_cases ha : a = key
  · rw [if_pos ha, if_pos (congrArg some ha.symm)]
  · rw [if_neg ha, if_neg fun he => ha (Option.some.inj he).symm]

/-- A record is added where none has its name. -/
theorem add_eq {u : UserAccount} {key : List UInt8} (hk : u.key = some key)
    (h : users.get key = none) : users.add u = some (u :: users) := by
  unfold add
  rw [hk]
  dsimp only
  rw [h]
  rfl

/-- A record that is not too old is found after the sweep. -/
theorem get_sweep {i cur : ℕ} {u : UserAccount} {a : List UInt8} (hg : users.get a = some u)
    (hu : isUserTimeout i cur u = false) : get (sweep i cur users) a = some u := by
  induction users with
  | nil => cases hg
  | cons v users ih =>
    rw [get_cons] at hg
    unfold sweep at ih ⊢
    by_cases hv : v.key = some a
    · rw [if_pos hv] at hg
      cases hg
      rw [List.filter_cons_of_pos (by simp [hu]), get_cons, if_pos hv]
    · rw [if_neg hv] at hg
      by_cases ht : isUserTimeout i cur v = true
      · rw [List.filter_cons_of_neg (by simp [ht])]
        exact ih hg
      · rw [List.filter_cons_of_pos (by simp [ht]), get_cons, if_neg hv]
        exact ih hg

end Users

/-- The key of a new record is the name, where the name ends in its buffer. -/
theorem key_newUser (hn : 0 ∉ name) (hl : name.length < userNameSize) (row : Row) (netid : UInt64)
    (cur : ℕ) : (newUser name row netid cur).key = some name := cstr_strncpy_of_lt hn hl _

/-- **A login that asks the gate puts its connection into the record of its name**, and leaves the
other records. -/
theorem handleLogin_call {message : List UInt8} {netid charid : UInt64} {row : Option Row} {cur : ℕ}
    (hn : 0 ∉ toSmallwords message) (hl : message.length < userNameSize)
    (h : handleLogin users netid message row cur = some (users', .call charid name)) :
    name = toSmallwords message ∧
      (∃ u, users'.get name = some u ∧ u.netid = netid ∧ u.id = charid ∧ u.lastused = cur) ∧
      ∀ a ≠ name, users'.get a = users.get a := by
  unfold handleLogin at h
  dsimp only at h
  split at h
  next user hg =>
    cases h
    have hget : ∀ a, (users.update (fun u => { u with netid := netid, lastused := cur })
        (toSmallwords message)).get a = if a = toSmallwords message then (users.get a).map
          (fun u => { u with netid := netid, lastused := cur }) else users.get a :=
      fun a => Users.get_update fun _ => rfl
    refine ⟨rfl, ⟨{ user with netid := netid, lastused := cur }, ?_, rfl, rfl, rfl⟩, fun a ha => ?_⟩
    · rw [hget, if_pos rfl, hg]
      rfl
    · rw [hget, if_neg ha]
  next hg =>
    cases row with
    | none => simp at h
    | some row =>
      have hk := key_newUser hn (by rwa [length_toSmallwords]) row netid cur
      simp only [Users.add_eq hk hg, Option.map_some] at h
      cases h
      refine ⟨rfl, ⟨newUser (toSmallwords message) row netid cur, ?_, rfl, rfl, rfl⟩, fun a ha => ?_⟩
      · rw [Users.get_cons, if_pos hk]
      · rw [Users.get_cons, hk, if_neg fun he => ha (Option.some.inj he).symm]

/-- The gate is asked about a user that is known, and the login of another is answered with its name,
where that ends in its buffer. -/
theorem handleLogin_eq {message : List UInt8} (hn : 0 ∉ toSmallwords message)
    (hl : message.length < userNameSize) (users : Users) (netid : UInt64) (row : Option Row)
    (cur : ℕ) :
    (Known users message row → ∃ users' charid, handleLogin users netid message row cur =
      some (users', .call charid (toSmallwords message))) ∧
    (¬ Known users message row → handleLogin users netid message row cur =
      some (users, .notFound (toSmallwords message))) := by
  unfold handleLogin Known
  dsimp only
  cases hg : users.get (toSmallwords message) with
  | some user => exact ⟨fun _ => ⟨_, _, rfl⟩, fun h => absurd (.inl rfl) h⟩
  | none =>
    cases row with
    | some row =>
      have hk := key_newUser hn (by rwa [length_toSmallwords]) row netid cur
      dsimp only
      rw [Users.add_eq hk hg]
      exact ⟨fun _ => ⟨_, _, rfl⟩, fun h => absurd (.inr rfl) h⟩
    | none =>
      refine ⟨fun h => by simp at h, fun _ => ?_⟩
      dsimp only
      rw [show cstr (strncpy messSize (toSmallwords message)) = some (toSmallwords message) from
        (cstr_strncpy hn _).trans (if_pos (by rwa [length_toSmallwords]))]
      rfl

/-- The connection of a login is found by its name. -/
theorem popUserNetidByname_of_get {u : UserAccount} (hn : checkUsername name = true)
    (hg : users.get name = some u) :
    popUserNetidByname users name = (u.netid, u.id, users.del name) := by
  unfold popUserNetidByname
  rw [if_neg (not_not_intro hn), hg]

end ChatShow.CSLoginService.UserLogin
