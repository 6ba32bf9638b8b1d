import ChatShow.CSLoginService.UserLogin

/-! # The name of a login on its way

The name goes into the record of the user, to the gate, and back in the answer. The buffers on the
way are of 33 and of 32 bytes, and a name that the table of messages accepts may have 33, so that there
is no room for the NUL: a name of 32 bytes does not end in the buffer of the answer, and one of 33 is
written past it and ends in none of them. -/

namespace ChatShow.CSLoginService.LoginNames

open ChatShow.Lib.Bytes ChatShow.Lib.CStrings ChatShow.CSLoginService.UserLogin

variable {name message : List UInt8} {g : GateInfo}

/-! ### The answer of the gate -/

theorem popInt_leBytes {n x : ℕ} (h : x < 256 ^ n) (l : List UInt8) :
    popInt n (leBytes n x ++ l) = some (x, l) := by
  unfold popInt
  rw [if_pos (by simp), List.take_append_of_le_length (by simp), List.take_of_length_le (by simp),
    ofLe_leBytes h, List.drop_append_of_le_length (by simp), List.drop_of_length_le (by simp),
    List.nil_append]

theorem popStr_append (size : ℕ) (s l : List UInt8) :
    popStr size s.length (s ++ l) = if 0 < s.length then (memcpy size s).map (·, l) else none := by
  unfold popStr
  rw [List.take_left, List.drop_left, List.length_append]
  refine if_congr ?_ rfl rfl
  exact ⟨fun h => h.1, fun h => ⟨h, Nat.le_add_right ..⟩⟩

/-- The content of the answer for a name. -/
def answer (g : GateInfo) (name : List UInt8) : List UInt8 :=
  leBytes 4 (if g.added then 0 else 1) ++ (leBytes 4 g.port.toNat ++ (leBytes 2 g.localID.toNat ++
    (leBytes 4 g.ip.length ++ (g.ip ++ (leBytes 4 name.length ++ name)))))

theorem length_answer : (answer g name).length = 18 + g.ip.length + name.length := by
  simp only [answer, List.length_append, length_leBytes]
  omega

/-- What the login service reads of it. -/
def replyOf (g : GateInfo) (name : List UInt8) : GateReply where
  code := if g.added then 0 else 1
  port := g.port.toNat
  localID := g.localID.toNat
  ip := g.ip
  name := name

theorem willLogin_callContent (charid : UInt64) (h : name.length ≤ namebuffSize) :
    willLogin g (callContent charid name) =
      if (answer g name).length ≤ 128 then some (answer g name) else none := by
  have hb : (beBytes 8 charid.toNat).length = 8 := by simp [beBytes]
  have hc : (beBytes 4 name.length).length = 4 := by simp [beBytes]
  have hlt : name.length < 256 ^ 4 := Nat.lt_of_le_of_lt h (by decide)
  have h8 : (callContent charid name).drop 8 = beBytes 4 name.length ++ name := by
    unfold callContent
    rw [List.append_assoc, List.drop_left' hb]
  have hlen : ofLe (((callContent charid name).drop 8).take 4).reverse = name.length := by
    rw [h8, List.take_left' hc]
    unfold beBytes
    rw [List.reverse_reverse, ofLe_leBytes hlt]
  have h12 : (callContent charid name).drop 12 = name := by
    rw [show 12 = 8 + 4 from rfl, ← List.drop_drop, h8, List.drop_left' hc]
  obtain ⟨buf, hbuf⟩ : ∃ buf, memcpy namebuffSize name = some buf := by
    unfold memcpy
    rw [if_pos h]
    exact ⟨_, rfl⟩
  unfold willLogin
  simp only [hlen, h12, List.take_length, hbuf, Option.bind_eq_bind, Option.bind_some,
    take_memcpy hbuf, answer, List.append_assoc]
  rfl

/-- The answer is read where the address and the name end in their buffers. -/
theorem connGateInfo_answer (hn : 0 ∉ name) (hbuf : (answer g name).length ≤ 128) :
    connGateInfo (answer g name) =
      if (0 < g.ip.length ∧ g.ip.length < replyIpSize) ∧
          0 < name.length ∧ name.length < replyNameSize then
        some (replyOf g name)
      else none := by
  rw [length_answer] at hbuf
  have hcode : (if g.added then 0 else 1) < 256 ^ 4 := by split <;> decide
  have hport : g.port.toNat < 256 ^ 4 := g.port.toNat_lt
  have hid : g.localID.toNat < 256 ^ 2 := g.localID.toNat_lt
  have hip : g.ip.length < 256 ^ 4 := by omega
  have hlen : name.length < 256 ^ 4 := by omega
  have hs := popStr_append replyNameSize name []
  rw [List.append_nil] at hs
  have hi := cstr_memcpy g.ip_nul replyIpSize
  have hc := cstr_memcpy hn replyNameSize
  unfold connGateInfo answer
  simp only [Option.bind_eq_bind, popInt_leBytes hcode, popInt_leBytes hport, popInt_leBytes hid,
    popInt_leBytes hip, Option.bind_some, popStr_append]
  -- Whether each string is copied, and whether it ends where it has been copied to.
  cases hmi : memcpy replyIpSize g.ip with
  | none =>
    rw [hmi] at hi
    have hlt : ¬ g.ip.length < replyIpSize := fun h => by simp [h] at hi
    simp [hlt]
  | some ip =>
    rw [hmi, Option.bind_some] at hi
    by_cases hi0 : 0 < g.ip.length
    swap
    · simp [hi0]
    simp only [hi0, if_true, Option.map_some, Option.bind_some, popInt_leBytes hlen, hs]
    cases hmn : memcpy replyNameSize name with
    | none =>
      rw [hmn] at hc
      have hlt : ¬ name.length < replyNameSize := fun h => by simp [h] at hc
      simp [hlt]
    | some nm =>
      rw [hmn, Option.bind_some] at hc
      by_cases hn0 : 0 < name.length
      swap
      · simp [hn0]
      simp only [hn0, if_true, Option.map_some, Option.bind_some, hc, hi, true_and]
      by_cases hnl : name.length < replyNameSize
      · by_cases hil : g.ip.length < replyIpSize
        · simp only [hnl, hil, and_self, if_true, Option.bind_some]
          rfl
        · simp [hnl, hil]
      · simp [hnl]

/-- The answer of the gate for a call, as the login service reads it. -/
def gateAnswer (g : GateInfo) (charid : UInt64) (name : List UInt8) : Option GateReply :=
  (willLogin g (callContent charid name)).bind connGateInfo

/-- **The answer for a name is read with the name where the name and the address are shorter than the
buffers of the answer.** -/
theorem gateAnswer_eq (charid : UInt64) (hn : 0 ∉ name) (hl : name.length < replyNameSize)
    (hn0 : 0 < name.length) :
    gateAnswer g charid name =
      if 0 < g.ip.length ∧ g.ip.length < replyIpSize then some (replyOf g name) else none := by
  unfold gateAnswer
  rw [willLogin_callContent charid (Nat.le_succ_of_le (Nat.le_of_lt hl))]
  split_ifs with h128 hip hip
  · rw [Option.bind_some, connGateInfo_answer hn h128, if_pos ⟨hip, hn0, hl⟩]
  · rw [Option.bind_some, connGateInfo_answer hn h128, if_neg fun h => hip h.1]
  · rw [length_answer] at h128
    unfold replyIpSize at hip
    unfold replyNameSize at hl
    omega
  · rfl

/-! ### The pending login -/

/-- What the claim asks for a name: it ends in each buffer, and whatever records there are, the answer
to its call has the name, with which the connection of the login is found again. -/
structure Survives (g : GateInfo) (message : List UInt8) : Prop where
  userName : cstr (strncpy userNameSize (toSmallwords message)) = some (toSmallwords message)
  mess : cstr (strncpy messSize (toSmallwords message)) = some (toSmallwords message)
  namebuff : (memcpy namebuffSize (toSmallwords message)).bind cstr = some (toSmallwords message)
  replyName : (memcpy replyNameSize (toSmallwords message)).bind cstr = some (toSmallwords message)
  found : ∀ (users users' : Users) (netid charid : UInt64) (row : Option Row) (cur : ℕ)
    (name : List UInt8), handleLogin users netid message row cur = some (users', .call charid name) →
    ∃ reply, gateAnswer g charid name = some reply ∧ reply.name = toSmallwords message ∧
      (popUserNetidByname users' reply.name).1 = netid ∧
      (popUserNetidByname users' reply.name).2.1 = charid

/-! ### The names that survive -/

theorem not_mem_toSmallwords (h : Accepted message) : 0 ∉ toSmallwords message :=
  not_mem_zero (checkUsername_toSmallwords h.2.2)

/-- **The names of at most 31 bytes survive**, where the address of the gate has room as well. -/
theorem survives_of_short (h : Accepted message) (hl : message.length ≤ 31)
    (hip : 0 < g.ip.length ∧ g.ip.length ≤ 31) : Survives g message := by
  have hn := not_mem_toSmallwords h
  have hlen : (toSmallwords message).length < 32 := by
    rw [length_toSmallwords]
    exact Nat.lt_succ_of_le hl
  have hlen' : (toSmallwords message).length < 33 := Nat.lt_succ_of_lt hlen
  refine ⟨?_, ?_, ?_, ?_, ?_⟩
  · exact (cstr_strncpy hn _).trans (if_pos hlen')
  · exact (cstr_strncpy hn _).trans (if_pos hlen')
  · exact (cstr_memcpy hn _).trans (if_pos hlen')
  · exact (cstr_memcpy hn _).trans (if_pos hlen)
  · intro users users' netid charid row cur name hcall
    obtain ⟨rfl, ⟨u, hg, hnet, hid, -⟩, -⟩ :=
      handleLogin_call hn (Nat.lt_of_le_of_lt hl (by decide)) hcall
    have hpos : 0 < (toSmallwords message).length := by
      rw [length_toSmallwords]
      exact Nat.lt_of_lt_of_le (by decide) h.1
    refine ⟨replyOf g (toSmallwords message), ?_, rfl, ?_, ?_⟩
    · rw [gateAnswer_eq charid hn hlen hpos]
      exact if_pos ⟨hip.1, Nat.lt_succ_of_le hip.2⟩
    · rw [show (replyOf g (toSmallwords message)).name = toSmallwords message from rfl,
        popUserNetidByname_of_get (checkUsername_toSmallwords h.2.2) hg]
      exact hnet
    · rw [show (replyOf g (toSmallwords message)).name = toSmallwords message from rfl,
        popUserNetidByname_of_get (checkUsername_toSmallwords h.2.2) hg]
      exact hid

/-- A login of a name that is not there yet, with a row for it, asks the gate. -/
theorem handleLogin_nil (hn : 0 ∉ toSmallwords message) (hl : message.length < userNameSize)
    (netid : UInt64) (row : Row) (cur : ℕ) :
    handleLogin [] netid message (some row) cur =
      some ([newUser (toSmallwords message) row netid cur],
        .call row.charID (toSmallwords message)) := by
  have hk := key_newUser hn (by rwa [length_toSmallwords]) row netid cur
  change Option.map _ _ = _
  rw [Users.add_eq hk (Users.get_nil _)]
  rfl

/-- **A name that is accepted survives the chain if and only if it has at most 31 bytes** and the gate
has an address of 1 to 31 bytes. -/
theorem survives_iff (h : Accepted message) :
    Survives g message ↔ message.length ≤ 31 ∧ 0 < g.ip.length ∧ g.ip.length ≤ 31 := by
  constructor
  · intro hs
    have hn := not_mem_toSmallwords h
    have hl : message.length < replyNameSize := by
      have := hs.replyName
      rw [cstr_memcpy hn, length_toSmallwords] at this
      by_contra hge
      rw [if_neg hge] at this
      cases this
    obtain ⟨reply, hreply, -⟩ := hs.found _ _ _ _ _ _ _
      (handleLogin_nil hn (Nat.lt_succ_of_lt hl) 1 {} 0)
    rw [gateAnswer_eq _ hn (by rwa [length_toSmallwords])
      (by rw [length_toSmallwords]; exact Nat.lt_of_lt_of_le (by decide) h.1)] at hreply
    split_ifs at hreply with hip
    exact ⟨Nat.le_of_lt_succ hl, hip.1, Nat.le_of_lt_succ hip.2⟩
  · rintro ⟨hl, hip⟩
    exact survives_of_short h hl hip

/-- The gate of a network that has one machine. -/
def localGate : GateInfo where
  ip := [49, 50, 55, 46, 48, 46, 48, 46, 49]
  ip_nul := by decide

theorem survives_admin : Survives localGate [97, 100, 109, 105, 110] :=
  (survives_iff (by decide +kernel)).mpr (by decide +kernel)

/-- A name of 33 letters is accepted, and is written past the end of the buffer of the answer; one of
32 has no NUL there. -/
theorem not_survives_long :
    (Accepted (List.replicate 33 97) ∧ memcpy replyNameSize (List.replicate 33 97) = none ∧
      ¬ Survives localGate (List.replicate 33 97)) ∧
    (Accepted (List.replicate 32 97) ∧ ¬ Survives localGate (List.replicate 32 97)) := by
  refine ⟨⟨by decide +kernel, by decide +kernel, fun hs => ?_⟩, by decide +kernel, fun hs => ?_⟩
  · exact absurd hs.replyName (by decide +kernel)
  · exact absurd hs.replyName (by decide +kernel)

end ChatShow.CSLoginService.LoginNames
