import ChatShow.CommBase.RecvTurns

/-! # The digest behind a message

`EncryptMessage` puts the digest of a content behind it, and `UnEncryptMessage` takes it off where
`strncmp` finds it there. `strncmp` compares nothing behind a zero byte, so that what differs from the
digest only there is accepted as well (`authentic_iff`). The length of a secured packet is the peer's:
where it has no room for a digest, or where `SetContent` did not take it, the digest is looked for outside
the content (`guarded_iff`). -/

namespace ChatShow.CommBase.MessageDigest

open ChatShow.Lib.Cells ChatShow.CommBase.NetWorkConfig
open ChatShow.CommBase.MessageManager ChatShow.CommBase.SessionRecv ChatShow.CommBase.RecvTurns
open ChatShow.CommBase.MessageManager.Message (strncmpEq strncmpEq_self)
open ChatShow.CommBase.Segmentation (toInt_sub_16 read?_of_le gameServer idle)

/-! ### What `strncmp` finds -/

/-- The two are the same up to and including a zero byte. -/
def AgreeToZero (a b : List UInt8) : Prop :=
  ∃ i < a.length, a[i]? = some 0 ∧ a.take (i + 1) = b.take (i + 1)

instance (a b : List UInt8) : Decidable (AgreeToZero a b) := by
  unfold AgreeToZero
  infer_instance

/-- A difference that only stands behind a zero byte up to which there is none. -/
def Hidden (a b : List UInt8) : Prop := a ≠ b ∧ AgreeToZero a b

instance (a b : List UInt8) : Decidable (Hidden a b) := inferInstanceAs (Decidable (_ ∧ _))

theorem agreeToZero_cons (x y : UInt8) (a b : List UInt8) :
    AgreeToZero (x :: a) (y :: b) ↔ x = y ∧ (x = 0 ∨ AgreeToZero a b) := by
  constructor
  · rintro ⟨i, hi, h0, ht⟩
    cases i with
    | zero =>
      rw [List.getElem?_cons_zero] at h0
      rw [List.take_succ_cons, List.take_succ_cons, List.take_zero, List.take_zero] at ht
      exact ⟨(List.cons.inj ht).1, Or.inl (Option.some.inj h0)⟩
    | succ i =>
      rw [List.getElem?_cons_succ] at h0
      rw [List.take_succ_cons, List.take_succ_cons] at ht
      obtain ⟨hx, ht⟩ := List.cons.inj ht
      exact ⟨hx, Or.inr ⟨i, Nat.lt_of_succ_lt_succ hi, h0, ht⟩⟩
  · rintro ⟨rfl, rfl | ⟨i, hi, h0, ht⟩⟩
    · exact ⟨0, Nat.succ_pos _, rfl, rfl⟩
    · refine ⟨i + 1, Nat.succ_lt_succ hi, h0, ?_⟩
      rw [List.take_succ_cons, List.take_succ_cons, ht]

theorem strncmpEq_iff {a b : List UInt8} (h : a.length = b.length) :
    strncmpEq a b = true ↔ a = b ∨ AgreeToZero a b := by
  induction a generalizing b with
  | nil =>
    rw [List.length_eq_zero_iff.mp h.symm]
    exact ⟨fun _ => Or.inl rfl, fun _ => rfl⟩
  | cons x a ih =>
    cases b with
    | nil => cases h
    | cons y b =>
      have ih := ih (Nat.succ.inj h)
      rw [strncmpEq, Bool.and_eq_true, Bool.or_eq_true, beq_iff_eq, beq_iff_eq, ih, agreeToZero_cons,
        List.cons.injEq]
      constructor
      · rintro ⟨hxy, h0 | hab | hab⟩
        · exact Or.inr ⟨hxy, Or.inl h0⟩
        · exact Or.inl ⟨hxy, hab⟩
        · exact Or.inr ⟨hxy, Or.inr hab⟩
      · rintro (⟨hxy, hab⟩ | ⟨hxy, h0 | hab⟩)
        · exact ⟨hxy, Or.inr (Or.inl hab)⟩
        · exact ⟨hxy, Or.inl h0⟩
        · exact ⟨hxy, Or.inr (Or.inr hab)⟩

/-! ### Accepted messages -/

/-- The bytes in front of the last 16. -/
def front (m : Message) : List UInt8 := slice m.content 0 (m.length.toInt - 16).toNat

/-- The last 16 bytes. -/
def tail (m : Message) : List UInt8 := slice m.content (m.length.toInt - 16).toNat 16

def Accepted (md5 : MD5) (m : Message) : Prop := ∃ m', m.unEncryptMessage md5 = some (true, m')

/-- The message has the content `c`, and room for a digest behind it. -/
structure Holds (m : Message) (c : List UInt8) : Prop where
  length : m.length.toInt = c.length
  bytes : m.bytes = c
  room : c.length + 16 ≤ m.capacity

variable {md5 : MD5} {m : Message} {c : List UInt8}

/-- What is compared when both parts are in the block. -/
theorem unEncryptMessage_of_le (hs : m.security = true) (h16 : 16 ≤ m.length.toInt)
    (hc : m.length.toInt ≤ m.capacity) :
    m.unEncryptMessage md5 = if strncmpEq (md5.digest (front m)) (tail m)
      then some (true, { m with length := m.length - 16 }) else some (false, m) := by
  have hn : m.length.toInt - 16 = ((m.length.toInt - 16).toNat : ℤ) := by omega
  have hread : m.read? 0 (m.length.toInt - 16) = some (front m) := by
    rw [front, hn]
    exact @read?_of_le m 0 _ (by omega)
  have htail : m.read? (m.length.toInt - 16) 16 = some (tail m) := by
    rw [tail, hn]
    exact @read?_of_le m _ 16 (by omega)
  unfold Message.unEncryptMessage
  rw [if_pos hs, hread, htail]
  rfl

theorem accepted_iff (hs : m.security = true) (h16 : 16 ≤ m.length.toInt)
    (hc : m.length.toInt ≤ m.capacity) :
    Accepted md5 m ↔ tail m = md5.digest (front m) ∨ AgreeToZero (md5.digest (front m)) (tail m) := by
  have hl : (md5.digest (front m)).length = (tail m).length := by
    rw [md5.length_digest, tail, length_slice]
  unfold Accepted
  rw [unEncryptMessage_of_le hs h16 hc, @eq_comm _ (tail m), ← strncmpEq_iff hl]
  split_ifs with h
  · exact ⟨fun _ => h, fun _ => ⟨_, rfl⟩⟩
  · exact ⟨nofun, fun h' => absurd h' h⟩

/-- What `SetContent` stores has room for a digest behind it, as a block is never made smaller than 1024
bytes. -/
theorem setContent_holds {m' : Message} {content : ℕ → UInt8} {len : Int32} (h0 : 0 ≤ len.toInt)
    (hcap : MAX_RECV_MSG_CONTENT_SIZE ≤ m.capacity)
    (hlen : len.toInt + HEADER_LENGTH + 16 ≤ MAX_MSG_PACKET_SIZE)
    (h : m.setContent content len = some m') :
    Holds m' (slice content 0 len.toInt.toNat) ∧ MAX_RECV_MSG_CONTENT_SIZE ≤ m'.capacity := by
  have hC : (MAX_RECV_MSG_CONTENT_SIZE : ℤ) = 1024 := rfl
  have hM : (MAX_MSG_PACKET_SIZE : ℤ) = 65536 := rfl
  unfold Message.setContent at h
  rw [if_neg (by omega), if_neg (by omega), Util.safeMemmove_of_le _ _ _ h0 le_rfl (by omega),
    Option.map_some] at h
  cases h
  refine ⟨⟨?_, ?_, ?_⟩, ?_⟩
  · dsimp only
    rw [length_slice]
    omega
  · have hs := slice_store_same m.content 0 (slice content 0 len.toInt.toNat)
    rw [length_slice] at hs
    exact hs
  · dsimp only
    rw [length_slice]
    split_ifs <;> omega
  · dsimp only
    split_ifs <;> omega

theorem toInt_add_16 {n : Int32} (h0 : 0 ≤ n.toInt) (h : n.toInt + 16 ≤ MAX_MSG_PACKET_SIZE) :
    (n + 16).toInt = n.toInt + 16 := by
  have h16 : (16 : Int32).toInt = 16 := by decide
  have hM : (MAX_MSG_PACKET_SIZE : ℤ) = 65536 := rfl
  rw [Int32.toInt_add, h16, Int.bmod_eq_of_le (by omega) (by omega)]

/-- A content that `EncryptMessage` takes: it stands in front of its digest. -/
theorem encryptMessage_of_holds (h : Holds m c) (hs : m.security = true)
    (hl : (c.length : ℤ) + 16 ≤ MAX_MSG_PACKET_SIZE) :
    ∃ m', m.encryptMessage md5 = some m' ∧ m'.security = true ∧
      m'.length.toInt = c.length + 16 ∧ m'.length.toInt ≤ m'.capacity ∧ m'.capacity = m.capacity ∧
      front m' = c ∧ tail m' = md5.digest c := by
  have hlen := h.length
  have hadd := @toInt_add_16 m.length (by omega) (by omega)
  have hread : m.read? 0 m.length.toInt = some c := by
    have := @read?_of_le m 0 c.length (by have := h.room; omega)
    rw [hlen]
    refine this.trans (congrArg some ?_)
    have hb := h.bytes
    unfold Message.bytes at hb
    rwa [hlen, Int.toNat_natCast] at hb
  have hroom : m.read? m.length.toInt 16 = some (slice m.content c.length 16) := by
    rw [hlen]
    exact @read?_of_le m c.length 16 h.room
  have hd := md5.length_digest c
  refine ⟨{ m with content := store m.content c.length (md5.digest c), length := m.length + 16 }, ?_, hs,
    ?_, ?_, rfl, ?_, ?_⟩
  · unfold Message.encryptMessage
    rw [if_pos hs, if_neg (by omega), hread, hroom, hlen, Int.toNat_natCast]
    rfl
  · dsimp only
    rw [hadd, hlen]
  · have := h.room
    dsimp only
    rw [hadd, hlen]
    omega
  · unfold front
    dsimp only
    rw [hadd, hlen, Int.add_sub_cancel, Int.toNat_natCast, slice_store_of_disjoint (by omega)]
    have hb := h.bytes
    unfold Message.bytes at hb
    rwa [hlen, Int.toNat_natCast] at hb
  · unfold tail
    dsimp only
    rw [hadd, hlen, Int.add_sub_cancel, Int.toNat_natCast]
    have := slice_store_same m.content c.length (md5.digest c)
    rwa [hd] at this

/-- What `EncryptMessage` made is accepted, and gives the content back. -/
theorem unEncryptMessage_encryptMessage (h : Holds m c) (hs : m.security = true)
    (hl : (c.length : ℤ) + 16 ≤ MAX_MSG_PACKET_SIZE) :
    ∃ m₁ m₂, m.encryptMessage md5 = some m₁ ∧ m₁.unEncryptMessage md5 = some (true, m₂) ∧
      Holds m₂ c := by
  obtain ⟨m₁, he, hs₁, hlen, hcap, hc, hfront, htail⟩ := @encryptMessage_of_holds md5 m c h hs hl
  refine ⟨m₁, { m₁ with length := m₁.length - 16 }, he, ?_, ?_, ?_, ?_⟩
  · rw [unEncryptMessage_of_le hs₁ (by omega) hcap, hfront, htail, if_pos (strncmpEq_self _)]
  · dsimp only
    rw [toInt_sub_16 (by omega)]
    omega
  · unfold Message.bytes
    dsimp only
    rw [toInt_sub_16 (by omega)]
    exact hfront
  · exact hc ▸ h.room

/-- **A message is accepted for its digest only, just where no difference from the digest is hidden behind
a zero byte of it**; and what was encrypted always comes back. -/
theorem authentic_iff (md5 : MD5) (m : Message) (hs : m.security = true) :
    (16 ≤ m.length.toInt → m.length.toInt ≤ m.capacity →
      ((Accepted md5 m ↔ tail m = md5.digest (front m)) ↔
        ¬ Hidden (md5.digest (front m)) (tail m))) ∧
    ∀ c, Holds m c → (c.length : ℤ) + 16 ≤ MAX_MSG_PACKET_SIZE →
      ∃ m₁ m₂, m.encryptMessage md5 = some m₁ ∧ m₁.unEncryptMessage md5 = some (true, m₂) ∧
        Holds m₂ c := by
  refine ⟨fun h16 hc => ?_, fun c hm hl => unEncryptMessage_encryptMessage hm hs hl⟩
  rw [accepted_iff hs h16 hc]
  constructor
  · rintro hex ⟨hne, hagree⟩
    exact hne (hex.mp (Or.inr hagree)).symm
  · intro hno
    refine ⟨fun h => ?_, Or.inl⟩
    by_contra he
    exact hno ⟨fun h => he h.symm, h.resolve_left he⟩

/-- A secured message of these bytes. -/
def secured (l : List UInt8) (length : Int32) : Message :=
  { content := cells l, length := length, security := true }

theorem authentic_secured :
    (Accepted zeroMD5 (secured (List.replicate 19 0) 19) ↔
      tail (secured (List.replicate 19 0) 19) = List.replicate 16 0) ∧
    ∃ m₁ m₂, (secured (List.replicate 19 0) 19).encryptMessage zeroMD5 = some m₁ ∧
      m₁.unEncryptMessage zeroMD5 = some (true, m₂) ∧ Holds m₂ (List.replicate 19 0) := by
  obtain ⟨hexact, hback⟩ := authentic_iff zeroMD5 (secured (List.replicate 19 0) 19) rfl
  exact ⟨(hexact (by decide) (by decide)).mpr (by decide),
    hback _ ⟨by decide, by decide, by decide⟩ (by decide)⟩

/-- A digest that begins with a zero byte accepts 16 bytes that are not it. -/
theorem not_authentic :
    Accepted zeroMD5 (secured [0, 1] 16) ∧
      tail (secured [0, 1] 16) ≠ zeroMD5.digest (front (secured [0, 1] 16)) := by
  refine ⟨?_, by decide⟩
  have h : ((secured [0, 1] 16).unEncryptMessage zeroMD5).map Prod.fst = some true := by decide
  obtain ⟨⟨ok, m'⟩, hu, rfl⟩ := Option.map_eq_some_iff.mp h
  exact ⟨m', hu⟩

/-! ### Where the digest is looked for -/

/-- What `UnEncryptMessage` reads of the content, as an offset and a number of bytes: for the digest, whose
length is a `size_t`; the copy into `ttt`, which nothing looks at; and for `strncmp`. -/
def unEncryptReads (m : Message) : List (ℤ × ℤ) :=
  if m.security then
    [(0, (m.length.toInt - 16) % 18446744073709551616), (3, 16), (m.length.toInt - 16, 16)]
  else []

/-- The bytes are among the first `size`. -/
def Within (size : ℤ) (r : ℤ × ℤ) : Prop := 0 ≤ r.1 ∧ 0 ≤ r.2 ∧ r.1 + r.2 ≤ size

/-- The reads stay in the first `size` bytes of the content, the length that is left is not negative, and
what has no room for a digest is rejected. -/
structure Guarded (md5 : MD5) (m : Message) (size : ℤ) : Prop where
  reads : ∀ r ∈ unEncryptReads m, Within size r
  length : ∀ ok m', m.unEncryptMessage md5 = some (ok, m') → 0 ≤ m'.length.toInt
  short : m.length.toInt < 16 → m.unEncryptMessage md5 = some (false, m)

theorem reads_within_iff {size : ℤ} (hs : m.security = true) :
    (∀ r ∈ unEncryptReads m, Within size r) ↔
      16 ≤ m.length.toInt ∧ m.length.toInt ≤ size ∧ 19 ≤ size := by
  have hlt := Int32.toInt_lt m.length
  have hle := Int32.le_toInt m.length
  unfold unEncryptReads
  rw [if_pos hs]
  simp only [List.forall_mem_cons, List.not_mem_nil, false_implies, implies_true, and_true, Within]
  omega

/-- The function faults just where a read leaves the block. -/
theorem isSome_unEncryptMessage (hs : m.security = true) (hc : 19 ≤ m.capacity) :
    (m.unEncryptMessage md5).isSome ↔ ∀ r ∈ unEncryptReads m, Within m.capacity r := by
  rw [reads_within_iff hs]
  constructor
  · intro h
    obtain ⟨r, hr⟩ := Option.isSome_iff_exists.mp h
    unfold Message.unEncryptMessage at hr
    rw [if_pos hs] at hr
    obtain ⟨bytes, hread, -⟩ := Option.bind_eq_some_iff.mp hr
    obtain ⟨t, htail, -⟩ := Option.bind_eq_some_iff.mp (Option.bind_eq_some_iff.mp hr).choose_spec.2
    unfold Message.read? at hread htail
    split_ifs at hread with h1
    split_ifs at htail with h2
    omega
  · rintro ⟨h16, hle, -⟩
    rw [unEncryptMessage_of_le hs h16 hle]
    split_ifs <;> rfl

theorem guarded_iff_of_security {size : ℤ} (hs : m.security = true) (hsize : size ≤ m.capacity) :
    Guarded md5 m size ↔ 16 ≤ m.length.toInt ∧ m.length.toInt ≤ size ∧ 19 ≤ size := by
  rw [← reads_within_iff hs]
  refine ⟨Guarded.reads, fun h => ⟨h, fun ok m' hu => ?_, fun hlt => ?_⟩⟩
  · obtain ⟨h16, hle, -⟩ := (reads_within_iff hs).mp h
    rw [unEncryptMessage_of_le hs h16 (by omega)] at hu
    split_ifs at hu
    · cases hu
      dsimp only
      rw [toInt_sub_16 h16]
      omega
    · cases hu
      omega
  · obtain ⟨h16, -⟩ := (reads_within_iff hs).mp h
    omega

/-- The block of a content that was taken is not smaller than the first one. -/
theorem capacity_filled {env : Env} {cur : Cursor} (hw : cur.Whole)
    (hl : cur.head.length.toInt + HEADER_LENGTH + 16 ≤ MAX_MSG_PACKET_SIZE)
    (hf : cur.filled env = some m) : MAX_RECV_MSG_CONTENT_SIZE ≤ m.capacity := by
  obtain ⟨m₀, hset, rfl⟩ := Option.map_eq_some_iff.mp hf
  exact (setContent_holds (length_nonneg hw.good) le_rfl hl hset).2

theorem handled_none_iff {env : Env} {cur : Cursor} (ha : cur.Addressed env)
    (hf : cur.filled env = some m) :
    cur.handled env = none ↔ m.unEncryptMessage env.md5 = none := by
  rw [handled_eq ha, hf, Option.bind_some, Option.bind_eq_none_iff]
  constructor
  · intro h
    refine Option.eq_none_iff_forall_ne_some.mpr fun r hr => ?_
    have := h r hr
    split_ifs at this
  · intro h r hr
    rw [h] at hr
    cases hr

/-- **The digest of a secured packet is looked for in the block of the content just where the length has room
for a digest and `SetContent` took the content**; and in the content itself from three bytes more on, as the
copy that nothing looks at begins there. -/
theorem guarded_iff {env : Env} {cur : Cursor} (hw : cur.Whole) (ha : cur.Addressed env)
    (hs : cur.head.security = true) :
    ∃ m, cur.filled env = some m ∧ (cur.handled env = none ↔ m.unEncryptMessage env.md5 = none) ∧
      (Guarded env.md5 m m.capacity ↔ 16 ≤ cur.head.length.toInt ∧
        cur.head.length.toInt + HEADER_LENGTH + 16 ≤ MAX_MSG_PACKET_SIZE) ∧
      (Guarded env.md5 m (min m.length.toInt m.capacity) ↔ 19 ≤ cur.head.length.toInt ∧
        cur.head.length.toInt + HEADER_LENGTH + 16 ≤ MAX_MSG_PACKET_SIZE) := by
  have hH : (HEADER_LENGTH : ℤ) = 26 := rfl
  have hM : (MAX_MSG_PACKET_SIZE : ℤ) = 65536 := rfl
  have hC : (MAX_RECV_MSG_CONTENT_SIZE : ℤ) = 1024 := rfl
  by_cases hl : cur.head.length.toInt + HEADER_LENGTH + 16 ≤ MAX_MSG_PACKET_SIZE
  · obtain ⟨m, hf, hlen, hsec, hroom, -⟩ := @filled_of_stored env cur hw hl
    have hcap := capacity_filled hw hl hf
    refine ⟨m, hf, handled_none_iff ha hf, ?_, ?_⟩
    · rw [guarded_iff_of_security (hsec.trans hs) le_rfl, hlen]
      rw [hlen] at hroom
      omega
    · rw [guarded_iff_of_security (hsec.trans hs) (min_le_right _ _), hlen]
      rw [hlen] at hroom
      omega
  · obtain ⟨m, hf, hlen, hsec, -, hcap⟩ := @filled_of_rejected env cur hw hl
    refine ⟨m, hf, handled_none_iff ha hf, ?_, ?_⟩
    · rw [guarded_iff_of_security (hsec.trans hs) le_rfl, hlen, hcap]
      omega
    · rw [guarded_iff_of_security (hsec.trans hs) (min_le_right _ _), hlen, hcap]
      omega

/-- A session with security that has received a packet of zeros with this length. -/
def securedCursor (length : Int32) : Cursor where
  session := { idle.fill ({ Segmentation.chat.head with length := length, security := true }).encode with
    security := true, dwRecvPos := HEADER_LENGTH + length.toInt.toNat }
  tmpHead := 0
  nLeftSize := HEADER_LENGTH + length.toInt.toNat

theorem guarded_secured : ∃ m, (securedCursor 19).filled gameServer = some m ∧
    Guarded gameServer.md5 m m.capacity := by
  obtain ⟨m, hf, -, h, -⟩ := @guarded_iff gameServer (securedCursor 19)
    ⟨by decide, by decide +kernel, by decide +kernel, by decide +kernel⟩ (by decide +kernel)
    (by decide +kernel)
  exact ⟨m, hf, h.mpr (by decide +kernel)⟩

/-- A packet of five bytes, whose digest is read from eleven bytes in front of its content on. -/
theorem not_guarded :
    Reached gameServer (securedCursor 5).session (securedCursor 5) ∧
    (securedCursor 5).Whole ∧ (securedCursor 5).Addressed gameServer ∧
    ∃ m, (securedCursor 5).filled gameServer = some m ∧ m.security = true ∧
      (-11, 16) ∈ unEncryptReads m ∧ ¬ Guarded gameServer.md5 m m.capacity := by
  have hw : (securedCursor 5).Whole :=
    ⟨by decide, by decide +kernel, by decide +kernel, by decide +kernel⟩
  obtain ⟨m, hf, hlen, hsec, -⟩ := @filled_of_stored gameServer (securedCursor 5) hw (by decide +kernel)
  have hs : m.security = true := hsec.trans (by decide +kernel)
  have hread : (-11, 16) ∈ unEncryptReads m := by
    unfold unEncryptReads
    rw [if_pos hs, hlen]
    decide +kernel
  refine ⟨.refl, hw, by decide +kernel, m, hf, hs, hread, fun h => ?_⟩
  exact absurd (h.reads _ hread).1 (by decide)

end ChatShow.CommBase.MessageDigest
