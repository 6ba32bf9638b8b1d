import ChatShow.Antlib.StringValues

/-! # Two runs of a string message

The same body in two runs: the block has been used for something else, it is at another address, and
the chunks are cut in another way. Where each value ends in the body the handler reads the same
values, or the message is refused in both; where one does not, the string that its field points at
depends on what the block has behind the body (`values_of_bytes`). -/

namespace ChatShow.Antlib.StringRuns

open ChatShow.Lib.Cells ChatShow.Lib.CStrings
open ChatShow.Antlib.HttpProtocol ChatShow.Antlib.TcpMsglist ChatShow.Antlib.TcpStringmsg
open ChatShow.Antlib.HttpTurns (filled filled_nil parsed putout_part putout_whole)
open ChatShow.Antlib.StringValues

variable {fields : List TcpmsgField} {bytes w : List UInt8} {base base' size len k : ℕ}
variable {F : ℕ → UInt8} {s s' t t' : TcpStream} {msg msg' : HandlerMsg} {f : TcpmsgField} {p p' : ℕ}

/-! ### One body -/

theorem parse_alike (hended : Ended fields bytes) (hsize : bytes.length ≤ size)
    (hs : Holds (cells bytes) bytes.length s) (hvl : s.vl = List.replicate fields.length 0)
    (hs' : Holds (cells bytes) bytes.length s') (hvl' : s'.vl = List.replicate fields.length 0) :
    (parseStringmsg fields base size s = some none ∧
      parseStringmsg fields base' size s' = some none) ∨
    ∃ F t t', parseStringmsg fields base size s = some (some t) ∧
      parseStringmsg fields base' size s' = some (some t') ∧
      (Holds F bytes.length t ∧ Holds F bytes.length t') ∧
      ∀ j f, fields[j]? = some f →
        Entries F bytes.length base base' f (t.vl.getD j 0) (t'.vl.getD j 0) := by
  by_cases h0 : fields.length = 0
  · unfold parseStringmsg
    rw [if_pos h0, if_pos h0]
    refine Or.inr ⟨_, s, s', rfl, rfl, ⟨hs, hs'⟩, fun j f hj => ?_⟩
    rw [List.length_eq_zero_iff.mp h0] at hj
    cases hj
  rw [parseStringmsg_eq h0, parseStringmsg_eq h0]
  obtain ⟨hholds, hfound⟩ := @valued_spec fields bytes base s hs hvl
  obtain ⟨hholds', hfound'⟩ := @valued_spec fields bytes base' s' hs' hvl'
  have hpointers (j : ℕ) : Pointers (found fields bytes).1 bytes.length base base'
      ((valued fields base s).vl.getD j 0) ((valued fields base' s').vl.getD j 0) := by
    have hlift (base : ℕ) : ((found fields bytes).2.map (lift base)).getD j 0 =
        lift base ((found fields bytes).2.getD j 0) := List.getD_map _ 0 (lift base)
    rw [hfound, hfound']
    refine ⟨(found fields bytes).2.getD j 0, hlift base, hlift base', fun hne => hended _ ?_ hne⟩
    by_contra hnot
    refine hne (List.getD_eq_default _ _ ?_)
    by_contra hlt
    rw [List.getD_eq_getElem _ _ (Nat.not_le.mp hlt)] at hnot
    exact hnot (List.getElem_mem _)
  obtain h | ⟨t, t', ht, ht', hholds, -, hent⟩ :=
    fieldsLoop_alike (i := 0) hholds hholds' hsize fun j _ => hpointers j
  · exact Or.inl h
  · refine Or.inr ⟨_, t, t', ht, ht', hholds, fun j f hj => ?_⟩
    have := hent j f hj
    rwa [Nat.zero_add] at this

theorem fieldValue_alike (ht : Holds F len t) (ht' : Holds F len t') (hsize : len ≤ size)
    (h : Entries F len base base' f p p') :
    fieldValue base size t f p = fieldValue base' size t' f p' := by
  unfold Entries at h
  unfold fieldValue
  split_ifs at h ⊢ with hf
  · rw [h]
  · obtain ⟨hp, o, rfl, rfl, hend⟩ := h
    have ho : o ≠ 0 := fun h0 => hp (lift_eq_zero.mpr h0)
    obtain ⟨v, hv, hstr⟩ := streamStr_lift base ht hsize ho (hend ho)
    obtain ⟨_, hv', hstr'⟩ := streamStr_lift base' ht' hsize ho (hend ho)
    cases hv.symm.trans hv'
    rw [hstr, hstr']

/-- What becomes of a message whose body is there. -/
def whole (fields : List TcpmsgField) (base : ℕ) (msg : HandlerMsg) (w : List UInt8) : Outcome :=
  match parsed fields base msg w with
  | none => .fault
  | some none => .refused
  | some (some msg) => .handled (msgValues fields base msg)

/-- A message that has been made for a body of that length. -/
structure Made (fields : List TcpmsgField) (n : ℕ) (msg : HandlerMsg) : Prop where
  len : msg.data.len = n
  off : msg.data.off = 0
  vl : msg.data.vl = List.replicate fields.length 0
  room : n + 4 ≤ streamSize msg

theorem holds_body (hlen : s.len = bytes.length) (block : ℕ → UInt8) :
    Holds (cells bytes) bytes.length { s with buf := store block 0 bytes } := by
  refine ⟨hlen, fun j hj => ?_⟩
  dsimp only
  unfold store cells
  rw [if_pos (Nat.zero_le j), Nat.sub_zero, List.getElem?_eq_getElem hj, List.getD_eq_getElem _ _ hj]
  rfl

theorem whole_alike (hended : Ended fields bytes) (hm : Made fields bytes.length msg)
    (hm' : Made fields bytes.length msg') (hsize : streamSize msg' = streamSize msg) :
    whole fields base msg bytes = whole fields base' msg' bytes := by
  have hroom := hm.room
  unfold whole parsed
  rw [hsize]
  obtain ⟨h, h'⟩ | ⟨F, t, t', ht, ht', ⟨hholds, hholds'⟩, hent⟩ :=
    @parse_alike fields bytes base base' (streamSize msg)
      { msg.data with buf := store msg.data.buf 0 bytes, off := 0 }
      { msg'.data with buf := store msg'.data.buf 0 bytes, off := 0 } hended (by omega)
      (holds_body hm.len _) hm.vl (holds_body hm'.len _) hm'.vl
  · rw [h, h']
    rfl
  · rw [ht, ht']
    dsimp only [Option.map_some]
    refine congrArg Outcome.handled (List.map_congr_left fun q hq => ?_)
    have hq' := List.mem_zipIdx_iff_getElem?.mp hq
    have hle : bytes.length ≤ streamSize msg := by omega
    change fieldValue base (streamSize msg) t q.1 _ = fieldValue base' (streamSize msg') t' q.1 _
    rw [hsize]
    exact fieldValue_alike hholds hholds' hle (hent q.2 q.1 hq')

/-! ### Chunks -/

/-- **The outcome depends on the chunks by the body that they bring.** -/
theorem deliver_filled (cs : List (List UInt8)) (hne : cs ≠ [])
    (hk : msg.data.len = (w.length + k : ℕ)) (hcs : k ≤ cs.flatten.length) :
    deliver fields base (filled msg w) cs = whole fields base msg (w ++ cs.flatten.take k) := by
  induction cs generalizing w k with
  | nil => exact absurd rfl hne
  | cons c cs ih =>
    rw [deliver]
    by_cases hc : k ≤ c.length
    · rw [putout_whole fields base hk hc, slice_cells (by omega), List.drop_zero, List.flatten_cons,
        List.take_append_of_le_length hc]
      unfold whole
      cases parsed fields base msg (w ++ c.take k) with
      | none => rfl
      | some m =>
        cases m with
        | none => rfl
        | some m =>
          dsimp only
          rw [if_neg (by omega), if_pos rfl]
    · rw [List.flatten_cons, List.length_append] at hcs
      rw [putout_part (by omega), slice_cells (by omega), List.drop_zero, List.take_length]
      dsimp only
      rw [if_pos rfl, ih (k := k - c.length) ?_ ?_ (by omega), List.append_assoc, List.flatten_cons,
        List.take_append, List.take_of_length_le (Nat.le_of_not_le hc)]
      · rintro rfl
        rw [List.flatten_nil, List.length_nil] at hcs
        omega
      · rw [hk, List.length_append]
        congr 1
        omega

/-! ### Messages that are made -/

/-- The message in a block. -/
def inBlock (msg : HandlerMsg) (block : ℕ → UInt8) : HandlerMsg :=
  { msg with data := { msg.data with buf := block } }

theorem Made.inBlock (h : Made fields len msg) (block : ℕ → UInt8) :
    Made fields len (inBlock msg block) :=
  ⟨h.len, h.off, h.vl, h.room⟩

/-- The block of a message for `n` bytes has a size that is an `int`. -/
def RoomFor (fields : List TcpmsgField) (n : ℕ) : Prop := 56 + n + 8 * fields.length < 2 ^ 31

instance (fields : List TcpmsgField) (n : ℕ) : Decidable (RoomFor fields n) :=
  inferInstanceAs (Decidable (_ < _))

/-- The cells that this block has from `_buf` on. -/
def blockSize (fields : List TcpmsgField) (n : ℕ) : ℕ := max 8142 (56 + n + 8 * fields.length) - 52

/-- A message that is made has room for its body, the four bytes behind it and the entries of `_vl`. -/
theorem createTcpstream_room {t : StringTable} {n : ℕ} (userid : UInt64) (msgid : ℤ) (netid : UInt64)
    (ip : UInt32) (h : RoomFor t.fields n) :
    ∃ msg, Made t.fields n msg ∧ streamSize msg = blockSize t.fields n ∧
      ∀ block, createTcpstream block userid msgid n t.table t.table.n netid ip =
        some (inBlock msg block) := by
  have hn : t.table.n = t.fields.length := rfl
  have hnormal : MSG_NORMAL_SIZE = 8142 := rfl
  have h56 : sizeofTcpStream = 56 := rfl
  unfold RoomFor at h
  have hgood : ¬ ((n : ℤ) < 0 ∨ 2147483648 ≤ sizeofTcpStream + n + 8 * (t.table.n : ℤ)) := by omega
  let size :=
    if MSG_NORMAL_SIZE - sizeofTcpStream < n + 8 * (t.table.n : ℤ) then
      sizeofTcpStream + n + 8 * (t.table.n : ℤ)
    else MSG_NORMAL_SIZE
  let data : TcpStream := ⟨t.table, List.replicate t.table.n 0, netid, ip, 0, n, fun _ => 0⟩
  have hsize : streamSize ⟨userid, msgid, size, data⟩ = blockSize t.fields n := by
    unfold streamSize blockSize
    dsimp only [size]
    split_ifs <;> omega
  refine ⟨⟨userid, msgid, size, data⟩, ⟨rfl, rfl, rfl, ?_⟩, hsize, fun block => if_neg hgood⟩
  rw [hsize, blockSize]
  omega

theorem createTcpstream_none {t : StringTable} {n : ℕ} (h : ¬ RoomFor t.fields n) (block : ℕ → UInt8)
    (userid : UInt64) (msgid : ℤ) (netid : UInt64) (ip : UInt32) :
    createTcpstream block userid msgid n t.table t.table.n netid ip = none := by
  have hn : t.table.n = t.fields.length := rfl
  have h56 : sizeofTcpStream = 56 := rfl
  unfold RoomFor at h
  exact if_pos (by omega)

theorem getbykey_cases (a : Ask) (n : ℕ) :
    (∀ block, tcpmsgGetbykey a.tables block a.key1 a.key2 n a.userid a.netid a.ip = none) ∨
    (∀ block, tcpmsgGetbykey a.tables block a.key1 a.key2 n a.userid a.netid a.ip = some none) ∨
    ∃ t ∈ a.table, ∃ msg, Made t.fields n msg ∧
      ∀ block, tcpmsgGetbykey a.tables block a.key1 a.key2 n a.userid a.netid a.ip =
        some (some (inBlock msg block, t.fields)) := by
  unfold tcpmsgGetbykey Ask.table
  by_cases hkeys : a.key1.getD [] = [] ∨ a.key2.getD [] = []
  · exact Or.inr (Or.inl fun block => if_pos hkeys)
  cases a.tables (a.key1.getD []) (a.key2.getD []) with
  | none => exact Or.inr (Or.inl fun block => if_neg hkeys)
  | some t =>
    by_cases hsize : t.table.n > 0 ∧ ((n : ℤ) < t.table.minSize ∨ (n : ℤ) > t.table.maxSize)
    · refine Or.inr (Or.inl fun block => ?_)
      rw [if_neg hkeys]
      exact if_pos hsize
    · by_cases hroom : RoomFor t.fields n
      · obtain ⟨msg, hm, -, h⟩ := createTcpstream_room a.userid t.id a.netid a.ip hroom
        refine Or.inr (Or.inr ⟨t, rfl, msg, hm, fun block => ?_⟩)
        rw [if_neg hkeys]
        dsimp only
        rw [if_neg hsize, h]
        rfl
      · refine Or.inl fun block => ?_
        rw [if_neg hkeys]
        dsimp only
        rw [if_neg hsize, createTcpstream_none hroom]
        rfl

/-- A run that brings the body. -/
theorem deliver_made {r : Run} (hm : Made fields bytes.length msg) (hr : r.Brings bytes) :
    deliver fields base msg r.chunks = whole fields base msg bytes := by
  obtain ⟨hne, rest, hrest⟩ := hr
  have hlen : msg.data.len = (([] : List UInt8).length + bytes.length : ℕ) := by
    rw [hm.len, List.length_nil, Nat.zero_add]
  have hle : bytes.length ≤ r.chunks.flatten.length := by
    rw [← hrest, List.length_append]
    exact Nat.le_add_right _ _
  have h := @deliver_filled fields [] base bytes.length msg r.chunks hne hlen hle
  rwa [filled_nil hm.off, List.nil_append, ← hrest, List.take_left] at h

/-- **Two runs with one body.** -/
theorem outcome_alike (a : Ask) {r r' : Run} (hended : ∀ t ∈ a.table, Ended t.fields bytes)
    (hr : r.Brings bytes) (hr' : r'.Brings bytes) :
    a.outcome bytes.length r = a.outcome bytes.length r' := by
  unfold Ask.outcome
  obtain h | h | ⟨t, ht, msg, hm, h⟩ := getbykey_cases a bytes.length
  · rw [h, h]
  · rw [h, h]
  · rw [h, h]
    dsimp only
    rw [deliver_made (hm.inBlock r.block) hr, deliver_made (hm.inBlock r'.block) hr']
    exact whole_alike (hended t ht) (hm.inBlock r.block) (hm.inBlock r'.block) rfl

/-! ### A value that does not end -/

/-- The strings that the fields point at when `parse_stringmsg` begins to read them, in a message
with the body `bytes` in a block. -/
def fieldStrings (fields : List TcpmsgField) (base : ℕ) (msg : HandlerMsg) (block : ℕ → UInt8)
    (bytes : List UInt8) : List (Option (List UInt8)) :=
  let s := valued fields base { msg.data with buf := store block 0 bytes }
  s.vl.map fun p => if p = 0 then none else streamStr base (streamSize msg) s p

/-- A block with the string `l` behind the first `n` bytes. -/
def behind (n : ℕ) (l : List UInt8) : ℕ → UInt8 := store (fun _ => 0) n (l ++ [0])

theorem valued_behind {j : ℕ} (hlen : s.len = bytes.length) (hj : bytes.length ≤ j) :
    (valued fields base s).buf j = s.buf j := by
  unfold valued parseHttpValues2
  rw [hlen, Int.toNat_natCast]
  exact valuesLoop_behind le_rfl (by omega)

/-- A value that does not end in the body has in it what is behind the body. -/
theorem streamStr_valued {o : ℕ} {l : List UInt8} (hlen : s.len = bytes.length)
    (hvl : s.vl = List.replicate fields.length 0)
    (hbuf : s.buf = store (behind bytes.length l) 0 bytes) (hsize : bytes.length + 4 ≤ size)
    (ho : o ∈ (found fields bytes).2) (hne : o ≠ 0)
    (hend : 0 ∉ slice (found fields bytes).1 o (bytes.length - o)) (hl : 0 ∉ l)
    (hfit : l.length < 4) :
    streamStr base size (valued fields base s) (lift base o) =
      some (slice (found fields bytes).1 o (bytes.length - o) ++ l) := by
  have hbody : Holds (cells bytes) bytes.length s :=
    ⟨hlen, fun j hj => (congrFun hbuf j).trans ((holds_body hlen _).2 j hj)⟩
  obtain ⟨hholds, -⟩ := @valued_spec fields bytes base s hbody hvl
  have hcells :
      slice (streamCell (valued fields base s)) bytes.length (l ++ [0]).length = l ++ [0] := by
    refine Eq.trans ?_ (slice_store_same (fun _ => 0) bytes.length (l ++ [0]))
    refine slice_congr fun j hlow hhigh => ?_
    rw [List.length_append, List.length_singleton] at hhigh
    rw [hholds.streamCell (by omega), valued_behind hlen hlow, hbuf]
    exact store_of_ge (by omega)
  have hsplit : size - bytes.length =
      (l ++ [0]).length + (size - bytes.length - (l ++ [0]).length) := by
    rw [List.length_append, List.length_singleton]
    omega
  rw [streamStr_behind hholds (by omega) hne (found_lt ho hne) hend, hsplit, slice_add, hcells,
    List.append_assoc, cstr_append hl, List.singleton_append, cstr, if_pos rfl, Option.map_some,
    Option.map_some, List.append_nil]

theorem fieldStrings_differ (hnot : ¬ Ended fields bytes) (hm : Made fields bytes.length msg) :
    fieldStrings fields base msg (behind bytes.length []) bytes ≠
      fieldStrings fields base msg (behind bytes.length [120]) bytes := by
  unfold Ended at hnot
  push Not at hnot
  obtain ⟨o, ho, hne, hend⟩ := hnot
  have hstr (l : List UInt8) : fieldStrings fields base msg (behind bytes.length l) bytes =
      (found fields bytes).2.map fun o => if lift base o = 0 then none else
        streamStr base (streamSize msg)
          (valued fields base { msg.data with buf := store (behind bytes.length l) 0 bytes })
          (lift base o) := by
    unfold fieldStrings
    dsimp only
    rw [(valued_spec (holds_body hm.len _) hm.vl).2, List.map_map]
    rfl
  rw [hstr, hstr]
  intro he
  have heq := List.map_inj_left.mp he o ho
  have hpos : ¬ lift base o = 0 := fun h0 => hne (lift_eq_zero.mp h0)
  have hread {l : List UInt8} (hl : 0 ∉ l) (hfit : l.length < 4) :=
    @streamStr_valued fields bytes base (streamSize msg)
      { msg.data with buf := store (behind bytes.length l) 0 bytes } o l hm.len hm.vl rfl
      hm.room ho hne hend hl hfit
  rw [if_neg hpos, if_neg hpos, hread List.not_mem_nil (by decide), hread (by decide)
    (by decide)] at heq
  have hlen := congrArg List.length (Option.some.inj heq)
  rw [List.length_append, List.length_append, List.length_nil, List.length_singleton] at hlen
  omega

/-- **The values that a handler reads are those of the body, where each value ends in it**; where
one does not, its field points at a string that goes on behind the body. -/
theorem values_of_bytes (a : Ask) (bytes : List UInt8) :
    ((∀ t ∈ a.table, Ended t.fields bytes) → ∀ r r' : Run, r.Brings bytes → r'.Brings bytes →
      a.outcome bytes.length r = a.outcome bytes.length r') ∧
    ∀ t : StringTable, ¬ Ended t.fields bytes → ∃ block block', ∀ base msg,
      Made t.fields bytes.length msg →
        fieldStrings t.fields base msg block bytes ≠ fieldStrings t.fields base msg block' bytes :=
  ⟨fun hended _ _ hr hr' => outcome_alike a hended hr hr',
    fun _ hnot => ⟨_, _, fun _ _ hm => fieldStrings_differ hnot hm⟩⟩

/-- A table with one field, a string of at most ten characters with the name `a`. -/
def oneField : Ask where
  tables key1 key2 := if key1 = [107] ∧ key2 = [107] then some ⟨1, [⟨[97], 0, 10, 0⟩]⟩ else none
  key1 := some [107]
  key2 := some [107]
  userid := 0
  netid := 0
  ip := 0

/-- The body `a=1`. -/
def short : List UInt8 := [97, 61, 49]

/-- **The value of `a` has the byte behind the body in it.** -/
theorem values_differ :
    (Run.mk (behind 3 []) 4096 [short]).Brings short ∧
    (Run.mk (behind 3 [120]) 4096 [short]).Brings short ∧
    oneField.outcome 3 ⟨behind 3 [], 4096, [short]⟩ = .handled [some (.text [49])] ∧
    oneField.outcome 3 ⟨behind 3 [120], 4096, [short]⟩ = .handled [some (.text [49, 120])] := by
  decide +kernel

end ChatShow.Antlib.StringRuns
