import ChatShow.Antlib.HttpTurns

/-! # The values of string messages

What a handler reads of a string message, and what that depends on. A message is made in a block that
has been used before, its body comes in chunks, and the values are strings in the block, or numbers that
`parse_stringmsg` has read off such strings. A value that ends in the body (`Ended`) does not depend on
what the block has behind it (`streamStr_lift`), so that two runs with one body give a handler the same
values (`fieldsLoop_alike`). -/

namespace ChatShow.Antlib.StringValues

open ChatShow.Lib.Cells ChatShow.Lib.CStrings
open ChatShow.Antlib.HttpProtocol ChatShow.Antlib.TcpMsglist ChatShow.Antlib.TcpStringmsg
open ChatShow.Antlib.HttpTurns (filled filled_nil parsed putout_part putout_whole)

/-! ### What a handler reads -/

inductive Value where
  | text (s : List UInt8)
  | num (n : ℕ)
  deriving DecidableEq

/-- A field, whose entry in `_vl` is `p`: a number, or the string that `p` points at. -/
def fieldValue (base size : ℕ) (s : TcpStream) (f : TcpmsgField) (p : ℕ) : Option Value :=
  if f.type ≠ 0 then some (.num p) else (streamStr base size s p).map .text

/-- The fields of a message, as its handler reads them. -/
def msgValues (fields : List TcpmsgField) (base : ℕ) (msg : HandlerMsg) : List (Option Value) :=
  fields.zipIdx.map fun q => fieldValue base (streamSize msg) msg.data q.1 (msg.data.vl.getD q.2 0)

/-- What becomes of a message: bytes are missing, it is refused, the process reads past the block, or
the handler is called with the values. -/
inductive Outcome where
  | waiting
  | refused
  | fault
  | handled (values : List (Option Value))
  deriving DecidableEq

/-- The chunks are added to a message, until it is whole. -/
def deliver (fields : List TcpmsgField) (base : ℕ) (msg : HandlerMsg) : List (List UInt8) → Outcome
  | [] => .waiting
  | c :: cs =>
    match httpmsgPutoutRange fields base msg (some (cells c)) c.length with
    | none => .fault
    | some (n, msg, called) =>
      if n = -1 then deliver fields base msg cs
      else if called then .handled (msgValues fields base msg)
      else .refused

/-- What a message is asked for with. -/
structure Ask where
  tables : List UInt8 → List UInt8 → Option StringTable
  key1 : Option (List UInt8)
  key2 : Option (List UInt8)
  userid : UInt64
  netid : UInt64
  ip : UInt32

/-- What a run has besides: what is left in the block, the address of `_buf` in it, and the chunks. -/
structure Run where
  block : ℕ → UInt8
  base : ℕ
  chunks : List (List UInt8)

namespace Ask

variable (a : Ask)

def table : Option StringTable := a.tables (a.key1.getD []) (a.key2.getD [])

def outcome (msglen : ℕ) (r : Run) : Outcome :=
  match tcpmsgGetbykey a.tables r.block a.key1 a.key2 msglen a.userid a.netid a.ip with
  | none => .fault
  | some none => .refused
  | some (some (msg, fields)) => deliver fields r.base msg r.chunks

end Ask

/-- The chunks begin with the body. -/
def Run.Brings (r : Run) (bytes : List UInt8) : Prop := r.chunks ≠ [] ∧ bytes <+: r.chunks.flatten

instance (r : Run) (bytes : List UInt8) : Decidable (r.Brings bytes) :=
  inferInstanceAs (Decidable (_ ∧ _))

/-! ### The values of a body -/

/-- What `parse_http_values2` makes of a body: the body with its NULs, and where in it the value of each
field begins, which is never at 0. -/
def found (fields : List TcpmsgField) (bytes : List UInt8) : (ℕ → UInt8) × List ℕ :=
  parseHttpValues2 (cells bytes) bytes.length 0 (List.replicate fields.length 0)
    (tcpmsgFieldIndex fields)

/-- Each value that the body gives to a field ends in the body. -/
def Ended (fields : List TcpmsgField) (bytes : List UInt8) : Prop :=
  ∀ o ∈ (found fields bytes).2, o ≠ 0 →
    0 ∈ slice (found fields bytes).1 o (bytes.length - o)

instance (fields : List TcpmsgField) (bytes : List UInt8) : Decidable (Ended fields bytes) :=
  List.decidableBAll _ _

variable {fields : List TcpmsgField} {bytes : List UInt8} {base base' size len n i j o p p' : ℕ}
variable {F buf buf' : ℕ → UInt8} {vl : List ℕ} {s s' : TcpStream} {f : TcpmsgField}

/-- The pointer to the place `o`, in a buffer at the address `base`; there is no place 0. -/
def lift (base o : ℕ) : ℕ := if o = 0 then 0 else base + o

theorem lift_eq_zero : lift base o = 0 ↔ o = 0 := by
  unfold lift
  split_ifs with h
  · exact iff_of_true rfl h
  · exact iff_of_false (by omega) h

/-- A field is found by the fields that have a value, not by where they have it. -/
theorem fieldIndex_lift (key : List UInt8) (vl : List ℕ) :
    tcpmsgFieldIndex fields key (vl.map (lift base)) = tcpmsgFieldIndex fields key vl := by
  unfold tcpmsgFieldIndex
  rw [List.zip_map_right, List.findIdx?_map]
  congr 1
  funext q
  exact decide_eq_decide.mpr (and_congr_left' lift_eq_zero)

/-- **`parse_http_values2` in a buffer at an address**, whatever is behind the first `len` bytes. -/
theorem valuesLoop_lift {g : List UInt8 → List ℕ → Option ℕ}
    (hg : ∀ key vl, g key (vl.map (lift base)) = g key vl) {no : Option ℕ} {key : ℕ} (hi : 1 ≤ i)
    (hkey : key ≤ i) (hn : i - 1 + n ≤ len) (hbuf : ∀ j < len, buf' j = buf j) :
    (valuesLoop g base n i buf' (vl.map (lift base)) no key).2 =
        (valuesLoop g 0 n i buf vl no key).2.map (lift base) ∧
      ∀ j < len, (valuesLoop g base n i buf' (vl.map (lift base)) no key).1 j =
        (valuesLoop g 0 n i buf vl no key).1 j := by
  induction n generalizing i buf buf' vl no key with
  | zero => exact ⟨rfl, hbuf⟩
  | succ n ih =>
    have hstore : ∀ j < len, store buf' (i - 1) [0] j = store buf (i - 1) [0] j := by
      intro j hj
      unfold store
      rw [hbuf j hj]
    rw [valuesLoop, valuesLoop, hbuf (i - 1) (by omega)]
    split_ifs
    · have hslice : slice (store buf' (i - 1) [0]) key (i - key) =
          slice (store buf (i - 1) [0]) key (i - key) :=
        slice_congr fun j _ hj => hstore j (by omega)
      dsimp only
      rw [hslice, hg]
      cases g ((cstr (slice (store buf (i - 1) [0]) key (i - key))).getD []) vl with
      | none => exact ih (by omega) (by omega) (by omega) hstore
      | some k =>
        have hlift : base + i = lift base (0 + i) := by
          unfold lift
          rw [Nat.zero_add, if_neg (by omega)]
        dsimp only
        rw [hlift, ← List.map_set]
        exact ih (by omega) (by omega) (by omega) hstore
    · exact ih (by omega) (by omega) (by omega) hstore
    · exact ih (by omega) (by omega) (by omega) hbuf
    · exact ih (by omega) (by omega) (by omega) hbuf

/-- It writes into those bytes. -/
theorem valuesLoop_behind {g : List UInt8 → List ℕ → Option ℕ} {no : Option ℕ} {key : ℕ}
    (hi : 1 ≤ i) (hj : i - 1 + n ≤ j) : (valuesLoop g base n i buf vl no key).1 j = buf j := by
  induction n generalizing i buf vl no key with
  | zero => rfl
  | succ n ih =>
    have hstore : store buf (i - 1) [0] j = buf j :=
      store_cell_of_ne (by omega)
    rw [valuesLoop]
    split_ifs
    · exact (ih (by omega) (by omega)).trans hstore
    · exact (ih (by omega) (by omega)).trans hstore
    · exact ih (by omega) (by omega)
    · exact ih (by omega) (by omega)

/-- The values begin in those bytes. -/
theorem valuesLoop_lt {g : List UInt8 → List ℕ → Option ℕ} {no : Option ℕ} {key : ℕ}
    (hn : i + n ≤ len) (hvl : ∀ o ∈ vl, o = 0 ∨ o < len) :
    ∀ o ∈ (valuesLoop g 0 n i buf vl no key).2, o = 0 ∨ o < len := by
  induction n generalizing i buf vl no key with
  | zero => exact hvl
  | succ n ih =>
    rw [valuesLoop]
    split_ifs
    · refine ih (by omega) ?_
      cases g ((cstr (slice (store buf (i - 1) [0]) key (i - key))).getD []) vl with
      | none => exact hvl
      | some k =>
        intro o ho
        obtain ho | rfl := List.mem_or_eq_of_mem_set ho
        · exact hvl o ho
        · exact Or.inr (by omega)
    · exact ih (by omega) hvl
    · exact ih (by omega) hvl
    · exact ih (by omega) hvl

theorem found_lt (ho : o ∈ (found fields bytes).2) (hne : o ≠ 0) : o < bytes.length := by
  have hzeros : ∀ o ∈ List.replicate fields.length 0, o = 0 ∨ o < bytes.length :=
    fun o ho => Or.inl (List.eq_of_mem_replicate ho)
  unfold found parseHttpValues2 at ho
  by_cases h0 : bytes.length = 0
  · rw [h0] at ho
    exact absurd (List.eq_of_mem_replicate ho) hne
  · exact (valuesLoop_lt (by omega) hzeros o ho).resolve_left hne

/-- A stream whose body is that of `found` before it is parsed. -/
theorem parse_found (hbuf : ∀ j < bytes.length, buf j = cells bytes j) :
    let r := parseHttpValues2 buf bytes.length base (List.replicate fields.length 0)
      (tcpmsgFieldIndex fields)
    r.2 = (found fields bytes).2.map (lift base) ∧
      ∀ j < bytes.length, r.1 j = (found fields bytes).1 j := by
  have hzeros : (List.replicate fields.length 0).map (lift base) = List.replicate fields.length 0 :=
    List.map_replicate
  have hn : 1 - 1 + (bytes.length - 1) ≤ bytes.length := by omega
  have h := @valuesLoop_lift base bytes.length (bytes.length - 1) 1 (cells bytes) buf
    (List.replicate fields.length 0) (tcpmsgFieldIndex fields) fieldIndex_lift none 0 le_rfl
    (Nat.zero_le 1) hn hbuf
  rw [hzeros] at h
  exact h

/-! ### Strings in a block -/

/-- A stream has the body `F`. -/
def Holds (F : ℕ → UInt8) (len : ℕ) (s : TcpStream) : Prop :=
  s.len = len ∧ ∀ j < len, s.buf j = F j

theorem Holds.streamCell (h : Holds F len s) (hj : j < len + 4) : streamCell s j = s.buf j := by
  have hlen : s.len.toNat = len := by rw [h.1]; exact Int.toNat_natCast len
  unfold TcpStringmsg.streamCell
  dsimp only
  rw [hlen, if_neg (by omega)]

/-- A string that begins in the body. -/
theorem streamStr_eq (base : ℕ) (h : Holds F len s) (hsize : len ≤ size) (ho : o ≠ 0) (hle : o ≤ len) :
    streamStr base size s (lift base o) =
      cstr (slice F o (len - o) ++ slice (streamCell s) len (size - len)) := by
  have hbody : slice (streamCell s) o (len - o) = slice F o (len - o) := slice_congr fun j _ hj => by
    rw [h.streamCell (by omega), h.2 j (by omega)]
  unfold streamStr lift
  rw [if_neg ho, Nat.add_sub_cancel_left, show size - o = len - o + (size - len) by omega, slice_add,
    hbody, show o + (len - o) = len by omega]

/-- **A value that ends in the body is read the same, whatever the block has behind the body.** -/
theorem streamStr_lift (base : ℕ) (h : Holds F len s) (hsize : len ≤ size) (ho : o ≠ 0)
    (hend : 0 ∈ slice F o (len - o)) :
    ∃ v, cstr (slice F o (len - o)) = some v ∧ streamStr base size s (lift base o) = some v := by
  have hlt : o < len := by
    by_contra hge
    rw [Nat.sub_eq_zero_of_le (Nat.not_lt.mp hge), slice_zero] at hend
    cases hend
  obtain ⟨v, hv, hv'⟩ := cstr_of_mem hend (slice (streamCell s) len (size - len))
  exact ⟨v, hv, (streamStr_eq base h hsize ho (Nat.le_of_lt hlt)).trans hv'⟩

/-- A value that does not end in the body goes on behind it. -/
theorem streamStr_behind (h : Holds F len s) (hsize : len ≤ size) (ho : o ≠ 0) (hlt : o < len)
    (hend : 0 ∉ slice F o (len - o)) : streamStr base size s (lift base o) =
      (cstr (slice (streamCell s) len (size - len))).map (slice F o (len - o) ++ ·) :=
  (streamStr_eq base h hsize ho (Nat.le_of_lt hlt)).trans (cstr_append hend _)

/-- The stream behind `parse_http_values2`. -/
def valued (fields : List TcpmsgField) (base : ℕ) (s : TcpStream) : TcpStream :=
  let r := parseHttpValues2 s.buf s.len.toNat base s.vl (tcpmsgFieldIndex fields)
  { s with buf := r.1, vl := r.2 }

theorem valued_spec (hs : Holds (cells bytes) bytes.length s)
    (hvl : s.vl = List.replicate fields.length 0) :
    Holds (found fields bytes).1 bytes.length (valued fields base s) ∧
      (valued fields base s).vl = (found fields bytes).2.map (lift base) := by
  obtain ⟨hfound, hbuf⟩ := @parse_found fields bytes base s.buf hs.2
  unfold valued
  rw [hvl, hs.1, Int.toNat_natCast]
  exact ⟨⟨rfl, hbuf⟩, hfound⟩

theorem parseStringmsg_eq (h : fields.length ≠ 0) :
    parseStringmsg fields base size s = fieldsLoop base size fields 0 (valued fields base s) := by
  unfold parseStringmsg
  rw [if_neg h]
  rfl

/-! ### The loop over the fields -/

/-- Two pointers to one place of the body, at which a value begins that ends in it; or none. -/
def Pointers (F : ℕ → UInt8) (len base base' p p' : ℕ) : Prop :=
  ∃ o, p = lift base o ∧ p' = lift base' o ∧ (o ≠ 0 → 0 ∈ slice F o (len - o))

/-- Two entries of `_vl` that a handler reads the same. -/
def Entries (F : ℕ → UInt8) (len base base' : ℕ) (f : TcpmsgField) (p p' : ℕ) : Prop :=
  if f.type ≠ 0 then p = p' else p ≠ 0 ∧ Pointers F len base base' p p'

/-- The entry `i` is set to `x`, or not. -/
theorem getD_of_ne {x : ℕ} {c : Prop} [Decidable c] (hj : j ≠ i) (vl : List ℕ) :
    (if c then vl.set i x else vl).getD j 0 = vl.getD j 0 := by
  split_ifs
  · rw [List.getD_eq_getElem?_getD, List.getElem?_set_ne (Ne.symm hj), List.getD_eq_getElem?_getD]
  · rfl

/-- What a turn of the loop makes of a field whose string is `v`. -/
def convert (f : TcpmsgField) (i : ℕ) (v : List UInt8) (s : TcpStream) : TcpStream :=
  if f.type ≠ 0 then { s with vl := s.vl.set i (atol v % 2 ^ 64).toNat } else s

theorem vl_convert (v : List UInt8) :
    (convert f i v s).vl = if f.type ≠ 0 then s.vl.set i (atol v % 2 ^ 64).toNat else s.vl := by
  unfold convert
  split_ifs <;> rfl

theorem Holds.convert {v : List UInt8} (h : Holds F len s) : Holds F len (convert f i v s) := by
  unfold StringValues.convert
  split_ifs <;> exact h

theorem fieldsLoop_cons (fs : List TcpmsgField) (i : ℕ) (s : TcpStream) {v : List UInt8}
    (hp : s.vl.getD i 0 ≠ 0) (hv : streamStr base size s (s.vl.getD i 0) = some v) :
    fieldsLoop base size (f :: fs) i s =
      if v.length < f.min ∨ v.length > f.max then some none
      else fieldsLoop base size fs (i + 1) (convert f i v s) := by
  rw [fieldsLoop]
  dsimp only
  rw [if_neg hp, hv]
  rfl

theorem entries_convert {v : List UInt8} (hp : s.vl.getD i 0 ≠ 0) (hp' : s'.vl.getD i 0 ≠ 0)
    (h : Pointers F len base base' (s.vl.getD i 0) (s'.vl.getD i 0)) :
    Entries F len base base' f ((convert f i v s).vl.getD i 0) ((convert f i v s').vl.getD i 0) := by
  have hset {s : TcpStream} (hp : s.vl.getD i 0 ≠ 0) (x : ℕ) : (s.vl.set i x).getD i 0 = x := by
    have hi : i < s.vl.length := by
      by_contra hge
      exact hp (List.getD_eq_default _ _ (Nat.not_lt.mp hge))
    rw [List.getD_eq_getElem?_getD, List.getElem?_set_self hi]
    rfl
  rw [vl_convert, vl_convert]
  unfold Entries
  by_cases hf : f.type ≠ 0
  · rw [if_pos hf, if_pos hf, if_pos hf, hset hp, hset hp']
  · rw [if_neg hf, if_neg hf, if_neg hf]
    exact ⟨hp, h⟩

/-- **Two streams with one body are both refused, or get entries that a handler reads the same.** -/
theorem fieldsLoop_alike (hs : Holds F len s) (hs' : Holds F len s') (hsize : len ≤ size)
    (hvl : ∀ j, i ≤ j → Pointers F len base base' (s.vl.getD j 0) (s'.vl.getD j 0)) :
    (fieldsLoop base size fields i s = some none ∧ fieldsLoop base' size fields i s' = some none) ∨
    ∃ t t', fieldsLoop base size fields i s = some (some t) ∧
      fieldsLoop base' size fields i s' = some (some t') ∧ (Holds F len t ∧ Holds F len t') ∧
      (∀ j < i, t.vl.getD j 0 = s.vl.getD j 0 ∧ t'.vl.getD j 0 = s'.vl.getD j 0) ∧
      ∀ j f, fields[j]? = some f →
        Entries F len base base' f (t.vl.getD (i + j) 0) (t'.vl.getD (i + j) 0) := by
  induction fields generalizing i s s' with
  | nil => exact Or.inr ⟨s, s', rfl, rfl, ⟨hs, hs'⟩, fun _ _ => ⟨rfl, rfl⟩, fun j f hj => nomatch hj⟩
  | cons f fs ih =>
    have hi := hvl i le_rfl
    obtain ⟨o, hp, hp', hend⟩ := hi
    by_cases ho : o = 0
    · have hzero : s.vl.getD i 0 = 0 := hp.trans (lift_eq_zero.mpr ho)
      have hzero' : s'.vl.getD i 0 = 0 := hp'.trans (lift_eq_zero.mpr ho)
      left
      rw [fieldsLoop, fieldsLoop]
      exact ⟨if_pos hzero, if_pos hzero'⟩
    have hne : s.vl.getD i 0 ≠ 0 := fun h0 => ho (lift_eq_zero.mp (hp.symm.trans h0))
    have hne' : s'.vl.getD i 0 ≠ 0 := fun h0 => ho (lift_eq_zero.mp (hp'.symm.trans h0))
    obtain ⟨v, hv, hstr⟩ := streamStr_lift base hs hsize ho (hend ho)
    obtain ⟨_, hv', hstr'⟩ := streamStr_lift base' hs' hsize ho (hend ho)
    cases hv.symm.trans hv'
    rw [← hp] at hstr
    rw [← hp'] at hstr'
    rw [fieldsLoop_cons fs i s hne hstr, fieldsLoop_cons fs i s' hne' hstr']
    by_cases hrange : v.length < f.min ∨ v.length > f.max
    · rw [if_pos hrange, if_pos hrange]
      exact Or.inl ⟨rfl, rfl⟩
    rw [if_neg hrange, if_neg hrange]
    have hvl' : ∀ j, i + 1 ≤ j → Pointers F len base base' ((convert f i v s).vl.getD j 0)
        ((convert f i v s').vl.getD j 0) := by
      intro j hj
      rw [vl_convert, vl_convert, getD_of_ne (by omega), getD_of_ne (by omega)]
      exact hvl j (by omega)
    obtain h | ⟨t, t', ht, ht', hholds, hkeep, hent⟩ :=
      ih (hs.convert (v := v)) (hs'.convert (v := v)) hvl'
    · exact Or.inl h
    refine Or.inr ⟨t, t', ht, ht', hholds, fun j hj => ?_, fun j f' hj => ?_⟩
    · obtain ⟨h1, h2⟩ := hkeep j (by omega)
      rw [h1, h2, vl_convert, vl_convert, getD_of_ne (by omega), getD_of_ne (by omega)]
      exact ⟨rfl, rfl⟩
    · cases j with
      | zero =>
        cases hj
        obtain ⟨h1, h2⟩ := hkeep i (Nat.lt_succ_self i)
        rw [Nat.add_zero, h1, h2]
        exact entries_convert hne hne' ⟨o, hp, hp', hend⟩
      | succ j =>
        have := hent j f' hj
        rwa [Nat.succ_add_eq_add_succ] at this

end ChatShow.Antlib.StringValues
