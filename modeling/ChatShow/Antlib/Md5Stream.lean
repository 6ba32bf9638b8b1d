import ChatShow.Antlib.Md5
import ChatShow.Lib.BlockHash

/-! # The digest of a message that comes in parts

`MD5Update` takes the parts of a message, of any lengths, as it would take the whole of it, and
`MD5Final` gives the digest of the padded message. -/

namespace ChatShow.Antlib.Md5

open ChatShow.Lib.BlockHash ChatShow.Lib.Bytes ChatShow.Lib.Cells

/-- A step of the digest, with the 64 bytes of a block. -/
def md5Block (state : State) (block : List UInt8) : State := md5Transform state (cells block)

/-- The number of the bits of `n` bytes. -/
def md5Size (n : ℕ) : List UInt8 := leBytes 8 (8 * n)

/-- **The digest of a message**, as it is defined for the whole of it. -/
def digest (m : List UInt8) : List UInt8 :=
  let s := absorb md5Block 64 md5Init.state (padded 64 0x80 0 md5Size m)
  md5Encode [s.a, s.b, s.c, s.d]

/-! ### Bytes of numbers -/

theorem leBytes_add (a b x : ℕ) : leBytes (a + b) x = leBytes a x ++ leBytes b (x / 256 ^ a) := by
  induction a generalizing x with
  | zero => rw [Nat.zero_add, pow_zero, Nat.div_one]; rfl
  | succ a ih =>
    rw [Nat.succ_add, leBytes, leBytes, List.cons_append, ih, Nat.div_div_eq_div_mul, pow_succ, mul_comm 256]

theorem leBytes_mod (n x : ℕ) : leBytes n (x % 256 ^ n) = leBytes n x := by
  have hadd : x = x % 256 ^ n + 256 ^ n * (x / 256 ^ n) := (Nat.mod_add_div ..).symm
  have hlt := Nat.mod_lt x (Nat.pow_pos (show 0 < 256 by decide) (n := n))
  have hofLe : ofLe (leBytes n x) = x % 256 ^ n := by
    clear hadd hlt
    induction n generalizing x with
    | zero => rw [pow_zero, Nat.mod_one]; rfl
    | succ n ih =>
      have hb : (UInt8.ofNat x).toNat = x % 256 := UInt8.toNat_ofNat'
      rw [leBytes, ofLe, ih, hb, pow_succ, mul_comm (256 ^ n), Nat.mod_mul]
  have hle := leBytes_ofLe (leBytes n x)
  rwa [length_leBytes, hofLe] at hle

/-! ### Blocks -/

theorem md5Decode_congr {block block' : ℕ → UInt8} (h : ∀ i < 64, block i = block' i) {k : ℕ}
    (hk : k < 16) : md5Decode block k = md5Decode block' k := by
  unfold md5Decode
  rw [slice_congr fun i _ hi => h i (by omega)]

/-- The words of the rounds are in the block. -/
theorem md5Transform_congr (state : State) {block block' : ℕ → UInt8} (h : ∀ i < 64, block i = block' i) :
    md5Transform state block = md5Transform state block' := by
  have hgo : ∀ (f : UInt32 → UInt32 → UInt32 → UInt32) (q : State) (r : Round), (∀ t ∈ r, t.1 < 16) →
      r.foldl (fun q t => turn f q (md5Decode block t.1) t.2.1 t.2.2) q =
        r.foldl (fun q t => turn f q (md5Decode block' t.1) t.2.1 t.2.2) q := by
    intro f q r hr
    refine List.foldl_ext _ _ _ fun q t ht => ?_
    rw [md5Decode_congr h (hr t ht)]
  unfold md5Transform
  dsimp only
  rw [hgo F _ round1 (by decide), hgo G _ round2 (by decide), hgo H _ round3 (by decide),
    hgo I _ round4 (by decide)]

theorem md5Transform_eq (state : State) {block : ℕ → UInt8} {l : List UInt8} (h : slice block 0 64 = l) :
    md5Transform state block = md5Block state l := by
  refine md5Transform_congr state fun i hi => ?_
  rw [← h, cells, List.getD_eq_getElem?_getD, getElem?_slice, if_pos hi, Nat.zero_add]
  rfl

/-- The blocks that are taken from the message itself. -/
theorem foldl_blocks (state : State) (input : List UInt8) (off : ℕ) :
    (List.range ((input.length - off) / 64)).foldl
      (fun state j => md5Transform state (cells (input.drop (off + 64 * j)))) state =
    absorb md5Block 64 state (input.drop off) := by
  unfold absorb
  rw [List.length_drop]
  refine List.foldl_ext _ _ _ fun state j hj => md5Transform_eq state ?_
  have hj := List.mem_range.mp hj
  rw [List.drop_drop]
  refine slice_cells ?_
  rw [List.length_drop]
  omega

/-! ### The context -/

/-- The context has taken the message `m`. -/
structure Taken (context : MD5_CTX) (m : List UInt8) : Prop where
  holds : Holds md5Block 64 md5Init.state m context.state (slice context.buffer 0 (m.length % 64))
  count : context.count.1.toNat + 2 ^ 32 * context.count.2.toNat = 8 * m.length % 2 ^ 64

theorem taken_init : Taken md5Init [] where
  holds := holds_nil (by decide)
  count := by decide

theorem Taken.index {context : MD5_CTX} {m : List UInt8} (h : Taken context m) :
    context.index = m.length % 64 := by
  have hcount := h.count
  have hlt := context.count.1.toNat_lt
  have hc : context.count.1.toNat = 8 * m.length % 2 ^ 32 := by omega
  have hand : (context.count.1 >>> 3).toNat = context.count.1.toNat / 8 := by
    rw [UInt32.toNat_shiftRight, show (3 : UInt32).toNat % 32 = 3 by decide, Nat.shiftRight_eq_div_pow]
  rw [MD5_CTX.index, UInt32.toNat_and, hand, show (0x3F : UInt32).toNat = 2 ^ 6 - 1 by decide,
    Nat.and_two_pow_sub_one_eq_mod, hc]
  omega

/-- The number of the bits, in two words. -/
theorem count_add {c : UInt32 × UInt32} {n len : ℕ} (hlen : len < 2 ^ 32)
    (hc : c.1.toNat + 2 ^ 32 * c.2.toNat = 8 * n % 2 ^ 64) :
    (c.1 + UInt32.ofNat len <<< 3).toNat + 2 ^ 32 *
      ((if c.1 + UInt32.ofNat len <<< 3 < UInt32.ofNat len <<< 3 then c.2 + 1 else c.2) +
        UInt32.ofNat len >>> 29).toNat = 8 * (n + len) % 2 ^ 64 := by
  have h0 := c.1.toNat_lt
  have h1 := c.2.toNat_lt
  have hof : (UInt32.ofNat len).toNat = len := by
    rw [UInt32.toNat_ofNat']
    exact Nat.mod_eq_of_lt hlen
  have hl : (UInt32.ofNat len <<< 3).toNat = 8 * len % 2 ^ 32 := by
    rw [UInt32.toNat_shiftLeft, hof, show (3 : UInt32).toNat % 32 = 3 by decide, Nat.shiftLeft_eq]
    omega
  have hr : (UInt32.ofNat len >>> 29).toNat = 8 * len / 2 ^ 32 := by
    rw [UInt32.toNat_shiftRight, hof, show (29 : UInt32).toNat % 32 = 29 by decide,
      Nat.shiftRight_eq_div_pow]
    omega
  have hone : (1 : UInt32).toNat = 1 := by decide
  split_ifs with hcarry
  · rw [UInt32.lt_iff_toNat_lt, UInt32.toNat_add, hl] at hcarry
    rw [UInt32.toNat_add, UInt32.toNat_add, UInt32.toNat_add, hl, hr, hone]
    omega
  · rw [UInt32.lt_iff_toNat_lt, UInt32.toNat_add, hl] at hcarry
    rw [UInt32.toNat_add, UInt32.toNat_add, hl, hr]
    omega

variable {context : MD5_CTX} {m : List UInt8}

/-- **A part is taken behind the message so far.** -/
theorem Taken.update (h : Taken context m) {input : List UInt8} (hlen : input.length < 2 ^ 32) :
    Taken (md5Update context input) (m ++ input) := by
  have hindex := h.index
  have hcount := count_add hlen h.count
  have hmod := Nat.mod_lt m.length (show 0 < 64 by decide)
  have happ := h.holds.append (by decide) input
  have hbuf := h.holds.length
  unfold md5Update
  dsimp only
  rw [hindex]
  by_cases hpart : 64 - m.length % 64 ≤ input.length
  · rw [if_pos hpart]
    have hblock : slice (store context.buffer (m.length % 64) (input.take (64 - m.length % 64))) 0 64 =
        slice context.buffer 0 (m.length % 64) ++ input.take (64 - m.length % 64) := by
      have htake : (input.take (64 - m.length % 64)).length = 64 - m.length % 64 := by
        rw [List.length_take]
        omega
      have hslice := slice_store_append context.buffer 0 (m.length % 64)
        (input.take (64 - m.length % 64))
      rw [htake, Nat.zero_add, Nat.add_sub_of_le hmod.le] at hslice
      exact hslice
    have hsplit : slice context.buffer 0 (m.length % 64) ++ input =
        (slice context.buffer 0 (m.length % 64) ++ input.take (64 - m.length % 64)) ++
          input.drop (64 - m.length % 64) := by
      rw [List.append_assoc, List.take_append_drop]
    have hblen : (slice context.buffer 0 (m.length % 64) ++
        input.take (64 - m.length % 64)).length = 64 := by
      rw [← hblock, length_slice]
    refine ⟨⟨?_, ?_⟩, ?_⟩
    · dsimp only
      rw [foldl_blocks, md5Transform_eq _ hblock, ← happ.state, hsplit, absorb_cons (by decide) hblen]
    · dsimp only
      rw [← happ.waits, hsplit, rest_append_of_length (n := 1) (by decide) hblen, rest, List.length_drop,
        List.drop_drop]
      have hrest := slice_store_same (store context.buffer (m.length % 64)
        (input.take (64 - m.length % 64))) 0
        (input.drop (64 - m.length % 64 + 64 * ((input.length - (64 - m.length % 64)) / 64)))
      rw [List.length_drop] at hrest
      rw [List.length_append]
      have hsize : (m.length + input.length) % 64 =
          input.length - (64 - m.length % 64 + 64 * ((input.length - (64 - m.length % 64)) / 64)) := by
        omega
      rw [hsize]
      exact hrest
    · dsimp only
      rw [List.length_append]
      exact hcount
  · rw [if_neg hpart]
    have hall : (slice context.buffer 0 (m.length % 64) ++ input).length < 64 := by
      rw [List.length_append, hbuf]
      omega
    refine ⟨⟨?_, ?_⟩, ?_⟩
    · dsimp only
      rw [← happ.state, absorb_of_lt hall]
    · dsimp only
      rw [← happ.waits, rest_of_lt hall, List.length_append]
      have hslice := slice_store_append context.buffer 0 (m.length % 64) input
      rw [Nat.zero_add] at hslice
      have hsize : (m.length + input.length) % 64 = m.length % 64 + input.length := by omega
      rw [hsize]
      exact hslice
    · dsimp only
      rw [List.length_append]
      exact hcount

theorem Taken.foldl (h : Taken context m) {chunks : List (List UInt8)}
    (hlen : ∀ c ∈ chunks, c.length < 2 ^ 32) :
    Taken (chunks.foldl md5Update context) (m ++ chunks.flatten) := by
  induction chunks generalizing context m with
  | nil => rwa [List.flatten_nil, List.append_nil]
  | cons c chunks ih =>
    rw [List.flatten_cons, ← List.append_assoc]
    exact ih (h.update (hlen c List.mem_cons_self)) fun c' hc' => hlen c' (List.mem_cons_of_mem _ hc')

/-! ### The end -/

theorem length_md5Size (n : ℕ) : (md5Size n).length = 8 := length_leBytes ..

theorem padding_eq (n : ℕ) : PADDING.take (if n % 64 < 56 then 56 - n % 64 else 120 - n % 64) =
    0x80 :: List.replicate (zeros 64 8 n) 0 := by
  have hmod := Nat.mod_lt n (show 0 < 64 by decide)
  have hz : zeros 64 8 n < 64 := Nat.mod_lt _ (by decide)
  have hlen : (if n % 64 < 56 then 56 - n % 64 else 120 - n % 64) = zeros 64 8 n + 1 := by
    unfold zeros
    split_ifs <;> omega
  rw [hlen, PADDING, List.take_succ_cons, List.take_replicate, Nat.min_eq_left (by omega)]

theorem Taken.bits (h : Taken context m) : md5Encode [context.count.1, context.count.2] = md5Size m.length := by
  have hlt := context.count.1.toNat_lt
  have hpow : (256 : ℕ) ^ 8 = 2 ^ 64 := by decide
  have hcount : context.count.1.toNat + 2 ^ 32 * context.count.2.toNat = 8 * m.length % 256 ^ 8 := by
    rw [hpow]
    exact h.count
  rw [md5Size, ← leBytes_mod, ← hcount, leBytes_add 4 4]
  have hdiv : (context.count.1.toNat + 2 ^ 32 * context.count.2.toNat) / 256 ^ 4 = context.count.2.toNat := by
    have h4 : (256 : ℕ) ^ 4 = 2 ^ 32 := by decide
    rw [h4]
    omega
  have hmod : leBytes 4 (context.count.1.toNat + 2 ^ 32 * context.count.2.toNat) =
      leBytes 4 context.count.1.toNat := by
    rw [← leBytes_mod]
    congr 1
    have h4 : (256 : ℕ) ^ 4 = 2 ^ 32 := by decide
    rw [h4]
    omega
  rw [hdiv, hmod]
  simp [md5Encode]

/-- **`MD5Final` gives the digest of what has been taken.** -/
theorem Taken.final (h : Taken context m) : md5Final context = digest m := by
  have hpad := padding_eq m.length
  have hlen : ((0x80 : UInt8) :: List.replicate (zeros 64 8 m.length) 0).length < 2 ^ 32 := by
    have hz : zeros 64 8 m.length < 64 := Nat.mod_lt _ (by decide)
    rw [List.length_cons, List.length_replicate]
    omega
  have htaken := (h.update hlen).update
    (show (md5Size m.length).length < 2 ^ 32 by rw [length_md5Size]; decide)
  have hpadded : m ++ ((0x80 : UInt8) :: List.replicate (zeros 64 8 m.length) 0) ++ md5Size m.length =
      padded 64 0x80 0 md5Size m := by
    rw [padded, length_md5Size]
  rw [hpadded] at htaken
  unfold md5Final digest
  dsimp only
  rw [h.index, hpad, h.bits, htaken.holds.state]

end ChatShow.Antlib.Md5
