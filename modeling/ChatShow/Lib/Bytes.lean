import Mathlib.Algebra.Order.Ring.Nat
import Mathlib.Tactic.Ring

/-! # Numbers as bytes

A number in a fixed number of bytes, lowest first. `ofLe` reads what `leBytes` writes as long as the
number fits, and `bswap` reverses the bytes, which is what the network order functions do on a
little-endian machine. -/

namespace ChatShow.Lib.Bytes

/-- The number `x` in `n` bytes, lowest first. -/
def leBytes : ℕ → ℕ → List UInt8
  | 0, _ => []
  | n + 1, x => UInt8.ofNat x :: leBytes n (x / 256)

/-- The number that a list of bytes stands for, lowest byte first. -/
def ofLe : List UInt8 → ℕ
  | [] => 0
  | b :: bs => b.toNat + 256 * ofLe bs

@[simp] theorem length_leBytes (n x : ℕ) : (leBytes n x).length = n := by
  induction n generalizing x with
  | zero => rfl
  | succ n ih => simp [leBytes, ih]

theorem ofLe_leBytes {n x : ℕ} (h : x < 256 ^ n) : ofLe (leBytes n x) = x := by
  induction n generalizing x with
  | zero => simp only [pow_zero, Nat.lt_one_iff] at h; rw [h]; rfl
  | succ n ih =>
    have hx : x / 256 < 256 ^ n := by
      rw [pow_succ] at h
      exact Nat.div_lt_of_lt_mul (by omega)
    have hb : (UInt8.ofNat x).toNat = x % 256 := UInt8.toNat_ofNat'
    rw [leBytes, ofLe, ih hx, hb]
    omega

theorem ofLe_lt (l : List UInt8) : ofLe l < 256 ^ l.length := by
  induction l with
  | nil => simp [ofLe]
  | cons b l ih =>
    have hb : b.toNat < 256 := b.toNat_lt
    rw [ofLe, List.length_cons, pow_succ]
    omega

theorem leBytes_ofLe (l : List UInt8) : leBytes l.length (ofLe l) = l := by
  induction l with
  | nil => rfl
  | cons b l ih =>
    have hb : b.toNat < 256 := b.toNat_lt
    have hd : (b.toNat + 256 * ofLe l) / 256 = ofLe l := by omega
    have hm : UInt8.ofNat (b.toNat + 256 * ofLe l) = b := by
      apply UInt8.toNat_inj.mp
      rw [UInt8.toNat_ofNat']
      omega
    rw [List.length_cons, ofLe, leBytes, hd, hm, ih]

/-! ### The byte order of the network -/

/-- The number with its `n` bytes in the opposite order. -/
def bswap (n x : ℕ) : ℕ := ofLe (leBytes n x).reverse

theorem bswap_lt (n x : ℕ) : bswap n x < 256 ^ n := by
  have h := ofLe_lt (leBytes n x).reverse
  rwa [List.length_reverse, length_leBytes] at h

theorem leBytes_bswap (n x : ℕ) : leBytes n (bswap n x) = (leBytes n x).reverse := by
  have := leBytes_ofLe (leBytes n x).reverse
  rwa [List.length_reverse, length_leBytes] at this

theorem bswap_bswap {n x : ℕ} (h : x < 256 ^ n) : bswap n (bswap n x) = x := by
  conv_lhs => rw [bswap, leBytes_bswap, List.reverse_reverse, ofLe_leBytes h]

/-! ### Fields of a record -/

/-- The number in the `n` bytes from `off` on. -/
def field (l : List UInt8) (off n : ℕ) : ℕ := ofLe ((l.drop off).take n)

/-- The field at the front is read back. -/
theorem field_leBytes {n x : ℕ} (rest : List UInt8) (hx : x < 256 ^ n) :
    field (leBytes n x ++ rest) 0 n = x := by
  have ht : (leBytes n x ++ rest).take n = leBytes n x := by
    rw [List.take_append_of_le_length (by simp), List.take_of_length_le (by simp)]
  rw [field, List.drop_zero, ht, ofLe_leBytes hx]

/-- A field further back does not see the one at the front. -/
theorem field_skip (k y : ℕ) (l : List UInt8) {off : ℕ} (n : ℕ) (h : k ≤ off) :
    field (leBytes k y ++ l) off n = field l (off - k) n := by
  unfold field
  rw [List.drop_append, List.drop_of_length_le (by simpa using h), List.nil_append,
    length_leBytes]

theorem field_lt (l : List UInt8) (off n : ℕ) : field l off n < 256 ^ n := by
  unfold field
  exact (ofLe_lt _).trans_le (Nat.pow_le_pow_right (by decide) (List.length_take_le ..))

/-- A field with what stands behind it is what stands from it on. -/
theorem leBytes_field_append {l : List UInt8} {off n : ℕ} (h : off + n ≤ l.length) :
    leBytes n (field l off n) ++ l.drop (off + n) = l.drop off := by
  have hlen : ((l.drop off).take n).length = n := by
    rw [List.length_take, List.length_drop]
    omega
  have hle := leBytes_ofLe ((l.drop off).take n)
  rw [hlen] at hle
  rw [field, hle, ← List.drop_drop, List.take_append_drop]

end ChatShow.Lib.Bytes
