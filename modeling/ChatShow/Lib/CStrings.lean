import Mathlib.Algebra.Group.Int.Defs
import Mathlib.Data.List.Basic
import Mathlib.Data.List.TakeWhile
import Mathlib.Tactic.Common

/-! # Strings in buffers

A buffer is a list of bytes. A string is what a buffer has up to its first NUL; a buffer without a NUL
is read past its end, which gives `none`. `strncpy` and `memcpy` copy into a buffer of a size that is
zero before, and `atol` reads a number. -/

namespace ChatShow.Lib.CStrings

/-- The string at the front of a buffer. -/
def cstr : List UInt8 → Option (List UInt8)
  | [] => none
  | b :: l => if b = 0 then some [] else (cstr l).map (b :: ·)

/-- `strncpy(buf, src, n)`: the bytes after the string are zero. -/
def strncpy (n : ℕ) (src : List UInt8) : List UInt8 :=
  src.take n ++ List.replicate (n - src.length) 0

/-- `memcpy` to the front of a buffer of zeros: it must not write past its end. -/
def memcpy (size : ℕ) (src : List UInt8) : Option (List UInt8) :=
  if src.length ≤ size then some (src ++ List.replicate (size - src.length) 0) else none

variable {s : List UInt8}

theorem cstr_append (hs : 0 ∉ s) (l : List UInt8) : cstr (s ++ l) = (cstr l).map (s ++ ·) := by
  induction s with
  | nil =>
    rw [List.nil_append]
    exact (Option.map_id' (x := cstr l)).symm
  | cons b s ih =>
    rw [List.mem_cons, not_or] at hs
    rw [List.cons_append, cstr, if_neg (Ne.symm hs.1), ih hs.2, Option.map_map]
    rfl

theorem cstr_zeros {k : ℕ} (hk : 0 < k) (l : List UInt8) :
    cstr (List.replicate k 0 ++ l) = some [] := by
  obtain ⟨k, rfl⟩ := Nat.exists_eq_succ_of_ne_zero (Nat.ne_of_gt hk)
  rw [List.replicate_succ, List.cons_append, cstr, if_pos rfl]

/-- A string that ends in its buffer. -/
theorem cstr_of_lt (hs : 0 ∉ s) {n : ℕ} (h : s.length < n) (l : List UInt8) :
    cstr (s ++ List.replicate (n - s.length) 0 ++ l) = some s := by
  rw [List.append_assoc, cstr_append hs, cstr_zeros (Nat.sub_pos_of_lt h), Option.map_some,
    List.append_nil]

theorem cstr_none (hs : 0 ∉ s) : cstr s = none := by
  have h := cstr_append hs []
  rw [List.append_nil] at h
  exact h

/-- A buffer with a NUL has a string, whatever is behind it. -/
theorem cstr_of_mem {b : List UInt8} (hb : 0 ∈ b) (l : List UInt8) :
    ∃ v, cstr b = some v ∧ cstr (b ++ l) = some v := by
  induction b with
  | nil => cases hb
  | cons c b ih =>
    rw [List.cons_append, cstr, cstr]
    by_cases hc : c = 0
    · rw [if_pos hc, if_pos hc]
      exact ⟨[], rfl, rfl⟩
    · obtain ⟨v, hv, hv'⟩ := ih ((List.mem_cons.mp hb).resolve_left (Ne.symm hc))
      rw [if_neg hc, if_neg hc, hv, hv']
      exact ⟨c :: v, rfl, rfl⟩

/-- A string is copied with its NUL where the buffer is longer. -/
theorem cstr_strncpy_of_lt (hs : 0 ∉ s) {n : ℕ} (h : s.length < n) (l : List UInt8) :
    cstr (strncpy n s ++ l) = some s := by
  unfold strncpy
  rw [List.take_of_length_le (Nat.le_of_lt h)]
  exact cstr_of_lt hs h l

/-- Where the buffer is not longer it has no NUL. -/
theorem cstr_strncpy (hs : 0 ∉ s) (n : ℕ) :
    cstr (strncpy n s) = if s.length < n then some s else none := by
  split_ifs with h
  · have := cstr_strncpy_of_lt hs h []
    rwa [List.append_nil] at this
  · unfold strncpy
    rw [Nat.sub_eq_zero_of_le (Nat.le_of_not_gt h), List.replicate_zero, List.append_nil]
    exact cstr_none fun hm => hs (List.mem_of_mem_take hm)

theorem cstr_memcpy (hs : 0 ∉ s) (size : ℕ) :
    (memcpy size s).bind cstr = if s.length < size then some s else none := by
  unfold memcpy
  split_ifs with hle hlt hlt
  · have := cstr_of_lt hs hlt []
    rwa [List.append_nil] at this
  · have hsub : size - s.length = 0 := Nat.sub_eq_zero_of_le (Nat.le_of_not_gt hlt)
    change cstr _ = none
    rw [hsub, List.replicate_zero, List.append_nil]
    exact cstr_none hs
  · exact absurd (Nat.le_of_lt hlt) hle
  · rfl

/-- A string that has been copied is in front of what was there. -/
theorem take_memcpy {size : ℕ} {buf : List UInt8} (h : memcpy size s = some buf) :
    buf.take s.length = s := by
  unfold memcpy at h
  split_ifs at h
  cases h
  rw [List.take_left]

/-! ### Numbers -/

def isspace (c : UInt8) : Bool := c = 32 ∨ (9 ≤ c ∧ c ≤ 13)

def isdigit (c : UInt8) : Bool := 48 ≤ c ∧ c ≤ 57

/-- The number whose digits are those of `n` and the ones at the front of the buffer. -/
def digits : List UInt8 → ℕ → ℕ
  | [], n => n
  | c :: l, n => if isdigit c then digits l (10 * n + (c.toNat - 48)) else n

/-- `atol`: spaces, a sign, and digits. A number that a `long` does not hold is the nearest one. -/
def atol (l : List UInt8) : ℤ :=
  let l := l.dropWhile isspace
  if l.head? = some 45 then max (-(digits l.tail 0 : ℤ)) (-2 ^ 63)
  else if l.head? = some 43 then min (digits l.tail 0) (2 ^ 63 - 1)
  else min (digits l 0) (2 ^ 63 - 1)

/-- A number ends at a byte that is no digit. -/
theorem digits_append {l : List UInt8} (h : ∃ c ∈ l, isdigit c = false) (x : List UInt8) (n : ℕ) :
    digits (l ++ x) n = digits l n := by
  induction l generalizing n with
  | nil => exact absurd h (by simp)
  | cons b l ih =>
    rw [List.cons_append, digits, digits]
    split_ifs with hb
    · obtain ⟨c, hc, hd⟩ := h
      rcases List.mem_cons.mp hc with rfl | hc
      · exact absurd hb (by rw [hd]; decide)
      · exact ih ⟨c, hc, hd⟩ _
    · rfl

/-- A line that has something other than spaces has all that `atol` reads. -/
theorem atol_append {l : List UInt8} (h : ∃ c ∈ l, isspace c = false) (x : List UInt8) :
    atol (l ++ [10] ++ x) = atol (l ++ [10]) := by
  have hne : l.dropWhile isspace ≠ [] := by
    obtain ⟨c, hc, hs⟩ := h
    intro he
    have hall := List.dropWhile_eq_nil_iff.mp he c hc
    rw [hs] at hall
    cases hall
  obtain ⟨b, t, ht⟩ := List.exists_cons_of_ne_nil hne
  have hdrop (y : List UInt8) : (l ++ y).dropWhile isspace = b :: (t ++ y) := by
    rw [List.dropWhile_append, ht]
    rfl
  have hend (s : List UInt8) : digits (s ++ ([10] ++ x)) 0 = digits (s ++ [10]) 0 := by
    rw [← List.append_assoc]
    exact digits_append ⟨10, by simp, by decide⟩ x 0
  have h1 := hend t
  have h2 : digits (b :: (t ++ ([10] ++ x))) 0 = digits (b :: (t ++ [10])) 0 := hend (b :: t)
  unfold atol
  rw [List.append_assoc, hdrop, hdrop]
  simp only [List.head?_cons, List.tail_cons]
  rw [h1, h2]
  rfl

end ChatShow.Lib.CStrings
