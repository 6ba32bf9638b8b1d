import Mathlib.Algebra.Order.Ring.Nat
import Mathlib.Data.List.Basic
import Mathlib.Tactic.Ring

/-! # Hashes that take their message in blocks

A state takes a message block by block, and what is behind the last whole block waits: `absorb` is the
state behind the whole blocks, and `rest` is what waits. A message that comes in parts is taken as the
whole of it is (`Holds.append`), where each part goes behind what waits of those before it.

`padded` is a message with what such a hash puts behind it: a mark, zeros, and the length in `k` cells,
so that there are whole blocks only. -/

namespace ChatShow.Lib.BlockHash

variable {σ α : Type*} (f : σ → List α → σ) (B : ℕ)

/-- The state behind the whole blocks of `l`. -/
def absorb (s : σ) (l : List α) : σ :=
  (List.range (l.length / B)).foldl (fun s j => f s ((l.drop (B * j)).take B)) s

/-- What is behind the whole blocks of `l`. -/
def rest (l : List α) : List α := l.drop (B * (l.length / B))

variable {f B} {s init : σ} {l l' m buf : List α}

theorem length_rest : (rest B l).length = l.length % B := by
  rw [rest, List.length_drop]
  have := Nat.div_add_mod l.length B
  omega

theorem rest_of_lt (h : l.length < B) : rest B l = l := by
  rw [rest, Nat.div_eq_of_lt h, Nat.mul_zero, List.drop_zero]

theorem rest_nil : rest B ([] : List α) = [] := by
  rw [rest, List.drop_nil]

theorem absorb_of_lt (h : l.length < B) : absorb f B s l = s := by
  rw [absorb, Nat.div_eq_of_lt h]
  rfl

theorem take_append_rest : l.take (B * (l.length / B)) ++ rest B l = l := List.take_append_drop ..

theorem absorb_congr {g : σ → List α → σ} (h : ∀ s b, b.length = B → f s b = g s b) (s : σ)
    (l : List α) : absorb f B s l = absorb g B s l := by
  unfold absorb
  refine List.foldl_ext _ _ _ fun s j hj => h s _ ?_
  have hj := List.mem_range.mp hj
  have hle : B * (j + 1) ≤ B * (l.length / B) := Nat.mul_le_mul_left B hj
  have hdiv := Nat.div_mul_le_self l.length B
  rw [Nat.mul_comm] at hdiv
  rw [Nat.mul_succ] at hle
  rw [List.length_take, List.length_drop]
  omega

/-- A block in front is taken first. -/
theorem absorb_cons (hB : 0 < B) (hl : l.length = B) :
    absorb f B s (l ++ l') = absorb f B (f s l) l' := by
  have hlen : (l ++ l').length / B = l'.length / B + 1 := by
    rw [List.length_append, hl, Nat.add_comm, Nat.add_div_right _ hB]
  unfold absorb
  rw [hlen, List.range_succ_eq_map, List.foldl_cons, List.foldl_map]
  have hfirst : ((l ++ l').drop (B * 0)).take B = l := by
    rw [Nat.mul_zero, List.drop_zero, List.take_append_of_le_length hl.ge, List.take_of_length_le hl.le]
  rw [hfirst]
  congr 1
  funext s j
  have hdrop : (l ++ l').drop (B * Nat.succ j) = l'.drop (B * j) := by
    rw [Nat.mul_succ, List.drop_append, hl, List.drop_of_length_le (by omega), List.nil_append]
    congr 1
    omega
  rw [hdrop]

/-- Whole blocks in front are taken first. -/
theorem absorb_append_of_length (hB : 0 < B) {n : ℕ} (hl : l.length = B * n) :
    absorb f B s (l ++ l') = absorb f B (absorb f B s l) l' := by
  induction n generalizing s l with
  | zero =>
    rw [List.length_eq_zero_iff.mp hl, List.nil_append, absorb_of_lt (l := []) hB]
  | succ n ih =>
    have hsplit : l = l.take B ++ l.drop B := (List.take_append_drop ..).symm
    rw [Nat.mul_succ] at hl
    have htake : (l.take B).length = B := by
      rw [List.length_take]
      omega
    have hdrop : (l.drop B).length = B * n := by
      rw [List.length_drop]
      omega
    rw [hsplit, List.append_assoc, absorb_cons hB htake, absorb_cons hB htake, ih hdrop]

theorem length_take_whole : (l.take (B * (l.length / B))).length = B * (l.length / B) := by
  have hdiv := Nat.mul_div_le l.length B
  rw [List.length_take]
  omega

theorem absorb_take (hB : 0 < B) : absorb f B s (l.take (B * (l.length / B))) = absorb f B s l := by
  conv_rhs => rw [← take_append_rest (B := B) (l := l)]
  rw [absorb_append_of_length hB length_take_whole]
  refine (absorb_of_lt ?_).symm
  rw [length_rest]
  exact Nat.mod_lt _ hB

theorem absorb_append (hB : 0 < B) :
    absorb f B s (l ++ l') = absorb f B (absorb f B s l) (rest B l ++ l') := by
  conv_lhs => rw [← take_append_rest (B := B) (l := l)]
  rw [List.append_assoc, absorb_append_of_length hB length_take_whole, absorb_take hB]

theorem rest_append_of_length (hB : 0 < B) {n : ℕ} (hl : l.length = B * n) :
    rest B (l ++ l') = rest B l' := by
  have hlen : (l ++ l').length / B = n + l'.length / B := by
    rw [List.length_append, hl, Nat.mul_add_div hB]
  rw [rest, rest, hlen, Nat.mul_add, List.drop_append, hl, List.drop_of_length_le (by omega),
    List.nil_append, Nat.add_sub_cancel_left]

theorem rest_append (hB : 0 < B) : rest B (l ++ l') = rest B (rest B l ++ l') := by
  conv_lhs => rw [← take_append_rest (B := B) (l := l)]
  rw [List.append_assoc, rest_append_of_length hB length_take_whole]

/-! ### Parts -/

/-- The state `s` has taken the whole blocks of `m`, and `buf` waits. -/
structure Holds (f : σ → List α → σ) (B : ℕ) (init : σ) (m : List α) (s : σ) (buf : List α) : Prop where
  state : s = absorb f B init m
  waits : buf = rest B m

theorem holds_nil (hB : 0 < B) : Holds f B init [] init [] :=
  ⟨(absorb_of_lt hB).symm, rest_nil.symm⟩

theorem Holds.length (h : Holds f B init m s buf) : buf.length = m.length % B := by
  rw [h.waits, length_rest]

/-- **A part that is taken behind what waits is taken as the whole message is.** -/
theorem Holds.append (h : Holds f B init m s buf) (hB : 0 < B) (l : List α) :
    Holds f B init (m ++ l) (absorb f B s (buf ++ l)) (rest B (buf ++ l)) := by
  refine ⟨?_, ?_⟩
  · rw [h.state, h.waits, ← absorb_append hB]
  · rw [h.waits, ← rest_append hB]

/-- The state behind a message of whole blocks. -/
theorem Holds.state_of_whole (h : Holds f B init m s buf) (hB : 0 < B) (hm : B ∣ (m ++ l).length) :
    absorb f B s (buf ++ l) = absorb f B init (m ++ l) ∧ rest B (buf ++ l) = [] := by
  have happ := h.append hB l
  refine ⟨happ.state, List.length_eq_zero_iff.mp ?_⟩
  rw [happ.length, Nat.mod_eq_zero_of_dvd hm]

/-! ### The end of a message -/

/-- The number of the zeros behind a message of the length `n`, where the length takes `k` cells. -/
def zeros (B k n : ℕ) : ℕ := (2 * B - 1 - k - n % B) % B

/-- The message, the mark, zeros and the length. -/
def padded (B : ℕ) (mark zero : α) (size : ℕ → List α) (l : List α) : List α :=
  l ++ mark :: List.replicate (zeros B (size l.length).length l.length) zero ++ size l.length

theorem dvd_length_padded {mark zero : α} {size : ℕ → List α} (hB : 0 < B)
    (hk : (size l.length).length < B) : B ∣ (padded B mark zero size l).length := by
  have hmod := Nat.mod_lt l.length hB
  have hdiv := Nat.div_add_mod l.length B
  have hlen : (padded B mark zero size l).length =
      l.length + 1 + zeros B (size l.length).length l.length + (size l.length).length := by
    rw [padded, List.length_append, List.length_append, List.length_cons, List.length_replicate]
    ring
  rw [hlen, zeros]
  rcases Nat.lt_or_ge (2 * B - 1 - (size l.length).length - l.length % B) B with h | h
  · rw [Nat.mod_eq_of_lt h]
    refine ⟨l.length / B + 2, ?_⟩
    rw [Nat.mul_add]
    omega
  · rw [Nat.mod_eq_sub_mod h, Nat.mod_eq_of_lt (by omega)]
    refine ⟨l.length / B + 1, ?_⟩
    rw [Nat.mul_add]
    omega

end ChatShow.Lib.BlockHash
