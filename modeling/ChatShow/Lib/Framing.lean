import Mathlib.Data.List.Basic
import Mathlib.Tactic.Common

/-! # Frames in a stream

Frames of any sizes lie one behind the other in a stream. Of a list of frames, `taken fs n` are those
that the first `n` bytes contain whole, `left fs n` are the others, and `held fs n` is how many of
the `n` bytes belong to the first of the others. A receiver that takes whole frames off the front
and keeps the rest can go on with more bytes as if it had seen them at once: the three functions
compose (`taken_add`, `left_add`, `held_add`). -/

namespace ChatShow.Lib.Framing

variable {φ : Type*} (size : φ → ℕ)

/-- The frames that the first `n` bytes contain. -/
def taken : List φ → ℕ → List φ
  | [], _ => []
  | f :: fs, n => if size f ≤ n then f :: taken fs (n - size f) else []

/-- The frames that the first `n` bytes do not contain. -/
def left : List φ → ℕ → List φ
  | [], _ => []
  | f :: fs, n => if size f ≤ n then left fs (n - size f) else f :: fs

/-- The bytes of the first frame left that are among the first `n`. -/
def held : List φ → ℕ → ℕ
  | [], n => n
  | f :: fs, n => if size f ≤ n then held fs (n - size f) else n

/-- The length of the stream. -/
def total : List φ → ℕ
  | [] => 0
  | f :: fs => size f + total fs

variable {size}

@[simp] theorem total_nil : total size [] = 0 := rfl

@[simp] theorem total_cons (f : φ) (fs : List φ) : total size (f :: fs) = size f + total size fs :=
  rfl

theorem total_append (fs gs : List φ) : total size (fs ++ gs) = total size fs + total size gs := by
  induction fs with
  | nil => rw [List.nil_append, total_nil, Nat.zero_add]
  | cons f fs ih => rw [List.cons_append, total_cons, total_cons, ih, Nat.add_assoc]

theorem taken_append_left (fs : List φ) (n : ℕ) : taken size fs n ++ left size fs n = fs := by
  induction fs generalizing n with
  | nil => rfl
  | cons f fs ih =>
    unfold taken left
    split_ifs
    · rw [List.cons_append, ih]
    · rfl

theorem total_taken_add_held (fs : List φ) (n : ℕ) :
    total size (taken size fs n) + held size fs n = n := by
  induction fs generalizing n with
  | nil => simp [taken, held]
  | cons f fs ih =>
    unfold taken held
    split_ifs with h
    · have := ih (n - size f)
      rw [total_cons]
      omega
    · simp

theorem total_left_add (fs : List φ) (n : ℕ) :
    total size (left size fs n) + n = total size fs + held size fs n := by
  have h1 := @total_taken_add_held _ size fs n
  have h2 := congrArg (total size) (@taken_append_left _ size fs n)
  rw [total_append] at h2
  omega

theorem held_le (fs : List φ) (n : ℕ) : held size fs n ≤ n := by
  have := @total_taken_add_held _ size fs n
  omega

/-- What is held is less than a frame. -/
theorem held_lt {f : φ} {fs gs : List φ} {n : ℕ} (h : left size fs n = f :: gs) :
    held size fs n < size f := by
  induction fs generalizing n with
  | nil => cases h
  | cons g fs ih =>
    unfold left at h
    unfold held
    split_ifs at h ⊢ with hc
    · exact ih h
    · cases h
      omega

theorem left_eq_nil_iff {fs : List φ} {n : ℕ} : left size fs n = [] ↔ total size fs ≤ n := by
  induction fs generalizing n with
  | nil => simp [left]
  | cons f fs ih =>
    unfold left
    rw [total_cons]
    split_ifs with h
    · rw [ih]; omega
    · simp only [false_iff]; omega

theorem held_eq_zero_of_left_nil {fs : List φ} {n : ℕ} (hn : n ≤ total size fs)
    (h : left size fs n = []) : held size fs n = 0 := by
  have h1 := @taken_append_left _ size fs n
  have h2 := @total_taken_add_held _ size fs n
  rw [h, List.append_nil] at h1
  rw [h1] at h2
  omega

/-- Fewer bytes than any frame has contain no frame. -/
theorem of_lt {fs : List φ} {n : ℕ} (h : ∀ f ∈ fs, n < size f) :
    taken size fs n = [] ∧ left size fs n = fs ∧ held size fs n = n := by
  cases fs with
  | nil => exact ⟨rfl, rfl, rfl⟩
  | cons f fs =>
    have hf := h f List.mem_cons_self
    unfold taken left held
    rw [if_neg (by omega), if_neg (by omega), if_neg (by omega)]
    exact ⟨rfl, rfl, rfl⟩

/-! ### More bytes -/

theorem taken_add (fs : List φ) (n k : ℕ) :
    taken size fs (n + k) =
      taken size fs n ++ taken size (left size fs n) (held size fs n + k) := by
  induction fs generalizing n with
  | nil => rfl
  | cons f fs ih =>
    by_cases h : size f ≤ n
    · have hk : n + k - size f = n - size f + k := by omega
      simp only [taken, left, held, if_pos h, if_pos (Nat.le_add_right_of_le h), hk, ih,
        List.cons_append]
    · simp only [left, held, if_neg h]
      rw [taken.eq_2 size n, if_neg h, List.nil_append]

theorem left_add (fs : List φ) (n k : ℕ) :
    left size fs (n + k) = left size (left size fs n) (held size fs n + k) := by
  induction fs generalizing n with
  | nil => rfl
  | cons f fs ih =>
    by_cases h : size f ≤ n
    · have hk : n + k - size f = n - size f + k := by omega
      simp only [left, held, if_pos h, if_pos (Nat.le_add_right_of_le h), hk, ih]
    · simp only [held, if_neg h]
      rw [left.eq_2 size n, if_neg h]

theorem held_add (fs : List φ) (n k : ℕ) :
    held size fs (n + k) = held size (left size fs n) (held size fs n + k) := by
  induction fs generalizing n with
  | nil => rfl
  | cons f fs ih =>
    by_cases h : size f ≤ n
    · have hk : n + k - size f = n - size f + k := by omega
      simp only [left, held, if_pos h, if_pos (Nat.le_add_right_of_le h), hk, ih]
    · simp only [left, if_neg h]
      rw [held.eq_2 size n, if_neg h]

/-- What is held contains no frame. -/
theorem held_held (fs : List φ) (n : ℕ) :
    taken size (left size fs n) (held size fs n) = [] ∧
    left size (left size fs n) (held size fs n) = left size fs n ∧
    held size (left size fs n) (held size fs n) = held size fs n := by
  have h1 := @taken_add _ size fs n 0
  have h2 := @left_add _ size fs n 0
  have h3 := @held_add _ size fs n 0
  rw [Nat.add_zero, Nat.add_zero] at h1 h2 h3
  exact ⟨List.self_eq_append_right.mp h1, h2.symm, h3.symm⟩

/-- If all bytes are held, no frame was among them. -/
theorem of_held_eq (hpos : ∀ f, 0 < size f) {fs : List φ} {n : ℕ} (h : held size fs n = n) :
    taken size fs n = [] ∧ left size fs n = fs := by
  have h1 := @taken_append_left _ size fs n
  have h2 := @total_taken_add_held _ size fs n
  have ht : taken size fs n = [] := by
    cases hc : taken size fs n with
    | nil => rfl
    | cons f gs =>
      have := hpos f
      rw [hc, total_cons] at h2
      omega
  rw [ht, List.nil_append] at h1
  exact ⟨ht, h1⟩

/-- All bytes of the stream leave nothing. -/
theorem taken_total (fs : List φ) : taken size fs (total size fs) = fs := by
  have h := @taken_append_left _ size fs (total size fs)
  rwa [left_eq_nil_iff.mpr (Nat.le_refl _), List.append_nil] at h

/-- At the end of a frame nothing is held. -/
theorem held_append_total (fs gs : List φ) :
    held size (fs ++ gs) (total size fs) = 0 := by
  induction fs with
  | nil => exact Nat.le_zero.mp (held_le gs 0)
  | cons f fs ih =>
    rw [List.cons_append, total_cons, held, if_pos (by omega), Nat.add_sub_cancel_left]
    exact ih

/-- More frames behind a stream change nothing for the bytes of the stream. -/
theorem append_of_le (hpos : ∀ f, 0 < size f) {fs : List φ} (gs : List φ) {n : ℕ}
    (hn : n ≤ total size fs) :
    taken size (fs ++ gs) n = taken size fs n ∧ left size (fs ++ gs) n = left size fs n ++ gs ∧
      held size (fs ++ gs) n = held size fs n := by
  induction fs generalizing n with
  | nil =>
    obtain rfl : n = 0 := Nat.le_zero.mp hn
    exact of_lt fun f _ => hpos f
  | cons f fs ih =>
    rw [total_cons] at hn
    unfold taken left held
    rw [List.cons_append]
    dsimp only
    split_ifs with h
    · obtain ⟨ht, hl, hh⟩ := ih (n := n - size f) (by omega)
      exact ⟨congrArg _ ht, hl, hh⟩
    · exact ⟨rfl, rfl, rfl⟩

theorem length_flatMap {α : Type*} {bytes : φ → List α} (hsize : ∀ f, (bytes f).length = size f)
    (fs : List φ) : (fs.flatMap bytes).length = total size fs := by
  induction fs with
  | nil => rfl
  | cons f fs ih => rw [List.flatMap_cons, List.length_append, ih, hsize, total_cons]

/-! ### The stream itself -/

section Stream

variable {α : Type*} {bytes : φ → List α}

/-- A window that is longer than what stands first in the stream begins with it. -/
theorem split_window {a w rest l : List α} (h : w ++ rest = a ++ l) (hle : a.length ≤ w.length) :
    ∃ v, w = a ++ v ∧ v ++ rest = l := by
  have ha : a <+: w ++ rest := by rw [h]; exact List.prefix_append _ _
  obtain ⟨v, rfl⟩ := List.prefix_of_prefix_length_le ha (List.prefix_append _ _) hle
  rw [List.append_assoc] at h
  exact ⟨v, rfl, List.append_cancel_left h⟩

/-- A window on the stream that starts at a frame: once the whole frames in it are taken off, it is
a window that starts at the first frame left, or at the `tail` behind the frames. -/
theorem drop_window {fs : List φ} {w rest tail : List α} (hsize : ∀ f, (bytes f).length = size f)
    (h : w ++ rest = fs.flatMap bytes ++ tail) :
    w.drop (w.length - held size fs w.length) ++ rest =
      (left size fs w.length).flatMap bytes ++ tail := by
  induction fs generalizing w with
  | nil =>
    rw [left, held, Nat.sub_self, List.drop_zero]
    exact h
  | cons f fs ih =>
    unfold left held
    rw [List.flatMap_cons, List.append_assoc] at h
    split_ifs with hc
    · obtain ⟨v, rfl, hv⟩ := split_window h (by rw [hsize]; exact hc)
      have hl : (bytes f ++ v).length - size f = v.length := by
        rw [List.length_append, hsize]; omega
      have hh := @held_le _ size fs v.length
      rw [hl, show (bytes f ++ v).length - held size fs v.length =
        (bytes f).length + (v.length - held size fs v.length) by
          rw [List.length_append]; omega, List.drop_append,
        List.drop_of_length_le (Nat.le_add_right _ _), Nat.add_sub_cancel_left, List.nil_append]
      exact ih hv
    · rw [Nat.sub_self, List.drop_zero, List.flatMap_cons, List.append_assoc]
      exact h

/-- What is still to come behind the first `n` bytes is what is to come of the frames left, behind
the bytes held of the first one. -/
theorem drop_flatMap (hsize : ∀ f, (bytes f).length = size f) (fs : List φ) (n : ℕ) :
    (fs.flatMap bytes).drop n = ((left size fs n).flatMap bytes).drop (held size fs n) := by
  induction fs generalizing n with
  | nil => simp [left]
  | cons f fs ih =>
    unfold left held
    split_ifs with hc
    · rw [← ih, List.flatMap_cons, List.drop_append, hsize,
        List.drop_of_length_le (by rw [hsize]; exact hc), List.nil_append]
    · rfl

end Stream

end ChatShow.Lib.Framing
