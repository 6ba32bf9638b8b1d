import Mathlib.Data.List.Basic
import Mathlib.Tactic.Ring

/-! # Cells of memory

A block of memory is a function from the offset of a cell to its content. `slice m off n` reads `n`
cells from `off` on, `store m off l` writes the list `l` there, and `shift m off` is the block as a
pointer `off` cells into it sees it. The lemmas say what a read gives after a write: the written
list where the two meet, the old cells where they do not. -/

namespace ChatShow.Lib.Cells

variable {α : Type*}

/-- The block that begins with the list `l`. -/
def cells [Inhabited α] (l : List α) : ℕ → α := fun i => l.getD i default

/-- The `n` cells from `off` on. -/
def slice (m : ℕ → α) (off n : ℕ) : List α := (List.range n).map fun i => m (off + i)

/-- The block with the list `l` written from `off` on. -/
def store (m : ℕ → α) (off : ℕ) (l : List α) : ℕ → α :=
  fun i => if off ≤ i then (l[i - off]?).getD (m i) else m i

/-- The block as seen from the cell `off`. -/
def shift (m : ℕ → α) (off : ℕ) : ℕ → α := fun i => m (off + i)

@[simp] theorem length_slice (m : ℕ → α) (off n : ℕ) : (slice m off n).length = n := by
  simp [slice]

@[simp] theorem slice_zero (m : ℕ → α) (off : ℕ) : slice m off 0 = [] := rfl

theorem getElem?_slice (m : ℕ → α) (off n i : ℕ) :
    (slice m off n)[i]? = if i < n then some (m (off + i)) else none := by
  unfold slice
  rw [List.getElem?_map]
  split_ifs with h
  · rw [List.getElem?_range h]; rfl
  · rw [List.getElem?_eq_none (by simpa using h)]; rfl

@[simp] theorem slice_shift (m : ℕ → α) (off off' n : ℕ) :
    slice (shift m off) off' n = slice m (off + off') n := by
  simp only [slice, shift, Nat.add_assoc]

theorem slice_add (m : ℕ → α) (off a b : ℕ) :
    slice m off (a + b) = slice m off a ++ slice m (off + a) b := by
  simp only [slice, List.range_add, List.map_append, List.map_map, Function.comp_def,
    Nat.add_assoc]

theorem slice_succ (m : ℕ → α) (off n : ℕ) :
    slice m off (n + 1) = m off :: slice m (off + 1) n := by
  rw [Nat.add_comm n 1, slice_add]
  rfl

theorem slice_congr {m m' : ℕ → α} {off n : ℕ} (h : ∀ i, off ≤ i → i < off + n → m i = m' i) :
    slice m off n = slice m' off n := by
  refine List.map_congr_left fun i hi => h _ (Nat.le_add_right _ _) ?_
  have := List.mem_range.mp hi
  omega

/-- Cells that hold two lists one behind the other. -/
theorem slice_append_eq {m : ℕ → α} {off : ℕ} {l l' : List α} :
    slice m off (l ++ l').length = l ++ l' ↔
      slice m off l.length = l ∧ slice m (off + l.length) l'.length = l' := by
  rw [List.length_append, slice_add]
  refine ⟨fun h => List.append_inj h (length_slice _ _ _), fun h => ?_⟩
  rw [h.1, h.2]

theorem slice_cons_eq {m : ℕ → α} {off : ℕ} {a : α} {l : List α} :
    slice m off (a :: l).length = a :: l ↔ m off = a ∧ slice m (off + 1) l.length = l := by
  rw [List.length_cons, slice_succ, List.cons_eq_cons]

theorem take_slice (m : ℕ → α) (off n k : ℕ) : (slice m off n).take k = slice m off (min k n) := by
  simp only [slice, ← List.map_take, List.take_range]

theorem drop_slice (m : ℕ → α) (off n k : ℕ) :
    (slice m off n).drop k = slice m (off + k) (n - k) := by
  rcases Nat.le_total k n with h | h
  · conv_lhs => rw [show n = k + (n - k) by omega, slice_add]
    rw [List.drop_append_of_le_length (by simp), List.drop_of_length_le (by simp), List.nil_append]
  · rw [List.drop_of_length_le (by simpa using h), show n - k = 0 by omega, slice_zero]

theorem slice_cells [Inhabited α] {l : List α} {off n : ℕ} (h : off + n ≤ l.length) :
    slice (cells l) off n = (l.drop off).take n := by
  refine List.ext_getElem? fun i => ?_
  rw [getElem?_slice, List.getElem?_take]
  split_ifs with hi
  · rw [List.getElem?_drop, cells, List.getD_eq_getElem?_getD,
      List.getElem?_eq_getElem (by omega : off + i < l.length), Option.getD_some]
  · rfl

/-! ### Reads after writes -/

theorem store_of_lt {m : ℕ → α} {off i : ℕ} {l : List α} (h : i < off) : store m off l i = m i := by
  unfold store; rw [if_neg (by omega)]

theorem store_of_ge {m : ℕ → α} {off i : ℕ} {l : List α} (h : off + l.length ≤ i) :
    store m off l i = m i := by
  unfold store
  rw [if_pos (by omega), List.getElem?_eq_none (by omega)]
  rfl

theorem store_of_disjoint {m : ℕ → α} {off i : ℕ} {l : List α}
    (h : i < off ∨ off + l.length ≤ i) : store m off l i = m i := by
  rcases h with h | h
  · exact store_of_lt h
  · exact store_of_ge h

theorem slice_store_same (m : ℕ → α) (off : ℕ) (l : List α) :
    slice (store m off l) off l.length = l := by
  refine List.ext_getElem? fun i => ?_
  rw [getElem?_slice]
  split_ifs with h
  · simp [store, h]
  · rw [List.getElem?_eq_none (by omega)]

theorem slice_store_of_disjoint {m : ℕ → α} {off off' n : ℕ} {l : List α}
    (h : off' + n ≤ off ∨ off + l.length ≤ off') :
    slice (store m off l) off' n = slice m off' n :=
  slice_congr fun i h1 h2 => store_of_disjoint (by omega)

/-- A write right behind a range of cells extends what is read there. -/
theorem slice_store_append (m : ℕ → α) (off n : ℕ) (l : List α) :
    slice (store m (off + n) l) off (n + l.length) = slice m off n ++ l := by
  rw [slice_add, slice_store_of_disjoint (Or.inl le_rfl), slice_store_same]

/-- Two writes one behind the other are one write of both lists. -/
theorem store_store_append (m : ℕ → α) (off : ℕ) (l l' : List α) :
    store (store m off l) (off + l.length) l' = store m off (l ++ l') := by
  funext i
  unfold store
  by_cases h1 : off ≤ i
  · by_cases h2 : off + l.length ≤ i
    · rw [if_pos h2, if_pos h1, if_pos h1, List.getElem?_append_right (by omega),
        List.getElem?_eq_none (l := l) (by omega), Option.getD_none]
      congr 2
      omega
    · rw [if_neg h2, if_pos h1, if_pos h1, List.getElem?_append_left (by omega)]
  · rw [if_neg (by omega), if_neg h1, if_neg h1]

/-! ### Writes of one cell -/

theorem store_cell_self (m : ℕ → α) (off : ℕ) (a : α) : store m off [a] off = a := by
  unfold store
  rw [if_pos le_rfl, Nat.sub_self]
  rfl

theorem store_cell_of_ne {m : ℕ → α} {off i : ℕ} {a : α} (h : i ≠ off) : store m off [a] i = m i := by
  refine store_of_disjoint ?_
  rw [List.length_singleton]
  omega

/-- A cell that has its content already. -/
theorem store_cell_same (m : ℕ → α) (off : ℕ) : store m off [m off] = m := by
  funext i
  by_cases hi : i = off
  · rw [hi, store_cell_self]
  · exact store_cell_of_ne hi

theorem slice_store_cell (m : ℕ → α) (off n : ℕ) (a : α) :
    slice (store m (off + n) [a]) off (n + 1) = slice m off n ++ [a] :=
  slice_store_append m off n [a]

theorem slice_store_cell_of_disjoint {m : ℕ → α} {off off' n : ℕ} {a : α}
    (h : off' + n ≤ off ∨ off < off') : slice (store m off [a]) off' n = slice m off' n :=
  slice_store_of_disjoint h

end ChatShow.Lib.Cells
