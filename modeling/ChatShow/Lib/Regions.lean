import ChatShow.Lib.Cells

/-! # Regions of memory

A region is a range of cells that a piece of code may touch. Reads and writes of a region are those of the
memory where they stay inside it, and there is none where they do not: a computation that is written with
them has a result only where all it touches is in its regions. -/

namespace ChatShow.Lib.Regions

open ChatShow.Lib.Cells

variable {α : Type*}

structure Region where
  base : ℕ
  size : ℕ

namespace Region

/-- The `n` cells from `i` on are in the region. -/
def Has (r : Region) (i n : ℕ) : Prop := r.base ≤ i ∧ i + n ≤ r.base + r.size

instance (r : Region) (i n : ℕ) : Decidable (r.Has i n) := inferInstanceAs (Decidable (_ ∧ _))

def read (r : Region) (m : ℕ → α) (i n : ℕ) : Option (List α) :=
  if r.Has i n then some (slice m i n) else none

def write (r : Region) (m : ℕ → α) (i : ℕ) (l : List α) : Option (ℕ → α) :=
  if r.Has i l.length then some (store m i l) else none

/-- A single cell. -/
def get (r : Region) (m : ℕ → α) (i : ℕ) : Option α := if r.Has i 1 then some (m i) else none

def put (r : Region) (m : ℕ → α) (i : ℕ) (a : α) : Option (ℕ → α) := r.write m i [a]

/-- Lists that are written one behind the other from `i` on, and where they end. -/
def writeAll (r : Region) : (ℕ → α) → ℕ → List (List α) → Option ((ℕ → α) × ℕ)
  | m, i, [] => some (m, i)
  | m, i, l :: ls => (r.write m i l).bind fun m => r.writeAll m (i + l.length) ls

variable {r : Region} {m : ℕ → α} {i n : ℕ} {l : List α} {a : α}

theorem has_zero_iff {size : ℕ} : Region.Has ⟨0, size⟩ i n ↔ i + n ≤ size := by
  unfold Has
  rw [Nat.zero_add]
  exact and_iff_right (Nat.zero_le i)

/-- A cell of the region by its distance from the first. -/
theorem has_cell {base size : ℕ} (h : i < size) : Region.Has ⟨base, size⟩ (base + i) 1 := by
  unfold Has
  dsimp only
  omega

theorem read_of_has (h : r.Has i n) : r.read m i n = some (slice m i n) := if_pos h

theorem write_of_has (h : r.Has i l.length) : r.write m i l = some (store m i l) := if_pos h

theorem get_of_has (h : r.Has i 1) : r.get m i = some (m i) := if_pos h

theorem put_of_has (h : r.Has i 1) : r.put m i a = some (store m i [a]) := if_pos h

theorem read_none (h : ¬ r.Has i n) : r.read m i n = none := if_neg h

theorem write_none (h : ¬ r.Has i l.length) : r.write m i l = none := if_neg h

theorem put_none (h : ¬ r.Has i 1) : r.put m i a = none := if_neg h

/-- Lists that are all in the region are one list there. -/
theorem writeAll_of_has {ls : List (List α)} (h : r.Has i ls.flatten.length) :
    r.writeAll m i ls = some (store m i ls.flatten, i + ls.flatten.length) := by
  induction ls generalizing m i with
  | nil =>
    have hsame : store m i [] = m := funext fun j => by
      unfold store
      split_ifs <;> rfl
    rw [List.flatten_nil, hsame]
    rfl
  | cons l ls ih =>
    obtain ⟨hlow, hhigh⟩ := h
    rw [List.flatten_cons, List.length_append] at hhigh ⊢
    have hrest : r.Has (i + l.length) ls.flatten.length := ⟨by omega, by omega⟩
    rw [writeAll, write_of_has ⟨hlow, by omega⟩, Option.bind_some, ih hrest, store_store_append,
      Nat.add_assoc]

theorem writeAll_none {ls : List (List α)} (hi : r.Has i 0) (h : ¬ r.Has i ls.flatten.length) :
    r.writeAll m i ls = none := by
  induction ls generalizing m i with
  | nil => exact absurd hi h
  | cons l ls ih =>
    rw [writeAll]
    by_cases hl : r.Has i l.length
    · rw [write_of_has hl, Option.bind_some]
      rw [List.flatten_cons, List.length_append] at h
      unfold Has at h hl hi
      refine ih ⟨by omega, by omega⟩ fun hrest => h ?_
      unfold Has at hrest
      omega
    · rw [write_none hl]
      rfl

end Region

end ChatShow.Lib.Regions
