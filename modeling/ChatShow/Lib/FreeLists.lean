import ChatShow.Lib.Bytes
import ChatShow.Lib.Cells

/-! # Free lists in memory

A free list is threaded through the blocks that are free: a block begins with the address of the next
one, and the last with 0. `IsFree m p l` says that the list from the address `p` on has the blocks `l`. It
is left as it is by all that is written elsewhere (`IsFree.congr`); a block is pushed by a write into it
(`IsFree.push`). -/

namespace ChatShow.Lib.FreeLists

open ChatShow.Lib.Bytes ChatShow.Lib.Cells

/-- The bytes of a pointer. -/
def pointerSize : ℕ := 8

/-- The pointer at an address. -/
def load (m : ℕ → UInt8) (a : ℕ) : ℕ := ofLe (slice m a pointerSize)

/-- A pointer is written at an address. -/
def save (m : ℕ → UInt8) (a p : ℕ) : ℕ → UInt8 := store m a (leBytes pointerSize p)

def IsFree (m : ℕ → UInt8) : ℕ → List ℕ → Prop
  | p, [] => p = 0
  | p, b :: l => p = b ∧ b ≠ 0 ∧ IsFree m (load m b) l

variable {m m' : ℕ → UInt8} {a b p : ℕ} {l l' : List ℕ}

theorem load_save (m : ℕ → UInt8) (a : ℕ) (hp : p < 256 ^ pointerSize) : load (save m a p) a = p := by
  have h := slice_store_same m a (leBytes pointerSize p)
  rw [length_leBytes] at h
  unfold load save
  rw [h, ofLe_leBytes hp]

theorem load_congr (h : ∀ i, a ≤ i → i < a + pointerSize → m' i = m i) : load m' a = load m a :=
  congrArg ofLe (slice_congr h)

theorem save_apart {i : ℕ} (m : ℕ → UInt8) (p : ℕ) (h : i < a ∨ a + pointerSize ≤ i) :
    save m a p i = m i :=
  store_of_disjoint (by rwa [length_leBytes])

theorem IsFree.congr (h : IsFree m p l)
    (hm : ∀ b ∈ l, ∀ i, b ≤ i → i < b + pointerSize → m' i = m i) : IsFree m' p l := by
  induction l generalizing p with
  | nil => exact h
  | cons b l ih =>
    obtain ⟨rfl, hb, hl⟩ := h
    refine ⟨rfl, hb, ?_⟩
    rw [load_congr (hm p List.mem_cons_self)]
    exact ih hl fun b' hb' => hm b' (List.mem_cons_of_mem p hb')

/-- A block that is apart from those of the list is pushed. -/
theorem IsFree.push (h : IsFree m p l) (hb : b ≠ 0) (hp : p < 256 ^ pointerSize)
    (hapart : ∀ b' ∈ l, b' + pointerSize ≤ b ∨ b + pointerSize ≤ b') : IsFree (save m b p) b (b :: l) := by
  refine ⟨rfl, hb, ?_⟩
  rw [load_save m b hp]
  refine h.congr fun b' hb' i hlow hhigh => save_apart m p ?_
  have h' := hapart b' hb'
  omega

theorem IsFree.eq_nil (h : IsFree m 0 l) : l = [] := by
  cases l with
  | nil => rfl
  | cons b l => exact absurd h.1.symm h.2.1

theorem IsFree.exists_cons (h : IsFree m p l) (hp : p ≠ 0) :
    ∃ l', l = p :: l' ∧ IsFree m (load m p) l' := by
  cases l with
  | nil => exact absurd h hp
  | cons b l =>
    obtain ⟨rfl, -, hl⟩ := h
    exact ⟨l, rfl, hl⟩

/-- A free list begins where its blocks are. -/
theorem IsFree.lt {n : ℕ} (h : IsFree m p l) (hn : 0 < n) (hl : ∀ b ∈ l, b < n) : p < n := by
  cases l with
  | nil => exact h.symm ▸ hn
  | cons b l => exact h.1.symm ▸ hl b List.mem_cons_self

/-- An address has one free list. -/
theorem IsFree.unique (h : IsFree m p l) (h' : IsFree m p l') : l = l' := by
  induction l generalizing p l' with
  | nil =>
    obtain rfl : p = 0 := h
    exact h'.eq_nil.symm
  | cons b l ih =>
    obtain ⟨rfl, hb, hl⟩ := h
    obtain ⟨l'', rfl, hl''⟩ := h'.exists_cons hb
    exact congrArg (p :: ·) (ih hl hl'')

end ChatShow.Lib.FreeLists
