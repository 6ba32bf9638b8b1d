import ChatShow.Lib.FreeLists
import Mathlib.Data.List.Nodup

/-! # A pool of blocks

`AllocatorBlock` hands out blocks of one size. A buffer of the system is cut into blocks, each of which
gets the address of the one before it, and they are a free list from then on. The blocks of a buffer are
apart (`carve_apart`), and right after `allocatSize` they are the free blocks (`isFree_allocatSize`). -/

namespace ChatShow.CommBase.BlockPool

open ChatShow.Lib.Bytes ChatShow.Lib.Cells ChatShow.Lib.FreeLists

/-- A pool: `freeNext` is the first of its free blocks, or 0, and `memoryList` has its buffers. -/
structure AllocatorBlock where
  blockSize : ℕ
  blockNumber : ℕ
  freeNext : ℕ := 0
  memoryList : List ℕ := []

/-- The loop of `allocat_size`: `n` blocks from `buffer` on are put before `header`. -/
def link (blockSize : ℕ) : ℕ → (ℕ → UInt8) → ℕ → ℕ → (ℕ → UInt8) × ℕ
  | 0, m, _, header => (m, header)
  | n + 1, m, buffer, header =>
    link blockSize n (save m buffer header) (buffer + blockSize) buffer

namespace AllocatorBlock

variable (b : AllocatorBlock) (m : ℕ → UInt8)

/-- The pool before its first buffer. -/
def new (blockSize blockNumber : ℕ) : AllocatorBlock where
  blockSize := (if blockSize > pointerSize then blockSize else pointerSize) + 1
  blockNumber := blockNumber

/-- The bytes of a buffer. -/
def total : ℕ := b.blockSize * b.blockNumber

/-- The pool gets a buffer, where the system gives one (`buffer` is 0 where it does not). -/
def allocatSize (buffer : ℕ) : (ℕ → UInt8) × AllocatorBlock :=
  if buffer = 0 then (m, b)
  else
    let r := link b.blockSize (b.blockNumber - 1) (save m buffer 0) (buffer + b.blockSize) buffer
    (r.1, { b with freeNext := r.2, memoryList := buffer :: b.memoryList })

/-- A block, or 0 where none is free and the system gives no buffer. -/
def malloc (buffer : ℕ) : (ℕ → UInt8) × AllocatorBlock × ℕ :=
  if b.freeNext ≠ 0 then (m, { b with freeNext := load m b.freeNext }, b.freeNext)
  else
    let r := b.allocatSize m buffer
    if r.2.freeNext ≠ 0 then
      (r.1, { r.2 with freeNext := load r.1 r.2.freeNext }, r.2.freeNext)
    else (r.1, r.2, 0)

def free (p : ℕ) : (ℕ → UInt8) × AllocatorBlock :=
  (save m p b.freeNext, { b with freeNext := p })

end AllocatorBlock

/-! ### The blocks of a buffer -/

/-- `n` blocks from `buffer` on. -/
def carve (blockSize : ℕ) : ℕ → ℕ → List ℕ
  | 0, _ => []
  | n + 1, buffer => buffer :: carve blockSize n (buffer + blockSize)

/-- The blocks of a pool. -/
def AllocatorBlock.blocks (b : AllocatorBlock) : List ℕ :=
  b.memoryList.flatMap (carve b.blockSize b.blockNumber)

variable {m m' : ℕ → UInt8} {size n buffer header p q : ℕ} {l : List ℕ} {b : AllocatorBlock}

theorem mem_carve : p ∈ carve size n buffer ↔ ∃ i < n, p = buffer + i * size := by
  induction n generalizing buffer with
  | zero => simp [carve]
  | succ n ih =>
    rw [carve, List.mem_cons, ih]
    constructor
    · rintro (rfl | ⟨i, hi, rfl⟩)
      · exact ⟨0, Nat.succ_pos n, by rw [Nat.zero_mul, Nat.add_zero]⟩
      · exact ⟨i + 1, Nat.succ_lt_succ hi, by rw [Nat.succ_mul]; omega⟩
    · rintro ⟨i, hi, rfl⟩
      cases i with
      | zero => exact Or.inl (by rw [Nat.zero_mul, Nat.add_zero])
      | succ i => exact Or.inr ⟨i, Nat.lt_of_succ_lt_succ hi, by rw [Nat.succ_mul]; omega⟩

theorem mem_blocks :
    p ∈ b.blocks ↔ ∃ a ∈ b.memoryList, p ∈ carve b.blockSize b.blockNumber a :=
  List.mem_flatMap

/-- A block is in the buffer that it is cut from. -/
theorem carve_inside (h : p ∈ carve size n buffer) :
    buffer ≤ p ∧ p + size ≤ buffer + size * n := by
  obtain ⟨i, hi, rfl⟩ := mem_carve.mp h
  have hle : (i + 1) * size ≤ n * size := Nat.mul_le_mul_right size hi
  rw [Nat.succ_mul, Nat.mul_comm n] at hle
  omega

/-- Two blocks of a buffer are apart. -/
theorem carve_apart (hp : p ∈ carve size n buffer) (hq : q ∈ carve size n buffer) (hne : p ≠ q) :
    p + size ≤ q ∨ q + size ≤ p := by
  obtain ⟨i, -, rfl⟩ := mem_carve.mp hp
  obtain ⟨j, -, rfl⟩ := mem_carve.mp hq
  rcases Nat.lt_trichotomy i j with h | rfl | h
  · have hle : (i + 1) * size ≤ j * size := Nat.mul_le_mul_right size h
    rw [Nat.succ_mul] at hle
    omega
  · exact absurd rfl hne
  · have hle : (j + 1) * size ≤ i * size := Nat.mul_le_mul_right size h
    rw [Nat.succ_mul] at hle
    omega

theorem nodup_carve (hsize : 0 < size) : (carve size n buffer).Nodup := by
  induction n generalizing buffer with
  | zero => exact List.nodup_nil
  | succ n ih =>
    refine List.nodup_cons.mpr ⟨fun hmem => ?_, ih⟩
    have := (carve_inside hmem).1
    omega

/-! ### The loop -/

/-- The loop writes into the blocks that it links. -/
theorem link_apart {i : ℕ} (hsize : pointerSize ≤ size)
    (hi : i < buffer ∨ buffer + size * n ≤ i) : (link size n m buffer header).1 i = m i := by
  induction n generalizing m buffer header with
  | zero => rfl
  | succ n ih =>
    rw [Nat.mul_succ] at hi
    rw [link, ih (by omega)]
    exact save_apart m header (by omega)

/-- **The loop puts the blocks before the list that it begins with.** -/
theorem isFree_link (hsize : pointerSize ≤ size) (h : IsFree m header l) (hbuffer : buffer ≠ 0)
    (hfit : buffer + size * n ≤ 256 ^ pointerSize) (hheader : header < 256 ^ pointerSize)
    (hl : ∀ q ∈ l, q + pointerSize ≤ buffer) :
    IsFree (link size n m buffer header).1 (link size n m buffer header).2
      ((carve size n buffer).reverse ++ l) := by
  induction n generalizing m buffer header l with
  | zero => exact h
  | succ n ih =>
    rw [Nat.mul_succ] at hfit
    have hpos : 0 < pointerSize := by decide
    rw [link, carve, List.reverse_cons, List.append_assoc, List.singleton_append]
    refine ih (h.push hbuffer hheader fun q hq => Or.inl (hl q hq)) (by omega) (by omega) (by omega) ?_
    intro q hq
    obtain rfl | hq := List.mem_cons.mp hq
    · omega
    · have := hl q hq
      omega

/-! ### A new buffer -/

section Buffer

variable (hbuffer : buffer ≠ 0) (hsize : pointerSize ≤ b.blockSize) (hnumber : b.blockNumber ≠ 0)
include hbuffer

theorem snd_allocatSize : ((b.allocatSize m buffer).2.blockSize = b.blockSize ∧
    (b.allocatSize m buffer).2.blockNumber = b.blockNumber) ∧
    (b.allocatSize m buffer).2.memoryList = buffer :: b.memoryList := by
  unfold AllocatorBlock.allocatSize
  rw [if_neg hbuffer]
  exact ⟨⟨rfl, rfl⟩, rfl⟩

include hsize hnumber

/-- Nothing is written outside of the buffer. -/
theorem allocatSize_apart {i : ℕ} (hi : i < buffer ∨ buffer + b.total ≤ i) :
    (b.allocatSize m buffer).1 i = m i := by
  obtain ⟨n, hn⟩ := Nat.exists_eq_succ_of_ne_zero hnumber
  unfold AllocatorBlock.total at hi
  rw [hn, Nat.mul_succ] at hi
  unfold AllocatorBlock.allocatSize
  rw [if_neg hbuffer, hn]
  dsimp only [Nat.succ_sub_one]
  rw [link_apart hsize (by omega)]
  exact save_apart m 0 (by omega)

/-- **The blocks of the buffer are the free ones.** -/
theorem isFree_allocatSize (hfit : buffer + b.total ≤ 256 ^ pointerSize) :
    IsFree (b.allocatSize m buffer).1 (b.allocatSize m buffer).2.freeNext
      (carve b.blockSize b.blockNumber buffer).reverse := by
  obtain ⟨n, hn⟩ := Nat.exists_eq_succ_of_ne_zero hnumber
  unfold AllocatorBlock.total at hfit
  rw [hn, Nat.mul_succ] at hfit
  unfold AllocatorBlock.allocatSize
  rw [if_neg hbuffer, hn]
  dsimp only [Nat.succ_sub_one]
  have hpos : 0 < pointerSize := by decide
  have hfirst : IsFree (save m buffer 0) buffer [buffer] :=
    IsFree.push rfl hbuffer (by decide) fun q hq => absurd hq List.not_mem_nil
  rw [carve, List.reverse_cons]
  refine isFree_link hsize hfirst (by omega) (by omega) (by omega) ?_
  intro q hq
  rw [List.mem_singleton.mp hq]
  omega

end Buffer

end ChatShow.CommBase.BlockPool
