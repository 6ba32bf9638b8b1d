import ChatShow.CommBase.Allocator
import Mathlib.Data.List.Pairwise
import Mathlib.Data.Fintype.Basic

/-! # The regions of the allocator

The invariant is that what the allocator has cut out of the memory of the system, the blocks of the
pools and the areas of large regions, is apart piece by piece (`Good.apart`). Each operation writes
into one piece, or into what the system has just given, so that the free lists and the flags elsewhere are
left as they are (`Good.isFree`, `Good.tag_keep`). -/

namespace ChatShow.CommBase.AllocatorRegions

open ChatShow.Lib.FreeLists ChatShow.Lib.Runs ChatShow.CommBase.BlockPool ChatShow.CommBase.Allocator

variable {h : Heap} {ls : Pool → List ℕ} {k k' : Pool} {nbytes nbytes' : UInt64}
variable {base len len' a b b' p q i : ℕ} {l : List ℕ} {m : ℕ → UInt8}

/-- What the allocator cuts out: a block of a pool, and the area of a region that is in none. -/
inductive Piece (h : Heap) : ℕ → ℕ → Prop
  | block {k : Pool} {b : ℕ} : b ∈ (h.alloc.pools k).blocks → Piece h b (size k + 1)
  | large {a : ℕ} {nbytes : UInt64} : h.live (a + 1) = some nbytes → poolOf nbytes = none →
      Piece h a (nbytes.toNat + 1)

/-- The invariant, where `ls` has the free blocks of each pool. -/
structure Good (h : Heap) (ls : Pool → List ℕ) : Prop where
  shape : ∀ k, (h.alloc.pools k).blockSize = size k + 1 ∧ (h.alloc.pools k).blockNumber = 32
  areas : h.areas.Pairwise Apart
  fit : ∀ a ∈ h.areas, a.1 ≠ 0 ∧ a.1 + a.2 ≤ 256 ^ pointerSize
  buffers : ∀ k, ∀ a ∈ (h.alloc.pools k).memoryList, (a, (size k + 1) * 32) ∈ h.areas
  home : ∀ p nbytes k, h.live p = some nbytes → poolOf nbytes = some k →
    ∃ b ∈ (h.alloc.pools k).blocks, p = b + 1
  large : ∀ p nbytes, h.live p = some nbytes → poolOf nbytes = none →
    ∃ a, p = a + 1 ∧ (a, nbytes.toNat + 1) ∈ h.areas ∧ ∀ k, a ∉ (h.alloc.pools k).memoryList
  tag : ∀ b nbytes, h.live (b + 1) = some nbytes → h.mem b = flag (poolOf nbytes)
  free : ∀ k, IsFree h.mem (h.alloc.pools k).freeNext (ls k)
  nodup : ∀ k, (ls k).Nodup
  mem_iff : ∀ k b, b ∈ ls k ↔ b ∈ (h.alloc.pools k).blocks ∧ h.live (b + 1) = none

theorem size_inj : ∀ k k' : Pool, size k = size k' → k = k' := by decide

theorem pointerSize_lt_size : ∀ k : Pool, pointerSize < size k := by decide

theorem le_size (hk : poolOf nbytes = some k) : nbytes.toNat ≤ size k := by
  have := List.find?_some hk
  exact of_decide_eq_true this

instance : Std.Symm Apart := ⟨fun _ _ => Or.symm⟩

/-! ### Pieces are apart -/

namespace Good

variable (hg : Good h ls)
include hg

theorem areas_apart {a a' : ℕ × ℕ} (ha : a ∈ h.areas) (ha' : a' ∈ h.areas) (hne : a ≠ a') :
    Apart a a' :=
  hg.areas.forall ha ha' hne

/-- A block is in a buffer of its pool. -/
theorem buffer_of_block (hb : b ∈ (h.alloc.pools k).blocks) :
    ∃ a ∈ (h.alloc.pools k).memoryList, b ∈ carve (size k + 1) 32 a ∧
      (a, (size k + 1) * 32) ∈ h.areas ∧ a ≤ b ∧ b + (size k + 1) ≤ a + (size k + 1) * 32 := by
  obtain ⟨a, ha, hb⟩ := mem_blocks.mp hb
  rw [(hg.shape k).1, (hg.shape k).2] at hb
  exact ⟨a, ha, hb, hg.buffers k a ha, carve_inside hb⟩

/-- A block is of one pool. -/
theorem pool_unique (hb : b ∈ (h.alloc.pools k).blocks) (hb' : b ∈ (h.alloc.pools k').blocks) :
    k = k' := by
  obtain ⟨a, -, -, ha, hlow, hhigh⟩ := hg.buffer_of_block hb
  obtain ⟨a', -, -, ha', hlow', hhigh'⟩ := hg.buffer_of_block hb'
  by_contra hk
  have hne : (a, (size k + 1) * 32) ≠ (a', (size k' + 1) * 32) := fun he => by
    have hs := congrArg Prod.snd he
    dsimp only at hs
    exact hk (size_inj k k' (by omega))
  rcases hg.areas_apart ha ha' hne with hd | hd
  · dsimp only at hd
    omega
  · dsimp only at hd
    omega

/-- A piece is in an area. -/
theorem area_of_piece (hp : Piece h b len) :
    0 < len ∧ ∃ a ∈ h.areas, a.1 ≤ b ∧ b + len ≤ a.1 + a.2 := by
  cases hp with
  | block hb =>
    obtain ⟨a, -, -, ha, hlow, hhigh⟩ := hg.buffer_of_block hb
    exact ⟨Nat.succ_pos _, _, ha, hlow, hhigh⟩
  | large hl hk =>
    obtain ⟨a, he, ha, -⟩ := hg.large _ _ hl hk
    cases he
    exact ⟨Nat.succ_pos _, _, ha, le_rfl, le_rfl⟩

theorem piece_fit (hp : Piece h b len) : b ≠ 0 ∧ b + len ≤ 256 ^ pointerSize := by
  obtain ⟨-, a, ha, hlow, hhigh⟩ := hg.area_of_piece hp
  have := hg.fit a ha
  omega

/-- A block and a large region are apart. -/
theorem block_large (hb : b ∈ (h.alloc.pools k).blocks) (hl : h.live (a + 1) = some nbytes)
    (hk : poolOf nbytes = none) : Apart (b, size k + 1) (a, nbytes.toNat + 1) := by
  obtain ⟨a', hmem, -, ha', hlow, hhigh⟩ := hg.buffer_of_block hb
  obtain ⟨_, he, ha, hnot⟩ := hg.large _ _ hl hk
  cases he
  have hne : (a', (size k + 1) * 32) ≠ (a, nbytes.toNat + 1) := fun he => by
    obtain rfl : a' = a := congrArg Prod.fst he
    exact hnot k hmem
  rcases hg.areas_apart ha' ha hne with hd | hd
  · exact Or.inl (hhigh.trans hd)
  · exact Or.inr (hd.trans hlow)

/-- **Two pieces are apart.** -/
theorem apart (hp : Piece h b len) (hp' : Piece h b' len') (hne : b ≠ b') :
    Apart (b, len) (b', len') := by
  cases hp with
  | @block k _ hb =>
    cases hp' with
    | @block k' _ hb' =>
      obtain ⟨a, -, hc, ha, hlow, hhigh⟩ := hg.buffer_of_block hb
      obtain ⟨a', -, hc', ha', hlow', hhigh'⟩ := hg.buffer_of_block hb'
      by_cases he : (a, (size k + 1) * 32) = (a', (size k' + 1) * 32)
      · have hs := congrArg Prod.snd he
        dsimp only at hs
        obtain rfl : k = k' := size_inj k k' (by omega)
        obtain rfl : a = a' := congrArg Prod.fst he
        exact carve_apart hc hc' hne
      · rcases hg.areas_apart ha ha' he with hd | hd
        · exact Or.inl ((hhigh.trans hd).trans hlow')
        · exact Or.inr ((hhigh'.trans hd).trans hlow)
    | large hl hk => exact hg.block_large hb hl hk
  | large hl hk =>
    cases hp' with
    | block hb' => exact (hg.block_large hb' hl hk).symm
    | large hl' hk' =>
      obtain ⟨_, he, ha, -⟩ := hg.large _ _ hl hk
      cases he
      obtain ⟨_, he, ha', -⟩ := hg.large _ _ hl' hk'
      cases he
      exact hg.areas_apart ha ha' fun he => hne (congrArg Prod.fst he)

/-- A region that is not freed, with its flag, is a piece. -/
theorem piece_of_live (hl : h.live p = some nbytes) :
    ∃ b, p = b + 1 ∧ Piece h b (room nbytes + 1) := by
  unfold room
  split
  next k hk =>
    obtain ⟨b, hb, rfl⟩ := hg.home p nbytes k hl hk
    exact ⟨b, rfl, .block hb⟩
  next hk =>
    obtain ⟨a, rfl, -, -⟩ := hg.large p nbytes hl hk
    exact ⟨a, rfl, .large hl hk⟩

/-- A free block is a piece, and not the one of a region. -/
theorem piece_of_free (hb : b ∈ ls k) : Piece h b (size k + 1) :=
  .block ((hg.mem_iff k b).mp hb).1

/-! ### What is asked holds -/

theorem contract : Contract h := by
  constructor
  case apart =>
    intro p nbytes q nbytes' hp hq hne
    obtain ⟨b, rfl, hb⟩ := hg.piece_of_live hp
    obtain ⟨b', rfl, hb'⟩ := hg.piece_of_live hq
    exact hg.apart hb hb' fun he => hne (congrArg (· + 1) he)
  case enough =>
    intro p nbytes hp
    refine ⟨?_, ?_⟩
    · unfold room
      split
      next k hk => exact le_size hk
      next => exact le_rfl
    · obtain ⟨b, rfl, hb⟩ := hg.piece_of_live hp
      obtain ⟨-, a, ha, hlow, hhigh⟩ := hg.area_of_piece hb
      exact ⟨a, ha, Nat.lt_succ_of_le hlow, by omega⟩
  case tag =>
    intro p nbytes hp
    obtain ⟨b, rfl, -⟩ := hg.piece_of_live hp
    exact hg.tag b nbytes hp
  case home =>
    intro p nbytes k hp hk
    obtain ⟨b, hb, rfl⟩ := hg.home p nbytes k hp hk
    exact hb
  case back => exact fun k => ⟨ls k, hg.free k, hg.nodup k, hg.mem_iff k⟩

end Good

/-! ### What an operation leaves as it is -/

/-- Nothing is written into the pieces, but for the one at `c`. -/
def Keeps (h : Heap) (c : ℕ) (m : ℕ → UInt8) : Prop :=
  ∀ b len, Piece h b len → b ≠ c → ∀ i, b ≤ i → i < b + len → m i = h.mem i

section Keeps

variable {c : ℕ} (hg : Good h ls)
include hg

theorem Good.keeps_of_piece (hp : Piece h c len)
    (hm : ∀ i, i < c ∨ c + len ≤ i → m i = h.mem i) : Keeps h c m := by
  intro b len' hb hne i hlow hhigh
  refine hm i ?_
  rcases hg.apart hp hb (Ne.symm hne) with hd | hd
  · exact Or.inr (hd.trans hlow)
  · exact Or.inl (hhigh.trans_le hd)

theorem Good.keeps_of_fresh (c : ℕ) (hfresh : ∀ a ∈ h.areas, Apart (base, len) a)
    (hm : ∀ i, i < base ∨ base + len ≤ i → m i = h.mem i) : Keeps h c m := by
  intro b len' hb _ i hlow hhigh
  refine hm i ?_
  obtain ⟨-, a, ha, hlow', hhigh'⟩ := hg.area_of_piece hb
  rcases hfresh a ha with hd | hd
  · exact Or.inr ((hd.trans hlow').trans hlow)
  · exact Or.inl ((hhigh.trans_le hhigh').trans_le hd)

theorem Keeps.isFree (hk : Keeps h c m) (hl : ∀ b ∈ l, b ∈ ls k) (hc : c ∉ l)
    (hf : IsFree h.mem p l) : IsFree m p l := by
  refine hf.congr fun b hb i hlow hhigh => ?_
  have hsize := pointerSize_lt_size k
  refine hk b _ (hg.piece_of_free (hl b hb)) (fun he => hc (he ▸ hb)) i hlow ?_
  omega

theorem Keeps.tag (hk : Keeps h c m) (hl : h.live (b + 1) = some nbytes) (hne : b ≠ c) :
    m b = flag (poolOf nbytes) := by
  obtain ⟨_, he, hp⟩ := hg.piece_of_live hl
  cases he
  rw [hk b _ hp hne b le_rfl (Nat.lt_add_of_pos_right (Nat.succ_pos _))]
  exact hg.tag b nbytes hl

end Keeps

/-- What is fresh is not in a piece. -/
theorem Good.not_fresh (hg : Good h ls) (hfresh : ∀ a ∈ h.areas, Apart (base, len) a)
    (hp : Piece h b len') (hlow : base ≤ b) (hhigh : b < base + len) : False := by
  obtain ⟨hpos, a, ha, hlow', hhigh'⟩ := hg.area_of_piece hp
  rcases hfresh a ha with hd | hd
  · dsimp only at hd
    omega
  · dsimp only at hd
    omega

/-- What is set in a pool but for its free list is that of before. -/
theorem setPool_keep {β : Type*} (f : AllocatorBlock → β) {al : MemAllocator} {b : AllocatorBlock}
    (hb : f b = f (al.pools k)) (k' : Pool) : f ((al.setPool k b).pools k') = f (al.pools k') := by
  unfold MemAllocator.setPool
  dsimp only
  by_cases hk : k' = k
  · rw [hk, Function.update_self, hb]
  · rw [Function.update_of_ne hk]

end ChatShow.CommBase.AllocatorRegions
