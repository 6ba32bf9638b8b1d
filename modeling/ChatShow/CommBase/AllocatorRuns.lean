import ChatShow.CommBase.AllocatorRegions

/-! # Runs of the allocator

Each operation keeps the invariant of the regions: a block is taken from its pool (`good_pop`), a pool
gets a buffer (`good_grow`), a large region is handed out (`good_large`), a block goes back to its pool
(`good_push`) or an area to the system (`good_give`), and bytes are written into a region (`good_write`).
So `Contract` holds after every run whose requests leave room for the flag and whose regions are freed by
it (`contract_run`). -/

namespace ChatShow.CommBase.AllocatorRuns

open ChatShow.Lib.FreeLists ChatShow.Lib.Runs ChatShow.CommBase.BlockPool ChatShow.CommBase.Allocator
open ChatShow.CommBase.AllocatorRegions

variable {h h' : Heap} {ls : Pool → List ℕ} {k : Pool} {nbytes : UInt64} {base b p i : ℕ}
variable {next : ℕ} {region : Option UInt64} {l : List ℕ} {m : ℕ → UInt8} {v : UInt8}

/-! ### Blocks are taken and go back -/

/-- **A block of a pool is written into, and the free list of the pool is that of before but for the
block**: it is in it just where no region is at the block after that. -/
theorem good_block (hg : Good h ls) (hblock : b ∈ (h.alloc.pools k).blocks) (hkeeps : Keeps h b m)
    (hregion : ∀ nbytes, region = some nbytes → poolOf nbytes = some k ∧ m b = flag (some k))
    (hfree : IsFree m next l) (hnodup : l.Nodup)
    (hl : ∀ b', b' ∈ l ↔ if b' = b then region = none else b' ∈ ls k) :
    Good ⟨m, h.alloc.setPool k { h.alloc.pools k with freeNext := next }, h.areas,
      Function.update h.live (b + 1) region⟩ (Function.update ls k l) := by
  have hother {k' : Pool} (hk' : k' ≠ k) : b ∉ ls k' := fun hb' =>
    hk' (hg.pool_unique ((hg.mem_iff k' b).mp hb').1 hblock)
  have hpools {β : Type} (f : AllocatorBlock → β)
      (hf : f { h.alloc.pools k with freeNext := next } = f (h.alloc.pools k)) (k' : Pool) :
      f ((h.alloc.setPool k { h.alloc.pools k with freeNext := next }).pools k') =
        f (h.alloc.pools k') :=
    setPool_keep f hf k'
  have hblocks := hpools AllocatorBlock.blocks rfl
  have hbuffers := hpools AllocatorBlock.memoryList rfl
  have hself : Function.update h.live (b + 1) region (b + 1) = region := Function.update_self ..
  have hlive {p : ℕ} (hp : p ≠ b + 1) : Function.update h.live (b + 1) region p = h.live p :=
    Function.update_of_ne hp ..
  constructor
  case shape =>
    intro k'
    dsimp only
    rw [hpools AllocatorBlock.blockSize rfl, hpools AllocatorBlock.blockNumber rfl]
    exact hg.shape k'
  case areas => exact hg.areas
  case fit => exact hg.fit
  case buffers =>
    intro k'
    rw [hbuffers]
    exact hg.buffers k'
  case home =>
    intro p nbytes k' hp hk'
    dsimp only at hp
    rw [hblocks]
    by_cases hpb : p = b + 1
    · rw [hpb, hself] at hp
      obtain rfl : k = k' := Option.some.inj ((hregion nbytes hp).1.symm.trans hk')
      exact ⟨b, hblock, hpb⟩
    · rw [hlive hpb] at hp
      exact hg.home p nbytes k' hp hk'
  case large =>
    intro p nbytes hp hk'
    dsimp only at hp
    by_cases hpb : p = b + 1
    · rw [hpb, hself] at hp
      cases (hregion nbytes hp).1.symm.trans hk'
    · rw [hlive hpb] at hp
      obtain ⟨a, ha, harea, hnot⟩ := hg.large p nbytes hp hk'
      exact ⟨a, ha, harea, fun k' => by rw [hbuffers]; exact hnot k'⟩
  case tag =>
    intro b' nbytes hp
    dsimp only at hp
    by_cases hbb : b' = b
    · rw [hbb, hself] at hp
      obtain ⟨hk, hm⟩ := hregion nbytes hp
      rw [hbb, hk]
      exact hm
    · rw [hlive fun he => hbb (Nat.succ_injective he)] at hp
      exact hkeeps.tag hg hp hbb
  case free =>
    intro k'
    by_cases hk' : k' = k
    · subst hk'
      unfold MemAllocator.setPool
      dsimp only
      rw [Function.update_self, Function.update_self]
      exact hfree
    · unfold MemAllocator.setPool
      dsimp only
      rw [Function.update_of_ne hk', Function.update_of_ne hk']
      exact hkeeps.isFree hg (fun _ => id) (hother hk') (hg.free k')
  case nodup =>
    intro k'
    by_cases hk' : k' = k
    · rw [hk', Function.update_self]
      exact hnodup
    · rw [Function.update_of_ne hk']
      exact hg.nodup k'
  case mem_iff =>
    intro k' b'
    dsimp only
    rw [hblocks]
    by_cases hk' : k' = k
    · rw [hk', Function.update_self, hl b']
      by_cases hbb : b' = b
      · rw [if_pos hbb, hbb, hself, and_iff_right hblock]
      · rw [if_neg hbb, hlive fun he => hbb (Nat.succ_injective he), hg.mem_iff]
    · rw [Function.update_of_ne hk']
      by_cases hbb : b' = b
      · rw [hbb]
        refine iff_of_false (hother hk') fun hb' => hk' (hg.pool_unique hb'.1 hblock)
      · rw [hlive fun he => hbb (Nat.succ_injective he), hg.mem_iff]

/-- The first free block of a pool is handed out. -/
def pop (h : Heap) (k : Pool) (nbytes : UInt64) : Heap :=
  let b := (h.alloc.pools k).freeNext
  { h with
    mem := Function.update h.mem b (flag (some k))
    alloc := h.alloc.setPool k { h.alloc.pools k with freeNext := load h.mem b }
    live := Function.update h.live (b + 1) (some nbytes) }

theorem good_pop (hg : Good h ls) (hk : poolOf nbytes = some k)
    (hb : (h.alloc.pools k).freeNext ≠ 0) : ∃ ls', Good (pop h k nbytes) ls' := by
  obtain ⟨l, hl, hfree⟩ := (hg.free k).exists_cons hb
  have hmem : (h.alloc.pools k).freeNext ∈ ls k := hl ▸ List.mem_cons_self
  have hnodup := hg.nodup k
  rw [hl] at hnodup
  obtain ⟨hnot, hnodup⟩ := List.nodup_cons.mp hnodup
  have hkeeps : Keeps h (h.alloc.pools k).freeNext (pop h k nbytes).mem :=
    hg.keeps_of_piece (hg.piece_of_free hmem) fun i hi => Function.update_of_ne (by omega) ..
  refine ⟨_, good_block hg ((hg.mem_iff k _).mp hmem).1 hkeeps ?_ ?_ hnodup ?_⟩
  · rintro _ ⟨⟩
    exact ⟨hk, Function.update_self ..⟩
  · exact hkeeps.isFree hg (fun b' hb' => hl ▸ List.mem_cons_of_mem _ hb') hnot hfree
  · intro b'
    split_ifs with hbb
    · rw [hbb]
      exact iff_of_false hnot not_false
    · rw [hl, List.mem_cons, or_iff_right hbb]

/-- A block is put before the free list of its pool. -/
def push (h : Heap) (k : Pool) (b : ℕ) : Heap :=
  { h with
    mem := save h.mem b (h.alloc.pools k).freeNext
    alloc := h.alloc.setPool k { h.alloc.pools k with freeNext := b }
    live := Function.update h.live (b + 1) none }

theorem good_push (hg : Good h ls) (hp : h.live (b + 1) = some nbytes) (hk : poolOf nbytes = some k) :
    Good (push h k b) (Function.update ls k (b :: ls k)) := by
  obtain ⟨_, hblock, he⟩ := hg.home _ _ k hp hk
  cases he
  have hpiece : Piece h b (size k + 1) := .block hblock
  have hnot : b ∉ ls k := fun hb => nomatch hp.symm.trans ((hg.mem_iff k b).mp hb).2
  have hsize := pointerSize_lt_size k
  have hkeeps : Keeps h b (push h k b).mem :=
    hg.keeps_of_piece hpiece fun i hi => save_apart h.mem _ (by omega)
  refine good_block hg hblock hkeeps (fun _ hn => nomatch hn) ?_ ?_ ?_
  · refine (hg.free k).push (hg.piece_fit hpiece).1 ?_ fun b' hb' => ?_
    · refine (hg.free k).lt (by decide) fun b' hb' => ?_
      have := hg.piece_fit (hg.piece_of_free hb')
      omega
    · have := hg.apart hpiece (hg.piece_of_free hb') fun he => hnot (he ▸ hb')
      rcases this with hd | hd
      · dsimp only at hd
        omega
      · dsimp only at hd
        omega
  · exact List.nodup_cons.mpr ⟨hnot, hg.nodup k⟩
  · intro b'
    split_ifs with hbb
    · exact iff_of_true (hbb ▸ List.mem_cons_self) rfl
    · rw [List.mem_cons, or_iff_right hbb]

/-! ### The system gives and takes back -/

theorem areas_cons {len : ℕ} (hg : Good h ls) (hgives : Gives h.areas base len) :
    ((base, len) :: h.areas).Pairwise Apart ∧
      ∀ a ∈ (base, len) :: h.areas, a.1 ≠ 0 ∧ a.1 + a.2 ≤ 256 ^ pointerSize := by
  obtain ⟨hne, hfit, hfresh⟩ := hgives
  refine ⟨List.pairwise_cons.mpr ⟨hfresh, hg.areas⟩, fun a ha => ?_⟩
  obtain rfl | ha := List.mem_cons.mp ha
  · exact ⟨hne, hfit⟩
  · exact hg.fit a ha

/-- An area with a byte in it does not begin where a fresh one does. -/
theorem ne_of_gives {a len len' : ℕ} (hgives : Gives h.areas base len) (hlen : 0 < len)
    (ha : (a, len') ∈ h.areas) (hlen' : 0 < len') : a ≠ base := by
  rintro rfl
  rcases hgives.2.2 _ ha with hd | hd
  · dsimp only at hd
    omega
  · dsimp only at hd
    omega

/-- **A pool without a free block gets a buffer.** -/
theorem good_grow (hg : Good h ls) (hnil : ls k = [])
    (hgives : Gives h.areas base (h.alloc.pools k).total) :
    Good (h.grow k base) (Function.update ls k (carve (size k + 1) 32 base).reverse) := by
  obtain ⟨hsize, hnumber⟩ := hg.shape k
  have htotal : (h.alloc.pools k).total = (size k + 1) * 32 := by
    unfold AllocatorBlock.total
    rw [hsize, hnumber]
  obtain ⟨hareas, hfit⟩ := areas_cons hg hgives
  obtain ⟨⟨hsize', hnumber'⟩, hbuffers⟩ :=
    @snd_allocatSize h.mem base (h.alloc.pools k) hgives.1
  have hpointer : pointerSize ≤ (h.alloc.pools k).blockSize := by
    have := pointerSize_lt_size k
    omega
  have hwritten {i : ℕ} (hi : i < base ∨ base + (h.alloc.pools k).total ≤ i) :
      (h.grow k base).mem i = h.mem i :=
    allocatSize_apart hgives.1 hpointer (by rw [hnumber]; decide) hi
  have hkeeps : Keeps h base (h.grow k base).mem :=
    hg.keeps_of_fresh base hgives.2.2 fun i hi => hwritten hi
  have hself : (h.grow k base).alloc.pools k =
      ((h.alloc.pools k).allocatSize h.mem base).2 := Function.update_self ..
  have hother {k' : Pool} (hk' : k' ≠ k) : (h.grow k base).alloc.pools k' = h.alloc.pools k' :=
    Function.update_of_ne hk' ..
  have hblocks : ((h.grow k base).alloc.pools k).blocks =
      carve (size k + 1) 32 base ++ (h.alloc.pools k).blocks := by
    unfold AllocatorBlock.blocks
    rw [hself, hbuffers, hsize', hnumber', hsize, hnumber, List.flatMap_cons]
  have hfresh {b len : ℕ} (hp : Piece h b len) : b ∉ carve (size k + 1) 32 base := fun hb => by
    obtain ⟨hlow, hhigh⟩ := carve_inside hb
    exact hg.not_fresh hgives.2.2 hp hlow (by omega)
  constructor
  case shape =>
    intro k'
    by_cases hk' : k' = k
    · subst hk'
      rw [hself, hsize', hnumber']
      exact hg.shape k'
    · rw [hother hk']
      exact hg.shape k'
  case areas => exact hareas
  case fit => exact hfit
  case buffers =>
    intro k' a ha
    by_cases hk' : k' = k
    · subst hk'
      rw [hself, hbuffers] at ha
      obtain rfl | ha := List.mem_cons.mp ha
      · exact List.mem_cons.mpr (Or.inl (by rw [htotal]))
      · exact List.mem_cons_of_mem _ (hg.buffers k' a ha)
    · rw [hother hk'] at ha
      exact List.mem_cons_of_mem _ (hg.buffers k' a ha)
  case home =>
    intro p nbytes k' hp hk
    obtain ⟨b, hb, hpb⟩ := hg.home p nbytes k' hp hk
    refine ⟨b, ?_, hpb⟩
    by_cases hk' : k' = k
    · subst hk'
      rw [hblocks]
      exact List.mem_append_right _ hb
    · rw [hother hk']
      exact hb
  case large =>
    intro p nbytes hp hk
    obtain ⟨a, hpa, ha, hnot⟩ := hg.large p nbytes hp hk
    refine ⟨a, hpa, List.mem_cons_of_mem _ ha, fun k' hmem => ?_⟩
    by_cases hk' : k' = k
    · subst hk'
      rw [hself, hbuffers] at hmem
      obtain he | hmem := List.mem_cons.mp hmem
      · exact ne_of_gives hgives (by omega) ha (Nat.succ_pos _) he
      · exact hnot k' hmem
    · rw [hother hk'] at hmem
      exact hnot k' hmem
  case tag =>
    intro b nbytes hp
    obtain ⟨_, he, hpiece⟩ := hg.piece_of_live hp
    cases he
    refine hkeeps.tag hg hp fun hb => ?_
    have hpos : 0 < (h.alloc.pools k).total := by omega
    exact hg.not_fresh hgives.2.2 hpiece hb.ge (by omega)
  case free =>
    intro k'
    by_cases hk' : k' = k
    · subst hk'
      rw [Function.update_self, hself, ← hsize, ← hnumber]
      exact isFree_allocatSize hgives.1 hpointer (by rw [hnumber]; decide) hgives.2.1
    · rw [Function.update_of_ne hk', hother hk']
      refine hkeeps.isFree hg (fun _ => id) (fun hb => ?_) (hg.free k')
      have hpos : 0 < (h.alloc.pools k).total := by omega
      exact hg.not_fresh hgives.2.2 (hg.piece_of_free hb) le_rfl (by omega)
  case nodup =>
    intro k'
    by_cases hk' : k' = k
    · subst hk'
      rw [Function.update_self]
      exact List.nodup_reverse.mpr (nodup_carve (Nat.succ_pos _))
    · rw [Function.update_of_ne hk']
      exact hg.nodup k'
  case mem_iff =>
    intro k' b
    by_cases hk' : k' = k
    · subst hk'
      rw [Function.update_self, hblocks, List.mem_reverse, List.mem_append]
      constructor
      · intro hb
        refine ⟨Or.inl hb, ?_⟩
        by_contra hlive
        obtain ⟨nbytes, hlive⟩ := Option.ne_none_iff_exists'.mp hlive
        obtain ⟨_, he, hpiece⟩ := hg.piece_of_live hlive
        cases he
        exact hfresh hpiece hb
      · rintro ⟨hb | hb, hnone⟩
        · exact hb
        · have := (hg.mem_iff k' b).mpr ⟨hb, hnone⟩
          rw [hnil] at this
          exact absurd this List.not_mem_nil
    · rw [Function.update_of_ne hk', hother hk']
      exact hg.mem_iff k' b

/-- A large region is what the system gives, with the flag in its first byte. -/
def take (h : Heap) (nbytes : UInt64) (base : ℕ) : Heap where
  mem := Function.update h.mem base (flag none)
  alloc := h.alloc
  areas := (base, nbytes.toNat + 1) :: h.areas
  live := Function.update h.live (base + 1) (some nbytes)

theorem good_take (hg : Good h ls) (hk : poolOf nbytes = none)
    (hgives : Gives h.areas base (nbytes.toNat + 1)) : Good (take h nbytes base) ls := by
  obtain ⟨hareas, hfit⟩ := areas_cons hg hgives
  have hkeeps : Keeps h base (take h nbytes base).mem :=
    hg.keeps_of_fresh base hgives.2.2 fun i hi => Function.update_of_ne (by omega) ..
  have hself : (take h nbytes base).live (base + 1) = some nbytes := Function.update_self ..
  have hlive {p : ℕ} (hp : p ≠ base + 1) : (take h nbytes base).live p = h.live p :=
    Function.update_of_ne hp ..
  have hfresh {b len : ℕ} (hp : Piece h b len) : b ≠ base := fun hb =>
    hg.not_fresh hgives.2.2 hp hb.ge (by omega)
  constructor
  case shape => exact hg.shape
  case areas => exact hareas
  case fit => exact hfit
  case buffers => exact fun k a ha => List.mem_cons_of_mem _ (hg.buffers k a ha)
  case home =>
    intro p nbytes' k hp hk'
    by_cases hpb : p = base + 1
    · rw [hpb, hself] at hp
      cases hp
      cases hk.symm.trans hk'
    · rw [hlive hpb] at hp
      exact hg.home p nbytes' k hp hk'
  case large =>
    intro p nbytes' hp hk'
    by_cases hpb : p = base + 1
    · rw [hpb, hself] at hp
      cases hp
      refine ⟨base, hpb, List.mem_cons_self, fun k ha => ?_⟩
      exact ne_of_gives hgives (Nat.succ_pos _) (hg.buffers k base ha) (by omega) rfl
    · rw [hlive hpb] at hp
      obtain ⟨a, hpa, ha, hnot⟩ := hg.large p nbytes' hp hk'
      exact ⟨a, hpa, List.mem_cons_of_mem _ ha, hnot⟩
  case tag =>
    intro b nbytes' hp
    by_cases hb : b = base
    · rw [hb, hself] at hp
      cases hp
      rw [hb, hk]
      exact Function.update_self ..
    · rw [hlive fun he => hb (Nat.succ_injective he)] at hp
      exact hkeeps.tag hg hp hb
  case free =>
    intro k
    exact hkeeps.isFree hg (fun _ => id) (fun hb => hfresh (hg.piece_of_free hb) rfl) (hg.free k)
  case nodup => exact hg.nodup
  case mem_iff =>
    intro k b
    by_cases hb : b = base
    · rw [hb, hself]
      refine iff_of_false (fun hmem => hfresh (hg.piece_of_free hmem) rfl) ?_
      exact fun hmem => nomatch hmem.2
    · rw [hlive fun he => hb (Nat.succ_injective he)]
      exact hg.mem_iff k b

/-- A large region goes back to the system. -/
def give (h : Heap) (b : ℕ) : Heap :=
  { h with
    areas := h.areas.filter fun a => some a.1 ≠ some b
    live := Function.update h.live (b + 1) none }

theorem mem_areas_give {a : ℕ × ℕ} : a ∈ (give h b).areas ↔ a ∈ h.areas ∧ a.1 ≠ b := by
  unfold give
  rw [List.mem_filter, decide_eq_true_iff, ne_eq, Option.some_inj]

theorem good_give (hg : Good h ls) (hp : h.live (b + 1) = some nbytes) (hk : poolOf nbytes = none) :
    Good (give h b) ls := by
  obtain ⟨_, he, -, hnot⟩ := hg.large _ _ hp hk
  cases he
  have hpiece : Piece h b (nbytes.toNat + 1) := .large hp hk
  have hlive {p : ℕ} {nbytes' : UInt64} (hp' : (give h b).live p = some nbytes') :
      p ≠ b + 1 ∧ h.live p = some nbytes' := by
    unfold give at hp'
    dsimp only at hp'
    by_cases hpb : p = b + 1
    · rw [hpb, Function.update_self] at hp'
      cases hp'
    · rw [Function.update_of_ne hpb] at hp'
      exact ⟨hpb, hp'⟩
  constructor
  case shape => exact hg.shape
  case areas => exact hg.areas.filter _
  case fit => exact fun a ha => hg.fit a (mem_areas_give.mp ha).1
  case buffers =>
    intro k a ha
    exact mem_areas_give.mpr ⟨hg.buffers k a ha, fun he => hnot k (he ▸ ha)⟩
  case home => exact fun p nbytes' k hp' hk' => hg.home p nbytes' k (hlive hp').2 hk'
  case large =>
    intro p nbytes' hp' hk'
    obtain ⟨hne, hp'⟩ := hlive hp'
    obtain ⟨a, rfl, ha, hnot'⟩ := hg.large p nbytes' hp' hk'
    exact ⟨a, rfl, mem_areas_give.mpr ⟨ha, fun he => hne (congrArg (· + 1) he)⟩, hnot'⟩
  case tag => exact fun b' nbytes' hp' => hg.tag b' nbytes' (hlive hp').2
  case free => exact hg.free
  case nodup => exact hg.nodup
  case mem_iff =>
    intro k b'
    by_cases hbb : b' = b
    · have hno : b ∉ (h.alloc.pools k).blocks := fun hb => by
        rcases hg.block_large hb hp hk with hd | hd
        · dsimp only at hd
          omega
        · dsimp only at hd
          omega
      rw [hbb]
      exact iff_of_false (fun hb => hno ((hg.mem_iff k b).mp hb).1) fun hb => hno hb.1
    · unfold give
      dsimp only
      rw [Function.update_of_ne fun he => hbb (Nat.succ_injective he)]
      exact hg.mem_iff k b'

/-! ### Bytes are written -/

theorem good_write (hg : Good h ls) (hp : h.live p = some nbytes) (hi : i < nbytes.toNat) :
    Good { h with mem := Function.update h.mem (p + i) v } ls := by
  obtain ⟨b, rfl, hpiece⟩ := hg.piece_of_live hp
  have hroom := (hg.contract.enough _ _ hp).1
  have hkeeps : Keeps h b (Function.update h.mem (b + 1 + i) v) :=
    hg.keeps_of_piece hpiece fun j hj => Function.update_of_ne (by omega) ..
  constructor
  case shape => exact hg.shape
  case areas => exact hg.areas
  case fit => exact hg.fit
  case buffers => exact hg.buffers
  case home => exact hg.home
  case large => exact hg.large
  case tag =>
    intro b' nbytes' hp'
    by_cases hbb : b' = b
    · dsimp only
      rw [Function.update_of_ne (by omega)]
      exact hg.tag b' nbytes' hp'
    · exact hkeeps.tag hg hp' hbb
  case free =>
    intro k
    refine hkeeps.isFree hg (fun _ => id) (fun hb => ?_) (hg.free k)
    cases hp.symm.trans ((hg.mem_iff k b).mp hb).2
  case nodup => exact hg.nodup
  case mem_iff => exact hg.mem_iff

/-! ### Requests -/

theorem malloc_pop (hk : poolOf nbytes = some k) (hb : (h.alloc.pools k).freeNext ≠ 0) :
    h.malloc nbytes base = pop h k nbytes := by
  unfold Heap.malloc MemAllocator.malloc MemAllocator.asked AllocatorBlock.malloc
  rw [hk]
  dsimp only
  rw [if_pos hb, if_pos hb]
  rfl

theorem malloc_grow (hk : poolOf nbytes = some k) (hb : (h.alloc.pools k).freeNext = 0)
    (hb' : ((h.grow k base).alloc.pools k).freeNext ≠ 0) :
    h.malloc nbytes base = pop (h.grow k base) k nbytes := by
  have hself : (h.grow k base).alloc.pools k =
      ((h.alloc.pools k).allocatSize h.mem base).2 := Function.update_self ..
  rw [hself] at hb'
  unfold Heap.malloc MemAllocator.malloc MemAllocator.asked AllocatorBlock.malloc pop
  rw [hk, hself]
  dsimp only
  rw [if_neg (not_not.mpr hb), if_neg (not_not.mpr hb), if_pos hb']
  unfold Heap.grow MemAllocator.setPool
  dsimp only
  rw [Function.update_idem]
  rfl

theorem asked_pool (hk : poolOf nbytes = some k) (hb : (h.alloc.pools k).freeNext = 0) :
    h.alloc.asked nbytes = some (h.alloc.pools k).total := by
  unfold MemAllocator.asked
  rw [hk]
  exact if_neg (not_not.mpr hb)

theorem toNat_add_one (hn : nbytes + 1 ≠ 0) : (nbytes + 1).toNat = nbytes.toNat + 1 := by
  have hlt := nbytes.toNat_lt
  have hne : (nbytes + 1).toNat ≠ 0 := fun h0 => hn (UInt64.toNat_inj.mp h0)
  rw [UInt64.toNat_add] at hne ⊢
  change (nbytes.toNat + 1) % 2 ^ 64 ≠ 0 at hne
  change (nbytes.toNat + 1) % 2 ^ 64 = nbytes.toNat + 1
  omega

theorem asked_large (hk : poolOf nbytes = none) (hn : nbytes + 1 ≠ 0) :
    h.alloc.asked nbytes = some (nbytes.toNat + 1) := by
  unfold MemAllocator.asked
  rw [hk]
  exact congrArg some (toNat_add_one hn)

theorem malloc_take (hk : poolOf nbytes = none) (hn : nbytes + 1 ≠ 0) :
    h.malloc nbytes base = take h nbytes base := by
  unfold Heap.malloc
  rw [asked_large hk hn]
  unfold MemAllocator.malloc
  rw [hk]
  rfl

/-- **A request keeps the invariant.** -/
theorem good_malloc (hg : Good h ls) (hn : nbytes + 1 ≠ 0)
    (hgives : ∀ len ∈ h.alloc.asked nbytes, Gives h.areas base len) :
    ∃ ls', Good (h.malloc nbytes base) ls' := by
  cases hk : poolOf nbytes with
  | none =>
    rw [malloc_take hk hn]
    exact ⟨ls, good_take hg hk (hgives _ (asked_large hk hn))⟩
  | some k =>
    by_cases hb : (h.alloc.pools k).freeNext = 0
    · have hnil : ls k = [] := by
        have hfree := hg.free k
        rw [hb] at hfree
        exact hfree.eq_nil
      have hg' := good_grow hg hnil (hgives _ (asked_pool hk hb))
      have hb' : ((h.grow k base).alloc.pools k).freeNext ≠ 0 := fun h0 => by
        have hfree := hg'.free k
        rw [h0, Function.update_self] at hfree
        have hlen := congrArg List.length hfree.eq_nil
        rw [List.length_reverse] at hlen
        exact absurd (List.length_eq_zero_iff.mp hlen) (List.cons_ne_nil _ _)
      rw [malloc_grow hk hb hb']
      exact good_pop hg' hk hb'
    · rw [malloc_pop hk hb]
      exact good_pop hg hk hb

theorem toNat_flag : ∀ k : Pool, (flag (some k)).toNat = k := by decide

theorem free_push (hm : h.mem b = flag (some k)) :
    h.freed (b + 1) (h.alloc.free h.mem (b + 1)) = push h k b := by
  have hflag : (h.mem b).toNat = k := by rw [hm, toNat_flag]
  have hf : (h.mem (b + 1 - 1)).toNat < 13 := by
    rw [Nat.add_sub_cancel, hflag]
    exact k.isLt
  have hpool : (⟨(h.mem (b + 1 - 1)).toNat, hf⟩ : Pool) = k := Fin.ext hflag
  unfold MemAllocator.free
  rw [if_neg (Nat.succ_ne_zero b), dif_pos hf, hpool]
  unfold Heap.freed
  dsimp only
  rw [List.filter_eq_self.mpr fun a _ => decide_eq_true (Option.some_ne_none _)]
  rfl

theorem free_give (hm : h.mem b = flag none) :
    h.freed (b + 1) (h.alloc.free h.mem (b + 1)) = give h b := by
  have hflag : (h.mem (b + 1 - 1)).toNat = 13 := by
    rw [Nat.add_sub_cancel, hm]
    rfl
  unfold MemAllocator.free
  rw [if_neg (Nat.succ_ne_zero b), dif_neg (by omega), if_pos hflag]
  rfl

/-- **A `free` keeps the invariant.** -/
theorem good_free (hg : Good h ls) (hp : h.live p = some nbytes) :
    ∃ ls', Good (h.freed p (h.alloc.free h.mem p)) ls' := by
  obtain ⟨b, rfl, -⟩ := hg.piece_of_live hp
  have hm := hg.tag b nbytes hp
  cases hk : poolOf nbytes with
  | none =>
    rw [hk] at hm
    rw [free_give hm]
    exact ⟨ls, good_give hg hp hk⟩
  | some k =>
    rw [hk] at hm
    rw [free_push hm]
    exact ⟨_, good_push hg hp hk⟩

/-! ### Runs -/

theorem new_shape : ∀ k : Pool, (AllocatorBlock.new (size k) 32).blockSize = size k + 1 := by
  decide

theorem good_new (m : ℕ → UInt8) : Good ⟨m, .new, [], fun _ => none⟩ fun _ => [] := by
  constructor
  case shape => exact fun k => ⟨new_shape k, rfl⟩
  case areas => exact List.Pairwise.nil
  case fit => exact List.forall_mem_nil _
  case buffers => exact fun _ => List.forall_mem_nil _
  case home => exact fun _ _ _ hp => nomatch hp
  case large => exact fun _ _ hp => nomatch hp
  case tag => exact fun _ _ hp => nomatch hp
  case free => exact fun _ => rfl
  case nodup => exact fun _ => List.nodup_nil
  case mem_iff => exact fun _ _ => iff_of_false List.not_mem_nil fun hb => List.not_mem_nil hb.1

/-- The pools that are to be constructed have no free block yet. -/
theorem good_construct {ks : List Pool} (hks : ks.Nodup) (base : Pool → ℕ) (hg : Good h ls)
    (hnil : ∀ k ∈ ks, ls k = [])
    (hrun : ks.foldlM (fun h k => h.construct k (base k)) h = some h') : ∃ ls', Good h' ls' := by
  induction ks generalizing h ls with
  | nil =>
    cases hrun
    exact ⟨ls, hg⟩
  | cons k ks ih =>
    obtain ⟨hk, hks⟩ := List.nodup_cons.mp hks
    rw [List.foldlM_cons] at hrun
    obtain ⟨h₁, h₁eq, hrun⟩ := Option.bind_eq_some_iff.mp hrun
    unfold Heap.construct at h₁eq
    split_ifs at h₁eq with hgives
    cases h₁eq
    refine ih hks (good_grow hg (hnil k List.mem_cons_self) hgives) (fun k' hk' => ?_) hrun
    have hne : k' ≠ k := fun he => hk (he ▸ hk')
    rw [Function.update_of_ne hne]
    exact hnil k' (List.mem_cons_of_mem k hk')

theorem good_boot {m : ℕ → UInt8} {base : Pool → ℕ} (hb : Heap.boot m base = some h) :
    ∃ ls, Good h ls :=
  good_construct (List.nodup_finRange 13) base (good_new m) (fun _ _ => rfl) hb

theorem good_step {a : Label} (hg : Good h ls) (ha : a.Ok) (hs : h.step a = some h') :
    ∃ ls', Good h' ls' := by
  cases a with
  | malloc nbytes base =>
    unfold Heap.step at hs
    dsimp only at hs
    split_ifs at hs with hgives
    cases hs
    exact good_malloc hg ha hgives
  | free p =>
    obtain ⟨nbytes, hp, rfl⟩ := Option.map_eq_some_iff.mp hs
    exact good_free hg hp
  | freeSized p nbytes => exact ha.elim
  | write p i v =>
    obtain ⟨nbytes, hp, hs⟩ := Option.bind_eq_some_iff.mp hs
    split_ifs at hs with hi
    cases hs
    exact ⟨ls, good_write hg hp hi⟩

theorem good_run {m : ℕ → UInt8} {base : Pool → ℕ} {as : List Label} {h₀ h : Heap}
    (hb : Heap.boot m base = some h₀) (hok : ∀ a ∈ as, a.Ok)
    (hrun : run Heap.step h₀ as = some h) : ∃ ls, Good h ls := by
  have hstep : ∀ (h : Heap) a h', (∃ ls, Good h ls) → a.Ok → True → h.step a = some h' →
      ∃ ls, Good h' ls := fun _ _ _ hg ha _ hs => hg.elim fun _ hg => good_step hg ha hs
  exact run_inv_along hstep hrun hok (along_of_take fun _ _ _ _ => trivial) (good_boot hb)

/-- **What is asked of the allocator holds after every run whose requests leave room for the flag and
whose regions are freed by it.** -/
theorem contract_run (m : ℕ → UInt8) (base : Pool → ℕ) (as : List Label) {h₀ h : Heap}
    (hb : Heap.boot m base = some h₀) (hok : ∀ a ∈ as, a.Ok)
    (hrun : run Heap.step h₀ as = some h) : Contract h :=
  (good_run hb hok hrun).elim fun _ hg => hg.contract

/-- A place for the first buffer of each pool. -/
def places (k : Pool) : ℕ := 4194304 * (k + 1)

/-- A request for 100 bytes, of which the last is written, and one for 70000; the first region is freed,
and its block is handed out again. -/
def requests : List Label :=
  [.malloc 100 0, .write 16781216 99 255, .malloc 70000 1048576, .free 16781216, .malloc 120 0]

theorem contract_run_requests : ∃ h₀ h, Heap.boot (fun _ => 0) places = some h₀ ∧
    run Heap.step h₀ requests = some h ∧ h.live 16781216 = some 120 ∧ Contract h := by
  obtain ⟨h₀, hb⟩ := Option.isSome_iff_exists.mp
    (by decide +kernel : (Heap.boot (fun _ => 0) places).isSome = true)
  have hrun : ((Heap.boot (fun _ => 0) places).bind fun h₀ =>
      (run Heap.step h₀ requests).map fun h => h.live 16781216) = some (some 120) := by decide +kernel
  rw [hb, Option.bind_some] at hrun
  obtain ⟨h, hh, hlive⟩ := Option.map_eq_some_iff.mp hrun
  exact ⟨h₀, h, hb, hh, hlive, contract_run (fun _ => 0) places requests hb (by decide) hh⟩

/-- A request whose size leaves no room for the flag: the system is asked for no byte at all. -/
def largest : List Label := [.malloc 18446744073709551615 1048576]

/-- A region that is freed with its size, so that the next one is a byte behind its block. -/
def shifted : List Label := [.malloc 16 0, .freeSized 4194832 16, .malloc 16 0]

/-- No area has the region at `p`. -/
def Outside (h : Heap) (p : ℕ) (nbytes : UInt64) : Prop :=
  h.live p = some nbytes ∧ ∀ a ∈ h.areas, ¬ (a.1 < p ∧ p + nbytes.toNat ≤ a.1 + a.2)

instance (h : Heap) (p : ℕ) (nbytes : UInt64) : Decidable (Outside h p nbytes) :=
  inferInstanceAs (Decidable (_ ∧ _))

theorem not_contract (ho : Outside h p nbytes) : ¬ Contract h := by
  intro hc
  obtain ⟨hle, a, ha, hlow, hhigh⟩ := hc.enough p nbytes ho.1
  exact ho.2 a ha ⟨hlow, by omega⟩

/-- **The largest request of all is given a region that is not there**, and so is the one after a region
has been freed with its size. -/
theorem regions_outside : ∃ h₀, Heap.boot (fun _ => 0) places = some h₀ ∧
    (∃ h, run Heap.step h₀ largest = some h ∧ ¬ Contract h) ∧
    ∃ h, run Heap.step h₀ shifted = some h ∧ ¬ Contract h := by
  obtain ⟨h₀, hb⟩ := Option.isSome_iff_exists.mp
    (by decide +kernel : (Heap.boot (fun _ => 0) places).isSome = true)
  have hlargest : ((Heap.boot (fun _ => 0) places).bind fun h₀ =>
      (run Heap.step h₀ largest).map fun h =>
        decide (Outside h 1048577 18446744073709551615)) = some true := by decide +kernel
  have hshifted : ((Heap.boot (fun _ => 0) places).bind fun h₀ =>
      (run Heap.step h₀ shifted).map fun h => decide (Outside h 4194833 16)) = some true := by
    decide +kernel
  rw [hb, Option.bind_some] at hlargest hshifted
  obtain ⟨h, hh, ho⟩ := Option.map_eq_some_iff.mp hlargest
  obtain ⟨h', hh', ho'⟩ := Option.map_eq_some_iff.mp hshifted
  exact ⟨h₀, hb, ⟨h, hh, not_contract (of_decide_eq_true ho)⟩,
    ⟨h', hh', not_contract (of_decide_eq_true ho')⟩⟩

end ChatShow.CommBase.AllocatorRuns
