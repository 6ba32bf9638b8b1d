import ChatShow.CommBase.AllocatorRuns

/-! # `realloc` and the sized `free`

`realloc` makes no region larger: it says whether the block of a region has room for more. It takes the
pointer back to the flag and returns what it has then. The sized `free` goes by the size, and takes no
step back. -/

namespace ChatShow.CommBase.Realloc

open ChatShow.Lib.Runs ChatShow.CommBase.BlockPool ChatShow.CommBase.Allocator
open ChatShow.CommBase.AllocatorRegions ChatShow.CommBase.AllocatorRuns

/-- `MemAllocator::realloc`, which changes nothing. -/
def realloc (m : ℕ → UInt8) (p : ℕ) (rbytes : UInt64) : ℕ :=
  let p := p - 1
  if hf : (m p).toNat < 13 then if rbytes.toNat < size ⟨_, hf⟩ then p else 0 else 0

/-- What `realloc` should return: the pointer where the block of the region has room, or 0. -/
def expected (p : ℕ) (nbytes rbytes : UInt64) : ℕ :=
  match poolOf nbytes with
  | some k => if rbytes.toNat < size k then p else 0
  | none => 0

/-- For a region of `nbytes` at `p`, `realloc` returns what it should, and the sized `free` leaves the
pools as the other one does. -/
structure Agrees (h : Heap) (p : ℕ) (nbytes rbytes : UInt64) : Prop where
  realloc : realloc h.mem p rbytes = expected p nbytes rbytes
  free : (h.alloc.freeSized h.mem p nbytes).2.1.pools = (h.alloc.free h.mem p).2.1.pools

variable {h h₀ : Heap} {ls : Pool → List ℕ} {k : Pool} {p b : ℕ} {nbytes rbytes : UInt64}

theorem poolOf_eq_none : poolOf nbytes = none ↔ 65536 < nbytes.toNat := by
  have hmax : ∀ k : Pool, size k ≤ 65536 := by decide
  have hlast : size 12 = 65536 := by decide
  unfold poolOf
  rw [List.find?_eq_none]
  constructor
  · intro hall
    have := hall 12 (List.mem_finRange _)
    rw [decide_eq_true_eq, hlast] at this
    omega
  · intro hlt k _
    have := hmax k
    rw [decide_eq_true_eq]
    omega

/-! ### Regions of the pools -/

/-- The flag is returned, or nothing. -/
theorem realloc_pool (hm : h.mem b = flag (some k)) (rbytes : UInt64) :
    realloc h.mem (b + 1) rbytes = if rbytes.toNat < size k then b else 0 := by
  have hflag : (h.mem b).toNat = k := by rw [hm, toNat_flag]
  have hf : (h.mem (b + 1 - 1)).toNat < 13 := by
    rw [Nat.add_sub_cancel, hflag]
    exact k.isLt
  have hpool : (⟨(h.mem (b + 1 - 1)).toNat, hf⟩ : Pool) = k := Fin.ext hflag
  unfold realloc
  dsimp only
  rw [dif_pos hf, hpool]
  rfl

/-- **`realloc` is right about a region of a pool where it returns nothing.** -/
theorem realloc_eq_iff (hm : h.mem b = flag (some k)) (hk : poolOf nbytes = some k) :
    realloc h.mem (b + 1) rbytes = expected (b + 1) nbytes rbytes ↔ size k ≤ rbytes.toNat := by
  rw [realloc_pool hm]
  unfold expected
  rw [hk]
  dsimp only
  split_ifs <;> omega

/-- The sized `free` puts another address before the free list. -/
theorem freeSized_ne (hm : h.mem b = flag (some k)) (hk : poolOf nbytes = some k) :
    (h.alloc.freeSized h.mem (b + 1) nbytes).2.1.pools ≠ (h.alloc.free h.mem (b + 1)).2.1.pools := by
  have hfree : (h.alloc.free h.mem (b + 1)).2.1 = (push h k b).alloc :=
    congrArg Heap.alloc (free_push hm)
  have hsized : ((h.alloc.freeSized h.mem (b + 1) nbytes).2.1.pools k).freeNext = b + 1 := by
    unfold MemAllocator.freeSized MemAllocator.setPool
    rw [hk]
    dsimp only
    rw [Function.update_self]
    rfl
  have hpush : ((push h k b).alloc.pools k).freeNext = b := by
    unfold push MemAllocator.setPool
    dsimp only
    rw [Function.update_self]
  intro heq
  have hnext := congrArg (fun pools => (pools k).freeNext) heq
  rw [hsized, hfree, hpush] at hnext
  omega

/-! ### Large regions -/

theorem agrees_large (hm : h.mem b = flag none) (hk : poolOf nbytes = none) (rbytes : UInt64) :
    Agrees h (b + 1) nbytes rbytes where
  realloc := by
    have hf : ¬ (h.mem (b + 1 - 1)).toNat < 13 := by
      rw [Nat.add_sub_cancel, hm]
      decide
    unfold realloc expected
    dsimp only
    rw [hk, dif_neg hf]
  free := by
    have hfree : (h.alloc.free h.mem (b + 1)).2.1 = (give h b).alloc :=
      congrArg Heap.alloc (free_give hm)
    rw [hfree]
    unfold MemAllocator.freeSized
    rw [hk]
    rfl

/-! ### Runs -/

theorem realloc_iff_of_good (hg : Good h ls) (hp : h.live p = some nbytes) (rbytes : UInt64) :
    realloc h.mem p rbytes = expected p nbytes rbytes ↔
      65536 < nbytes.toNat ∨ room nbytes ≤ rbytes.toNat := by
  obtain ⟨b, rfl, -⟩ := hg.piece_of_live hp
  have hm := hg.tag b nbytes hp
  rw [← poolOf_eq_none]
  cases hk : poolOf nbytes with
  | none =>
    rw [hk] at hm
    exact iff_of_true (agrees_large hm hk rbytes).realloc (Or.inl rfl)
  | some k =>
    rw [hk] at hm
    unfold room
    rw [realloc_eq_iff hm hk, hk]
    exact (or_iff_right (Option.some_ne_none k)).symm

theorem free_iff_of_good (hg : Good h ls) (hp : h.live p = some nbytes) :
    (h.alloc.freeSized h.mem p nbytes).2.1.pools = (h.alloc.free h.mem p).2.1.pools ↔
      65536 < nbytes.toNat := by
  obtain ⟨b, rfl, -⟩ := hg.piece_of_live hp
  have hm := hg.tag b nbytes hp
  rw [← poolOf_eq_none]
  cases hk : poolOf nbytes with
  | none =>
    rw [hk] at hm
    exact iff_of_true (agrees_large hm hk 0).free rfl
  | some k =>
    rw [hk] at hm
    exact iff_of_false (freeSized_ne hm hk) (Option.some_ne_none k)

/-- **Where `realloc` and the sized `free` do what they should**, in every run of requests, writes and
frees: both for the regions that are in no pool, and `realloc` also where the block has no room. -/
theorem agrees_iff (m : ℕ → UInt8) (base : Pool → ℕ) (as : List Label) {h₀ h : Heap}
    (hb : Heap.boot m base = some h₀) (hok : ∀ a ∈ as, a.Ok) (hrun : run Heap.step h₀ as = some h)
    {p : ℕ} {nbytes : UInt64} (hp : h.live p = some nbytes) (rbytes : UInt64) :
    (Agrees h p nbytes rbytes ↔ 65536 < nbytes.toNat) ∧
    (realloc h.mem p rbytes = expected p nbytes rbytes ↔
      65536 < nbytes.toNat ∨ room nbytes ≤ rbytes.toNat) ∧
    ((h.alloc.freeSized h.mem p nbytes).2.1.pools = (h.alloc.free h.mem p).2.1.pools ↔
      65536 < nbytes.toNat) := by
  obtain ⟨ls, hg⟩ := good_run hb hok hrun
  have hrealloc := realloc_iff_of_good hg hp rbytes
  have hfree := free_iff_of_good hg hp
  refine ⟨⟨fun ha => hfree.mp ha.free, fun hlt => ?_⟩, hrealloc, hfree⟩
  exact ⟨hrealloc.mpr (Or.inl hlt), hfree.mpr hlt⟩

/-- A region of 70000 bytes is in no pool. -/
theorem agrees_iff_large : ∃ h₀ h, Heap.boot (fun _ => 0) places = some h₀ ∧
    run Heap.step h₀ [.malloc 70000 1048576] = some h ∧ h.live 1048577 = some 70000 ∧
    Agrees h 1048577 70000 8 := by
  obtain ⟨h₀, hb⟩ := Option.isSome_iff_exists.mp
    (by decide +kernel : (Heap.boot (fun _ => 0) places).isSome = true)
  have hrun : ((Heap.boot (fun _ => 0) places).bind fun h₀ =>
      (run Heap.step h₀ [.malloc 70000 1048576]).map fun h => h.live 1048577) = some (some 70000) := by
    decide +kernel
  rw [hb, Option.bind_some] at hrun
  obtain ⟨h, hh, hlive⟩ := Option.map_eq_some_iff.mp hrun
  exact ⟨h₀, h, hb, hh, hlive,
    (agrees_iff (fun _ => 0) places [.malloc 70000 1048576] hb (by decide) hh hlive 8).1.mpr (by decide)⟩

/-- **The flag of a region of 16 bytes is returned** where it is asked for 8. -/
theorem not_agrees_small : ∃ h₀ h, Heap.boot (fun _ => 0) places = some h₀ ∧
    run Heap.step h₀ [.malloc 16 0] = some h ∧ h.live 4194832 = some 16 ∧
    realloc h.mem 4194832 8 = 4194831 ∧ ¬ Agrees h 4194832 16 8 := by
  obtain ⟨h₀, hb⟩ := Option.isSome_iff_exists.mp
    (by decide +kernel : (Heap.boot (fun _ => 0) places).isSome = true)
  have hrun : ((Heap.boot (fun _ => 0) places).bind fun h₀ =>
      (run Heap.step h₀ [.malloc 16 0]).map fun h => (h.live 4194832, realloc h.mem 4194832 8)) =
      some (some 16, 4194831) := by
    decide +kernel
  rw [hb, Option.bind_some] at hrun
  obtain ⟨h, hh, heq⟩ := Option.map_eq_some_iff.mp hrun
  obtain ⟨hlive, hre⟩ := Prod.ext_iff.mp heq
  refine ⟨h₀, h, hb, hh, hlive, hre, fun ha => ?_⟩
  have hexpected := hre.symm.trans ha.realloc
  exact absurd hexpected (by decide)

end ChatShow.CommBase.Realloc
