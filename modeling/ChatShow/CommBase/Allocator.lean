import ChatShow.CommBase.BlockPool
import ChatShow.Lib.Runs
import Mathlib.Data.List.FinRange
import Mathlib.Logic.Function.Basic

/-! # The memory allocator

`MemAllocator` has thirteen pools of blocks. A request goes to the first pool whose size is enough, and
one that is larger than all of them to the system. The byte in front of what is handed out says where it
came from (`flag`), and `free` reads it there. `Heap` is the allocator with the memory, the areas that the
system has given and the regions that are not freed yet, and `step` is a request or a write into a region. -/

namespace ChatShow.CommBase.Allocator

open ChatShow.Lib.FreeLists ChatShow.CommBase.BlockPool

abbrev Pool := Fin 13

/-- The sizes of the pools. -/
def sizes : Vector ℕ 13 :=
  #v[16, 32, 64, 128, 256, 512, 1024, 2048, 4096, 8192, 16384, 32768, 65536]

def size (k : Pool) : ℕ := sizes.get k

/-- The first pool whose size is enough. -/
def poolOf (nbytes : UInt64) : Option Pool :=
  (List.finRange 13).find? fun k => nbytes.toNat ≤ size k

/-- The byte in front of a region. -/
def flag : Option Pool → UInt8
  | some k => UInt8.ofNat k
  | none => 13

structure MemAllocator where
  pools : Pool → AllocatorBlock

namespace MemAllocator

variable (al : MemAllocator) (m : ℕ → UInt8)

def setPool (k : Pool) (b : AllocatorBlock) : MemAllocator := ⟨Function.update al.pools k b⟩

/-- The pools before they get their first buffers. -/
def new : MemAllocator := ⟨fun k => .new (size k) 32⟩

/-- What a request asks of the system, if it does. -/
def asked (nbytes : UInt64) : Option ℕ :=
  match poolOf nbytes with
  | some k => if (al.pools k).freeNext ≠ 0 then none else some (al.pools k).total
  | none => some (nbytes + 1).toNat

/-- A request; `base` is what the system gives where it is asked. -/
def malloc (nbytes : UInt64) (base : ℕ) : (ℕ → UInt8) × MemAllocator × ℕ :=
  match poolOf nbytes with
  | some k =>
    let r := (al.pools k).malloc m base
    (Function.update r.1 r.2.2 (flag (some k)), al.setPool k r.2.1, r.2.2 + 1)
  | none => (Function.update m base (flag none), al, base + 1)

/-- A pointer is freed; the last component is what goes back to the system. -/
def free (p : ℕ) : (ℕ → UInt8) × MemAllocator × Option ℕ :=
  if p = 0 then (m, al, none)
  else if hf : (m (p - 1)).toNat < 13 then
    let r := (al.pools ⟨_, hf⟩).free m (p - 1)
    (r.1, al.setPool ⟨_, hf⟩ r.2, none)
  else if (m (p - 1)).toNat = 13 then (m, al, some (p - 1))
  else (m, al, none)

/-- The other `free`, which has the size and not the flag, and takes no step back. -/
def freeSized (p : ℕ) (nbytes : UInt64) : (ℕ → UInt8) × MemAllocator × Option ℕ :=
  match poolOf nbytes with
  | some k =>
    let r := (al.pools k).free m p
    (r.1, al.setPool k r.2, none)
  | none => (m, al, some p)

end MemAllocator

/-! ### The heap -/

/-- Two ranges of addresses, each with its beginning and its length, have no byte in common. -/
def Apart (a a' : ℕ × ℕ) : Prop := a.1 + a.2 ≤ a'.1 ∨ a'.1 + a'.2 ≤ a.1

instance (a a' : ℕ × ℕ) : Decidable (Apart a a') := inferInstanceAs (Decidable (_ ∨ _))

/-- `areas` has what the system has given, and `live` how much was asked for at a pointer that is not
freed yet. -/
structure Heap where
  mem : ℕ → UInt8
  alloc : MemAllocator
  areas : List (ℕ × ℕ) := []
  live : ℕ → Option UInt64 := fun _ => none

/-- The system gives `len` bytes that are not in use. -/
def Gives (areas : List (ℕ × ℕ)) (base len : ℕ) : Prop :=
  base ≠ 0 ∧ base + len ≤ 256 ^ pointerSize ∧ ∀ a ∈ areas, Apart (base, len) a

instance (areas : List (ℕ × ℕ)) (base len : ℕ) : Decidable (Gives areas base len) :=
  inferInstanceAs (Decidable (_ ∧ _ ∧ _))

inductive Label where
  | malloc (nbytes : UInt64) (base : ℕ)
  | free (p : ℕ)
  | freeSized (p : ℕ) (nbytes : UInt64)
  | write (p i : ℕ) (v : UInt8)

namespace Heap

variable (h : Heap)

/-- Pool `k` gets a buffer. -/
def grow (k : Pool) (base : ℕ) : Heap :=
  let r := (h.alloc.pools k).allocatSize h.mem base
  { h with
    mem := r.1
    alloc := h.alloc.setPool k r.2
    areas := (base, (h.alloc.pools k).total) :: h.areas }

/-- The constructor of a pool. -/
def construct (k : Pool) (base : ℕ) : Option Heap :=
  if Gives h.areas base (h.alloc.pools k).total then some (h.grow k base) else none

/-- The constructor of the allocator: one pool after the other gets its first buffer. -/
def boot (m : ℕ → UInt8) (base : Pool → ℕ) : Option Heap :=
  (List.finRange 13).foldlM (fun h k => h.construct k (base k)) ⟨m, .new, [], fun _ => none⟩

def malloc (nbytes : UInt64) (base : ℕ) : Heap :=
  let r := h.alloc.malloc h.mem nbytes base
  { mem := r.1
    alloc := r.2.1
    areas := ((h.alloc.asked nbytes).map (base, ·)).toList ++ h.areas
    live := Function.update h.live r.2.2 (some nbytes) }

/-- What a `free` of `p` leaves. -/
def freed (p : ℕ) (r : (ℕ → UInt8) × MemAllocator × Option ℕ) : Heap where
  mem := r.1
  alloc := r.2.1
  areas := h.areas.filter fun a => some a.1 ≠ r.2.2
  live := Function.update h.live p none

/-- A request, a `free` of what is not freed yet, or a write into the bytes that were asked for. -/
def step : Label → Option Heap
  | .malloc nbytes base =>
    if ∀ len ∈ h.alloc.asked nbytes, Gives h.areas base len then some (h.malloc nbytes base) else none
  | .free p => (h.live p).map fun _ => h.freed p (h.alloc.free h.mem p)
  | .freeSized p nbytes => (h.live p).map fun _ => h.freed p (h.alloc.freeSized h.mem p nbytes)
  | .write p i v =>
    (h.live p).bind fun nbytes =>
      if i < nbytes.toNat then some { h with mem := Function.update h.mem (p + i) v } else none

end Heap

/-! ### What is asked -/

/-- The bytes of a region: those of the block without its flag, or what was asked of the system. -/
def room (nbytes : UInt64) : ℕ :=
  match poolOf nbytes with
  | some k => size k
  | none => nbytes.toNat

/-- The regions that are not freed are apart, each with the flag in front of it; each is as large as was
asked for, and in what the system has given; its flag is as `malloc` wrote it; and the free blocks of a
pool are its own blocks that are not in use. -/
structure Contract (h : Heap) : Prop where
  apart : ∀ p nbytes q nbytes', h.live p = some nbytes → h.live q = some nbytes' → p ≠ q →
    Apart (p - 1, room nbytes + 1) (q - 1, room nbytes' + 1)
  enough : ∀ p nbytes, h.live p = some nbytes →
    nbytes.toNat ≤ room nbytes ∧ ∃ a ∈ h.areas, a.1 < p ∧ p + room nbytes ≤ a.1 + a.2
  tag : ∀ p nbytes, h.live p = some nbytes → h.mem (p - 1) = flag (poolOf nbytes)
  home : ∀ p nbytes k, h.live p = some nbytes → poolOf nbytes = some k →
    p - 1 ∈ (h.alloc.pools k).blocks
  back : ∀ k, ∃ l, IsFree h.mem (h.alloc.pools k).freeNext l ∧ l.Nodup ∧
    ∀ b, b ∈ l ↔ b ∈ (h.alloc.pools k).blocks ∧ h.live (b + 1) = none

/-- Requests that are met: the size has room for the flag, and what is freed is freed by its flag. -/
def Label.Ok : Label → Prop
  | .malloc nbytes _ => nbytes + 1 ≠ 0
  | .freeSized _ _ => False
  | _ => True

instance : ∀ a : Label, Decidable a.Ok
  | .malloc nbytes _ => inferInstanceAs (Decidable (nbytes + 1 ≠ 0))
  | .freeSized _ _ => inferInstanceAs (Decidable False)
  | .free _ | .write _ _ _ => inferInstanceAs (Decidable True)

end ChatShow.CommBase.Allocator
