import Mathlib.Data.Int.Init
import Mathlib.Tactic.Common
import ChatShow.Lib.Cells

/-! # `CUtil::SafeMemmove`

The one guarded copy that the network layer uses everywhere. Both lengths are `DWORD`s, so a
negative `int` passed for one of them is a length of at least `2 ^ 31`. The bounds of the machine
integers are written out: 2147483648 is `2 ^ 31`, and 4294967296 is `2 ^ 32`. -/

namespace ChatShow.CommBase.Util

open ChatShow.Lib.Cells

/-- An `int` passed where a `DWORD` is expected. -/
def dword (x : ℤ) : ℕ := (x % 4294967296).toNat

theorem dword_of_nonneg {x : ℤ} (h0 : 0 ≤ x) (h : x < 4294967296) : dword x = x.toNat := by
  unfold dword
  rw [Int.emod_eq_of_lt h0 h]

theorem dword_of_neg {x : ℤ} (h0 : x < 0) (h : -2147483648 ≤ x) : 2147483648 ≤ dword x := by
  unfold dword
  omega

/-- `CUtil::SafeMemmove` to the cell `dst` of the block `m`; `none` is the return value -1. -/
def safeMemmove (m : ℕ → UInt8) (dst : ℕ) (dwDstLen : ℤ) (pSrc : ℕ → UInt8) (dwCopyLen : ℤ) :
    Option (ℕ → UInt8) :=
  if dword dwDstLen < dword dwCopyLen then none
  else some (store m dst (slice pSrc 0 (dword dwCopyLen)))

/-- What a copy that succeeds has done, for a room that is an `int` of its own. -/
theorem safeMemmove_eq_some {m m' : ℕ → UInt8} {dst : ℕ} {pSrc : ℕ → UInt8} {room len : ℤ}
    (h : safeMemmove m dst room pSrc len = some m') (h0 : 0 ≤ room) (h1 : room < 2147483648)
    (hl : -2147483648 ≤ len) (hl' : len < 4294967296) :
    0 ≤ len ∧ len ≤ room ∧ m' = store m dst (slice pSrc 0 len.toNat) := by
  unfold safeMemmove at h
  rw [dword_of_nonneg h0 (by omega)] at h
  by_cases hn : len < 0
  · have := dword_of_neg hn hl
    rw [if_pos (by omega)] at h
    cases h
  · rw [dword_of_nonneg (by omega) hl'] at h
    by_cases hr : room.toNat < len.toNat
    · rw [if_pos hr] at h; cases h
    · rw [if_neg hr] at h
      exact ⟨by omega, by omega, (Option.some.inj h).symm⟩

/-- A copy that fits succeeds. -/
theorem safeMemmove_of_le {room len : ℤ} (m : ℕ → UInt8) (dst : ℕ) (pSrc : ℕ → UInt8)
    (h0 : 0 ≤ len) (h : len ≤ room) (h1 : room < 4294967296) :
    safeMemmove m dst room pSrc len = some (store m dst (slice pSrc 0 len.toNat)) := by
  unfold safeMemmove
  rw [dword_of_nonneg (by omega) h1, dword_of_nonneg h0 (by omega), if_neg (by omega)]

end ChatShow.CommBase.Util
