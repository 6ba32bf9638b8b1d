import Mathlib.Algebra.Group.Nat.Defs
import Mathlib.Data.Int.Notation
import Mathlib.Data.List.Basic
import Mathlib.Order.Defs.LinearOrder
import Mathlib.Tactic.Common

/-! # Passwords

`Password::makeStr` puts the characters of a password and of a digest one between the other, and
`getStr` takes the password out of the result by the length, which it has as an `int`. The digest
has 32 characters; then the password comes back where the length of the result is an `int`
(`getStr_makeStr_iff`). Of the counter of `makeStr` only the parity is used, which an overflow
keeps. -/

namespace ChatShow.Dependence.Password

variable {s t p m str : List UInt8} {c i n : ℕ} {tempSize : ℤ}

/-! ### The functions -/

/-- The loop of `makeStr`. -/
def makeLoop (soureStr targetStr : List UInt8) (tempCounts : ℕ) : List UInt8 :=
  if tempCounts % 2 = 0 then
    match soureStr, targetStr with
    | b :: soureStr, targetStr => (b + 1) :: makeLoop soureStr targetStr (tempCounts + 1)
    | [], b :: targetStr => b :: makeLoop [] targetStr (tempCounts + 1)
    | [], [] => []
  else
    match soureStr, targetStr with
    | soureStr, b :: targetStr => b :: makeLoop soureStr targetStr (tempCounts + 1)
    | b :: soureStr, [] => makeLoop (b :: soureStr) [] (tempCounts + 1)
    | [], [] => []
termination_by 2 * (soureStr.length + targetStr.length) + tempCounts % 2
decreasing_by all_goals simp only [List.length_cons, List.length_nil]; omega

def makeStr (soureStr targetStr : List UInt8) : List UInt8 := makeLoop soureStr targetStr 0

/-- The loop of `getStr`, over `n` characters from `i` on. -/
def getLoop (str : List UInt8) (tempSize : ℤ) : ℕ → ℕ → List UInt8
  | 0, _ => []
  | n + 1, i =>
    let tempIndex : ℤ := if i ≥ 32 then 32 + i else i * 2
    if tempIndex ≥ tempSize then []
    else (str.getD tempIndex.toNat 0 - 1) :: getLoop str tempSize n (i + 1)

def getStr (str : List UInt8) : List UInt8 :=
  let tempSize := Int32.ofNat str.length
  let tempCounts := (tempSize - 32).abs
  getLoop str tempSize.toInt tempCounts.toInt.toNat 0

/-! ### What `makeStr` makes -/

/-- The characters of the two, in turns; the rest of the longer one follows. -/
def mixed : List UInt8 → List UInt8 → List UInt8
  | [], t => t
  | a :: s, [] => (a + 1) :: s.map (· + 1)
  | a :: s, b :: t => (a + 1) :: b :: mixed s t

theorem makeLoop_nil (t : List UInt8) (c : ℕ) : makeLoop [] t c = t := by
  induction t generalizing c with
  | nil =>
    rw [makeLoop.eq_def]
    split_ifs <;> rfl
  | cons b t ih =>
    rw [makeLoop.eq_def]
    split_ifs
    · exact congrArg (b :: ·) (ih _)
    · exact congrArg (b :: ·) (ih _)

/-- A turn of the password. -/
theorem makeLoop_even (a : UInt8) (s t : List UInt8) (hc : c % 2 = 0) :
    makeLoop (a :: s) t c = (a + 1) :: makeLoop s t (c + 1) := by
  rw [makeLoop.eq_def, if_pos hc]

/-- A turn of the digest. -/
theorem makeLoop_odd (b : UInt8) (s t : List UInt8) (hc : c % 2 = 1) :
    makeLoop s (b :: t) c = b :: makeLoop s t (c + 1) := by
  rw [makeLoop.eq_def, if_neg (by omega)]

/-- A turn of the digest that adds nothing. -/
theorem makeLoop_skip (a : UInt8) (s : List UInt8) (hc : c % 2 = 1) :
    makeLoop (a :: s) [] c = makeLoop (a :: s) [] (c + 1) := by
  rw [makeLoop.eq_def, if_neg (by omega)]

/-- Where the digest is used up every other turn adds nothing. -/
theorem makeLoop_rest (s : List UInt8) (hc : c % 2 = 0) : makeLoop s [] c = s.map (· + 1) := by
  induction s generalizing c with
  | nil => exact makeLoop_nil [] c
  | cons a s ih =>
    rw [makeLoop_even a s [] hc, List.map_cons]
    refine congrArg (_ :: ·) ?_
    cases s with
    | nil => exact makeLoop_nil [] _
    | cons b s =>
      rw [makeLoop_skip b s (by omega)]
      exact ih (by omega)

theorem makeLoop_eq (s t : List UInt8) (hc : c % 2 = 0) : makeLoop s t c = mixed s t := by
  induction s generalizing t c with
  | nil => exact makeLoop_nil t c
  | cons a s ih =>
    cases t with
    | nil => exact makeLoop_rest (a :: s) hc
    | cons b t => rw [makeLoop_even a s _ hc, makeLoop_odd b s t (by omega), ih t (by omega), mixed]

theorem makeStr_eq (s t : List UInt8) : makeStr s t = mixed s t := makeLoop_eq s t rfl

theorem length_mixed (s t : List UInt8) : (mixed s t).length = s.length + t.length := by
  induction s generalizing t with
  | nil => exact (Nat.zero_add _).symm
  | cons a s ih =>
    cases t with
    | nil => simp [mixed]
    | cons b t =>
      rw [mixed, List.length_cons, List.length_cons, ih, List.length_cons, List.length_cons]
      omega

/-- Where the character `i` of the password is. -/
theorem getElem?_mixed (h : i < s.length) :
    (mixed s t)[i + min i t.length]? = s[i]?.map (· + 1) := by
  induction s generalizing t i with
  | nil => cases h
  | cons a s ih =>
    cases t with
    | nil =>
      rw [mixed, List.length_nil, Nat.min_zero, Nat.add_zero, ← List.map_cons (f := (· + 1)),
        List.getElem?_map]
    | cons b t =>
      cases i with
      | zero =>
        rw [Nat.zero_min]
        rfl
      | succ i =>
        have hi : i < s.length := Nat.lt_of_succ_lt_succ h
        rw [mixed, List.length_cons,
          show i + 1 + min (i + 1) (t.length + 1) = i + min i t.length + 1 + 1 by omega,
          List.getElem?_cons_succ, List.getElem?_cons_succ, ih hi, List.getElem?_cons_succ]

/-! ### What `getStr` takes out -/

/-- The loop takes out the password from its character `i` on. -/
theorem getLoop_mixed (hm : m.length = 32) (hn : i + n = p.length) :
    getLoop (mixed p m) (p.length + 32) n i = p.drop i := by
  induction n generalizing i with
  | zero =>
    rw [Nat.add_zero] at hn
    rw [getLoop, List.drop_of_length_le (Nat.le_of_eq hn.symm)]
  | succ n ih =>
    have hi : i < p.length := by omega
    have hindex : (if i ≥ 32 then 32 + (i : ℤ) else i * 2) = ((i + min i m.length : ℕ) : ℤ) := by
      rw [hm]
      split_ifs <;> omega
    have hget := getElem?_mixed (t := m) hi
    rw [getLoop, hindex, if_neg (by rw [hm]; omega), Int.toNat_natCast, List.getD_eq_getElem?_getD,
      hget,
      List.getElem?_eq_getElem hi, Option.map_some, Option.getD_some, ih (by omega),
      List.drop_eq_getElem_cons hi, UInt8.add_sub_cancel]

/-- It takes out no more characters than the length it has been told. -/
theorem length_getLoop (str : List UInt8) (tempSize : ℤ) (n i : ℕ) :
    (getLoop str tempSize n i).length ≤ (tempSize - i).toNat := by
  induction n generalizing i with
  | zero => exact Nat.zero_le _
  | succ n ih =>
    rw [getLoop]
    split_ifs with h32 hend hend
    · exact Nat.zero_le _
    · have := ih (i + 1)
      rw [List.length_cons]
      omega
    · exact Nat.zero_le _
    · have := ih (i + 1)
      rw [List.length_cons]
      omega

/-! ### The round trip -/

theorem toInt_abs {a : Int32} (h : 0 ≤ a.toInt) : a.abs.toInt = a.toInt := by
  have hmsb : a.toBitVec.msb = false := BitVec.msb_eq_false_iff_two_mul_lt.mpr (by
    have hint : a.toInt = a.toBitVec.toInt := rfl
    rw [hint, BitVec.toInt_eq_toNat_cond] at h
    split_ifs at h with hlt
    · exact hlt
    · omega)
  change a.toBitVec.abs.toInt = a.toBitVec.toInt
  rw [BitVec.abs_eq, hmsb, if_neg Bool.false_ne_true]

theorem getStr_of_fits (hm : m.length = 32) (h : p.length + 32 < 2 ^ 31) :
    getStr (makeStr p m) = p := by
  have hlen : (makeStr p m).length = p.length + 32 := by rw [makeStr_eq, length_mixed, hm]
  have hsize : (Int32.ofNat (p.length + 32)).toInt = p.length + 32 := by
    rw [Int32.toInt_ofNat_of_lt h]
    rfl
  have hcounts : (Int32.ofNat (p.length + 32) - 32).abs.toInt = p.length := by
    have hsub : Int32.ofNat (p.length + 32) - 32 = Int32.ofNat p.length := by
      rw [Int32.ofNat_add]
      exact Int32.add_sub_cancel _ _
    have hint : (Int32.ofNat p.length).toInt = p.length := Int32.toInt_ofNat_of_lt (by omega)
    rw [hsub, toInt_abs (hint ▸ Int.natCast_nonneg _), hint]
  unfold getStr
  dsimp only
  rw [hlen, hsize, hcounts, Int.toNat_natCast, makeStr_eq]
  exact getLoop_mixed hm (Nat.zero_add _)

/-- A result whose length is no `int` gives fewer characters. -/
theorem getStr_of_long (hm : m.length = 32) (h : 2 ^ 31 ≤ p.length + 32) :
    getStr (makeStr p m) ≠ p := by
  have hlen : (makeStr p m).length = p.length + 32 := by rw [makeStr_eq, length_mixed, hm]
  intro he
  have hshort := congrArg List.length he
  unfold getStr at hshort
  have hle := length_getLoop (makeStr p m) (Int32.ofNat (makeStr p m).length).toInt
    (Int32.ofNat (makeStr p m).length - 32).abs.toInt.toNat 0
  have hsize : (Int32.ofNat (p.length + 32)).toInt = ((p.length + 32 : ℕ) : ℤ).bmod (2 ^ 32) :=
    Int32.toInt_ofNat' ..
  dsimp only at hshort
  rw [hshort, hlen, hsize] at hle
  rw [Int.bmod_def] at hle
  omega

/-- **For which passwords `getStr` gives back what `makeStr` has been given.** -/
theorem getStr_makeStr_iff (p m : List UInt8) (hm : m.length = 32) :
    getStr (makeStr p m) = p ↔ p.length + 32 < 2 ^ 31 := by
  refine ⟨fun h => ?_, getStr_of_fits hm⟩
  by_contra hlong
  exact getStr_of_long hm (Nat.not_lt.mp hlong) h

/-- A password of one character, `a`. -/
theorem getStr_makeStr_iff_one : getStr (makeStr [97] (List.replicate 32 48)) = [97] := by
  have hm : (List.replicate 32 (48 : UInt8)).length = 32 := List.length_replicate ..
  exact (getStr_makeStr_iff [97] _ hm).mpr (by decide)

/-- A password of `2 ^ 31 - 32` characters `a` is not given back. -/
theorem not_getStr_makeStr :
    getStr (makeStr (List.replicate (2 ^ 31 - 32) 97) (List.replicate 32 48)) ≠
      List.replicate (2 ^ 31 - 32) 97 := by
  refine getStr_of_long (List.length_replicate ..) ?_
  rw [List.length_replicate]
  omega

end ChatShow.Dependence.Password
