import ChatShow.Antlib.HttpProtocol
import ChatShow.Lib.Regions

/-! # What escaping touches

The loops of `str2escape` and `escape2str` with every read checked to be of the string and every write to
be of the cells that are there for the result. `str2escape` looks at the room before each write.
`escape2str` looks at it for an escape and at the end, but not for a character: a string has one too many
where the item that there is no room for is a character (`escaping_inBounds_iff`). -/

namespace ChatShow.Antlib.EscapeBounds

open ChatShow.Lib.Cells ChatShow.Lib.Regions ChatShow.Antlib.HttpProtocol

variable {m : ℕ → UInt8} {s : List UInt8} {str res resLen n j : ℕ} {a : Region}

/-! ### The loops with checks -/

/-- `escapeLoop`, which reads in `a` and writes in `b`; `none` where it touches something else. -/
def escapeChecked (a b : Region) (res resLen : ℕ) :
    ℕ → ℕ → ℕ → (ℕ → UInt8) → Option (Option ((ℕ → UInt8) × ℕ))
  | 0, _, j, m =>
    if j < resLen then (b.put m (res + j) 0).map fun m => some (m, j) else some none
  | n + 1, str, j, m => do
    let c ← a.get m str
    if isHttpEnescape c then
      if j + 3 ≥ resLen then some none
      else
        let m ← b.put m (res + j) '%'.toUInt8
        let c ← a.get m str
        let m ← b.put m (res + j) (hexStr ((c &&& 0xF0) >>> 4))
        let c ← a.get m str
        let m ← b.put m (res + j + 1) (hexStr (c &&& 0x0F))
        escapeChecked a b res resLen n (str + 1) (j + 2) m
    else if j + 1 ≥ resLen then some none
    else
      let c ← a.get m str
      let m ← b.put m (res + j) c
      escapeChecked a b res resLen n (str + 1) (j + 1) m

/-- `unescapeLoop`, likewise. -/
def unescapeChecked (a b : Region) (res resLen : ℕ) :
    ℕ → ℕ → ℕ → (ℕ → UInt8) → Option (Option ((ℕ → UInt8) × ℕ))
  | 0, _, j, m =>
    if j < resLen then (b.put m (res + j) 0).map fun m => some (m, j) else some none
  | n + 1, str, j, m => do
    let c ← a.get m str
    if c ≠ '%'.toUInt8 then
      let m ← b.put m (res + j) c
      unescapeChecked a b res resLen n (str + 1) (j + 1) m
    else
      match n with
      | n + 2 =>
        if j ≥ resLen then some none
        else
          let x ← a.get m (str + 1)
          if isHttpDisescape x = false then some none
          else
            let m ← b.put m (res + j) (unescaped x <<< 4)
            let y ← a.get m (str + 2)
            if isHttpDisescape y = false then some none
            else
              let high ← b.get m (res + j)
              let m ← b.put m (res + j) (high ||| unescaped y)
              unescapeChecked a b res resLen n (str + 3) (j + 1) m
      | _ => some none

def str2escapeChecked (m : ℕ → UInt8) (str len res resLen : ℕ) :
    Option (Option ((ℕ → UInt8) × ℕ)) :=
  escapeChecked ⟨str, len⟩ ⟨res, resLen⟩ res resLen len str 0 m

def escape2strChecked (m : ℕ → UInt8) (str len res resLen : ℕ) :
    Option (Option ((ℕ → UInt8) × ℕ)) :=
  unescapeChecked ⟨str, len⟩ ⟨res, resLen⟩ res resLen len str 0 m

/-! ### What a string consists of -/

inductive Item
  | char (c : UInt8)
  | escape (x y : UInt8)
  deriving DecidableEq

/-- The characters and escapes of a string, up to an escape that is none. -/
def items : List UInt8 → List Item
  | [] => []
  | c :: l =>
    if c ≠ '%'.toUInt8 then .char c :: items l
    else
      match l with
      | x :: y :: l =>
        if isHttpDisescape x = true ∧ isHttpDisescape y = true then .escape x y :: items l else []
      | _ => []

/-- The item `k` is a character. -/
def charAt (s : List UInt8) (k : ℕ) : Bool :=
  match (items s)[k]? with
  | some (.char _) => true
  | _ => false

example : items [97, 37, 52, 49, 98, 37, 52] = [.char 97, .escape 52 49, .char 98] := by decide

theorem charAt_char {c : UInt8} (hc : c ≠ '%'.toUInt8) (s : List UInt8) :
    charAt (c :: s) 0 = true ∧ ∀ k, charAt (c :: s) (k + 1) = charAt s k := by
  have hitems : items (c :: s) = .char c :: items s := by
    conv_lhs => unfold items
    exact if_pos hc
  unfold charAt
  rw [hitems]
  exact ⟨rfl, fun _ => rfl⟩

theorem charAt_escape {x y : UInt8} (hx : isHttpDisescape x = true) (hy : isHttpDisescape y = true)
    (s : List UInt8) : charAt ('%'.toUInt8 :: x :: y :: s) 0 = false ∧
      ∀ k, charAt ('%'.toUInt8 :: x :: y :: s) (k + 1) = charAt s k := by
  have hitems : items ('%'.toUInt8 :: x :: y :: s) = .escape x y :: items s := by
    conv_lhs => unfold items
    rw [if_neg (not_not_intro rfl)]
    exact if_pos ⟨hx, hy⟩
  unfold charAt
  rw [hitems]
  exact ⟨rfl, fun _ => rfl⟩

/-- An escape that is none ends the items. -/
theorem charAt_broken {x y : UInt8} (h : isHttpDisescape x = false ∨ isHttpDisescape y = false)
    (s : List UInt8) (k : ℕ) : charAt ('%'.toUInt8 :: x :: y :: s) k = false := by
  have hitems : items ('%'.toUInt8 :: x :: y :: s) = [] := by
    unfold items
    rw [if_neg (not_not_intro rfl)]
    refine if_neg fun hxy => ?_
    rcases h with h | h
    · cases h.symm.trans hxy.1
    · cases h.symm.trans hxy.2
  unfold charAt
  rw [hitems]
  rfl

theorem charAt_percent (x y : UInt8) (s : List UInt8) :
    charAt ('%'.toUInt8 :: x :: y :: s) 0 = false := by
  cases hx : isHttpDisescape x with
  | false => exact charAt_broken (.inl hx) s 0
  | true =>
    cases hy : isHttpDisescape y with
    | false => exact charAt_broken (.inr hy) s 0
    | true => exact (charAt_escape hx hy s).1

/-! ### `str2escape` -/

/-- `str2escape` touches nothing else, whatever is where. -/
theorem escapeChecked_eq (hlow : a.base ≤ str) (hhigh : str + n ≤ a.base + a.size) :
    escapeChecked a ⟨res, resLen⟩ res resLen n str j m = some (escapeLoop res resLen n str j m) := by
  have hput (o : ℕ) (ho : o < resLen) : Region.Has ⟨res, resLen⟩ (res + o) 1 := Region.has_cell ho
  induction n generalizing str j m with
  | zero =>
    unfold escapeChecked escapeLoop
    split_ifs with hlt
    · rw [Region.put_of_has (hput j hlt)]
      rfl
    · rfl
  | succ n ih =>
    have hget : a.Has str 1 := ⟨hlow, by omega⟩
    have hnext (o : ℕ) (m' : ℕ → UInt8) : escapeChecked a ⟨res, resLen⟩ res resLen n (str + 1) o m' =
        some (escapeLoop res resLen n (str + 1) o m') :=
      ih (by omega) (by omega)
    unfold escapeChecked escapeLoop
    simp only [Region.get_of_has hget, Option.bind_eq_bind, Option.bind_some]
    split_ifs with hesc hroom hroom
    · rfl
    · simp only [Region.put_of_has (hput j (by omega)), Region.put_of_has (hput (j + 1) (by omega)),
        Nat.add_assoc, Option.bind_some]
      exact hnext _ _
    · rfl
    · rw [Region.put_of_has (hput j (by omega)), Option.bind_some]
      exact hnext _ _

/-! ### `escape2str` -/

/-- `escape2str` touches nothing else where the item that there is no room for is not a character. What it
has written is behind what it still has to read. -/
theorem unescapeChecked_eq (hlow : a.base ≤ str) (hhigh : str + n ≤ a.base + a.size)
    (hbehind : res + j ≤ str ∨ str + n ≤ res) (hj : j ≤ resLen) :
    unescapeChecked a ⟨res, resLen⟩ res resLen n str j m =
      if charAt (slice m str n) (resLen - j) then none
      else some (unescapeLoop res resLen n str j m) := by
  have hput (o : ℕ) (ho : o < resLen) : Region.Has ⟨res, resLen⟩ (res + o) 1 := Region.has_cell ho
  induction n using Nat.strong_induction_on generalizing str j m with
  | _ n ih =>
  cases n with
  | zero =>
    unfold unescapeChecked unescapeLoop
    rw [slice_zero]
    change _ = some _
    split_ifs with hlt
    · rw [Region.put_of_has (hput j hlt)]
      rfl
    · rfl
  | succ n =>
    have hget (o : ℕ) (ho : o ≤ n) : a.Has (str + o) 1 := ⟨by omega, by omega⟩
    have hrest (o k : ℕ) (c : UInt8) (m : ℕ → UInt8) (ho : 0 < o) (hk : o + k ≤ n + 1) :
        slice (store m (res + j) [c]) (str + o) k = slice m (str + o) k :=
      slice_store_cell_of_disjoint (by omega)
    rw [slice_succ]
    by_cases hc : m str = '%'.toUInt8
    · -- An escape; two more characters are there, or it is none.
      rw [hc]
      conv_lhs => unfold unescapeChecked
      conv_rhs => unfold unescapeLoop
      rw [Region.get_of_has (i := str) (hget 0 (Nat.zero_le n)), if_neg (not_not_intro hc)]
      simp only [Option.bind_eq_bind, Option.bind_some]
      rw [if_neg (not_not_intro hc)]
      match n with
      | 0 => rfl
      | 1 => rfl
      | n + 2 =>
        have h1 := hget 1 (by omega)
        have h2 := hget 2 (by omega)
        rw [slice_succ, slice_succ, Nat.add_assoc str 1 1, Nat.add_assoc str 2 1]
        have hy (c : UInt8) : store m (res + j) [c] (str + 2) = m (str + 2) :=
          store_cell_of_ne (by omega)
        simp only [Region.get_of_has h1, Option.bind_some]
        by_cases hroom : j ≥ resLen
        · rw [if_pos hroom, if_pos hroom, show resLen - j = 0 by omega, charAt_percent]
          rfl
        · rw [if_neg hroom, if_neg hroom]
          cases hx : isHttpDisescape (m (str + 1)) with
          | false =>
            rw [charAt_broken (.inl hx), if_pos rfl]
            rfl
          | true =>
            have hnot : ¬ true = false := Bool.noConfusion
            rw [if_neg hnot, if_neg hnot, Region.put_of_has (hput j (by omega)), Option.bind_some,
              Region.get_of_has h2, Option.bind_some, hy]
            cases hx' : isHttpDisescape (m (str + 2)) with
            | false =>
              rw [charAt_broken (.inr hx'), if_pos rfl]
              rfl
            | true =>
              rw [if_neg hnot, if_neg hnot, Region.get_of_has (hput j (by omega)), Option.bind_some,
                Region.put_of_has (hput j (by omega)), Option.bind_some,
                show resLen - j = resLen - (j + 1) + 1 by omega, (charAt_escape hx hx' _).2,
                ih n (by omega) (by omega) (by omega) (by omega) (by omega), hrest 3 n _ _ (by omega) (by omega),
                hrest 3 n _ _ (by omega) (by omega)]
    · obtain ⟨hzero, hsucc⟩ := charAt_char hc (slice m (str + 1) n)
      conv_lhs => unfold unescapeChecked
      conv_rhs => unfold unescapeLoop
      rw [Region.get_of_has (i := str) (hget 0 (Nat.zero_le n)), if_pos hc]
      simp only [Option.bind_eq_bind, Option.bind_some]
      rw [if_pos hc]
      by_cases hlt : j < resLen
      · rw [Region.put_of_has (hput j hlt), Option.bind_some, show resLen - j = resLen - (j + 1) + 1 by omega,
          hsucc, ih n (Nat.lt_succ_self n) (by omega) (by omega) (by omega) (by omega),
          hrest 1 n _ _ (Nat.succ_pos 0) (by omega)]
      · -- There is no room, and it is written.
        have hout : ¬ Region.Has ⟨res, resLen⟩ (res + j) 1 := by
          unfold Region.Has
          dsimp only
          omega
        rw [Region.put_none hout, show resLen - j = 0 by omega, hzero]
        rfl

/-! ### Both -/

/-- The two touch the string and the cells for the result and nothing else: with the checks they do what
they do without. -/
def InBounds (m : ℕ → UInt8) (str len res resLen : ℕ) : Prop :=
  str2escapeChecked m str len res resLen = some (str2escape m str len res resLen) ∧
    escape2strChecked m str len res resLen = some (escape2str m str len res resLen)

/-- **Where escaping stays in its buffers**: where the item of the string that there is no room for, if there
is one, is not a character. The buffers are apart, or the result is written over what has been read. -/
theorem escaping_inBounds_iff (hs : slice m str s.length = s)
    (hbehind : res ≤ str ∨ str + s.length ≤ res) :
    InBounds m str s.length res resLen ↔ charAt s resLen = false := by
  have henc : str2escapeChecked m str s.length res resLen = some (str2escape m str s.length res resLen) :=
    escapeChecked_eq le_rfl le_rfl
  have hdec : escape2strChecked m str s.length res resLen =
      if charAt s resLen then none else some (escape2str m str s.length res resLen) := by
    have hrun := @unescapeChecked_eq m str res resLen s.length 0 ⟨str, s.length⟩ le_rfl le_rfl hbehind
      (Nat.zero_le resLen)
    rwa [hs] at hrun
  unfold InBounds
  rw [hdec, and_iff_right henc]
  cases charAt s resLen with
  | false => exact iff_of_true rfl rfl
  | true => exact iff_of_false (fun h => by cases h) (fun h => by cases h)

theorem escaping_inBounds_iff_cut : InBounds (cells [97, 37, 52]) 0 3 100 1 :=
  (@escaping_inBounds_iff (cells [97, 37, 52]) [97, 37, 52] 0 100 1 rfl (by decide)).mpr (by decide)

/-- Two characters where there is room for one. -/
theorem not_escaping_inBounds : ¬ InBounds (cells [97, 98]) 0 2 100 1 := by
  rintro ⟨-, h⟩
  have hnone : (escape2strChecked (cells [97, 98]) 0 2 100 1).isSome = false := by decide
  rw [h] at hnone
  cases hnone

end ChatShow.Antlib.EscapeBounds
