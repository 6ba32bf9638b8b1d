import Mathlib.Data.Int.Notation
import Mathlib.Data.List.Basic
import Mathlib.Data.List.GetD
import Mathlib.Tactic.Common

/-! # `CUtil::GetUTF8Count`

The loop goes from a lead byte to the next one and adds up how many bytes the sequences have, so
that a valid string has its bytes counted and not its characters. It reads a byte before it compares
what it has counted with the length, and with a sequence that is torn off at the end it reads behind
the NUL. `counted_iff` says for which strings neither happens. The length is taken as an `int`, which
is another number for a string of `2 ^ 31` bytes or more. -/

namespace ChatShow.CommBase.Utf8Count

/-! ### The function -/

/-- `g_utf8Table`. -/
def g_utf8Table : List ℕ :=
  List.replicate 192 1 ++ List.replicate 32 2 ++ List.replicate 16 3 ++
    [4, 4, 4, 4, 4, 4, 4, 4, 5, 5, 5, 5, 6, 6, 1, 1]

/-- How many bytes the sequence has that begins with a byte. -/
def seqLen (b : UInt8) : ℕ := g_utf8Table.getD b.toNat 0

theorem g_utf8Table_eq : g_utf8Table = (List.range 256).map fun n =>
    if n < 192 then 1 else if n < 224 then 2 else if n < 240 then 3
    else if n < 248 then 4 else if n < 252 then 5 else if n < 254 then 6 else 1 := by
  decide +kernel

theorem seqLen_eq (b : UInt8) : seqLen b =
    if b.toNat < 192 then 1 else if b.toNat < 224 then 2 else if b.toNat < 240 then 3
    else if b.toNat < 248 then 4 else if b.toNat < 252 then 5 else if b.toNat < 254 then 6
    else 1 := by
  unfold seqLen
  rw [g_utf8Table_eq, List.getD_eq_getElem _ _ (by simpa using b.toNat_lt), List.getElem_map,
    List.getElem_range]

theorem seqLen_pos (b : UInt8) : 0 < seqLen b := by
  rw [seqLen_eq]
  split_ifs <;> decide

/-- The loop. `none`: a byte behind the NUL is read, or `len` is no `int` any more. -/
def countLoop (str : List UInt8) (clen len : ℤ) (ptr : ℕ) : Option ℤ :=
  if ptr < str.length + 1 then
    let b := str.getD ptr 0 -- the NUL at the end
    if b ≠ 0 ∧ len < clen then
      if len + seqLen b < 2147483648 then countLoop str clen (len + seqLen b) (ptr + seqLen b)
      else none
    else some len
  else none
termination_by str.length + 1 - ptr
decreasing_by exact Nat.sub_lt_sub_left ‹_› (Nat.lt_add_of_pos_right (seqLen_pos _))

/-- `CUtil::GetUTF8Count` for a string without its NUL. -/
def getUTF8Count : Option (List UInt8) → Option ℤ
  | none => some 0
  | some str => countLoop str (Int32.ofNat str.length).toInt 0 0

/-! ### What is asked of it -/

/-- The bytes of a string of characters. -/
def utf8 (l : List Char) : List UInt8 := l.flatMap String.utf8EncodeChar

/-- The string is read up to its NUL at most, and where it is valid its characters are counted. -/
def Counted (str : List UInt8) : Prop :=
  ∃ n, getUTF8Count (some str) = some n ∧ ∀ l, str = utf8 l → n = l.length

/-- A lead byte with as many bytes as it says. -/
def IsSeq (p : List UInt8) : Prop := ∃ b t, p = b :: t ∧ p.length = seqLen b

/-- A lead byte with fewer bytes. -/
def Torn (t : List UInt8) : Prop := ∃ b t', t = b :: t' ∧ t.length < seqLen b

/-- **When a string is counted.** Where the length is an `int`, no sequence is torn off at the end,
and a string that is valid has characters of one byte only. A longer string has whole sequences up to
the byte where the `int` says that it ends; where it is valid it has as many characters as there are
bytes up to the end of the character with that byte. -/
def Fits (str : List UInt8) : Prop :=
  if str.length < 2147483648 then
    (∃ ps : List (List UInt8), (∀ p ∈ ps, IsSeq p) ∧ str = ps.flatten) ∧
      ∀ l, str = utf8 l → ∀ b ∈ str, b < 0x80
  else
    let clen := (Int32.ofNat str.length).toInt
    (∃ (ps : List (List UInt8)) (rest : List UInt8), (∀ p ∈ ps, IsSeq p) ∧
      str = ps.flatten ++ rest ∧ clen ≤ ps.flatten.length ∧ ps.flatten.length < 2147483648) ∧
      ∀ l, str = utf8 l → ∃ l₁ x l₂, l = l₁ ++ x :: l₂ ∧ (utf8 l₁).length < clen ∧
        clen ≤ (utf8 (l₁ ++ [x])).length ∧ (utf8 (l₁ ++ [x])).length < 2147483648 ∧
        (utf8 (l₁ ++ [x])).length = l.length

variable {str u p t : List UInt8} {ps qs : List (List UInt8)} {clen : ℤ} {k m n : ℕ} {l : List Char}

/-! ### Sequences -/

theorem IsSeq.length_pos (h : IsSeq p) : 0 < p.length := by
  obtain ⟨b, t, rfl, -⟩ := h
  exact Nat.succ_pos _

/-- **Every string has whole sequences and then a torn one, if anything.** -/
theorem exists_seqs (str : List UInt8) :
    ∃ (ps : List (List UInt8)) (t : List UInt8), (∀ p ∈ ps, IsSeq p) ∧ (t = [] ∨ Torn t) ∧
      str = ps.flatten ++ t := by
  induction hn : str.length using Nat.strongRecOn generalizing str with
  | ind n ih =>
    cases str with
    | nil => exact ⟨[], [], fun p hp => (List.not_mem_nil hp).elim, Or.inl rfl, rfl⟩
    | cons b s =>
      by_cases hb : (b :: s).length < seqLen b
      · exact ⟨[], b :: s, fun p hp => (List.not_mem_nil hp).elim, Or.inr ⟨b, s, rfl, hb⟩, rfl⟩
      · obtain ⟨w, hw⟩ : ∃ w, seqLen b = w + 1 := Nat.exists_eq_add_one.mpr (seqLen_pos b)
        rw [hw, List.length_cons] at hb
        obtain ⟨ps, t, hps, ht, hs⟩ := ih (s.drop w).length (by
          rw [List.length_drop, ← hn, List.length_cons]
          omega) (s.drop w) rfl
        refine ⟨(b :: s.take w) :: ps, t, fun p hp => ?_, ht, ?_⟩
        · obtain rfl | hp := List.mem_cons.mp hp
          · refine ⟨b, s.take w, rfl, ?_⟩
            rw [List.length_cons, List.length_take_of_le (by omega), hw]
          · exact hps p hp
        · rw [List.flatten_cons, List.append_assoc, ← hs, List.cons_append, List.take_append_drop]

/-- **A character is a whole sequence.** -/
theorem isSeq_utf8EncodeChar (x : Char) : IsSeq (String.utf8EncodeChar x) := by
  unfold String.utf8EncodeChar
  dsimp only
  split_ifs
  all_goals
    refine ⟨_, _, rfl, ?_⟩
    rw [seqLen_eq, UInt8.toNat_ofNat']
    simp only [List.length_cons, List.length_nil]
    split_ifs <;> omega

theorem one_le_length_utf8EncodeChar (x : Char) : 1 ≤ (String.utf8EncodeChar x).length :=
  (isSeq_utf8EncodeChar x).length_pos

/-- The characters of one byte. -/
theorem length_utf8EncodeChar_eq_one (x : Char) :
    (String.utf8EncodeChar x).length = 1 ↔ ∀ b ∈ String.utf8EncodeChar x, b < 0x80 := by
  unfold String.utf8EncodeChar
  dsimp only
  split_ifs
  all_goals
    simp only [List.length_cons, List.length_nil, List.forall_mem_cons, List.not_mem_nil,
      IsEmpty.forall_iff, implies_true, and_true, true_iff, UInt8.lt_iff_toNat_lt,
      UInt8.toNat_ofNat', UInt8.reduceToNat]
    omega

theorem utf8_cons (x : Char) (l : List Char) : utf8 (x :: l) = String.utf8EncodeChar x ++ utf8 l :=
  List.flatMap_cons

theorem length_le_utf8 (l : List Char) : l.length ≤ (utf8 l).length := by
  induction l with
  | nil => exact Nat.le_refl 0
  | cons x l ih =>
    have := one_le_length_utf8EncodeChar x
    rw [utf8_cons, List.length_cons, List.length_append]
    omega

/-- **As many bytes as characters: all are of one byte.** -/
theorem length_utf8_eq_iff (l : List Char) :
    (utf8 l).length = l.length ↔ ∀ b ∈ utf8 l, b < 0x80 := by
  induction l with
  | nil => exact iff_of_true rfl fun b hb => (List.not_mem_nil hb).elim
  | cons x l ih =>
    have hx := one_le_length_utf8EncodeChar x
    have hl := length_le_utf8 l
    rw [utf8_cons, List.forall_mem_append, ← ih, ← length_utf8EncodeChar_eq_one, List.length_append,
      List.length_cons]
    omega

/-! ### The loop -/

theorem countLoop_cons {b : UInt8} (h0 : b ≠ 0) (u s : List UInt8) (clen len : ℤ) :
    countLoop (u ++ b :: s) clen len u.length =
      if len < clen then
        if len + seqLen b < 2147483648 then
          countLoop (u ++ b :: s) clen (len + seqLen b) (u.length + seqLen b)
        else none
      else some len := by
  have hlt : u.length < (u ++ b :: s).length + 1 := by
    rw [List.length_append]
    omega
  have hget : (u ++ b :: s).getD u.length 0 = b := by
    rw [List.getD_append_right _ _ _ _ (Nat.le_refl _), Nat.sub_self, List.getD_cons_zero]
  rw [countLoop, if_pos hlt, hget]
  exact if_congr (and_iff_right h0) rfl rfl

theorem countLoop_end (str : List UInt8) (clen len : ℤ) :
    countLoop str clen len str.length = some len := by
  rw [countLoop, if_pos (Nat.lt_succ_self _), List.getD_eq_default _ _ (Nat.le_refl _)]
  exact if_neg fun h => h.1 rfl

theorem countLoop_behind (h : str.length < k) (clen len : ℤ) : countLoop str clen len k = none := by
  rw [countLoop, if_neg (by omega)]

/-- Where the loop stops that has come to `k`, with the sequences `ps` before it. -/
def stop (clen : ℤ) (k : ℕ) : List (List UInt8) → Option ℕ
  | [] => if clen ≤ k then some k else none
  | p :: ps =>
    if clen ≤ k then some k
    else if k + p.length < 2147483648 then stop clen (k + p.length) ps
    else none

/-- **The loop goes over whole sequences, and cannot go over one that is torn.** -/
theorem countLoop_eq_stop (hps : ∀ p ∈ ps, IsSeq p) (ht : t = [] ∨ Torn t)
    (h0 : 0 ∉ ps.flatten ++ t) (hc : clen ≤ (u ++ (ps.flatten ++ t)).length) :
    countLoop (u ++ (ps.flatten ++ t)) clen u.length u.length =
      (stop clen u.length ps).map (Nat.cast : ℕ → ℤ) := by
  induction ps generalizing u with
  | nil =>
    rw [List.flatten_nil, List.nil_append] at h0 hc ⊢
    rw [stop]
    obtain rfl | ⟨b, s, rfl, hb⟩ := ht
    · rw [List.append_nil] at hc ⊢
      rw [countLoop_end, if_pos hc]
      rfl
    · rw [countLoop_cons fun hb => h0 (hb ▸ List.mem_cons_self)]
      by_cases hle : clen ≤ u.length
      · rw [if_neg (Int.not_lt.mpr hle), if_pos hle]
        rfl
      · have hbehind : (u ++ b :: s).length < u.length + seqLen b := by
          rw [List.length_append]
          omega
        rw [if_pos (Int.not_le.mp hle), if_neg hle, countLoop_behind hbehind, ite_self]
        rfl
  | cons p ps ih =>
    obtain ⟨b, s, rfl, hb⟩ := hps _ List.mem_cons_self
    rw [List.flatten_cons, List.append_assoc] at h0 hc ⊢
    rw [stop, List.cons_append, countLoop_cons fun hb => h0 (hb ▸ List.mem_cons_self), ← hb]
    by_cases hle : clen ≤ u.length
    · rw [if_neg (Int.not_lt.mpr hle), if_pos hle]
      rfl
    · rw [if_pos (Int.not_le.mp hle), if_neg hle]
      by_cases hlt : u.length + (b :: s).length < 2147483648
      · rw [if_pos hlt, if_pos (by omega), ← List.length_append, ← Int.natCast_add,
          ← List.length_append, ← List.cons_append, ← List.append_assoc]
        rw [← List.append_assoc] at hc
        exact ih (fun q hq => hps q (List.mem_cons_of_mem _ hq))
          (fun hmem => h0 (List.mem_append_right _ hmem)) hc
      · rw [if_neg hlt, if_neg (by omega)]
        rfl

/-- **Where the loop stops**: at once, or at the end of the first sequence that reaches `clen`. -/
theorem stop_eq_some_iff : stop clen k ps = some m ↔
    (clen ≤ k ∧ m = k) ∨ ∃ qs p qs', ps = qs ++ p :: qs' ∧ (k + qs.flatten.length : ℕ) < clen ∧
      m = k + qs.flatten.length + p.length ∧ clen ≤ m ∧ m < 2147483648 := by
  induction ps generalizing k with
  | nil =>
    rw [stop]
    by_cases hle : clen ≤ k
    · rw [if_pos hle, Option.some_inj]
      exact ⟨fun h => Or.inl ⟨hle, h.symm⟩, by
        rintro (h | ⟨qs, p, qs', h, -⟩)
        · exact h.2.symm
        · cases qs <;> cases h⟩
    · rw [if_neg hle]
      refine iff_of_false (by simp) ?_
      rintro (h | ⟨qs, p, qs', h, -⟩)
      · exact hle h.1
      · cases qs <;> cases h
  | cons p ps ih =>
    rw [stop]
    by_cases hle : clen ≤ k
    · rw [if_pos hle, Option.some_inj]
      refine ⟨fun h => Or.inl ⟨hle, h.symm⟩, ?_⟩
      rintro (h | ⟨qs, q, qs', -, hlt, -⟩)
      · exact h.2.symm
      · omega
    · rw [if_neg hle]
      constructor
      · intro h
        split_ifs at h with hlt
        obtain ⟨hc, rfl⟩ | ⟨qs, q, qs', rfl, hbefore, rfl, hc, hm⟩ := ih.mp h
        · refine Or.inr ⟨[], p, ps, rfl, Int.not_le.mp hle, rfl, hc, hlt⟩
        · refine Or.inr ⟨p :: qs, q, qs', rfl, ?_, ?_, hc, hm⟩
          · rw [List.flatten_cons, List.length_append, ← Nat.add_assoc]
            exact hbefore
          · rw [List.flatten_cons, List.length_append, ← Nat.add_assoc]
      · rintro (h | ⟨qs, q, qs', heq, hbefore, hm, hc, hlt⟩)
        · exact absurd h.1 hle
        cases qs with
        | nil =>
          obtain ⟨rfl, rfl⟩ := List.cons_eq_cons.mp heq
          replace hm : m = k + p.length := hm
          rw [if_pos (hm ▸ hlt)]
          exact ih.mpr (Or.inl ⟨hm ▸ hc, hm⟩)
        | cons q' qs =>
          rw [List.cons_append] at heq
          obtain ⟨rfl, rfl⟩ := List.cons_eq_cons.mp heq
          rw [List.flatten_cons, List.length_append, ← Nat.add_assoc] at hbefore hm
          rw [if_pos (by omega)]
          exact ih.mpr (Or.inr ⟨qs, q, qs', rfl, hbefore, hm, hc, hlt⟩)

/-- It stops where enough whole sequences come that end at an `int`. -/
theorem exists_stop (hc : clen ≤ (k + ps.flatten.length : ℕ))
    (hlt : k + ps.flatten.length < 2147483648) (qs : List (List UInt8)) :
    ∃ m, stop clen k (ps ++ qs) = some m := by
  induction ps generalizing k with
  | nil =>
    cases qs with
    | nil => exact ⟨k, if_pos hc⟩
    | cons q qs => exact ⟨k, if_pos hc⟩
  | cons p ps ih =>
    rw [List.flatten_cons, List.length_append, ← Nat.add_assoc] at hc hlt
    rw [List.cons_append, stop]
    by_cases hle : clen ≤ k
    · exact ⟨k, if_pos hle⟩
    · rw [if_neg hle, if_pos (by omega)]
      exact ih hc hlt

/-! ### The count -/

theorem toInt_ofNat_le (n : ℕ) : (Int32.ofNat n).toInt ≤ n := by
  rw [Int32.toInt_ofNat', Int.bmod_def, show Int32.size = 4294967296 from rfl]
  split_ifs <;> omega

/-- **The count, for whichever sequences the string has.** -/
theorem getUTF8Count_eq_stop (h0 : 0 ∉ str) (hps : ∀ p ∈ ps, IsSeq p) (ht : t = [] ∨ Torn t)
    (hs : str = ps.flatten ++ t) :
    getUTF8Count (some str) =
      (stop (Int32.ofNat str.length).toInt 0 ps).map (Nat.cast : ℕ → ℤ) := by
  have h := countLoop_eq_stop (u := []) hps ht (hs ▸ h0) (toInt_ofNat_le (ps.flatten ++ t).length)
  rw [← hs] at h
  exact h

theorem utf8_eq_flatten (l : List Char) : utf8 l = (l.map String.utf8EncodeChar).flatten :=
  List.flatMap_def ..

theorem getUTF8Count_utf8 (h0 : 0 ∉ str) (hs : str = utf8 l) : getUTF8Count (some str) =
    (stop (Int32.ofNat str.length).toInt 0 (l.map String.utf8EncodeChar)).map
      (Nat.cast : ℕ → ℤ) := by
  refine getUTF8Count_eq_stop h0 (fun p hp => ?_) (Or.inl rfl) ?_
  · obtain ⟨x, -, rfl⟩ := List.mem_map.mp hp
    exact isSeq_utf8EncodeChar x
  · rw [hs, utf8_eq_flatten, List.append_nil]

/-- A count is made of whole sequences that reach the length, as an `int`. -/
theorem exists_whole {n : ℤ} (h0 : 0 ∉ str) (hn : getUTF8Count (some str) = some n) :
    ∃ (ps : List (List UInt8)) (rest : List UInt8), (∀ p ∈ ps, IsSeq p) ∧
      str = ps.flatten ++ rest ∧ (Int32.ofNat str.length).toInt ≤ ps.flatten.length ∧
      ps.flatten.length < 2147483648 := by
  obtain ⟨ps, t, hps, ht, hs⟩ := exists_seqs str
  rw [getUTF8Count_eq_stop h0 hps ht hs] at hn
  obtain ⟨m, hm, rfl⟩ := Option.map_eq_some_iff.mp hn
  obtain ⟨hc, -⟩ | ⟨qs, p, qs', rfl, -, hm, hc, hmlt⟩ := stop_eq_some_iff.mp hm
  · exact ⟨[], str, fun p hp => (List.not_mem_nil hp).elim, rfl, hc, by decide⟩
  · have hflat : (qs ++ [p]).flatten.length = m := by
      rw [List.flatten_concat, List.length_append, hm, Nat.zero_add]
    rw [List.append_cons, List.flatten_append, List.append_assoc] at hs
    refine ⟨qs ++ [p], _, fun q hq => hps q ?_, hs, hflat ▸ hc, hflat ▸ hmlt⟩
    rw [List.append_cons]
    exact List.mem_append_left _ hq

/-- A string of whole sequences is gone over to its NUL, where the length is an `int`. -/
theorem getUTF8Count_whole (h0 : 0 ∉ str) (hlt : str.length < 2147483648) (hps : ∀ p ∈ ps, IsSeq p)
    (hs : str = ps.flatten) : getUTF8Count (some str) = some (str.length : ℤ) := by
  have hclen : (Int32.ofNat str.length).toInt = str.length := Int32.toInt_ofNat_of_lt hlt
  have hlen : str.length = ps.flatten.length := congrArg List.length hs
  obtain ⟨m, hm⟩ : ∃ m, stop (str.length : ℤ) 0 (ps ++ []) = some m :=
    exists_stop (by omega) (by omega) []
  rw [List.append_nil] at hm
  have hend : m = str.length := by
    obtain ⟨hc, rfl⟩ | ⟨qs, p, qs', rfl, -, hm, hc, -⟩ := stop_eq_some_iff.mp hm
    · omega
    · rw [List.flatten_append, List.flatten_cons, List.length_append, List.length_append] at hlen
      omega
  rw [getUTF8Count_eq_stop h0 hps (Or.inl rfl) (by rw [hs, List.append_nil]), hclen, hm, hend]
  rfl

/-- **Strings whose length is an `int`.** -/
theorem counted_of_short (h0 : 0 ∉ str) (hlt : str.length < 2147483648) : Counted str ↔
    (∃ ps : List (List UInt8), (∀ p ∈ ps, IsSeq p) ∧ str = ps.flatten) ∧
      ∀ l, str = utf8 l → ∀ b ∈ str, b < 0x80 := by
  have hone (l : List Char) (hutf8 : str = utf8 l) :
      (str.length : ℤ) = l.length ↔ ∀ b ∈ str, b < 0x80 := by
    rw [Int.ofNat_inj, hutf8]
    exact length_utf8_eq_iff l
  constructor
  · rintro ⟨n, hn, hl⟩
    obtain ⟨ps, rest, hps, hs, hc, -⟩ := exists_whole h0 hn
    have hlen : str.length = ps.flatten.length + rest.length := by rw [hs, List.length_append]
    rw [Int32.toInt_ofNat_of_lt hlt] at hc
    have hnil : rest = [] := List.length_eq_zero_iff.mp (by omega)
    rw [hnil, List.append_nil] at hs
    rw [getUTF8Count_whole h0 hlt hps hs] at hn
    cases hn
    exact ⟨⟨ps, hps, hs⟩, fun l hutf8 => (hone l hutf8).mp (hl l hutf8)⟩
  · rintro ⟨⟨ps, hps, hs⟩, hl⟩
    exact ⟨_, getUTF8Count_whole h0 hlt hps hs, fun l hutf8 => (hone l hutf8).mpr (hl l hutf8)⟩

/-- The sequences of a character and those before it. -/
theorem map_split {x : Char} {l₁ l₂ : List Char} (h : l = l₁ ++ x :: l₂) :
    l.map String.utf8EncodeChar =
      l₁.map String.utf8EncodeChar ++ String.utf8EncodeChar x :: l₂.map String.utf8EncodeChar := by
  rw [h, List.map_append, List.map_cons]

theorem length_utf8_concat (l : List Char) (x : Char) :
    (utf8 (l ++ [x])).length = (utf8 l).length + (String.utf8EncodeChar x).length := by
  unfold utf8
  rw [List.flatMap_append, List.length_append, List.flatMap_singleton]

/-- **The count of a valid string** ends with the first character that reaches the length, as an
`int`, if the length is positive. -/
theorem getUTF8Count_utf8_iff (h0 : 0 ∉ str) (hs : str = utf8 l) (hpos : 0 < m) :
    getUTF8Count (some str) = some (m : ℤ) ↔ ∃ l₁ x l₂, l = l₁ ++ x :: l₂ ∧
      (utf8 l₁).length < (Int32.ofNat str.length).toInt ∧
      (Int32.ofNat str.length).toInt ≤ (utf8 (l₁ ++ [x])).length ∧
      (utf8 (l₁ ++ [x])).length < 2147483648 ∧ (utf8 (l₁ ++ [x])).length = m := by
  rw [getUTF8Count_utf8 h0 hs]
  constructor
  · intro hn
    obtain ⟨m', hm, hcast⟩ := Option.map_eq_some_iff.mp hn
    obtain rfl := Int.ofNat_inj.mp hcast
    obtain ⟨-, rfl⟩ | ⟨qs, p, qs', hmap, hbefore, hm, hc, hmlt⟩ := stop_eq_some_iff.mp hm
    · exact absurd hpos (Nat.lt_irrefl 0)
    · obtain ⟨l₁, l', rfl, rfl, hl'⟩ := List.map_eq_append_iff.mp hmap
      obtain ⟨x, l₂, rfl, rfl, -⟩ := List.map_eq_cons_iff.mp hl'
      rw [← utf8_eq_flatten, Nat.zero_add] at hbefore hm
      rw [← length_utf8_concat] at hm
      exact ⟨l₁, x, l₂, rfl, hbefore, hm ▸ hc, hm ▸ hmlt, hm.symm⟩
  · rintro ⟨l₁, x, l₂, hsplit, hbefore, hc, hlt, hlen⟩
    refine Option.map_eq_some_iff.mpr ⟨m, stop_eq_some_iff.mpr (Or.inr
      ⟨_, _, _, map_split hsplit, ?_, ?_, hlen ▸ hc, hlen ▸ hlt⟩), rfl⟩
    · rw [← utf8_eq_flatten, Nat.zero_add]
      exact hbefore
    · rw [← utf8_eq_flatten, Nat.zero_add, ← length_utf8_concat, hlen]

/-- **Longer strings.** -/
theorem counted_of_long (h0 : 0 ∉ str) (hlong : 2147483648 ≤ str.length) : Counted str ↔
    (∃ (ps : List (List UInt8)) (rest : List UInt8), (∀ p ∈ ps, IsSeq p) ∧
      str = ps.flatten ++ rest ∧
      (Int32.ofNat str.length).toInt ≤ ps.flatten.length ∧ ps.flatten.length < 2147483648) ∧
      ∀ l, str = utf8 l → ∃ l₁ x l₂, l = l₁ ++ x :: l₂ ∧
        (utf8 l₁).length < (Int32.ofNat str.length).toInt ∧
        (Int32.ofNat str.length).toInt ≤ (utf8 (l₁ ++ [x])).length ∧
        (utf8 (l₁ ++ [x])).length < 2147483648 ∧ (utf8 (l₁ ++ [x])).length = l.length := by
  have hpos (l : List Char) (hs : str = utf8 l) : 0 < l.length := by
    refine List.length_pos_iff.mpr fun hnil => ?_
    rw [hs, hnil] at hlong
    exact absurd hlong (by decide)
  constructor
  · rintro ⟨n, hn, hl⟩
    refine ⟨exists_whole h0 hn, fun l hs => ?_⟩
    rw [hl l hs] at hn
    exact (getUTF8Count_utf8_iff h0 hs (hpos l hs)).mp hn
  · rintro ⟨⟨ps, rest, hps, hs, hc, hlt⟩, hl⟩
    obtain ⟨qs, t, hqs, ht, hrest⟩ := exists_seqs rest
    obtain ⟨m, hm⟩ : ∃ m, stop (Int32.ofNat str.length).toInt 0 (ps ++ qs) = some m :=
      exists_stop (by rw [Nat.zero_add]; exact hc) (by rw [Nat.zero_add]; exact hlt) qs
    have hcount : getUTF8Count (some str) =
        (stop (Int32.ofNat str.length).toInt 0 (ps ++ qs)).map (Nat.cast : ℕ → ℤ) :=
      getUTF8Count_eq_stop h0 (fun p hp => (List.mem_append.mp hp).elim (hps p) (hqs p)) ht
      (by rw [hs, hrest, List.flatten_append, List.append_assoc])
    rw [hm] at hcount
    refine ⟨m, hcount, fun l hutf8 => ?_⟩
    have hvalid := (getUTF8Count_utf8_iff h0 hutf8 (hpos l hutf8)).mpr (hl l hutf8)
    exact Option.some.inj (hcount.symm.trans hvalid)

/-- **When a string is counted.** -/
theorem counted_iff (str : List UInt8) (h0 : 0 ∉ str) : Counted str ↔ Fits str := by
  unfold Fits
  by_cases hlt : str.length < 2147483648
  · rw [if_pos hlt]
    exact counted_of_short h0 hlt
  · rw [if_neg hlt]
    exact counted_of_long h0 (Nat.not_lt.mp hlt)

/-- Two letters. -/
theorem counted_iff_letters : Counted [97, 98] := by
  refine (counted_iff [97, 98] (by decide)).mpr ?_
  unfold Fits
  rw [if_pos (by decide)]
  refine ⟨⟨[[97], [98]], fun p hp => ?_, rfl⟩, fun _ _ => List.forall_mem_cons.mpr
    ⟨by decide, List.forall_mem_singleton.mpr (by decide)⟩⟩
  obtain rfl | hp := List.mem_cons.mp hp
  · exact ⟨97, [], rfl, by decide⟩
  · obtain rfl := List.mem_singleton.mp hp
    exact ⟨98, [], rfl, by decide⟩

/-- The two bytes of `é` are counted as two, and with the first of them alone the loop reads behind
the NUL. -/
theorem not_counted : ¬ Counted [0xC3, 0xA9] ∧ getUTF8Count (some [0xC3]) = none := by
  have he : [0xC3, 0xA9] = utf8 ['é'] := by decide
  refine ⟨fun ⟨n, hn, hl⟩ => ?_, ?_⟩
  · rw [getUTF8Count_utf8 (by decide) he, hl ['é'] he] at hn
    exact absurd hn (by decide)
  · have ht : Torn [0xC3] := ⟨0xC3, [], rfl, by decide⟩
    exact getUTF8Count_eq_stop (by decide) (fun p hp => (List.not_mem_nil hp).elim) (Or.inr ht) rfl

end ChatShow.CommBase.Utf8Count
