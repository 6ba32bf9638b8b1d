import ChatShow.Antlib.HttpProtocol
import Mathlib.Data.List.GetD

/-! # Strings that are escaped

`str2escape` writes the `%` of an escape and then the first digit over it, so that what is left of it are
two digits (`escaped`), which `escape2str` takes as they are. A string without a character that has to be
escaped comes back, and no other does. -/

namespace ChatShow.Antlib.Escapes

open ChatShow.Lib.Cells ChatShow.Antlib.HttpProtocol

variable {m m' : ℕ → UInt8} {s : List UInt8} {str res resLen n j k : ℕ}

/-! ### What is written -/

/-- What `str2escape` writes for a character. -/
def escapedChar (c : UInt8) : List UInt8 :=
  if isHttpEnescape c then [hexStr ((c &&& 0xF0) >>> 4), hexStr (c &&& 0x0F)] else [c]

def escaped (s : List UInt8) : List UInt8 := s.flatMap escapedChar

theorem escaped_cons (c : UInt8) (s : List UInt8) : escaped (c :: s) = escapedChar c ++ escaped s :=
  List.flatMap_cons

/-- The digits are not escaped. -/
theorem hexStr_pass (c : UInt8) : isHttpEnescape (hexStr ((c &&& 0xF0) >>> 4)) = false ∧
    isHttpEnescape (hexStr (c &&& 0x0F)) = false := by
  have hall : ∀ n < 256, isHttpEnescape (hexStr ((UInt8.ofNat n &&& 0xF0) >>> 4)) = false ∧
      isHttpEnescape (hexStr (UInt8.ofNat n &&& 0x0F)) = false := by
    decide +kernel
  have := hall c.toNat c.toNat_lt
  rwa [UInt8.ofNat_toNat] at this

/-- Nothing that is written has to be escaped. -/
theorem escaped_pass {c : UInt8} (hc : c ∈ escaped s) : isHttpEnescape c = false := by
  obtain ⟨b, -, hb⟩ := List.mem_flatMap.mp hc
  unfold escapedChar at hb
  split_ifs at hb with hesc
  · obtain rfl | hb := List.mem_cons.mp hb
    · exact (hexStr_pass b).1
    · rw [List.mem_singleton.mp hb]
      exact (hexStr_pass b).2
  · rw [List.mem_singleton.mp hb]
    exact Bool.eq_false_iff.mpr hesc

theorem length_le_escaped (s : List UInt8) :
    s.length ≤ (escaped s).length ∧ (escaped s).length ≤ 2 * s.length := by
  induction s with
  | nil => exact ⟨Nat.le_refl _, Nat.le_refl _⟩
  | cons c s ih =>
    rw [escaped_cons, List.length_append, List.length_cons]
    unfold escapedChar
    split_ifs
    · rw [List.length_cons, List.length_singleton]
      omega
    · rw [List.length_singleton]
      omega

/-- **A string is written as it is where nothing in it has to be escaped**, and is made longer where
something has. -/
theorem length_escaped_eq (s : List UInt8) :
    (escaped s).length = s.length ↔ ∀ c ∈ s, isHttpEnescape c = false := by
  induction s with
  | nil => exact iff_of_true rfl fun c hc => by cases hc
  | cons c s ih =>
    have hle := (length_le_escaped s).1
    rw [escaped_cons, List.length_append, List.length_cons, List.forall_mem_cons, ← ih]
    unfold escapedChar
    cases hc : isHttpEnescape c with
    | true =>
      rw [if_pos rfl, List.length_cons, List.length_singleton]
      exact iff_of_false (by omega) fun h => by cases h.1
    | false =>
      rw [if_neg Bool.false_ne_true, List.length_singleton]
      constructor
      · exact fun h => ⟨rfl, by omega⟩
      · exact fun h => by omega

theorem escaped_eq (h : ∀ c ∈ s, isHttpEnescape c = false) : escaped s = s := by
  induction s with
  | nil => rfl
  | cons c s ih =>
    obtain ⟨hc, hs⟩ := List.forall_mem_cons.mp h
    rw [escaped_cons, ih hs]
    unfold escapedChar
    rw [hc]
    rfl

/-! ### The loop of `str2escape` -/

/-- Where the string and what is written are apart, and there is room. -/
theorem escapeLoop_spec (hs : slice m str n = s) (hapart : str + n ≤ res ∨ res + resLen ≤ str)
    (h : escapeLoop res resLen n str j m = some (m', k)) :
    k = j + (escaped s).length ∧ k < resLen ∧ slice m' res k = slice m res j ++ escaped s ∧
      m' (res + k) = 0 ∧ ∀ i, (i < res ∨ res + resLen ≤ i) → m' i = m i := by
  induction n generalizing str j m s with
  | zero =>
    rw [slice_zero] at hs
    subst hs
    unfold escapeLoop at h
    split_ifs at h with hlt
    cases h
    refine ⟨rfl, hlt, ?_, store_cell_self .., fun i hi => store_cell_of_ne (by omega)⟩
    rw [slice_store_cell_of_disjoint (.inl le_rfl)]
    exact (List.append_nil _).symm
  | succ n ih =>
    have hfirst : s = m str :: slice m (str + 1) n := hs.symm.trans (slice_succ m str n)
    rw [hfirst, escaped_cons]
    unfold escapeLoop at h
    unfold escapedChar
    split_ifs at h ⊢ with hesc hroom hroom
    · -- The digits are written; the character is still there.
      have hother : ∀ (m₁ : ℕ → UInt8) (o : ℕ) (b : UInt8), o < resLen → store m₁ (res + o) [b] str = m₁ str :=
        fun m₁ o b ho => store_cell_of_ne (by omega)
      dsimp only at h
      rw [Nat.add_assoc res j 1, hother m j _ (by omega), hother _ j _ (by omega),
        hother m j _ (by omega)] at h
      generalize hm₁ : store m (res + j) ['%'.toUInt8] = m₁ at h
      generalize hm₂ : store m₁ (res + j) _ = m₂ at h
      generalize hm₃ : store m₂ (res + (j + 1)) _ = m₃ at h
      have hkeep : ∀ i, (i < res + j ∨ res + (j + 1) < i) → m₃ i = m i := fun i hi => by
        rw [← hm₃, ← hm₂, ← hm₁, store_cell_of_ne (by omega), store_cell_of_ne (by omega),
          store_cell_of_ne (by omega)]
      have hrest : slice m₃ (str + 1) n = slice m (str + 1) n :=
        slice_congr fun i h1 h2 => hkeep i (by omega)
      obtain ⟨hk, hlt, hslice, hnul, hout⟩ := ih hrest (by omega) h
      have hdigits : slice m₃ res (j + 2) = slice m res j ++
          [hexStr ((m str &&& 0xF0) >>> 4), hexStr (m str &&& 0x0F)] := by
        rw [← hm₃, slice_store_cell, ← hm₂, slice_store_cell, ← hm₁,
          slice_store_cell_of_disjoint (.inl le_rfl), List.append_assoc]
        rfl
      refine ⟨?_, hlt, ?_, hnul, fun i hi => (hout i hi).trans (hkeep i (by omega))⟩
      · rw [hk, List.length_append]
        exact Nat.add_assoc j 2 _
      · rw [hslice, hdigits, List.append_assoc]
    · have hrest : slice (store m (res + j) [m str]) (str + 1) n = slice m (str + 1) n :=
        slice_store_cell_of_disjoint (by omega)
      obtain ⟨hk, hlt, hslice, hnul, hout⟩ := ih hrest (by omega) h
      refine ⟨?_, hlt, ?_, hnul, fun i hi => (hout i hi).trans (store_cell_of_ne (by omega))⟩
      · rw [hk, List.length_append]
        exact Nat.add_assoc j 1 _
      · rw [hslice, slice_store_cell, List.append_assoc]

/-- There is a result where there is room for all characters as escapes. -/
theorem isSome_escapeLoop (m : ℕ → UInt8) (str : ℕ) (h : 3 * n + j < resLen) :
    (escapeLoop res resLen n str j m).isSome := by
  induction n generalizing str j m with
  | zero =>
    unfold escapeLoop
    rw [if_pos (by omega)]
    rfl
  | succ n ih =>
    unfold escapeLoop
    split_ifs with hesc hroom hroom
    · omega
    · exact ih _ _ (by omega)
    · omega
    · exact ih _ _ (by omega)

/-- A string without escapes is left where it is read and written in one place. -/
theorem escapeLoop_inPlace (h : ∀ i < n, isHttpEnescape (m (res + j + i)) = false) (hlt : j + n < resLen) :
    escapeLoop res resLen n (res + j) j m = some (store m (res + (j + n)) [0], j + n) := by
  induction n generalizing j with
  | zero =>
    unfold escapeLoop
    exact if_pos hlt
  | succ n ih =>
    have h0 : ¬ isHttpEnescape (m (res + j)) = true := Bool.eq_false_iff.mp (h 0 (Nat.succ_pos n))
    have hind := @ih (j + 1) (fun i hi => by
      have := h (i + 1) (Nat.succ_lt_succ hi)
      rwa [show res + j + (i + 1) = res + (j + 1) + i by omega] at this) (by omega)
    unfold escapeLoop
    rw [if_neg h0, if_neg (by omega), store_cell_same, Nat.add_assoc res j 1, hind,
      show j + 1 + n = j + (n + 1) by omega]

/-! ### The loop of `escape2str` -/

/-- Characters other than `%` are taken as they are. -/
theorem unescapeLoop_spec (hs : slice m str n = s) (hapart : str + n ≤ res ∨ res + resLen ≤ str)
    (hplain : '%'.toUInt8 ∉ s) (hlt : j + n < resLen) :
    ∃ m', unescapeLoop res resLen n str j m = some (m', j + n) ∧
      slice m' res (j + n) = slice m res j ++ s ∧ m' (res + (j + n)) = 0 := by
  induction n generalizing str j m s with
  | zero =>
    rw [slice_zero] at hs
    subst hs
    refine ⟨_, if_pos hlt, ?_, store_cell_self ..⟩
    rw [Nat.add_zero, slice_store_cell_of_disjoint (.inl le_rfl)]
    exact (List.append_nil _).symm
  | succ n ih =>
    have hfirst : s = m str :: slice m (str + 1) n := hs.symm.trans (slice_succ m str n)
    rw [hfirst, List.mem_cons, not_or] at hplain
    have hrest : slice (store m (res + j) [m str]) (str + 1) n = slice m (str + 1) n :=
      slice_store_cell_of_disjoint (by omega)
    obtain ⟨m', hrun, hslice, hnul⟩ := ih (j := j + 1) hrest (by omega) hplain.2 (by omega)
    have hj : j + (n + 1) = j + 1 + n := by omega
    rw [hj]
    refine ⟨m', ?_, ?_, hnul⟩
    · unfold unescapeLoop
      rw [if_pos (Ne.symm hplain.1)]
      exact hrun
    · rw [hslice, slice_store_cell, hfirst, List.append_assoc]
      rfl

/-! ### The round trip -/

def isHex (c : UInt8) : Bool := '0'.toUInt8 ≤ c ∧ c ≤ '9'.toUInt8 ∨ 'A'.toUInt8 ≤ c ∧ c ≤ 'F'.toUInt8

/-- Characters that need not be escaped, and escapes. -/
inductive WellEscaped : List UInt8 → Prop
  | nil : WellEscaped []
  | pass {c : UInt8} {l : List UInt8} : isHttpEnescape c = false → WellEscaped l → WellEscaped (c :: l)
  | escape {x y : UInt8} {l : List UInt8} :
    isHex x = true → isHex y = true → WellEscaped l → WellEscaped ('%'.toUInt8 :: x :: y :: l)

theorem wellEscaped_of_pass (h : ∀ c ∈ s, isHttpEnescape c = false) : WellEscaped s := by
  induction s with
  | nil => exact .nil
  | cons c s ih =>
    obtain ⟨hc, hs⟩ := List.forall_mem_cons.mp h
    exact .pass hc (ih hs)

/-- The string at `str` is escaped to `res` and from there unescaped to `back`: what is written is well
escaped, the string comes back, and the results are the lengths of the two. -/
def RoundTrip (m : ℕ → UInt8) (str : ℕ) (s : List UInt8) (res resLen back backLen : ℕ) : Prop :=
  ∃ m₁ n m₂, str2escape m str s.length res resLen = some (m₁, n) ∧
    m₁ (res + n) = 0 ∧ 0 ∉ slice m₁ res n ∧ WellEscaped (slice m₁ res n) ∧
    escape2str m₁ res n back backLen = some (m₂, s.length) ∧
    m₂ (back + s.length) = 0 ∧ slice m₂ back s.length = s

/-- **Where a string comes back**: where none of its characters has to be escaped. -/
theorem roundTrip_iff {back backLen : ℕ} (hs : slice m str s.length = s)
    (hres : 3 * s.length < resLen) (hback : 3 * s.length < backLen)
    (hapart : str + s.length ≤ res ∨ res + resLen ≤ str)
    (hapart' : res + resLen ≤ back ∨ back + backLen ≤ res) :
    RoundTrip m str s res resLen back backLen ↔ ∀ c ∈ s, isHttpEnescape c = false := by
  obtain ⟨hle, hle2⟩ := length_le_escaped s
  -- What is written, and what is read of it.
  obtain ⟨⟨m₁, n⟩, hrun⟩ := Option.isSome_iff_exists.mp
    (@isSome_escapeLoop res resLen s.length 0 m str (by omega))
  obtain ⟨hn, hlt, hslice, hnul, -⟩ := escapeLoop_spec hs hapart hrun
  rw [Nat.zero_add] at hn
  rw [slice_zero, List.nil_append] at hslice
  have hplain : '%'.toUInt8 ∉ escaped s := fun hmem => by
    have hpass := escaped_pass hmem
    rw [show isHttpEnescape '%'.toUInt8 = true by decide] at hpass
    cases hpass
  have hzero : 0 ∉ slice m₁ res n := fun hmem => by
    rw [hslice] at hmem
    have hpass := escaped_pass hmem
    rw [show isHttpEnescape 0 = true by decide] at hpass
    cases hpass
  obtain ⟨m₂, hback', hslice', hnul'⟩ := @unescapeLoop_spec m₁ (escaped s) res back backLen n 0 hslice
    (by omega) hplain (by omega)
  rw [Nat.zero_add] at hback' hslice' hnul'
  rw [slice_zero, List.nil_append] at hslice'
  rw [← length_escaped_eq]
  constructor
  · rintro ⟨m₁', n', m₂', hrun', -, -, -, hdec, -, -⟩
    have he : some (m₁, n) = some (m₁', n') := hrun.symm.trans hrun'
    cases he
    have hd : some (m₂, n) = some (m₂', s.length) := hback'.symm.trans hdec
    cases hd
    exact hn.symm
  · intro hlen
    have hsame := escaped_eq ((length_escaped_eq s).mp hlen)
    have hns : n = s.length := hn.trans hlen
    subst hns
    rw [hsame] at hslice hslice'
    refine ⟨m₁, _, m₂, hrun, hnul, hzero, ?_, hback', hnul', hslice'⟩
    rw [hslice]
    exact wellEscaped_of_pass ((length_escaped_eq s).mp hlen)

theorem roundTrip_iff_word : RoundTrip (cells [97, 45, 98]) 0 [97, 45, 98] 100 32 200 32 :=
  (roundTrip_iff rfl (by decide) (by decide) (by decide) (by decide)).mpr (by decide +kernel)

/-- A blank is written as `20`, and comes back so. -/
theorem not_roundTrip : ¬ RoundTrip (cells [32]) 0 [32] 100 32 200 32 := by
  rintro ⟨m₁, n, m₂, hrun, -, -, -, hdec, -, -⟩
  have hwritten : (escape2str (escapeLoop 100 32 1 0 0 (cells [32])).get!.1 100 2 200 32).map Prod.snd =
      some 2 := by decide
  cases hrun
  have hlen := congrArg (Option.map Prod.snd) hdec
  cases hwritten.symm.trans hlen

end ChatShow.Antlib.Escapes
