import ChatShow.Antlib.IniReader

/-! # The line buffer of the ini reader

A line of the file is what is between two line feeds or NULs, and its carriage returns are left out.
The NUL behind a line of 1000 characters or more is written behind the buffer. A line that is
shorter is read and parsed in the buffer, whatever it consists of, and the reader comes to the end
of the file (`readIniFile_inBounds_iff`). -/

namespace ChatShow.Antlib.IniBounds

open ChatShow.Lib.Cells ChatShow.Lib.CStrings ChatShow.Lib.Regions ChatShow.Antlib.IniReader

variable {f w rest : List UInt8} {i n len size : ℕ} {j : Int32} {e : UInt8} {buf m : ℕ → UInt8}
variable {config : IniConfig}

/-- What ends a line. -/
def isLineEnd (b : UInt8) : Bool := b = '\n'.toUInt8 ∨ b = 0

/-- What the reader keeps of a line. -/
def kept (line : List UInt8) : List UInt8 := line.filter (· ≠ '\r'.toUInt8)

/-- The lines of the file are shorter than the buffer. -/
def ShortLines (f : List UInt8) : Prop := ∀ line ∈ f.splitOnP isLineEnd, (kept line).length < 1000

/-! ### Reading a line -/

theorem put_lineBuf {a : UInt8} (h : i < 1000) : lineBuf.put buf i a = some (store buf i [a]) :=
  Region.put_of_has (Region.has_zero_iff.mpr h)

theorem get_lineBuf (h : i < 1000) : lineBuf.get buf i = some (buf i) :=
  Region.get_of_has (Region.has_zero_iff.mpr h)

theorem endLine_short (h : i < 1000) : endLine i buf rest = some ⟨i, store buf i [0], rest⟩ := by
  unfold endLine
  rw [put_lineBuf h]
  rfl

theorem endLine_full : endLine 1000 buf rest = none := by
  have hfull : ¬ lineBuf.Has 1000 1 := by decide
  unfold endLine
  rw [Region.put_none hfull]
  rfl

theorem readLoop_full : readLoop 1000 f 1000 j buf = none := by
  cases f with
  | nil => exact (if_neg (lt_irrefl _)).trans endLine_full
  | cons ch f => exact (if_neg (lt_irrefl _)).trans endLine_full

/-- **The loop over the characters of a line.** -/
theorem readLoop_line (hw : ∀ b ∈ w, isLineEnd b = false) (hi : i < 1000) :
    ∃ j' buf', readLoop 1000 (w ++ rest) i j buf =
      if i + (kept w).length < 1000 then readLoop 1000 rest (i + (kept w).length) j' buf' else none := by
  induction w generalizing i j buf with
  | nil => exact ⟨j, buf, (if_pos hi).symm⟩
  | cons ch w ih =>
    have hch : ¬ (ch = '\n'.toUInt8 ∨ ch = 0) := of_decide_eq_false (hw ch List.mem_cons_self)
    have hw' : ∀ b ∈ w, isLineEnd b = false := fun b hb => hw b (List.mem_cons_of_mem ch hb)
    rw [List.cons_append, readLoop, if_pos hi, if_neg hch]
    unfold kept
    by_cases hcr : ch = '\r'.toUInt8
    · rw [if_pos hcr, List.filter_cons_of_neg (by simpa using hcr)]
      exact ih hw' hi
    · rw [if_neg hcr, List.filter_cons_of_pos (by simpa using hcr), put_lineBuf hi, Option.bind_some,
        List.length_cons, ← Nat.add_assoc, Nat.add_right_comm]
      obtain hlt | hge := Nat.lt_or_ge (i + 1) 1000
      · exact ih hw' hlt
      · have hfull : i + 1 = 1000 := by omega
        refine ⟨j, buf, ?_⟩
        rw [hfull, readLoop_full, if_neg (by omega)]

/-- A line with its end. -/
theorem readIniLine_line (hw : ∀ b ∈ w, isLineEnd b = false) (he : isLineEnd e = true) :
    ∃ buf', readIniLine (w ++ e :: rest) buf =
      if (kept w).length < 1000 then some ⟨(kept w).length, buf', rest⟩ else none := by
  obtain ⟨j', buf', h⟩ := @readLoop_line w (e :: rest) 0 0 buf hw (Nat.zero_lt_succ 999)
  unfold readIniLine
  rw [h, Nat.zero_add]
  split_ifs with hlen
  · rw [readLoop, if_pos hlen, if_pos (of_decide_eq_true he), endLine_short hlen]
    exact ⟨_, rfl⟩
  · exact ⟨buf, rfl⟩

/-- The last line, behind which the file ends. -/
theorem readIniLine_last (hw : ∀ b ∈ w, isLineEnd b = false) :
    ∃ ret buf', (ret = -1 ∨ ret = ((kept w).length : ℤ)) ∧
      readIniLine w buf = if (kept w).length < 1000 then some ⟨ret, buf', []⟩ else none := by
  obtain ⟨j', buf', h⟩ := @readLoop_line w [] 0 0 buf hw (Nat.zero_lt_succ 999)
  unfold readIniLine
  rw [List.append_nil] at h
  rw [h, Nat.zero_add]
  split_ifs with hlen
  · rw [readLoop, if_pos hlen]
    split_ifs
    · rw [endLine_short hlen]
      exact ⟨_, _, Or.inr rfl, rfl⟩
    · exact ⟨_, _, Or.inl rfl, rfl⟩
  · exact ⟨-1, buf, Or.inl rfl, rfl⟩

/-- Behind the end of the file there is no line. -/
theorem readIniLine_nil : readIniLine [] buf = some ⟨-1, buf, []⟩ := rfl

/-! ### Parsing a line -/

/-- What is left of `n` characters is in front of them. -/
theorem stripLoop_spec {k : ℕ} (hk : k ≤ i) (hn : i + n ≤ 1000) :
    ∃ buf' k', stripLoop n i k buf = some (buf', k') ∧ k' ≤ k + n := by
  induction n generalizing i k buf with
  | zero => exact ⟨buf, k, rfl, le_rfl⟩
  | succ n ih =>
    rw [stripLoop, get_lineBuf (by omega), Option.bind_some]
    split_ifs
    · exact ⟨buf, k, rfl, by omega⟩
    · rw [put_lineBuf (by omega), Option.bind_some]
      obtain ⟨buf', k', h, hle⟩ := @ih (i + 1) (store buf k [buf i]) (k + 1) (by omega) (by omega)
      exact ⟨buf', k', h, by omega⟩
    · obtain ⟨buf', k', h, hle⟩ := @ih (i + 1) buf k (by omega) (by omega)
      exact ⟨buf', k', h, by omega⟩

theorem readStr_spec {r : Region} (h : r.Has i n) : ∃ s, readStr r m n i = some s ∧ s.length ≤ n := by
  induction n generalizing i with
  | zero => exact ⟨[], rfl, le_rfl⟩
  | succ n ih =>
    obtain ⟨hlow, hhigh⟩ := h
    rw [readStr, Region.get_of_has ⟨hlow, by omega⟩, Option.bind_some]
    split_ifs
    · exact ⟨[], rfl, Nat.zero_le _⟩
    · obtain ⟨s, hs, hle⟩ := @ih (i + 1) ⟨by omega, by omega⟩
      rw [hs]
      exact ⟨m i :: s, rfl, Nat.succ_le_succ hle⟩

/-- The structure is zero behind the bytes that are copied. -/
theorem copyStr_spec (hi : i + n ≤ 1000) (hn : n ≤ size) :
    ∃ m, copyStr size buf i n = some m ∧ ∀ k, n ≤ k → m k = 0 := by
  obtain ⟨s, hs, hle⟩ := @readStr_spec i n buf lineBuf (Region.has_zero_iff.mpr hi)
  have hlen : (strncpy n s).length = n := by
    unfold strncpy
    rw [List.length_append, List.length_take, List.length_replicate]
    omega
  unfold copyStr
  rw [hs, Option.bind_some, Region.write_of_has (Region.has_zero_iff.mpr (by omega))]
  exact ⟨_, rfl, fun k hk => store_of_ge (by omega)⟩

theorem findEq_spec {r : Region} (h : r.Has i n) :
    ∃ o, findEq r m n i = some o ∧ ∀ k ∈ o, i ≤ k ∧ k < i + n := by
  induction n generalizing i with
  | zero => exact ⟨none, rfl, fun k hk => nomatch hk⟩
  | succ n ih =>
    obtain ⟨hlow, hhigh⟩ := h
    rw [findEq, Region.get_of_has ⟨hlow, by omega⟩, Option.bind_some]
    split_ifs
    · refine ⟨some i, rfl, fun k hk => ?_⟩
      cases hk
      omega
    · obtain ⟨o, ho, hin⟩ := @ih (i + 1) ⟨by omega, by omega⟩
      refine ⟨o, ho, fun k hk => ?_⟩
      have := hin k hk
      omega

/-- Cells with a NUL among them have a string. -/
theorem cstr_slice {off k : ℕ} (hlow : off ≤ k) (hhigh : k < off + n) (hk : m k = 0) :
    ∃ s, cstr (slice m off n) = some s := by
  have hmem : 0 ∈ slice m off n := by
    refine List.mem_iff_getElem?.mpr ⟨k - off, ?_⟩
    rw [getElem?_slice, if_pos (by omega), show off + (k - off) = k by omega, hk]
  obtain ⟨s, hs, -⟩ := cstr_of_mem hmem []
  exact ⟨s, hs⟩

theorem newSection_spec (h2 : 2 < n) (hn : n < 200) : ∃ s, newSection buf n = some s := by
  obtain ⟨m, hm, hzero⟩ := @copyStr_spec 1 (n - 2) 200 buf (by omega) (by omega)
  obtain ⟨key, hkey⟩ := @cstr_slice 200 m 0 199 (by omega) (by omega) (hzero 199 (by omega))
  unfold newSection
  rw [hm, Option.bind_some, hkey]
  exact ⟨_, rfl⟩

theorem newNode_spec (hn : n < 1000) : ∃ node, newNode buf n = some node := by
  obtain ⟨m, hm, hzero⟩ := @copyStr_spec 0 n 1000 buf (by omega) (by omega)
  have htext : Region.Has ⟨0, 1000⟩ 0 n := Region.has_zero_iff.mpr (by omega)
  obtain ⟨o, ho, hin⟩ := @findEq_spec 0 n m ⟨0, 1000⟩ htext
  unfold newNode
  dsimp only
  rw [hm, Option.bind_some, ho, Option.bind_some]
  cases o with
  | none => exact ⟨none, rfl⟩
  | some i =>
    obtain ⟨-, hlt⟩ := hin i rfl
    dsimp only
    rw [Region.put_of_has (Region.has_zero_iff.mpr (by omega)), Option.bind_some]
    obtain ⟨str, hstr⟩ := @cstr_slice 1000 (store m i [0]) 0 i (by omega) (by omega)
        (store_cell_self m i 0)
    obtain ⟨val, hval⟩ := @cstr_slice (1000 - (i + 1)) (store m i [0]) (i + 1) 999 (by omega)
        (by omega)
      ((store_cell_of_ne (by omega)).trans (hzero 999 (by omega)))
    rw [hstr, Option.bind_some, hval]
    exact ⟨_, rfl⟩

theorem parseStripped_spec (h0 : 0 < n) (hn : n < 1000) :
    ∃ c, config.parseStripped buf n = some c := by
  unfold IniConfig.parseStripped
  rw [get_lineBuf (by omega), Option.bind_some]
  by_cases hfirst : buf 0 = '['.toUInt8
  · rw [if_pos hfirst]
    split_ifs with htwo
    · rw [get_lineBuf (by omega), Option.bind_some]
      split_ifs with hlast
      · obtain ⟨s, hs⟩ := newSection_spec htwo hlast.2
        rw [hs]
        exact ⟨_, rfl⟩
      · exact ⟨config, rfl⟩
    · exact ⟨config, rfl⟩
  · rw [if_neg hfirst]
    cases config.cur with
    | none => exact ⟨config, rfl⟩
    | some k =>
      dsimp only
      split_ifs
      · obtain ⟨node, hnode⟩ := newNode_spec hn
        rw [hnode]
        exact ⟨_, rfl⟩
      · exact ⟨config, rfl⟩

/-- **A line that is shorter than the buffer is parsed in it.** -/
theorem parseIniLine_spec (hn : n < 1000) : ∃ r, config.parseIniLine buf n = some r := by
  obtain ⟨buf', k, hstrip, hle⟩ := @stripLoop_spec 0 n buf 0 le_rfl (by omega)
  unfold IniConfig.parseIniLine
  rw [hstrip, Option.bind_some]
  dsimp only
  rw [put_lineBuf (by omega), Option.bind_some]
  split_ifs with h0
  · exact ⟨_, rfl⟩
  · obtain ⟨c, hc⟩ := @parseStripped_spec k (store buf' k [0]) config (Nat.pos_of_ne_zero h0)
      (by omega)
    rw [hc]
    exact ⟨_, rfl⟩

/-! ### Reading a file -/

/-- The reader comes to the end of the file, and touches nothing but its buffers. -/
def Reads (f : List UInt8) (buf : ℕ → UInt8) (config : IniConfig) : Prop :=
  ∃ n c, readLines n f buf config = .done c

theorem reads_iff_of_turn {k : ℕ} (hk : k < 1000)
    (h : readIniLine f buf = some ⟨k, m, rest⟩) :
    ∃ buf' config', Reads f buf config ↔ Reads rest buf' config' := by
  have hstep {buf' config'} (hturn : ∀ n, readLines (n + 1) f buf config = readLines n rest buf' config') :
      Reads f buf config ↔ Reads rest buf' config' := by
    constructor
    · rintro ⟨n, c, hn⟩
      cases n with
      | zero => cases hn
      | succ n => exact ⟨n, c, (hturn n).symm.trans hn⟩
    · rintro ⟨n, c, hn⟩
      exact ⟨n + 1, c, (hturn n).trans hn⟩
  by_cases hpos : 0 < (k : ℤ)
  · obtain ⟨⟨buf', config'⟩, hparse⟩ := @parseIniLine_spec k m config hk
    refine ⟨buf', config', hstep fun n => ?_⟩
    rw [readLines, h]
    dsimp only
    rw [if_pos hpos, Int.toNat_natCast, hparse]
  · refine ⟨m, config, hstep fun n => ?_⟩
    rw [readLines, h]
    dsimp only
    rw [if_neg hpos, if_neg (by omega)]

theorem not_reads (h : readIniLine f buf = none) : ¬ Reads f buf config := by
  rintro ⟨n, c, hn⟩
  cases n with
  | zero => cases hn
  | succ n =>
    rw [readLines, h] at hn
    cases hn

theorem reads_of_end (h : readIniLine f buf = some ⟨-1, m, rest⟩) : Reads f buf config := by
  refine ⟨1, config, ?_⟩
  rw [readLines, h]
  rfl

theorem shortLines_last (hw : ∀ b ∈ w, isLineEnd b = false) :
    ShortLines w ↔ (kept w).length < 1000 := by
  unfold ShortLines
  rw [List.splitOnP_eq_singleton hw, List.forall_mem_singleton]

theorem shortLines_line (hw : ∀ b ∈ w, isLineEnd b = false) (he : isLineEnd e = true) :
    ShortLines (w ++ e :: rest) ↔ (kept w).length < 1000 ∧ ShortLines rest := by
  unfold ShortLines
  rw [List.splitOnP_append_cons_of_forall_mem hw e he, List.forall_mem_cons]

/-- A file begins with a line, which ends or is the last. -/
theorem line_cases (f : List UInt8) :
    (∀ b ∈ f, isLineEnd b = false) ∨
    ∃ w e rest, f = w ++ e :: rest ∧ (∀ b ∈ w, isLineEnd b = false) ∧ isLineEnd e = true := by
  induction f with
  | nil => exact Or.inl fun b hb => nomatch hb
  | cons b f ih =>
    by_cases hb : isLineEnd b = true
    · exact Or.inr ⟨[], b, f, rfl, fun b hb => (nomatch hb), hb⟩
    · have hb' := Bool.eq_false_iff.mpr hb
      obtain hall | ⟨w, e, rest, rfl, hw, he⟩ := ih
      · exact Or.inl (List.forall_mem_cons.mpr ⟨hb', hall⟩)
      · exact Or.inr ⟨b :: w, e, rest, rfl, List.forall_mem_cons.mpr ⟨hb', hw⟩, he⟩

theorem reads_last (hw : ∀ b ∈ w, isLineEnd b = false) :
    Reads w buf config ↔ (kept w).length < 1000 := by
  obtain ⟨ret, buf', hret, h⟩ := @readIniLine_last w buf hw
  by_cases hlen : (kept w).length < 1000
  · rw [if_pos hlen] at h
    refine iff_of_true ?_ hlen
    obtain rfl | rfl := hret
    · exact reads_of_end h
    · obtain ⟨buf'', config', hiff⟩ := @reads_iff_of_turn w [] buf buf' config _ hlen h
      exact hiff.mpr (reads_of_end readIniLine_nil)
  · rw [if_neg hlen] at h
    exact iff_of_false (not_reads h) hlen

theorem reads_iff (f : List UInt8) (buf : ℕ → UInt8) (config : IniConfig) :
    Reads f buf config ↔ ShortLines f := by
  induction hn : f.length using Nat.strong_induction_on generalizing f buf config with
  | _ n ih =>
    obtain hw | ⟨w, e, rest, rfl, hw, he⟩ := line_cases f
    · rw [shortLines_last hw, reads_last hw]
    · obtain ⟨buf', h⟩ := @readIniLine_line w rest e buf hw he
      rw [shortLines_line hw he]
      by_cases hlen : (kept w).length < 1000
      · rw [if_pos hlen] at h
        obtain ⟨buf'', config', hiff⟩ := @reads_iff_of_turn _ rest buf buf' config _ hlen h
        rw [hiff, and_iff_right hlen]
        refine ih rest.length ?_ rest buf'' config' rfl
        rw [← hn, List.length_append, List.length_cons]
        omega
      · rw [if_neg hlen] at h
        exact iff_of_false (not_reads h) fun hs => hlen hs.1

/-- **For which files the reader stays in its buffers and comes to an end.** -/
theorem readIniFile_inBounds_iff (f : List UInt8) (buf : ℕ → UInt8) :
    (∃ n config, readIniFile n f buf = .done config) ↔ ShortLines f := reads_iff f buf {}

/-- A line of 1000 characters. -/
theorem not_readIniFile_inBounds :
    ¬ ∃ n config, readIniFile n (List.replicate 1000 'a'.toUInt8) (fun _ => 0) = .done config := by
  have hw : ∀ b ∈ List.replicate 1000 'a'.toUInt8, isLineEnd b = false := fun b hb => by
    rw [List.eq_of_mem_replicate hb]
    decide
  have hkept : kept (List.replicate 1000 'a'.toUInt8) = List.replicate 1000 'a'.toUInt8 :=
    List.filter_eq_self.mpr fun b hb => by
      rw [List.eq_of_mem_replicate hb]
      decide
  intro h
  have hlen := (reads_last hw).mp h
  rw [hkept, List.length_replicate] at hlen
  exact absurd hlen (lt_irrefl _)

end ChatShow.Antlib.IniBounds
