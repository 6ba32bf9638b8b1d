import ChatShow.Antlib.IniReader
import Mathlib.Logic.Basic
import Mathlib.Order.Basic

/-! # What an ini file is read into

What a file is read into does not depend on what the line buffer has had before, so that any two
readers of a file are alike (`done_unique`), and the last section of the file is the current one of
a reader that is new (`parsed_readIniFile`). -/

namespace ChatShow.Antlib.IniReads

open ChatShow.Lib.Cells ChatShow.Lib.CStrings ChatShow.Lib.Regions ChatShow.Antlib.IniReader

variable {f : List UInt8} {i j k n n' len size : ℕ} {l : Int32} {m m' buf buf' : ℕ → UInt8}
variable {r : Region} {config config' c c' : IniConfig}

/-! ### Two buffers -/

/-- The first `n` cells of the two are the same. -/
def Agree (n : ℕ) (m m' : ℕ → UInt8) : Prop := ∀ i < n, m i = m' i

theorem Agree.put (h : Agree n m m') (i : ℕ) (a : UInt8) :
    Agree n (store m i [a]) (store m' i [a]) := by
  intro k hk
  by_cases hi : k = i
  · rw [hi, store_cell_self, store_cell_self]
  · rw [store_cell_of_ne hi, store_cell_of_ne hi, h k hk]

theorem Agree.put_succ (h : Agree n m m') (a : UInt8) :
    Agree (n + 1) (store m n [a]) (store m' n [a]) := by
  intro k hk
  by_cases hi : k = n
  · rw [hi, store_cell_self, store_cell_self]
  · rw [store_cell_of_ne hi, store_cell_of_ne hi, h k (by omega)]

theorem Agree.mono (h : Agree n m m') (hle : k ≤ n) : Agree k m m' := fun i hi => h i (by omega)

/-- A cell is written in both or in neither. -/
theorem put_cases (r : Region) (m m' : ℕ → UInt8) (i : ℕ) (a : UInt8) :
    (r.put m i a = none ∧ r.put m' i a = none) ∨
    (r.put m i a = some (store m i [a]) ∧ r.put m' i a = some (store m' i [a])) := by
  by_cases h : r.Has i 1
  · exact Or.inr ⟨Region.put_of_has h, Region.put_of_has h⟩
  · exact Or.inl ⟨Region.put_none h, Region.put_none h⟩

theorem get_congr (h : m i = m' i) : r.get m i = r.get m' i := by
  unfold Region.get
  rw [h]

/-- Two lines that have been read are the same line. -/
def SameLine (a b : LineRead) : Prop :=
  a.ret = b.ret ∧ a.rest = b.rest ∧ Agree a.ret.toNat a.buf b.buf

theorem endLine_same (h : Agree i m m') : Option.Rel SameLine (endLine i m f) (endLine i m' f) := by
  unfold endLine
  obtain ⟨h1, h2⟩ | ⟨h1, h2⟩ := put_cases lineBuf m m' i 0
  · rw [h1, h2]
    exact .none
  · rw [h1, h2]
    exact .some ⟨rfl, rfl, by rw [Int.toNat_natCast]; exact h.put i 0⟩

theorem readLoop_same (h : Agree i m m') :
    Option.Rel SameLine (readLoop len f i l m) (readLoop len f i l m') := by
  induction f generalizing i l m m' with
  | nil =>
    rw [readLoop, readLoop]
    split_ifs
    · exact endLine_same h
    · exact .some ⟨rfl, rfl, fun k hk => absurd hk (Nat.not_lt_zero k)⟩
    · exact endLine_same h
  | cons ch f ih =>
    rw [readLoop, readLoop]
    split_ifs
    · exact endLine_same h
    · exact ih h
    · obtain ⟨h1, h2⟩ | ⟨h1, h2⟩ := put_cases lineBuf m m' i ch
      · rw [h1, h2]
        exact .none
      · rw [h1, h2]
        exact ih (h.put_succ ch)
    · exact endLine_same h

theorem stripLoop_same (h : Agree len m m') (hk : k ≤ i) (hn : i + n ≤ len) :
    Option.Rel (fun p p' => p.2 = p'.2 ∧ p.2 ≤ len ∧ Agree len p.1 p'.1)
      (stripLoop n i k m) (stripLoop n i k m') := by
  induction n generalizing i k m m' with
  | zero => exact .some ⟨rfl, by dsimp only; omega, h⟩
  | succ n ih =>
    rw [stripLoop, stripLoop, get_congr (h i (by omega))]
    cases lineBuf.get m' i with
    | none => exact .none
    | some a =>
      rw [Option.bind_some, Option.bind_some]
      split_ifs
      · exact .some ⟨rfl, by dsimp only; omega, h⟩
      · obtain ⟨h1, h2⟩ | ⟨h1, h2⟩ := put_cases lineBuf m m' k a
        · rw [h1, h2]
          exact .none
        · rw [h1, h2]
          exact ih (h.put k a) (by omega) (by omega)
      · exact ih h (by omega) (by omega)

theorem readStr_congr (h : Agree (i + n) m m') : readStr r m n i = readStr r m' n i := by
  induction n generalizing i with
  | zero => rfl
  | succ n ih =>
    have hrest : Agree (i + 1 + n) m m' := h.mono (by omega)
    rw [readStr, readStr, get_congr (h i (by omega)), ih hrest]

theorem copyStr_congr (h : Agree (i + n) m m') : copyStr size m i n = copyStr size m' i n := by
  unfold copyStr
  rw [readStr_congr h]

theorem newSection_congr (hn : 2 < n) (h : Agree n m m') : newSection m n = newSection m' n := by
  have hle : Agree (1 + (n - 2)) m m' := h.mono (by omega)
  unfold newSection
  rw [copyStr_congr hle]

theorem newNode_congr (h : Agree n m m') : newNode m n = newNode m' n := by
  have hle : Agree (0 + n) m m' := h.mono (by omega)
  unfold newNode
  rw [copyStr_congr hle]

theorem parseStripped_congr (h0 : 0 < n) (h : Agree n m m') :
    config.parseStripped m n = config.parseStripped m' n := by
  unfold IniConfig.parseStripped
  rw [get_congr (h 0 h0), get_congr (h (n - 1) (by omega)), newNode_congr h]
  by_cases h2 : 2 < n
  · rw [newSection_congr h2 h]
  · simp only [if_neg h2]

/-- **A line is parsed by its characters.** -/
theorem parseIniLine_same (h : Agree len m m') :
    Option.Rel (fun p p' => p.2 = p'.2) (config.parseIniLine m len) (config.parseIniLine m' len) := by
  unfold IniConfig.parseIniLine
  have hstrip := @stripLoop_same 0 0 len len m m' h le_rfl (by omega)
  generalize stripLoop len 0 0 m = x at hstrip ⊢
  generalize stripLoop len 0 0 m' = y at hstrip ⊢
  cases hstrip with
  | none => exact .none
  | @some p p' hp =>
    obtain ⟨b, j⟩ := p
    obtain ⟨b', j'⟩ := p'
    obtain ⟨hj, hle, hagree⟩ := hp
    dsimp only at hj hle hagree
    subst hj
    dsimp only [Option.bind_some]
    obtain ⟨h1, h2⟩ | ⟨h1, h2⟩ := put_cases lineBuf b b' j 0
    · rw [h1, h2]
      exact .none
    · rw [h1, h2, Option.bind_some, Option.bind_some]
      split_ifs with h0
      · exact .some rfl
      · have hcells : Agree j (store b j [0]) (store b' j [0]) := (hagree.mono hle).put j 0
        rw [parseStripped_congr (Nat.pos_of_ne_zero h0) hcells]
        cases config.parseStripped (store b' j [0]) j with
        | none => exact .none
        | some c => exact .some rfl

/-- **What a file is read into does not depend on what the buffer had.** -/
theorem readLines_unique (h : readLines n f m config = .done c)
    (h' : readLines n' f m' config = .done c') :
    c = c' := by
  induction n generalizing n' f m m' config with
  | zero => cases h
  | succ n ih =>
    cases n' with
    | zero => cases h'
    | succ n' =>
      rw [readLines] at h h'
      have hline := @readLoop_same f 0 1000 0 m m' fun k hk => absurd hk (Nat.not_lt_zero k)
      unfold readIniLine at h h'
      cases hread : readLoop 1000 f 0 0 m with
      | none =>
        rw [hread] at h
        cases h
      | some a =>
        rw [hread] at h hline
        cases hread' : readLoop 1000 f 0 0 m' with
        | none =>
          rw [hread'] at h'
          cases h'
        | some b =>
          rw [hread'] at h' hline
          cases hline with
          | some hsame =>
            obtain ⟨hret, hrest, hagree⟩ := hsame
            dsimp only at h h'
            rw [← hret, ← hrest] at h'
            split_ifs at h h' with hpos hend
            · have hparse := @parseIniLine_same a.ret.toNat a.buf b.buf config hagree
              generalize config.parseIniLine a.buf a.ret.toNat = x at h hparse
              generalize config.parseIniLine b.buf a.ret.toNat = y at h' hparse
              cases hparse with
              | none => cases h
              | @some p p' hp =>
                obtain ⟨b₁, c₁⟩ := p
                obtain ⟨b₂, c₂⟩ := p'
                dsimp only at h h' hp
                subst hp
                exact ih h h'
            · cases h
              cases h'
              rfl
            · exact ih h h'

theorem done_unique (h : readIniFile n f m = .done c) (h' : readIniFile n' f m' = .done c') :
    c = c' :=
  readLines_unique h h'

/-! ### What has been read -/

/-- The current section of a reader that is new is the last one of the file. -/
def Parsed (config : IniConfig) : Prop :=
  config.cur = if config.sections = [] then none else some (config.sections.length - 1)

theorem parsed_addSection (s : IniSection) : Parsed (config.addSection s) := by
  have hne : config.sections ++ [s] ≠ [] :=
    List.append_ne_nil_of_right_ne_nil _ (List.cons_ne_nil s [])
  unfold Parsed IniConfig.addSection
  dsimp only
  rw [if_neg hne, List.length_append, List.length_singleton, Nat.add_sub_cancel]

theorem parsed_addNode (h : Parsed config) (node : IniNode) : Parsed (config.addNode k node) := by
  have hnil : (config.addNode k node).sections = [] ↔ config.sections = [] := by
    rw [← List.length_eq_zero_iff, ← List.length_eq_zero_iff]
    exact iff_of_eq (congrArg (· = 0) (List.length_modify ..))
  unfold Parsed
  simp only [hnil]
  refine h.trans ?_
  rw [show (config.addNode k node).sections.length = config.sections.length from List.length_modify ..]

theorem parsed_parseStripped (h : Parsed config) (hc : config.parseStripped buf n = some c) :
    Parsed c := by
  unfold IniConfig.parseStripped at hc
  obtain ⟨first, -, hc⟩ := Option.bind_eq_some_iff.mp hc
  by_cases hfirst : first = '['.toUInt8
  · rw [if_pos hfirst] at hc
    split_ifs at hc
    · obtain ⟨last, -, hc⟩ := Option.bind_eq_some_iff.mp hc
      split_ifs at hc
      · obtain ⟨s, -, rfl⟩ := Option.map_eq_some_iff.mp hc
        exact parsed_addSection s
      · cases hc
        exact h
    · cases hc
      exact h
  · rw [if_neg hfirst] at hc
    cases hcur : config.cur with
    | none =>
      rw [hcur] at hc
      cases hc
      exact h
    | some k =>
      rw [hcur] at hc
      dsimp only at hc
      split_ifs at hc
      · obtain ⟨node, -, rfl⟩ := Option.map_eq_some_iff.mp hc
        cases node with
        | none => exact h
        | some node => exact parsed_addNode h node
      · cases hc
        exact h

theorem parsed_parseIniLine (h : Parsed config) (hc : config.parseIniLine buf n = some (buf', c)) :
    Parsed c := by
  unfold IniConfig.parseIniLine at hc
  obtain ⟨⟨b, j⟩, -, hc⟩ := Option.bind_eq_some_iff.mp hc
  obtain ⟨b', -, hc⟩ := Option.bind_eq_some_iff.mp hc
  split_ifs at hc
  · cases hc
    exact h
  · obtain ⟨c', hc', he⟩ := Option.map_eq_some_iff.mp hc
    cases he
    exact parsed_parseStripped h hc'

theorem parsed_readLines (h : Parsed config) (hc : readLines n f buf config = .done c) :
    Parsed c := by
  induction n generalizing f buf config with
  | zero => cases hc
  | succ n ih =>
    rw [readLines] at hc
    split at hc
    · cases hc
    · split_ifs at hc
      · split at hc
        · cases hc
        · rename_i hparse
          exact ih (parsed_parseIniLine h hparse) hc
      · cases hc
        exact h
      · exact ih h hc

theorem parsed_readIniFile (h : readIniFile n f m = .done c) : Parsed c := by
  have hnew : Parsed {} := by
    unfold Parsed
    rw [if_pos rfl]
  exact parsed_readLines hnew h

end ChatShow.Antlib.IniReads
