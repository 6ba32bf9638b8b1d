import ChatShow.Antlib.IniReads

/-! # Lookups in an ini file

`get_section` looks at the current section first, and else for the first section with the name. A
reader that is new has the last section of the file as the current one. Where an earlier section has
the name of the last, the last one is found until a lookup has found a section of another name, and
the first one from then on; nothing else that is looked up depends on what has been
(`lookup_stable_iff`). -/

namespace ChatShow.Antlib.IniLookups

open ChatShow.Antlib.IniReader ChatShow.Antlib.IniReads

variable {session key sec : List UInt8} {k : ℕ} {config c : IniConfig} {s : IniSection}

/-- A call that looks for a section. -/
inductive Lookup
  | session (session : List UInt8)
  | int (session key : List UInt8) (dflt : Int32)
  | string (session key dflt : List UInt8)

def Lookup.name : Lookup → List UInt8
  | .session session => session
  | .int session _ _ => session
  | .string session _ _ => session

/-- The reader after a lookup. -/
def Lookup.after (c : IniConfig) : Lookup → IniConfig
  | .session session => (c.isIniSession session).2
  | .int session key dflt => (c.getValueInt session key dflt).2
  | .string session key dflt => (c.getValueString session key dflt).2

/-- The section that was found is what a lookup leaves. -/
theorem after_eq (c : IniConfig) (l : Lookup) : l.after c = (c.getSection l.name).2 := by
  cases l <;> rfl

/-- The first section with the name. -/
def firstOf (config : IniConfig) (sec : List UInt8) : Option ℕ :=
  config.sections.findIdx? (·.secKey = sec)

/-- The reader `c` has the sections of `config`, and the current one is the first with its name. -/
def Canonical (config c : IniConfig) : Prop :=
  c.sections = config.sections ∧
    ∃ k s, c.cur = some k ∧ config.sections[k]? = some s ∧ firstOf config s.secKey = some k

/-! ### Where a section is found -/

theorem firstOf_none : firstOf config sec = none ↔ ∀ s ∈ config.sections, s.secKey ≠ sec := by
  unfold firstOf
  rw [List.findIdx?_eq_none_iff]
  exact forall₂_congr fun s _ => decide_eq_false_iff_not

theorem firstOf_some (h : firstOf config sec = some k) :
    ∃ s, config.sections[k]? = some s ∧ s.secKey = sec := by
  obtain ⟨hk, hs, -⟩ := List.findIdx?_eq_some_iff_getElem.mp h
  exact ⟨config.sections[k], List.getElem?_eq_getElem hk, of_decide_eq_true hs⟩

theorem getSection_cur (hc : c.cur = some k) (hs : c.sections[k]? = some s) :
    c.getSection s.secKey = (some k, c) := by
  unfold IniConfig.getSection
  rw [hc]
  exact if_pos (congrArg (Option.map IniSection.secKey) hs)

theorem getSection_other (hc : c.cur = some k) (hs : c.sections[k]? = some s) (hne : s.secKey ≠ sec) :
    c.getSection sec = match firstOf c sec with
      | some i => (some i, { c with cur := some i })
      | none => (none, c) := by
  have hneg : ¬ c.sections[k]?.map IniSection.secKey = some sec := by
    rw [hs]
    exact fun h => hne (Option.some.inj h)
  unfold IniConfig.getSection
  rw [hc]
  exact if_neg hneg

/-- Where the current section is the first of its name, the first one is found of every name. -/
theorem getSection_canonical (h : Canonical config c) (sec : List UInt8) :
    (c.getSection sec).1 = firstOf config sec ∧ Canonical config (c.getSection sec).2 := by
  obtain ⟨hsec, k, s, hc, hs, hfirst⟩ := h
  have heq : firstOf c sec = firstOf config sec := by
    unfold firstOf
    rw [hsec]
  rw [← hsec] at hs
  by_cases hne : s.secKey = sec
  · rw [← hne, getSection_cur hc hs]
    exact ⟨hfirst.symm, hsec, k, s, hc, hsec ▸ hs, hfirst⟩
  · rw [getSection_other hc hs hne, heq]
    cases hn : firstOf config sec with
    | none => exact ⟨rfl, hsec, k, s, hc, hsec ▸ hs, hfirst⟩
    | some i =>
      obtain ⟨t, ht, hname⟩ := firstOf_some hn
      exact ⟨rfl, hsec, i, t, rfl, ht, hname.symm ▸ hn⟩

/-! ### A reader that is new -/

/-- The file has a section with the name. -/
def Has (config : IniConfig) (sec : List UInt8) : Prop := ∃ s ∈ config.sections, s.secKey = sec

/-- A lookup of the history has found a section with another name than `session`. -/
def Moved (config : IniConfig) (history : List Lookup) (session : List UInt8) : Prop :=
  ∃ l ∈ history, l.name ≠ session ∧ Has config l.name

theorem parsed_cases (h : Parsed config) : (config.sections = [] ∧ config.cur = none) ∨
    ∃ k s, config.cur = some k ∧ config.sections[k]? = some s ∧
    config.sections.getLast? = some s := by
  unfold Parsed at h
  split_ifs at h with hnil
  · exact Or.inl ⟨hnil, h⟩
  · refine Or.inr ⟨_, config.sections.getLast hnil, h, ?_, List.getLast?_eq_some_getLast hnil⟩
    rw [← List.getLast?_eq_getElem?, List.getLast?_eq_some_getLast hnil]

/-- **After a history the reader is as it was, or the current section is the first of its name.** -/
theorem foldl_after (hc : config.cur = some k) (hs : config.sections[k]? = some s)
    (history : List Lookup) :
    (¬ Moved config history s.secKey ∧ history.foldl Lookup.after config = config) ∨
    (Moved config history s.secKey ∧ Canonical config (history.foldl Lookup.after config)) := by
  have hcanon {c : IniConfig} (h : Canonical config c) (history : List Lookup) :
      Canonical config (history.foldl Lookup.after c) := by
    induction history generalizing c with
    | nil => exact h
    | cons l history ih =>
      rw [List.foldl_cons, after_eq]
      exact ih (getSection_canonical h l.name).2
  induction history with
  | nil => exact Or.inl ⟨fun ⟨l, hl, _⟩ => (nomatch hl), rfl⟩
  | cons l history ih =>
    have hcons : Moved config (l :: history) s.secKey ↔
        (l.name ≠ s.secKey ∧ Has config l.name) ∨ Moved config history s.secKey := by
      unfold Moved
      exact List.exists_mem_cons_iff _ l history
    rw [List.foldl_cons, after_eq, hcons]
    -- a lookup of the current section, or of none, leaves the reader as it is
    by_cases hname : s.secKey = l.name
    · rw [← hname, getSection_cur hc hs]
      simpa only [ne_eq, not_true_eq_false, false_and, false_or] using ih
    rw [getSection_other hc hs hname]
    cases hfirst : firstOf config l.name with
    | none =>
      have hno : ¬ Has config l.name := fun ⟨t, ht, he⟩ => firstOf_none.mp hfirst t ht he
      simpa only [hno, and_false, false_or] using ih
    | some i =>
      obtain ⟨t, ht, he⟩ := firstOf_some hfirst
      have hyes : Has config l.name := ⟨t, List.mem_of_getElem? ht, he⟩
      refine Or.inr ⟨Or.inl ⟨Ne.symm hname, hyes⟩, hcanon ?_ history⟩
      exact ⟨rfl, i, t, rfl, ht, he.symm ▸ hfirst⟩

/-! ### Values -/

/-- The values that a reader gives for a key, whatever is returned where there is none. -/
def SameValues (c c' : IniConfig) (session key : List UInt8) : Prop :=
  (∀ dflt, (c.getValueString session key dflt).1 = (c'.getValueString session key dflt).1) ∧
    ∀ dflt, (c.getValueInt session key dflt).1 = (c'.getValueInt session key dflt).1

/-- A text is returned for every default just where it is the value. -/
theorem sameValues_iff {c c' : IniConfig} :
    SameValues c c' session key ↔ (c.getValue session key).1 = (c'.getValue session key).1 := by
  constructor
  · rintro ⟨h, -⟩
    have h' (dflt : List UInt8) :
        (c.getValue session key).1.getD dflt = (c'.getValue session key).1.getD dflt := h dflt
    have hne (v : List UInt8) : 0 :: v ≠ v := fun he => absurd (congrArg List.length he)
        (Nat.succ_ne_self _)
    cases hv : (c.getValue session key).1 with
    | none =>
      cases hv' : (c'.getValue session key).1 with
      | none => rfl
      | some v =>
        rw [hv, hv'] at h'
        exact absurd (h' (0 :: v)) (hne v)
    | some v =>
      cases hv' : (c'.getValue session key).1 with
      | none =>
        rw [hv, hv'] at h'
        exact absurd (h' (0 :: v)).symm (hne v)
      | some v' =>
        rw [hv, hv'] at h'
        rw [show v = v' from h' []]
  · intro h
    have hint (c : IniConfig) (dflt : Int32) : (c.getValueInt session key dflt).1 =
        ((c.getValue session key).1.map IniConfig.atoi).getD dflt := rfl
    have hstring (c : IniConfig) (dflt : List UInt8) : (c.getValueString session key dflt).1 =
        (c.getValue session key).1.getD dflt := rfl
    exact ⟨fun dflt => by rw [hstring, hstring, h], fun dflt => by rw [hint, hint, h]⟩

/-- The value of the section at a place. -/
def valueAt (config : IniConfig) (list : Option ℕ) (key : List UInt8) : Option (List UInt8) :=
  (list.bind fun k => config.sections[k]?).bind fun s => IniConfig.value s key

theorem getSection_sections (c : IniConfig) (sec : List UInt8) :
    (c.getSection sec).2.sections = c.sections := by
  unfold IniConfig.getSection
  split
  · rfl
  · split_ifs
    · rfl
    · split <;> rfl

theorem getValue_eq (c : IniConfig) : (c.getValue session key).1 =
    valueAt c (c.getSection session).1 key := by
  unfold IniConfig.getValue valueAt
  dsimp only
  rw [getSection_sections]

/-! ### What depends on the history -/

/-- The last section of the file is not the one that is asked for; or no lookup has found a section
of another name; or the first section of the name has the value of the last one. -/
def Stable (config : IniConfig) (history : List Lookup) (session key : List UInt8) : Prop :=
  config.sections.getLast?.map IniSection.secKey ≠ some session ∨ ¬ Moved config history session ∨
    (config.sections.find? (·.secKey = session)).map (IniConfig.value · key) =
      config.sections.getLast?.map (IniConfig.value · key)

theorem find_firstOf (config : IniConfig) (sec : List UInt8) :
    (firstOf config sec).bind (fun k => config.sections[k]?) =
      config.sections.find? (·.secKey = sec) := by
  unfold firstOf
  rw [List.find?_eq_bind_findIdx?_getElem?]

/-- **For which histories a value is that of a new reader.** -/
theorem lookup_stable_iff {n n' : ℕ} {f : List UInt8} {buf buf' : ℕ → UInt8} {fresh : IniConfig}
    (h : readIniFile n f buf = .done config) (hfresh : readIniFile n' f buf' = .done fresh)
    (history : List Lookup) (session key : List UInt8) :
    SameValues (history.foldl Lookup.after config) fresh session key ↔
      Stable config history session key := by
  cases done_unique h hfresh
  rw [sameValues_iff, getValue_eq, getValue_eq]
  obtain ⟨hnil, hcur⟩ | ⟨k, s, hc, hs, hlast⟩ := parsed_cases (parsed_readIniFile h)
  · -- a reader without sections stays as it is
    have hsame : history.foldl Lookup.after config = config := by
      induction history with
      | nil => rfl
      | cons l history ih =>
        rw [List.foldl_cons, after_eq, show config.getSection l.name = (none, config) by
          unfold IniConfig.getSection
          rw [hcur], ih]
    rw [hsame]
    refine iff_of_true rfl (Or.inl ?_)
    rw [hnil]
    exact fun he => nomatch he
  unfold Stable
  rw [hlast, Option.map_some, Option.map_some]
  have hfirst : valueAt config (firstOf config session) key =
      (config.sections.find? (·.secKey = session)).bind (IniConfig.value · key) := by
    unfold valueAt
    rw [find_firstOf]
  have hvalue {c : IniConfig} (hcanon : Canonical config c) :
      valueAt c (c.getSection session).1 key = valueAt config (firstOf config session) key := by
    rw [(getSection_canonical hcanon session).1]
    unfold valueAt
    rw [hcanon.1]
  by_cases hname : s.secKey = session
  · subst hname
    rw [getSection_cur hc hs]
    have hown : valueAt config (some k) key = IniConfig.value s key := by
      unfold valueAt
      rw [Option.bind_some, hs, Option.bind_some]
    obtain ⟨hmoved, hsame⟩ | ⟨hmoved, hcanon⟩ := foldl_after hc hs history
    · rw [hsame, getSection_cur hc hs]
      exact iff_of_true rfl (Or.inr (Or.inl hmoved))
    · obtain ⟨t, ht⟩ : ∃ t, config.sections.find? (·.secKey = s.secKey) = some t :=
        Option.isSome_iff_exists.mp (List.find?_isSome.mpr
          ⟨s, List.mem_of_getElem? hs, decide_eq_true rfl⟩)
      rw [hvalue hcanon, hfirst, hown, ht, Option.bind_some, Option.map_some, Option.some.injEq]
      simp only [ne_eq, not_true_eq_false, hmoved, false_or]
  · refine iff_of_true ?_ (Or.inl fun he => hname (Option.some.inj he))
    have hnew : (config.getSection session).1 = firstOf config session := by
      rw [getSection_other hc hs hname]
      cases firstOf config session <;> rfl
    obtain ⟨-, hsame⟩ | ⟨-, hcanon⟩ := foldl_after hc hs history
    · rw [hsame]
    · rw [hvalue hcanon, hnew]

/-! ### A section that is there twice -/

/-- A file with a section `a` in front of a section `b` and behind it. -/
def twice : List UInt8 := "[a]\nk=1\n[b]\nk=2\n[a]\nk=3\n".toList.map Char.toUInt8

/-- What it is read into. -/
def twiceRead : IniConfig where
  sections :=
    [⟨['a'.toUInt8], [⟨['k'.toUInt8], ['1'.toUInt8]⟩]⟩,
    ⟨['b'.toUInt8], [⟨['k'.toUInt8], ['2'.toUInt8]⟩]⟩,
      ⟨['a'.toUInt8], [⟨['k'.toUInt8], ['3'.toUInt8]⟩]⟩]
  cur := some 2

/-- The value of `k` in `b` is that of a new reader, after `a` has been looked up. -/
theorem lookup_stable_iff_twice :
    SameValues ([.session ['a'.toUInt8]].foldl Lookup.after twiceRead) twiceRead ['b'.toUInt8] ['k'.toUInt8] ↔
      Stable twiceRead [.session ['a'.toUInt8]] ['b'.toUInt8] ['k'.toUInt8] := by
  have hread : readIniFile 7 twice (fun _ => 0) = .done twiceRead := by decide +kernel
  have hfresh : readIniFile 7 twice (fun _ => 1) = .done twiceRead := by decide +kernel
  exact lookup_stable_iff hread hfresh _ _ _

/-- The value of `k` in `a` is 3, and 1 once `b` has been looked up. -/
theorem not_lookup_stable : readIniFile 7 twice (fun _ => 0) = .done twiceRead ∧
    ¬ SameValues ([.session ['b'.toUInt8]].foldl Lookup.after twiceRead) twiceRead ['a'.toUInt8]
      ['k'.toUInt8] := by
  refine ⟨by decide +kernel, fun h => ?_⟩
  have hthree : (twiceRead.getValueString ['a'.toUInt8] ['k'.toUInt8] []).1 = ['3'.toUInt8] := by
    decide +kernel
  have hone : (([.session ['b'.toUInt8]].foldl Lookup.after twiceRead).getValueString ['a'.toUInt8]
      ['k'.toUInt8] []).1 = ['1'.toUInt8] := by
    decide +kernel
  have hsame := h.1 []
  rw [hone, hthree] at hsame
  exact absurd hsame (by decide)

end ChatShow.Antlib.IniLookups
