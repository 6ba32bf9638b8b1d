import ChatShow.Antlib.Escapes
import ChatShow.Antlib.HeaderScan

/-! # A GET request there and back

What `set_http_get` writes (`header`) is read by `parse_http_header_len` and `parse_http_get`. The writer
escapes the values, and the reader escapes them once more in place of taking the escapes back: a second
time there is nothing to escape, so that the values are what the first has made of them. The path is looked
at from its second character on, and the host is written as it is. -/

namespace ChatShow.Antlib.HttpGetTrip

open ChatShow.Lib.Cells ChatShow.Lib.CStrings ChatShow.Antlib.HttpProtocol ChatShow.Antlib.HttpRequest
open ChatShow.Antlib.HeaderScan ChatShow.Antlib.Escapes

variable {m m' : ℕ → UInt8} {a b v path host : List UInt8} {buf len values N : ℕ} {valueLen : ℤ}

/-! ### What is written -/

/-- The header with the values `v`. -/
def header (path host v : List UInt8) : List UInt8 := getLine path ++ escaped v ++ getHost host

theorem length_getLine (path : List UInt8) : (getLine path).length = path.length + 6 := by
  unfold getLine
  rw [List.length_append, List.length_append, show ("GET /".toList.map Char.toUInt8).length = 5 from rfl,
    List.length_singleton]
  omega

theorem length_getHost (host : List UInt8) : (getHost host).length = host.length + 21 := by
  unfold getHost
  rw [List.length_append, List.length_append,
    show (" HTTP/1.1\r\nHost: ".toList.map Char.toUInt8).length = 17 from rfl,
    show ("\r\n\r\n".toList.map Char.toUInt8).length = 4 from rfl]
  omega

theorem length_header (path host v : List UInt8) :
    (header path host v).length = path.length + (escaped v).length + host.length + 27 := by
  unfold header
  rw [List.length_append, List.length_append, length_getLine, length_getHost]
  omega

/-- A text for which there is room. -/
theorem snprintf_of_lt {size : ℕ} {text : List UInt8} (h : text.length < size) :
    snprintf m buf size text = store m buf (text ++ [0]) := by
  unfold snprintf
  rw [if_neg (by omega), List.take_of_length_le (by omega)]

theorem snprintf_of_disjoint {size i : ℕ} {text : List UInt8} (h : i < buf ∨ buf + size ≤ i) :
    snprintf m buf size text i = m i := by
  unfold snprintf
  split_ifs with hsize
  · rfl
  · refine store_of_disjoint ?_
    rw [List.length_append, List.length_take, List.length_singleton]
    omega

/-- The length of a string that ends below `n`. -/
theorem strnlen_eq {n str : ℕ} (hv : slice m str v.length = v) (hnul : m (str + v.length) = 0)
    (h0 : 0 ∉ v) : strnlen m n str = min n v.length := by
  induction n generalizing v str with
  | zero =>
    rw [Nat.zero_min]
    rfl
  | succ n ih =>
    unfold strnlen
    cases v with
    | nil =>
      rw [List.length_nil, Nat.min_zero]
      exact if_pos hnul
    | cons c v =>
      rw [List.mem_cons, not_or] at h0
      rw [List.length_cons, slice_succ] at hv
      obtain ⟨hc, hrest⟩ := List.cons.inj hv
      rw [List.length_cons, ← Nat.add_assoc, Nat.add_right_comm] at hnul
      rw [hc, if_neg (Ne.symm h0.1), ih hrest hnul h0.2, List.length_cons, Nat.add_min_add_right]

/-- A text that has been written with its NUL. -/
theorem slice_store_text (m : ℕ → UInt8) (off : ℕ) (text : List UInt8) :
    slice (store m off (text ++ [0])) off text.length = text := by
  rw [← store_store_append, slice_store_of_disjoint (.inl le_rfl), slice_store_same]

/-- The values are a string, given by its length or by -1, apart from the buffer. -/
structure Given (m : ℕ → UInt8) (buf len values : ℕ) (v : List UInt8) (valueLen : ℤ) : Prop where
  string : slice m values v.length = v
  nul : m (values + v.length) = 0
  no_nul : 0 ∉ v
  length : valueLen = -1 ∨ valueLen = v.length
  apart : values + v.length < buf ∨ buf + len ≤ values

/-- The length that `set_http_get` goes by. -/
theorem Given.length_eq (hg : Given m buf len values v valueLen) (text : List UInt8) :
    (if valueLen = -1 then (strnlen (snprintf m buf len text) len values : ℤ) else valueLen) =
      v.length ∨
    (len : ℤ) ≤ (if valueLen = -1 then (strnlen (snprintf m buf len text) len values : ℤ) else valueLen) := by
  have hdisjoint := hg.apart
  split_ifs with hneg
  · have hkeep (i : ℕ) (hi : i ≤ v.length) : snprintf m buf len text (values + i) = m (values + i) :=
      snprintf_of_disjoint (by omega)
    have hstring : slice (snprintf m buf len text) values v.length = v := by
      conv_rhs => rw [← hg.string]
      exact slice_congr fun i hlow hhigh => snprintf_of_disjoint (by omega)
    rw [strnlen_eq hstring ((hkeep v.length le_rfl).trans hg.nul) hg.no_nul]
    omega
  · exact .inl (hg.length.resolve_left hneg)

/-- **What `set_http_get` has written** where it has not failed. -/
theorem written (hg : Given m buf len values v valueLen)
    (h : setHttpGet m buf len path host values valueLen = some (m', N)) :
    N = (header path host v).length ∧ slice m' buf N = header path host v := by
  have hdisjoint := hg.apart
  have hlength := hg.length_eq (getLine path)
  unfold setHttpGet at h
  dsimp only at h
  generalize (if valueLen = -1 then (strnlen (snprintf m buf len (getLine path)) len values : ℤ)
    else valueLen) = vl at h hlength
  split_ifs at h with hroom
  have hvl : vl = v.length := by omega
  subst hvl
  rw [Int.toNat_natCast, snprintf_of_lt (by omega)] at h
  generalize hn : (getLine path).length = n at h hroom
  generalize hm₁ : store m buf (getLine path ++ [0]) = m₁ at h
  -- The values are escaped behind the line.
  have hstring : slice m₁ values v.length = v := by
    conv_rhs => rw [← hg.string]
    rw [← hm₁]
    refine slice_store_of_disjoint ?_
    rw [List.length_append, List.length_singleton]
    omega
  cases hesc : str2escape m₁ values v.length (buf + n) (len - n) with
  | none =>
    rw [hesc] at h
    cases h
  | some p =>
    obtain ⟨m₂, k⟩ := p
    obtain ⟨hk, hlt, hslice, -, hout⟩ := escapeLoop_spec hstring (by omega) hesc
    rw [hesc, Option.bind_eq_bind, Option.bind_some] at h
    dsimp only at h
    split_ifs at h with hfull
    rw [snprintf_of_lt (by omega)] at h
    cases h
    rw [Nat.zero_add] at hk
    rw [slice_zero, List.nil_append] at hslice
    have hline : slice m₂ buf n = getLine path := by
      rw [slice_congr fun i hlow hhigh => hout i (.inl hhigh), ← hm₁, ← hn]
      exact slice_store_text m buf (getLine path)
    refine ⟨?_, ?_⟩
    · unfold header
      rw [List.length_append, List.length_append, hn, ← hk]
    · unfold header
      rw [slice_add, slice_store_of_disjoint (.inl le_rfl), slice_store_text, slice_add, hline, hslice]

/-! ### The end of the header -/

/-- The loop finds nothing where every character is one of a header, and a line feed comes late and not two
behind another. -/
theorem headerLoop_nothing_iff (m : ℕ → UInt8) (n i : ℕ) : headerLoop m n i = some none ↔
    ∀ j, i ≤ j → j < i + n → isHttpurlOk (m j) = true ∧ (m j = 10 → 13 ≤ j ∧ m (j - 2) ≠ 10) := by
  induction n generalizing i with
  | zero => exact iff_of_true rfl fun j hlow hhigh => by omega
  | succ n ih =>
    -- The first character, and those behind it.
    have hsplit : (∀ j, i ≤ j → j < i + (n + 1) → isHttpurlOk (m j) = true ∧
        (m j = 10 → 13 ≤ j ∧ m (j - 2) ≠ 10)) ↔
        (isHttpurlOk (m i) = true ∧ (m i = 10 → 13 ≤ i ∧ m (i - 2) ≠ 10)) ∧
          headerLoop m n (i + 1) = some none := by
      rw [ih]
      constructor
      · exact fun h => ⟨h i le_rfl (by omega), fun j hlow hhigh => h j (by omega) (by omega)⟩
      · rintro ⟨hi, h⟩ j hlow hhigh
        rcases Nat.eq_or_lt_of_le hlow with rfl | hlt
        · exact hi
        · exact h j hlt (by omega)
    rw [hsplit, headerLoop]
    split_ifs with hok hline hearly hline2 hbad
    · exact iff_of_false (fun h => by cases h) fun h => by rw [h.1.1] at hok; cases hok
    · exact iff_of_false (fun h => by cases h) fun h => by have := (h.1.2 hline).1; omega
    · exact iff_of_false (fun h => by cases h) fun h => (h.1.2 hline).2 hline2
    · exact iff_of_false (fun h => by cases h) fun h => (h.1.2 hline).2 hline2
    · rw [Bool.not_eq_false] at hok
      have hfirst : isHttpurlOk (m i) = true ∧ (m i = 10 → 13 ≤ i ∧ m (i - 2) ≠ 10) :=
        ⟨hok, fun _ => ⟨by omega, hline2⟩⟩
      exact (and_iff_right hfirst).symm
    · rw [Bool.not_eq_false] at hok
      have hfirst : isHttpurlOk (m i) = true ∧ (m i = 10 → 13 ≤ i ∧ m (i - 2) ≠ 10) :=
        ⟨hok, fun h => absurd h hline⟩
      exact (and_iff_right hfirst).symm

/-- The host has characters of a header, and with its line end no two line feeds with one byte between. -/
def HostOk (host : List UInt8) : Prop :=
  (∀ c ∈ host, isHttpurlOk c = true) ∧
    ∀ i < host.length, (host ++ [13, 10]).getD i 0 = 10 → (host ++ [13, 10]).getD (i + 2) 0 ≠ 10

instance (host : List UInt8) : Decidable (HostOk host) := inferInstanceAs (Decidable (_ ∧ _))

/-- What is in front of the version. -/
def front (path v : List UInt8) : List UInt8 := getLine path ++ escaped v

theorem plain_front (hpath : ∀ c ∈ path, isHttppathOk c = true) {c : UInt8} (hc : c ∈ front path v) :
    isHttpurlOk c = true ∧ c ≠ 10 := by
  have hbig {c : UInt8} (h : 1 < httpPathWords c) : isHttpurlOk c = true ∧ c ≠ 10 := by
    refine ⟨decide_eq_true (by omega), ?_⟩
    rintro rfl
    exact absurd h (by decide)
  unfold front getLine at hc
  rw [List.mem_append, List.mem_append, List.mem_append] at hc
  obtain ((hc | hc) | hc) | hc := hc
  · revert c
    decide +kernel
  · have := of_decide_eq_true (hpath c hc)
    exact hbig (by omega)
  · rw [List.mem_singleton.mp hc]
    decide
  · have := of_decide_eq_false (escaped_pass hc)
    exact hbig (by omega)

def versionLine : List UInt8 := " HTTP/1.1\r\nHost: ".toList.map Char.toUInt8

theorem header_eq (path host v : List UInt8) :
    header path host v = front path v ++ (versionLine ++ (host ++ blankLine)) := by
  unfold header front getHost versionLine
  rw [List.append_assoc (List.map Char.toUInt8 _) host]
  rfl

/-- The line feed of the version line is behind a digit and a carriage return. -/
theorem versionLine_ok : ∀ j < 17, isHttpurlOk (versionLine.getD j 0) = true ∧
    (versionLine.getD j 0 = 10 → j = 10) ∧ versionLine.getD 8 0 ≠ 10 ∧ versionLine.getD 15 0 ≠ 10 ∧
      versionLine.getD 16 0 ≠ 10 := by
  decide

/-- What the scan finds in what is in front of the last byte depends on the host. -/
theorem headerLoop_header_iff (hpath : ∀ c ∈ path, isHttppathOk c = true) :
    headerLoop (cells (header path host v)) ((header path host v).length - 1) 0 = some none ↔
      HostOk host := by
  have hlen : (header path host v).length = (front path v).length + host.length + 21 := by
    rw [header_eq, List.length_append, List.length_append, List.length_append,
      show versionLine.length = 17 from rfl, show blankLine.length = 4 from rfl]
    omega
  have hlow : 7 ≤ (front path v).length + 1 := by
    unfold front
    rw [List.length_append, length_getLine]
    omega
  generalize hk : (front path v).length = k at hlen hlow
  -- The cells of the three parts.
  have hfront (j : ℕ) (hj : j < k) : cells (header path host v) j ∈ front path v := by
    unfold cells
    rw [header_eq, List.getD_append _ _ _ _ (by omega), List.getD_eq_getElem _ _ (by omega)]
    exact List.getElem_mem _
  have hversion (j : ℕ) (hj : j < 17) : cells (header path host v) (k + j) = versionLine.getD j 0 := by
    unfold cells
    rw [header_eq, List.getD_append_right _ _ _ _ (by omega), hk, Nat.add_sub_cancel_left,
      List.getD_append _ _ _ _ hj]
    rfl
  have hhost (j : ℕ) : cells (header path host v) (k + 17 + j) = (host ++ blankLine).getD j 0 := by
    unfold cells
    rw [header_eq, List.getD_append_right _ _ _ _ (by omega), hk,
      List.getD_append_right _ _ _ _ (by rw [show versionLine.length = 17 from rfl]; omega),
      show k + 17 + j - k - versionLine.length = j by rw [show versionLine.length = 17 from rfl]; omega]
    rfl
  have hshort (i : ℕ) (hi : i < host.length + 2) :
      (host ++ blankLine).getD i 0 = (host ++ [13, 10]).getD i 0 := by
    rw [show host ++ blankLine = host ++ [13, 10] ++ [13, 10] by rw [List.append_assoc]; rfl]
    refine List.getD_append _ _ _ _ ?_
    rw [List.length_append]
    exact hi
  have htail (i : ℕ) (hi : host.length ≤ i) :
      (host ++ blankLine).getD i 0 = blankLine.getD (i - host.length) 0 :=
    List.getD_append_right _ _ _ _ hi
  rw [headerLoop_nothing_iff]
  constructor
  · intro h
    have hat (i : ℕ) (hi : i < host.length + 3) := h (k + 17 + i) (Nat.zero_le _) (by omega)
    refine ⟨fun c hc => ?_, fun i hi h10 hnext => ?_⟩
    · obtain ⟨i, hi, rfl⟩ := List.getElem_of_mem hc
      have hok := (hat i (by omega)).1
      rwa [hhost, List.getD_append _ _ _ _ hi, List.getD_eq_getElem _ _ hi] at hok
    · have hline := ((hat (i + 2) (by omega)).2 (by rw [hhost, hshort _ (by omega)]; exact hnext)).2
      rw [show k + 17 + (i + 2) - 2 = k + 17 + i by omega, hhost, hshort _ (by omega)] at hline
      exact hline h10
  · rintro ⟨hchars, hlines⟩ j - hj
    rcases Nat.lt_or_ge j k with hin | hin
    · obtain ⟨hok, hne⟩ := plain_front hpath (hfront j hin)
      exact ⟨hok, fun h => absurd h hne⟩
    rcases Nat.lt_or_ge j (k + 17) with hin' | hin'
    · obtain ⟨i, rfl⟩ := Nat.exists_eq_add_of_le hin
      obtain ⟨hok, hline, h8, -⟩ := versionLine_ok i (by omega)
      rw [hversion i (by omega)]
      refine ⟨hok, fun h => ?_⟩
      rw [hline h, show k + 10 - 2 = k + 8 by omega, hversion 8 (by decide)]
      exact ⟨by omega, h8⟩
    · obtain ⟨i, rfl⟩ := Nat.exists_eq_add_of_le hin'
      obtain ⟨-, -, -, h15, h16⟩ := versionLine_ok 0 (by decide)
      rw [hhost]
      refine ⟨?_, fun h10 => ⟨by omega, ?_⟩⟩
      · rcases Nat.lt_or_ge i host.length with hi | hi
        · rw [List.getD_append _ _ _ _ hi, List.getD_eq_getElem _ _ hi]
          exact hchars _ (List.getElem_mem hi)
        · rw [htail i hi]
          have hblank : ∀ o < 4, isHttpurlOk (blankLine.getD o 0) = true := by decide
          exact hblank _ (by omega)
      · match i with
        | 0 =>
          rw [show k + 17 + 0 - 2 = k + 15 by omega, hversion 15 (by decide)]
          exact h15
        | 1 =>
          rw [show k + 17 + 1 - 2 = k + 16 by omega, hversion 16 (by decide)]
          exact h16
        | i + 2 =>
          rw [show k + 17 + (i + 2) - 2 = k + 17 + i by omega, hhost]
          intro hline
          rcases Nat.lt_or_ge i host.length with hi | hi
          · rw [hshort _ (by omega)] at hline h10
            exact hlines i hi hline h10
          · rw [htail i hi, show i - host.length = 0 by omega] at hline
            exact absurd hline (by decide)

/-- The last byte ends the header. -/
theorem headerLoop_found_iff (path host v : List UInt8) :
    headerLoop (cells (header path host v)) (header path host v).length 0 =
        some (some (header path host v).length) ↔
      headerLoop (cells (header path host v)) ((header path host v).length - 1) 0 = some none := by
  have hlen := length_header path host v
  generalize hN : (header path host v).length = n at hlen
  refine ⟨fun h => headerLoop_first h (by omega), fun h => ?_⟩
  have hlast (j : ℕ) (hj : j < 4) : cells (header path host v) (n - 4 + j) = blankLine.getD j 0 := by
    have heq : header path host v = front path v ++ versionLine ++ host ++ blankLine := by
      rw [header_eq, List.append_assoc, List.append_assoc, ← List.append_assoc (front path v)]
    have hfront := congrArg List.length heq
    rw [List.length_append, hN, show blankLine.length = 4 from rfl] at hfront
    rw [heq, show n - 4 = (front path v ++ versionLine ++ host).length by omega]
    exact getD_blankLine _ j
  have h0 := hlast 0 (by decide)
  have h1 := hlast 1 (by decide)
  have h2 := hlast 2 (by decide)
  have h3 := hlast 3 (by decide)
  have hadd := headerLoop_add (cells (header path host v)) (n - 1) 1 0
  rw [show n - 1 + 1 = n by omega, h, Nat.zero_add] at hadd
  rw [hadd]
  change headerLoop _ 1 (n - 1) = _
  rw [headerLoop, show n - 1 - 1 = n - 4 + 2 by omega, show n - 1 - 2 = n - 4 + 1 by omega,
    show n - 1 - 3 = n - 4 + 0 by omega, show n - 1 = n - 4 + 3 by omega, h0, h1, h2, h3,
    if_neg (by decide), if_pos (by decide), if_neg (by omega), if_pos (by decide), if_neg (by decide),
    show n - 4 + 3 + 1 = n by omega]

/-- **Where the end of what is written is found**: its length is that of a header, and the host is fine. -/
theorem headerLen_iff (hpath : ∀ c ∈ path, isHttppathOk c = true)
    (hlen : N = (header path host v).length) (hm : slice m buf N = header path host v) :
    parseHttpHeaderLen (shift m buf) (N % 65536) 0 = ((N : ℤ), N) ↔ HostOk host ∧ N < 65536 := by
  have hpos := length_header path host v
  have hsame (n : ℕ) (hn : n ≤ N) :
      headerLoop (shift m buf) n 0 = headerLoop (cells (header path host v)) n 0 := by
    refine headerLoop_congr fun j hj => ?_
    have hcell := getElem?_slice m buf N j
    rw [hm, if_pos (by omega)] at hcell
    unfold cells shift
    rw [List.getD_eq_getElem?_getD, hcell]
    rfl
  have hresult (n : ℕ) : parseHttpHeaderLen (shift m buf) n 0 = ((N : ℤ), N) ↔
      headerLoop (shift m buf) n 0 = some (some N) := by
    unfold parseHttpHeaderLen
    rw [Nat.sub_zero]
    match headerLoop (shift m buf) n 0 with
    | none => exact iff_of_false (fun h => by cases (Prod.mk.inj h).1) fun h => by cases h
    | some none =>
      refine iff_of_false (fun h => ?_) fun h => by cases h
      have := (Prod.mk.inj h).1
      omega
    | some (some len) =>
      constructor
      · exact fun h => congrArg _ (congrArg _ (Prod.mk.inj h).2)
      · rintro ⟨⟩
        rfl
  have hfound := headerLoop_found_iff path host v
  rw [← hlen, ← hsame N le_rfl, hlen, headerLoop_header_iff hpath, ← hlen] at hfound
  rw [hresult, ← hfound]
  constructor
  · intro h
    have hle := (headerLoop_found h).2.1
    have hsmall : N % 65536 = N := by omega
    rw [hsmall] at h
    exact ⟨h, by omega⟩
  · rintro ⟨h, hsmall⟩
    rwa [Nat.mod_eq_of_lt hsmall]

/-! ### What is parsed -/

/-- What `parse_http_get` leaves of a character of the path. -/
def cut (c : UInt8) : UInt8 := if c = '/'.toUInt8 then 0 else c

/-- Where `*path2` points behind a path whose first character is the character `i` of the header. -/
def lastSlash : List UInt8 → ℕ → Option ℕ → Option ℕ
  | [], _, path2 => path2
  | c :: l, i, path2 => lastSlash l (i + 1) (if c = '/'.toUInt8 then some (i + 1) else path2)

theorem parsePath_written (hpath : ∀ c ∈ path, isHttppathOk c = true) (l : List UInt8) (i : ℕ)
    (path2 : Option ℕ) : parsePath '?'.toUInt8 (path ++ '?'.toUInt8 :: l) i path2 =
      some (path.map cut ++ [0], lastSlash path i path2, l) := by
  induction path generalizing i path2 with
  | nil => exact if_pos rfl
  | cons c path ih =>
    obtain ⟨hc, hrest⟩ := List.forall_mem_cons.mp hpath
    have hstop : c ≠ '?'.toUInt8 := by
      rintro rfl
      exact absurd hc (by decide)
    rw [List.cons_append, parsePath, if_neg hstop, List.map_cons, lastSlash]
    unfold cut
    by_cases hslash : c = '/'.toUInt8
    · rw [if_pos hslash, if_pos hslash, if_pos hslash, ih hrest]
      rfl
    · rw [if_neg hslash, if_neg hslash, if_neg hslash, if_pos hc, ih hrest]
      rfl

theorem parseValues_written {s : List UInt8} (hs : ∀ c ∈ s, isHttpEnescape c = false) (l : List UInt8) :
    parseValues (s ++ ' '.toUInt8 :: l) = some (s, l) := by
  induction s with
  | nil => exact if_pos rfl
  | cons c s ih =>
    obtain ⟨hc, hrest⟩ := List.forall_mem_cons.mp hs
    have hstop : c ≠ ' '.toUInt8 := by
      rintro rfl
      exact absurd hc (by decide)
    have hbig := of_decide_eq_false hc
    have hok : isHttpvalueOk c = true := decide_eq_true (by omega)
    rw [List.cons_append, parseValues, if_neg hstop, if_pos hok, ih hrest]
    rfl

/-- What is left of a header whose path has the characters `c` and `p`. -/
def parsed (c : UInt8) (p s l : List UInt8) : List UInt8 :=
  "GET /".toList.map Char.toUInt8 ++ c :: (p.map cut ++ 0 :: (s ++ 0 :: l))

/-- **What `parse_http_get` makes of what has been written.** The values are escaped again, which changes
nothing. -/
theorem parseHttpGet_header {c : UInt8} {p : List UInt8} (hpath : ∀ x ∈ p, isHttppathOk x = true)
    (host v : List UInt8) : parseHttpGet (header (c :: p) host v) =
      some ⟨parsed c p (escaped v) (getHost host).tail, 5, lastSlash p 6 none, 6 + (p.length + 1),
        (escaped v).length⟩ := by
  generalize hl : "GET /".toList.map Char.toUInt8 ++ [c] = lead
  have hlead : lead.length = 6 := by
    rw [← hl]
    rfl
  have hheader : header (c :: p) host v =
      lead ++ (p ++ '?'.toUInt8 :: (escaped v ++ ' '.toUInt8 :: (getHost host).tail)) := by
    rw [← hl]
    unfold header getLine getHost
    simp only [List.append_assoc]
    rfl
  have hstart : ¬ (lead.getD 3 0 ≠ ' '.toUInt8 ∨ lead.getD 4 0 ≠ '/'.toUInt8) := by
    rw [← hl]
    exact not_or.mpr ⟨not_not_intro rfl, not_not_intro rfl⟩
  have hpass : ∀ x ∈ escaped v, isHttpEnescape x = false := fun x hx => escaped_pass hx
  have hinPlace := @escapeLoop_inPlace (cells (escaped v)) 0 ((escaped v).length + 1) (escaped v).length 0
    (fun i hi => by
      unfold cells
      rw [Nat.zero_add, List.getD_eq_getElem _ _ (by omega)]
      exact hpass _ (List.getElem_mem _)) (by omega)
  rw [Nat.zero_add, Nat.zero_add] at hinPlace
  unfold parseHttpGet
  rw [hheader, List.getD_append _ _ _ _ (by omega), List.getD_append _ _ _ _ (by omega), if_neg hstart,
    List.drop_left' hlead, List.take_left' hlead, parsePath_written hpath, Option.bind_eq_bind,
    Option.bind_some]
  dsimp only
  rw [parseValues_written hpass, Option.bind_eq_bind, Option.bind_some]
  dsimp only
  unfold str2escape
  rw [hinPlace, Option.bind_eq_bind, Option.bind_some]
  have hvalues : slice (store (cells (escaped v)) (escaped v).length [0]) 0 ((escaped v).length + 1) =
      escaped v ++ [0] := by
    have happend := slice_store_append (cells (escaped v)) 0 (escaped v).length [0]
    rwa [Nat.zero_add, slice_cells (by omega), List.drop_zero, List.take_length] at happend
  have hbuf : lead ++ (p.map cut ++ [0]) ++ (escaped v ++ [0]) ++ (getHost host).tail =
      parsed c p (escaped v) (getHost host).tail := by
    rw [← hl]
    unfold parsed
    simp only [List.append_assoc, List.cons_append, List.nil_append]
  dsimp only
  rw [Nat.zero_add, hvalues, hbuf, List.length_append, List.length_map, List.length_singleton]

/-! ### The strings -/

theorem cstr_nul {s : List UInt8} (hs : 0 ∉ s) (l : List UInt8) : cstr (s ++ 0 :: l) = some s := by
  rw [cstr_append hs, show cstr (0 :: l) = some [] from if_pos rfl, Option.map_some, List.append_nil]

/-- Characters of a path are no NULs, and without a slash the path is left as it is. -/
theorem path_plain {s : List UInt8} (hs : ∀ c ∈ s, isHttppathOk c = true) :
    0 ∉ s ∧ ('/'.toUInt8 ∉ s → s.map cut = s) := by
  refine ⟨fun h => absurd (hs 0 h) (by decide), fun hslash => ?_⟩
  refine (List.map_congr_left fun c hc => if_neg ?_).trans (List.map_id s)
  rintro rfl
  exact hslash hc

/-- `*path1` is what is in front of the first slash behind its first character. -/
theorem cstr_path1 {c : UInt8} {x y s l : List UInt8} (hpath : ∀ b ∈ c :: x, isHttppathOk b = true)
    (hx : '/'.toUInt8 ∉ x) : cstr ((parsed c (x ++ '/'.toUInt8 :: y) s l).drop 5) = some (c :: x) := by
  have hlead : ("GET /".toList.map Char.toUInt8).length = 5 := rfl
  have hmap : (x ++ '/'.toUInt8 :: y).map cut = x ++ 0 :: y.map cut := by
    rw [List.map_append, List.map_cons, (path_plain (List.forall_mem_cons.mp hpath).2).2 hx]
    rfl
  unfold parsed
  rw [List.drop_left' hlead, hmap, List.append_assoc, ← List.cons_append]
  exact cstr_nul (path_plain hpath).1 _

theorem lastSlash_eq {x y : List UInt8} (hy : '/'.toUInt8 ∉ y) (i : ℕ) (path2 : Option ℕ) :
    lastSlash (x ++ '/'.toUInt8 :: y) i path2 = some (i + (x.length + 1)) := by
  have hrest (i : ℕ) (path2 : Option ℕ) : lastSlash y i path2 = path2 := by
    induction y generalizing i path2 with
    | nil => rfl
    | cons c y ih =>
      rw [List.mem_cons, not_or] at hy
      rw [lastSlash, if_neg (Ne.symm hy.1), ih hy.2]
  induction x generalizing i path2 with
  | nil =>
    rw [List.nil_append, lastSlash, if_pos rfl, hrest]
    rfl
  | cons c x ih =>
    rw [List.cons_append, lastSlash, ih, List.length_cons]
    congr 1
    omega

/-- What is in front of the string behind the path. -/
def upTo (c : UInt8) (x : List UInt8) : List UInt8 :=
  "GET /".toList.map Char.toUInt8 ++ [c] ++ x.map cut ++ [0]

theorem length_upTo (c : UInt8) (x : List UInt8) : (upTo c x).length = 6 + (x.length + 1) := by
  unfold upTo
  rw [List.length_append, List.length_append, List.length_map, List.length_singleton]
  exact Nat.add_assoc 6 _ 1

theorem parsed_eq (c : UInt8) (p s l : List UInt8) : parsed c p s l = upTo c p ++ (s ++ 0 :: l) := by
  unfold parsed upTo
  simp only [List.append_assoc, List.cons_append, List.nil_append]

/-- The string behind the last slash. -/
theorem cstr_path2 {c : UInt8} {x y s l : List UInt8} (hpath : ∀ b ∈ y, isHttppathOk b = true)
    (hy : '/'.toUInt8 ∉ y) :
    cstr ((parsed c (x ++ '/'.toUInt8 :: y) s l).drop (6 + (x.length + 1))) = some y := by
  obtain ⟨hnul, hmap⟩ := path_plain hpath
  have hparsed : parsed c (x ++ '/'.toUInt8 :: y) s l = upTo c x ++ (y ++ 0 :: (s ++ 0 :: l)) := by
    unfold parsed upTo
    rw [List.map_append, List.map_cons, hmap hy]
    simp only [List.append_assoc, List.cons_append, List.nil_append]
    rfl
  rw [hparsed, List.drop_left' (length_upTo c x)]
  exact cstr_nul hnul _

theorem cstr_values {c : UInt8} {p s l : List UInt8} (hs : 0 ∉ s) :
    cstr ((parsed c p s l).drop (6 + (p.length + 1))) = some s := by
  rw [parsed_eq, List.drop_left' (length_upTo c p)]
  exact cstr_nul hs _

/-! ### There and back -/

/-- The end of the `N` bytes that have been written is found, and they are parsed to the two parts of the
path and to the values. -/
def RoundTrip (m : ℕ → UInt8) (buf N : ℕ) (a b v : List UInt8) : Prop :=
  parseHttpHeaderLen (shift m buf) (N % 65536) 0 = ((N : ℤ), N) ∧
    ∃ g path2, parseHttpGet (slice m buf N) = some g ∧ g.path2 = some path2 ∧
      cstr (g.buf.drop g.path1) = some a ∧ cstr (g.buf.drop path2) = some b ∧
      cstr (g.buf.drop g.values) = some v ∧ g.len = v.length

/-- The request is one that comes back. -/
def Plain (a b v host : List UInt8) : Prop :=
  a ≠ [] ∧ '/'.toUInt8 ∉ a.tail ∧ '/'.toUInt8 ∉ b ∧ (∀ c ∈ v, isHttpEnescape c = false) ∧ HostOk host ∧
    a.length + b.length + v.length + host.length + 28 < 65536

instance (a b v host : List UInt8) : Decidable (Plain a b v host) := inferInstanceAs (Decidable (_ ∧ _))

/-- The last slash of a path. -/
theorem exists_last_slash {s : List UInt8} (h : '/'.toUInt8 ∈ s) :
    ∃ x y, s = x ++ '/'.toUInt8 :: y ∧ '/'.toUInt8 ∉ y := by
  obtain ⟨x, y, hxy, hx⟩ := List.eq_append_cons_of_mem (List.mem_reverse.mpr h)
  refine ⟨y.reverse, x.reverse, ?_, fun hmem => hx (List.mem_reverse.mp hmem)⟩
  rw [← List.reverse_reverse s, hxy, List.reverse_append, List.reverse_cons, List.append_assoc]
  rfl

/-- `*path1` begins with the first character of the path, whatever it is. -/
theorem path1_ne_nil {c : UInt8} {p s l : List UInt8} (hc : c ≠ 0) :
    cstr ((parsed c p s l).drop 5) ≠ some [] := by
  have hlead : ("GET /".toList.map Char.toUInt8).length = 5 := rfl
  unfold parsed
  rw [List.drop_left' hlead, cstr, if_neg hc]
  cases cstr (p.map cut ++ 0 :: (s ++ 0 :: l)) with
  | none => rintro ⟨⟩
  | some r => rintro ⟨⟩

/-- **Which requests come back**: those whose values have nothing to escape, whose path has two parts that
are read as such, whose host is one of a header, and which are not longer than a length can say. -/
theorem getTrip_iff (hpath : ∀ c ∈ a ++ b, isHttppathOk c = true)
    (hg : Given m buf len values v valueLen)
    (h : setHttpGet m buf len (a ++ '/'.toUInt8 :: b) host values valueLen = some (m', N)) :
    RoundTrip m' buf N a b v ↔ Plain a b v host := by
  obtain ⟨hN, hslice⟩ := written hg h
  obtain ⟨hpath1, hpath2⟩ := List.forall_mem_append.mp hpath
  have hwhole : ∀ c ∈ a ++ '/'.toUInt8 :: b, isHttppathOk c = true :=
    List.forall_mem_append.mpr ⟨hpath1, List.forall_mem_cons.mpr ⟨by decide, hpath2⟩⟩
  have hlen := length_header (a ++ '/'.toUInt8 :: b) host v
  rw [← hN, List.length_append, List.length_cons] at hlen
  have hnul : 0 ∉ escaped v := fun hmem => absurd (escaped_pass hmem) (by decide)
  unfold RoundTrip
  rw [headerLen_iff hwhole hN hslice, hslice]
  cases a with
  | nil =>
    rw [List.nil_append, parseHttpGet_header hpath2]
    refine iff_of_false ?_ fun hplain => hplain.1 rfl
    rintro ⟨-, g, path2, hparse, -, h1, -⟩
    cases hparse
    exact path1_ne_nil (by decide) h1
  | cons c a =>
    have hrest : ∀ x ∈ a ++ '/'.toUInt8 :: b, isHttppathOk x = true := (List.forall_mem_cons.mp hwhole).2
    rw [List.cons_append, parseHttpGet_header hrest]
    constructor
    · rintro ⟨⟨hhost, hsmall⟩, g, path2, hparse, hp2, h1, h2, -, h4⟩
      cases hparse
      have hv : (escaped v).length = v.length := h4
      refine ⟨List.cons_ne_nil _ _, fun hmem => ?_, fun hmem => ?_, (length_escaped_eq v).mp hv, hhost, ?_⟩
      · -- The first part ends at the first slash.
        obtain ⟨x, y, hxy, hx⟩ := List.eq_append_cons_of_mem hmem
        rw [List.tail_cons] at hxy
        subst hxy
        dsimp only at h1
        rw [List.append_assoc, List.cons_append, cstr_path1 (fun b hb => hpath1 b ?_) hx] at h1
        · have hlength := congrArg List.length (Option.some.inj h1)
          rw [List.length_cons, List.length_cons, List.length_append, List.length_cons] at hlength
          omega
        · obtain rfl | hb := List.mem_cons.mp hb
          · exact List.mem_cons_self
          · exact List.mem_cons_of_mem _ (List.mem_append_left _ hb)
      · -- The second part is behind the last one.
        obtain ⟨x, y, rfl, hy⟩ := exists_last_slash hmem
        have hp : a ++ '/'.toUInt8 :: (x ++ '/'.toUInt8 :: y) =
            (a ++ '/'.toUInt8 :: x) ++ '/'.toUInt8 :: y := by
          rw [List.append_assoc, List.cons_append]
        dsimp only at hp2 h2
        rw [hp, lastSlash_eq hy] at hp2
        cases hp2
        rw [hp, cstr_path2 (fun b hb => hpath2 b ?_) hy] at h2
        · have hlength := congrArg List.length (Option.some.inj h2)
          rw [List.length_append, List.length_cons] at hlength
          omega
        · exact List.mem_append_right _ (List.mem_cons_of_mem _ hb)
      · rw [List.length_cons] at hlen ⊢
        omega
    · rintro ⟨-, ha, hb, hv, hhost, hsmall⟩
      have hsame := escaped_eq hv
      rw [hsame] at hlen hnul ⊢
      rw [List.length_cons] at hlen hsmall
      refine ⟨⟨hhost, by omega⟩, _, _, rfl, lastSlash_eq hb 6 none, cstr_path1 hpath1 ha,
        cstr_path2 hpath2 hb, cstr_values hnul, rfl⟩

theorem getTrip_iff_login : ∃ m' N,
    setHttpGet (cells [110, 61, 98]) 200 64 [117, 47, 108] [104] 0 (-1) = some (m', N) ∧
      RoundTrip m' 200 N [117] [108] [110, 61, 98] := by
  have hsome : (setHttpGet (cells [110, 61, 98]) 200 64 [117, 47, 108] [104] 0 (-1)).isSome = true := by
    decide
  obtain ⟨⟨m', N⟩, h⟩ := Option.isSome_iff_exists.mp hsome
  have hg : Given (cells [110, 61, 98]) 200 64 0 [110, 61, 98] (-1) :=
    ⟨rfl, rfl, by decide, .inl rfl, by decide⟩
  exact ⟨m', N, h, (getTrip_iff (a := [117]) (b := [108]) (by decide +kernel) hg h).mpr (by decide +kernel)⟩

/-- A blank is written as `20`, and comes back so. -/
theorem not_getTrip : ∃ m' N, setHttpGet (cells [32]) 200 64 [97, 47, 98] [104] 0 (-1) = some (m', N) ∧
    ¬ RoundTrip m' 200 N [97] [98] [32] := by
  have hlen : ((setHttpGet (cells [32]) 200 64 [97, 47, 98] [104] 0 (-1)).bind
      fun p => (parseHttpGet (slice p.1 200 p.2)).map HttpGet.len) = some 2 := by
    decide
  obtain ⟨⟨m', N⟩, h, hparse⟩ := Option.bind_eq_some_iff.mp hlen
  refine ⟨m', N, h, ?_⟩
  rintro ⟨-, g, -, hg, -, -, -, -, h1⟩
  dsimp only at hparse
  rw [hg, Option.map_some, h1] at hparse
  cases hparse

end ChatShow.Antlib.HttpGetTrip
