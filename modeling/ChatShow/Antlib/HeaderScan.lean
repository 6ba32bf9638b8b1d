import ChatShow.Antlib.HttpRequest

/-! # The search for the end of a header, chunk by chunk

`parse_http_header_len` is called after each chunk, with the offset that the last call has saved, until it
reports something. The offset is behind all bytes that were there, and the loop looks back into the buffer,
so that the calls are one scan of the buffer that is cut into pieces (`headerLoop_add`). -/

namespace ChatShow.Antlib.HeaderScan

open ChatShow.Lib.Cells ChatShow.Antlib.HttpProtocol ChatShow.Antlib.HttpRequest

variable {m m' : ℕ → UInt8} {len off : ℕ} {s whole : List UInt8}

/-- A chunk, and what the buffer has in its cells when it has come in: those behind it still have anything. -/
structure Chunk where
  bytes : List UInt8
  buf : ℕ → UInt8

/-- The bytes of the chunks. -/
def wholeOf (chunks : List Chunk) : List UInt8 := chunks.flatMap Chunk.bytes

/-- What the calls report: the first result other than 0, the offset, and the bytes that were there. -/
structure Report where
  result : ℤ
  off : ℕ
  received : List UInt8

/-- The calls over the chunks that come in behind `received`. -/
def scanChunks (received : List UInt8) (off : ℕ) : List Chunk → Report
  | [] => ⟨0, off, received⟩
  | c :: chunks =>
    let received := received ++ c.bytes
    let p := parseHttpHeaderLen (store c.buf 0 received) received.length off
    if p.1 = 0 then scanChunks received p.2 chunks else ⟨p.1, p.2, received⟩

/-! ### One call -/

/-- The bytes of a buffer that begins with a string. -/
theorem store_front (m : ℕ → UInt8) (s : List UInt8) {i : ℕ} (h : i < s.length) :
    store m 0 s i = s.getD i 0 := by
  unfold store
  rw [if_pos (Nat.zero_le i), Nat.sub_zero, List.getD_eq_getElem?_getD, List.getElem?_eq_getElem h]
  rfl

/-- The loop over the first bytes of a buffer does not depend on what else is in it. -/
theorem headerLoop_front (hp : s <+: whole) {n i : ℕ} (h : i + n ≤ s.length) :
    headerLoop (store m 0 s) n i = headerLoop (store m' 0 whole) n i := by
  obtain ⟨rest, rfl⟩ := hp
  refine headerLoop_congr fun j hj => ?_
  have hlen := @List.length_append UInt8 s rest
  rw [store_front m s (by omega), store_front m' _ (by omega), List.getD_append _ _ _ _ (by omega)]

/-- A call goes on where the scan of what is in front of the offset has found nothing. -/
theorem headerLoop_resume (hle : off ≤ len) (h : headerLoop m off 0 = some none) :
    headerLoop m (len - off) off = headerLoop m len 0 := by
  have hadd := headerLoop_add m off (len - off) 0
  rw [Nat.add_sub_cancel' hle, h, Nat.zero_add] at hadd
  exact hadd.symm

/-- What a scan from the start has come to stays when there is more. -/
theorem headerLoop_stays {found : Option (Option ℕ)} {n k : ℕ} (h : headerLoop m n 0 = found)
    (hne : found ≠ some none) : headerLoop m (n + k) 0 = found := by
  rw [headerLoop_add, h]
  match found with
  | none => rfl
  | some (some len) => rfl
  | some none => exact absurd rfl hne

/-- There is nothing to be found up to the end of the header. -/
theorem headerLoop_first {n k : ℕ} (h : headerLoop m n 0 = some (some len)) (hk : k < len) :
    headerLoop m k 0 = some none := by
  have hlen := (headerLoop_found h).2.1
  have hsplit : k + (n - k) = n := by omega
  match hfound : headerLoop m k 0 with
  | some none => rfl
  | none =>
    have hstays := @headerLoop_stays m none k (n - k) hfound (by rintro ⟨⟩)
    rw [hsplit, h] at hstays
    cases hstays
  | some (some len') =>
    have hstays := @headerLoop_stays m (some (some len')) k (n - k) hfound (by rintro ⟨⟩)
    rw [hsplit, h] at hstays
    cases hstays
    have := (headerLoop_found hfound).2.1
    omega

/-- Where the loop has found nothing, no blank line ends. -/
theorem not_blankLine {n : ℕ} (hn : n ≤ whole.length)
    (h : headerLoop (store m 0 whole) n 0 = some none) : ¬ blankLine <:+ whole.take n := by
  rintro ⟨pre, hpre⟩
  have hlen := congrArg List.length hpre
  rw [List.length_append, List.length_take, show blankLine.length = 4 from rfl] at hlen
  have hcell (i : ℕ) (hi : i < 4) : store m 0 whole (pre.length + i) = blankLine.getD i 0 := by
    rw [store_front m whole (by omega)]
    have htake : (whole.take n).getD (pre.length + i) 0 = whole.getD (pre.length + i) 0 := by
      rw [List.getD_eq_getElem?_getD, List.getD_eq_getElem?_getD, List.getElem?_take_of_lt (by omega)]
    rw [← htake, ← hpre, getD_blankLine]
  have h3 := hcell 3 (by decide)
  have h1 := hcell 1 (by decide)
  rw [show pre.length + 1 = pre.length + 3 - 2 by omega] at h1
  exact headerLoop_stops h (Nat.zero_le _) (by omega) h3 h1

/-! ### The calls -/

/-- The calls report what a scan of the whole buffer reports (an error leaves the offset where it was); the
end of the header is reported where it is there, behind the first blank line. -/
structure OneScan (m : ℕ → UInt8) (whole : List UInt8) (r : Report) : Prop where
  result : r.result = (parseHttpHeaderLen (store m 0 whole) whole.length 0).1
  off : r.result ≠ -1 → r.off = (parseHttpHeaderLen (store m 0 whole) whole.length 0).2
  received : r.received <+: whole
  complete : ∀ n : ℕ, 0 < n → r.result = n →
    n ≤ r.received.length ∧ blankLine <:+ r.received.take n ∧ ∀ k < n, ¬ blankLine <:+ whole.take k

/-- Nothing has been found in all that there is. -/
theorem oneScan_nothing (h : headerLoop (store m 0 whole) whole.length 0 = some none) :
    OneScan m whole ⟨0, whole.length, whole⟩ := by
  have hscan : parseHttpHeaderLen (store m 0 whole) whole.length 0 = (0, whole.length) := by
    unfold parseHttpHeaderLen
    rw [Nat.sub_zero, h]
    exact congrArg _ (Nat.zero_add _)
  refine ⟨by rw [hscan], fun _ => by rw [hscan], List.prefix_refl _, fun n hn he => ?_⟩
  have : (0 : ℤ) = n := he
  omega

/-- An error has been found in what is there. -/
theorem oneScan_error (hp : s <+: whole)
    (h : headerLoop (store m 0 whole) s.length 0 = none) : OneScan m whole ⟨-1, off, s⟩ := by
  have hstays := @headerLoop_stays (store m 0 whole) none s.length (whole.length - s.length) h
    (by rintro ⟨⟩)
  rw [Nat.add_sub_cancel' hp.length_le] at hstays
  have hscan : (parseHttpHeaderLen (store m 0 whole) whole.length 0).1 = -1 := by
    unfold parseHttpHeaderLen
    rw [Nat.sub_zero, hstays]
  refine ⟨hscan.symm, fun hne => absurd rfl hne, hp, fun n hn he => ?_⟩
  have : (-1 : ℤ) = n := he
  omega

/-- The end of the header has been found in what is there. -/
theorem oneScan_found (hp : s <+: whole)
    (h : headerLoop (store m 0 whole) s.length 0 = some (some len)) :
    OneScan m whole ⟨len, len, s⟩ := by
  have hle := hp.length_le
  have hstays := @headerLoop_stays (store m 0 whole) (some (some len)) s.length
    (whole.length - s.length) h (by rintro ⟨⟩)
  rw [Nat.add_sub_cancel' hle] at hstays
  have hscan : parseHttpHeaderLen (store m 0 whole) whole.length 0 = ((len : ℤ), len) := by
    unfold parseHttpHeaderLen
    rw [Nat.sub_zero, hstays]
  refine ⟨by rw [hscan], fun _ => by rw [hscan], hp, fun n hn he => ?_⟩
  have he' : n = len := by
    have : (len : ℤ) = n := he
    omega
  subst he'
  obtain ⟨hlow, hhigh, hblank⟩ := headerLoop_found h
  refine ⟨by dsimp only; omega, ?_, fun k hk => not_blankLine (by omega) (headerLoop_first h hk)⟩
  -- The blank line is the last four bytes.
  refine ⟨s.take (n - 4), ?_⟩
  have hslice : (s.drop (n - 4)).take 4 = blankLine := by
    obtain ⟨rest, rfl⟩ := hp
    have hwhole := slice_store_same m 0 (s ++ rest)
    rw [← hblank, show n - 4 = 0 + (n - 4) by omega, show slice (store m 0 (s ++ rest)) (0 + (n - 4)) 4 =
        ((s ++ rest).drop (n - 4)).take 4 by
      conv_rhs => rw [← hwhole, drop_slice, take_slice]
      rw [Nat.min_eq_left (by omega)], Nat.zero_add, List.drop_append_of_le_length (by omega),
      List.take_append_of_le_length (by rw [List.length_drop]; omega)]
  rw [← hslice, ← List.take_add, Nat.sub_add_cancel (by omega)]

/-- The calls over chunks that come in behind bytes in which nothing has been found. -/
theorem oneScan_scanChunks {received : List UInt8} {chunks : List Chunk}
    (h : headerLoop (store m 0 (received ++ wholeOf chunks)) received.length 0 = some none) :
    OneScan m (received ++ wholeOf chunks) (scanChunks received received.length chunks) := by
  induction chunks generalizing received with
  | nil =>
    have hwhole : received ++ wholeOf [] = received := List.append_nil received
    rw [hwhole] at h ⊢
    exact oneScan_nothing h
  | cons c chunks ih =>
    have hwhole : received ++ wholeOf (c :: chunks) = (received ++ c.bytes) ++ wholeOf chunks := by
      unfold wholeOf
      rw [List.flatMap_cons, List.append_assoc]
    rw [hwhole] at h ⊢
    have hp : received ++ c.bytes <+: (received ++ c.bytes) ++ wholeOf chunks := List.prefix_append _ _
    have hle : received.length ≤ (received ++ c.bytes).length := by
      rw [List.length_append]
      exact Nat.le_add_right _ _
    -- The call looks at what is new, and comes to what a scan from the start comes to.
    have hold : headerLoop (store c.buf 0 (received ++ c.bytes)) received.length 0 = some none := by
      rw [@headerLoop_front c.buf m _ _ hp _ _ (by omega)]
      exact h
    have hcall := headerLoop_resume hle hold
    rw [@headerLoop_front c.buf m _ _ hp (received ++ c.bytes).length _ (by omega)] at hcall
    unfold scanChunks parseHttpHeaderLen
    dsimp only
    rw [hcall]
    match hfound : headerLoop (store m 0 ((received ++ c.bytes) ++ wholeOf chunks))
      (received ++ c.bytes).length 0 with
    | none => exact oneScan_error hp hfound
    | some (some len) =>
      have hpos : (len : ℤ) ≠ 0 := by
        have := (headerLoop_found hfound).1
        omega
      dsimp only
      rw [if_neg hpos]
      exact oneScan_found hp hfound
    | some none =>
      dsimp only
      rw [if_pos rfl, Nat.add_sub_cancel' hle]
      exact ih hfound

/-- **However a buffer comes in**, the calls report what one scan of all of it reports. -/
theorem scanChunks_oneScan (m : ℕ → UInt8) (chunks : List Chunk) :
    OneScan m (wholeOf chunks) (scanChunks [] 0 chunks) :=
  @oneScan_scanChunks m [] chunks rfl

end ChatShow.Antlib.HeaderScan
