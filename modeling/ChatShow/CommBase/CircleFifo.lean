import ChatShow.CommBase.CircleBuffer
import ChatShow.Lib.Runs

/-! # The circular buffer is a queue

`readable` is the queue that a buffer holds: the cells from the read index to the write index, or,
once the writer has started again at the front, the cells up to `lastIndex` and then those from the
front on. `Ok` tells the two shapes apart and says that in the first one `lastIndex` is the
capacity, which is what makes the second one start right. Every write appends to the queue or leaves
it as it is (`WriteSpec`), every read takes from its front, and so the bytes consumed and the bytes
still readable are together the bytes written (`circleBuff_fifo`). -/

namespace ChatShow.CommBase.CircleFifo

open ChatShow.Lib.Cells ChatShow.Lib.Runs ChatShow.CommBase.NetWorkConfig ChatShow.CommBase.Util
open ChatShow.CommBase.CircleBuffer ChatShow.CommBase.CircleBuffer.CCircleBuff

/-! ### The invariant and the queue -/

structure Ok (b : CCircleBuff) : Prop where
  zero_le_read : 0 ≤ b.readIndex
  zero_le_write : 0 ≤ b.writeIndex
  read_le_last : b.readIndex ≤ b.lastIndex
  last_le_cap : b.lastIndex ≤ b.bufCapacity
  write_le_cap : b.writeIndex ≤ b.bufCapacity
  cap_lt : b.bufCapacity < 2147483648
  last_of_normal : b.readIndex ≤ b.writeIndex → b.lastIndex = b.bufCapacity

/-- The bytes still to be read, both segments. -/
def readable (b : CCircleBuff) : List UInt8 :=
  if b.isNormal then slice b.buffer b.readIndex.toNat (b.writeIndex - b.readIndex).toNat
  else slice b.buffer b.readIndex.toNat (b.lastIndex - b.readIndex).toNat ++
    slice b.buffer 0 b.writeIndex.toNat

/-- The cells that hold them. -/
def Unread (b : CCircleBuff) (i : ℕ) : Prop :=
  if b.isNormal then b.readIndex ≤ i ∧ i < b.writeIndex
  else (b.readIndex ≤ i ∧ i < b.lastIndex) ∨ i < b.writeIndex

theorem isNormal_iff {b : CCircleBuff} : b.isNormal = true ↔ b.readIndex ≤ b.writeIndex := by
  simp [isNormal]

theorem readable_of_normal {b : CCircleBuff} (h : b.readIndex ≤ b.writeIndex) :
    readable b = slice b.buffer b.readIndex.toNat (b.writeIndex - b.readIndex).toNat := by
  unfold readable
  rw [if_pos (isNormal_iff.mpr h)]

theorem readable_of_wrapped {b : CCircleBuff} (h : b.writeIndex < b.readIndex) :
    readable b = slice b.buffer b.readIndex.toNat (b.lastIndex - b.readIndex).toNat ++
      slice b.buffer 0 b.writeIndex.toNat := by
  unfold readable
  rw [if_neg (by rw [isNormal_iff]; omega)]

theorem unread_of_normal {b : CCircleBuff} (h : b.readIndex ≤ b.writeIndex) (i : ℕ) :
    Unread b i ↔ b.readIndex ≤ i ∧ i < b.writeIndex := by
  unfold Unread
  rw [if_pos (isNormal_iff.mpr h)]

theorem unread_of_wrapped {b : CCircleBuff} (h : b.writeIndex < b.readIndex) (i : ℕ) :
    Unread b i ↔ (b.readIndex ≤ i ∧ i < b.lastIndex) ∨ i < b.writeIndex := by
  unfold Unread
  rw [if_neg (by rw [isNormal_iff]; omega)]

theorem getReadLen_of_normal {b : CCircleBuff} (h : b.readIndex ≤ b.writeIndex) :
    b.getReadLen = b.writeIndex - b.readIndex := by
  unfold getReadLen
  rw [if_pos (isNormal_iff.mpr h)]

theorem getReadLen_of_wrapped {b : CCircleBuff} (h : b.writeIndex < b.readIndex) :
    b.getReadLen = b.lastIndex - b.readIndex := by
  unfold getReadLen
  rw [if_neg (by rw [isNormal_iff]; omega)]

theorem getWriteLen_of_normal {b : CCircleBuff} (h : b.readIndex ≤ b.writeIndex) :
    b.getWriteLen = b.bufCapacity - b.writeIndex := by
  unfold getWriteLen
  rw [if_pos (isNormal_iff.mpr h)]

theorem getWriteLen_of_wrapped {b : CCircleBuff} (h : b.writeIndex < b.readIndex) :
    b.getWriteLen = b.readIndex - b.writeIndex - 1 := by
  unfold getWriteLen
  rw [if_neg (by rw [isNormal_iff]; omega)]

/-- `GetLeftBuffSize` counts the readable bytes. -/
theorem length_readable {b : CCircleBuff} (hb : Ok b) :
    ((readable b).length : ℤ) = b.getLeftBuffSize := by
  obtain ⟨h1, h2, h3, h4, h5, h6, h7⟩ := hb
  unfold getLeftBuffSize
  rcases Int.lt_or_le b.writeIndex b.readIndex with h | h
  · rw [readable_of_wrapped h, if_neg (by rw [isNormal_iff]; omega), List.length_append,
      length_slice, length_slice]
    omega
  · rw [readable_of_normal h, if_pos (isNormal_iff.mpr h), length_slice]
    omega

/-- Only the unread cells matter to the queue. -/
theorem readable_congr {b : CCircleBuff} (hb : Ok b) {m : ℕ → UInt8}
    (h : ∀ i, Unread b i → m i = b.buffer i) : readable { b with buffer := m } = readable b := by
  obtain ⟨h1, h2, h3, h4, h5, h6, h7⟩ := hb
  rcases Int.lt_or_le b.writeIndex b.readIndex with hn | hn
  · rw [readable_of_wrapped hn, readable_of_wrapped (b := { b with buffer := m }) hn]
    congr 1
    · refine slice_congr fun i hi hi' => h i ((unread_of_wrapped hn i).mpr (Or.inl ?_))
      dsimp only at hi hi'
      omega
    · refine slice_congr fun i hi hi' => h i ((unread_of_wrapped hn i).mpr (Or.inr ?_))
      dsimp only at hi'
      omega
  · rw [readable_of_normal hn, readable_of_normal (b := { b with buffer := m }) hn]
    refine slice_congr fun i hi hi' => h i ((unread_of_normal hn i).mpr ?_)
    dsimp only at hi hi'
    omega

/-! ### Room for a write -/

/-- The cells that `getWriteLen` counts lie inside the buffer and none of them is unread. -/
theorem free_of_getWriteLen {b : CCircleBuff} (hb : Ok b) {i : ℕ} (h : b.writeIndex ≤ i)
    (h' : i < b.writeIndex + b.getWriteLen) : ¬ Unread b i ∧ (i : ℤ) < b.bufCapacity := by
  obtain ⟨h1, h2, h3, h4, h5, h6, h7⟩ := hb
  rcases Int.lt_or_le b.writeIndex b.readIndex with hn | hn
  · rw [unread_of_wrapped hn]
    rw [getWriteLen_of_wrapped hn] at h'
    omega
  · rw [unread_of_normal hn]
    rw [getWriteLen_of_normal hn] at h'
    omega

theorem getWriteLen_bounds {b : CCircleBuff} (hb : Ok b) :
    0 ≤ b.getWriteLen ∧ b.getWriteLen < 2147483648 := by
  obtain ⟨h1, h2, h3, h4, h5, h6, h7⟩ := hb
  rcases Int.lt_or_le b.writeIndex b.readIndex with hn | hn
  · rw [getWriteLen_of_wrapped hn]; omega
  · rw [getWriteLen_of_normal hn]; omega

/-- A list stored into the room behind the write index touches no unread cell. -/
theorem store_keeps {b : CCircleBuff} (hb : Ok b) {l : List UInt8} {off : ℕ}
    (hoff : b.writeIndex ≤ off) (hl : off + l.length ≤ b.writeIndex + b.getWriteLen) {i : ℕ}
    (hi : Unread b i) : store b.buffer off l i = b.buffer i := by
  refine store_of_disjoint ?_
  by_contra hc
  exact (free_of_getWriteLen hb (i := i) (by omega) (by omega)).1 hi

/-- It changes only cells of the buffer. -/
theorem store_inside {b : CCircleBuff} (hb : Ok b) {l : List UInt8} {off : ℕ}
    (hoff : b.writeIndex ≤ off) (hl : off + l.length ≤ b.writeIndex + b.getWriteLen) {i : ℕ}
    (hi : store b.buffer off l i ≠ b.buffer i) : (i : ℤ) < b.bufCapacity := by
  by_contra hc
  refine hi (store_of_disjoint ?_)
  by_contra hd
  exact hc (free_of_getWriteLen hb (i := i) (by omega) (by omega)).2

/-- **A list stored right behind the write index joins the queue** once the index moves past it. -/
theorem readable_store {b : CCircleBuff} (hb : Ok b) {l : List UInt8}
    (hl : (l.length : ℤ) ≤ b.getWriteLen) :
    Ok ({ b with buffer := store b.buffer b.writeIndex.toNat l }.hadWrite l.length) ∧
    readable ({ b with buffer := store b.buffer b.writeIndex.toNat l }.hadWrite l.length) =
      readable b ++ l ∧
    b.getReadLen ≤
      ({ b with buffer := store b.buffer b.writeIndex.toNat l }.hadWrite l.length).getReadLen := by
  obtain ⟨h1, h2, h3, h4, h5, h6, h7⟩ := hb
  rcases Int.lt_or_le b.writeIndex b.readIndex with hn | hn
  · rw [getWriteLen_of_wrapped hn] at hl
    refine ⟨⟨h1, by simp [hadWrite]; omega, h3, h4, by simp [hadWrite]; omega, h6,
      fun h => absurd h (by simp [hadWrite]; omega)⟩, ?_, ?_⟩
    swap
    · rw [getReadLen_of_wrapped hn, getReadLen_of_wrapped (by simp [hadWrite]; omega)]
      exact le_rfl
    rw [readable_of_wrapped hn, readable_of_wrapped (by simp [hadWrite]; omega)]
    have hw : (b.writeIndex + l.length).toNat = b.writeIndex.toNat + l.length := by omega
    have hs := slice_store_append b.buffer 0 b.writeIndex.toNat l
    rw [Nat.zero_add] at hs
    simp only [hadWrite]
    rw [hw, hs, slice_store_of_disjoint (Or.inr (by omega)), List.append_assoc]
  · rw [getWriteLen_of_normal hn] at hl
    refine ⟨⟨h1, by simp [hadWrite]; omega, h3, h4, by simp [hadWrite]; omega, h6,
      fun _ => h7 hn⟩, ?_, ?_⟩
    swap
    · rw [getReadLen_of_normal hn, getReadLen_of_normal (by simp [hadWrite]; omega)]
      simp [hadWrite]
    rw [readable_of_normal hn, readable_of_normal (by simp [hadWrite]; omega)]
    have hw : (b.writeIndex + l.length - b.readIndex).toNat =
      (b.writeIndex - b.readIndex).toNat + l.length := by omega
    have hr : b.writeIndex.toNat = b.readIndex.toNat + (b.writeIndex - b.readIndex).toNat := by
      omega
    simp only [hadWrite]
    rw [hw, hr, slice_store_append]

/-- Starting again at the front changes neither the queue nor its cells. -/
theorem isWriteOverAgain_spec {b : CCircleBuff} (hb : Ok b) (n : ℤ) :
    Ok (b.isWriteOverAgain n) ∧ readable (b.isWriteOverAgain n) = readable b ∧
    (b.isWriteOverAgain n).getReadLen = b.getReadLen ∧
    (∀ i, Unread (b.isWriteOverAgain n) i ↔ Unread b i) ∧
    (b.isWriteOverAgain n).buffer = b.buffer ∧
    (b.isWriteOverAgain n).bufCapacity = b.bufCapacity := by
  have hb' := hb
  obtain ⟨h1, h2, h3, h4, h5, h6, h7⟩ := hb
  by_cases hc : b.isNormal = true ∧
    (b.getWriteLen < n ∧ b.readIndex > 1 ∧ b.readIndex ≤ b.writeIndex)
  · obtain ⟨hn, hw⟩ := hc
    have he : b.isWriteOverAgain n = { b with lastIndex := b.writeIndex, writeIndex := 0 } := by
      simp [isWriteOverAgain, hn, hw]
    have hwrap : ({ b with lastIndex := b.writeIndex, writeIndex := 0 } : CCircleBuff).writeIndex <
      ({ b with lastIndex := b.writeIndex, writeIndex := 0 } : CCircleBuff).readIndex := by
      simp; omega
    rw [he]
    refine ⟨⟨h1, le_rfl, hw.2.2, h5, by simp; omega, h6, fun h => absurd h (by simp; omega)⟩,
      ?_, ?_, fun i => ?_, rfl, rfl⟩
    · rw [readable_of_wrapped hwrap, readable_of_normal hw.2.2]
      simp
    · rw [getReadLen_of_wrapped hwrap, getReadLen_of_normal hw.2.2]
    · rw [unread_of_wrapped hwrap, unread_of_normal hw.2.2]
      simp
  · have he : b.isWriteOverAgain n = b := by
      unfold isWriteOverAgain
      by_cases hn : b.isNormal = true
      · rw [hn, if_neg (by simp), if_neg (fun h => hc ⟨hn, h⟩)]
      · rw [if_pos (by simpa using hn)]
    rw [he]
    exact ⟨hb', rfl, rfl, fun _ => Iff.rfl, rfl, rfl⟩

/-! ### Writes -/

/-- What a write has done to the buffer it was given: on success its bytes have joined the queue,
else the queue is as it was; no unread cell has changed, and no cell outside the buffer. -/
structure WriteSpec (b : CCircleBuff) (bytes : List UInt8) (res : NetWorkRet × CCircleBuff) :
    Prop where
  ok : Ok res.2
  cap : res.2.bufCapacity = b.bufCapacity
  content : readable res.2 = readable b ++ if res.1 = .eNetSuccess then bytes else []
  readLen : b.getReadLen ≤ res.2.getReadLen
  keeps : ∀ i, Unread b i → res.2.buffer i = b.buffer i
  inside : ∀ i, res.2.buffer i ≠ b.buffer i → (i : ℤ) < b.bufCapacity

/-- A write that gives up after `IsWriteOverAgain` and, perhaps, a copy into the free room. -/
theorem writeSpec_fail {b : CCircleBuff} (hb : Ok b) (n : ℤ) {bytes l : List UInt8} {off : ℕ}
    (hoff : (b.isWriteOverAgain n).writeIndex ≤ off)
    (hl : off + l.length ≤ (b.isWriteOverAgain n).writeIndex + (b.isWriteOverAgain n).getWriteLen)
    {r : NetWorkRet} (hr : r ≠ .eNetSuccess) :
    WriteSpec b bytes
      (r, { b.isWriteOverAgain n with buffer := store b.buffer off l }) := by
  obtain ⟨hok, hread, hlen, hun, hbuf, hcap⟩ := isWriteOverAgain_spec hb n
  have hkeep : ∀ i, Unread (b.isWriteOverAgain n) i →
      store b.buffer off l i = (b.isWriteOverAgain n).buffer i := by
    intro i hi
    rw [← hbuf]
    exact store_keeps hok hoff hl hi
  refine ⟨⟨hok.1, hok.2, hok.3, hok.4, hok.5, hok.6, hok.7⟩, hcap, ?_, hlen.ge, fun i hi => ?_,
    fun i hi => ?_⟩
  · rw [if_neg hr, List.append_nil, readable_congr hok hkeep, hread]
  · have := hkeep i ((hun i).mpr hi)
    rwa [hbuf] at this
  · rw [← hcap]
    refine store_inside hok hoff hl ?_
    rwa [hbuf]

/-- A write that fits. -/
theorem writeSpec_success {b : CCircleBuff} (hb : Ok b) (n : ℤ) {bytes : List UInt8}
    (hl : (bytes.length : ℤ) ≤ (b.isWriteOverAgain n).getWriteLen) :
    WriteSpec b bytes (.eNetSuccess,
      { b.isWriteOverAgain n with
        buffer := store b.buffer (b.isWriteOverAgain n).writeIndex.toNat bytes }.hadWrite
        bytes.length) := by
  obtain ⟨hok, hread, hlen, hun, hbuf, hcap⟩ := isWriteOverAgain_spec hb n
  have h := readable_store hok hl
  rw [hbuf] at h
  have hw := hok.zero_le_write
  refine ⟨h.1, hcap, ?_, hlen ▸ h.2.2, fun i hi => ?_, fun i hi => ?_⟩
  · rw [h.2.1, hread, if_pos rfl]
  · have := @store_keeps _ hok bytes (b.isWriteOverAgain n).writeIndex.toNat
      (by omega) (by omega) _ ((hun i).mpr hi)
    rwa [hbuf] at this
  · rw [← hcap]
    refine @store_inside _ hok bytes (b.isWriteOverAgain n).writeIndex.toNat
      (by omega) (by omega) _ ?_
    rwa [hbuf]

theorem isWriteOverAgain_buffer (b : CCircleBuff) (n : ℤ) :
    { b.isWriteOverAgain n with buffer := b.buffer } = b.isWriteOverAgain n := by
  unfold isWriteOverAgain
  split_ifs <;> rfl

/-- A write that gives up before it copies anything. -/
theorem writeSpec_give_up {b : CCircleBuff} (hb : Ok b) (n : ℤ) {bytes : List UInt8}
    {r : NetWorkRet} (hr : r ≠ .eNetSuccess) : WriteSpec b bytes (r, b.isWriteOverAgain n) := by
  have hok := (isWriteOverAgain_spec hb n).1
  have hw := hok.zero_le_write
  have hroom := (getWriteLen_bounds hok).1
  have h := @writeSpec_fail _ hb n bytes [] (b.isWriteOverAgain n).writeIndex.toNat (by omega)
    (by rw [List.length_nil]; omega) _ hr
  have hs : store b.buffer (b.isWriteOverAgain n).writeIndex.toNat [] = b.buffer := by
    funext i; exact store_of_disjoint (by simp; omega)
  rwa [hs, isWriteOverAgain_buffer] at h

theorem writeBuffer_spec {b : CCircleBuff} (hb : Ok b) (strBuff : ℕ → UInt8) (buffLen : Int32) :
    WriteSpec b (slice strBuff 0 buffLen.toInt.toNat) (b.writeBuffer strBuff buffLen) := by
  obtain ⟨hok, -, -, -, hbuf, -⟩ := isWriteOverAgain_spec hb buffLen.toInt
  have hsp := getWriteLen_bounds hok
  have hlo := Int32.le_toInt buffLen
  have hhi := Int32.toInt_lt buffLen
  unfold writeBuffer
  dsimp only
  split_ifs with hlt
  · exact writeSpec_give_up hb _ (by decide)
  · split
    · exact writeSpec_give_up hb _ (by decide)
    · rename_i m hm
      obtain ⟨h0, h1, rfl⟩ := safeMemmove_eq_some hm hsp.1 hsp.2 (by omega) (by omega)
      have h := @writeSpec_success _ hb buffLen.toInt (slice strBuff 0 buffLen.toInt.toNat)
        (by rw [length_slice]; omega)
      rw [length_slice, Int.toNat_of_nonneg h0] at h
      rwa [hbuf]

theorem slice_encode (gh : packetHeader) :
    slice (store (fun _ => 0) 0 gh.encode) 0 HEADER_LENGTH = gh.encode := by
  have := slice_store_same (fun _ => 0) 0 gh.encode
  rwa [packetHeader.length_encode] at this

theorem toInt_add_header {n : Int32} (h0 : 0 ≤ n.toInt) (h : n.toInt + 26 < 2147483648) :
    (n + Int32.ofNat HEADER_LENGTH).toInt = n.toInt + HEADER_LENGTH := by
  have h26 : (Int32.ofNat HEADER_LENGTH).toInt = 26 := by decide
  rw [Int32.toInt_add, h26]
  show Int.bmod _ _ = n.toInt + 26
  rw [Int.bmod_eq_of_le (by omega) (by omega)]

theorem writeData_spec {b : CCircleBuff} (hb : Ok b) (strBuff : ℕ → UInt8) (nBuffLen : Int32)
    (pHead : packetHeader) :
    WriteSpec b (pHead.encode ++ slice strBuff 0 nBuffLen.toInt.toNat)
      (b.writeData strBuff nBuffLen pHead) := by
  obtain ⟨hok, -, -, -, hbuf, -⟩ :=
    isWriteOverAgain_spec hb (nBuffLen + Int32.ofNat HEADER_LENGTH).toInt
  have hsp := getWriteLen_bounds hok
  have hw := hok.zero_le_write
  have hlo := Int32.le_toInt nBuffLen
  have hhi := Int32.toInt_lt nBuffLen
  have hH : (HEADER_LENGTH : ℤ) = 26 := rfl
  unfold writeData
  dsimp only
  split_ifs with hlt
  · exact writeSpec_give_up hb _ (by decide)
  · split
    · exact writeSpec_give_up hb _ (by decide)
    · rename_i m hm
      obtain ⟨-, hroom, rfl⟩ := safeMemmove_eq_some hm hsp.1 hsp.2 (by omega) (by omega)
      rw [Int.toNat_natCast, slice_encode, hbuf]
      split
      · refine writeSpec_fail hb _ (by omega) ?_ (by decide)
        rw [packetHeader.length_encode]
        omega
      · rename_i m hm'
        obtain ⟨h0, h1, rfl⟩ := safeMemmove_eq_some hm' (by omega) (by omega) (by omega) (by omega)
        have hadd := toInt_add_header h0 (by omega)
        have hstore := store_store_append b.buffer
          (b.isWriteOverAgain (nBuffLen + Int32.ofNat HEADER_LENGTH).toInt).writeIndex.toNat
          pHead.encode (slice strBuff 0 nBuffLen.toInt.toNat)
        rw [packetHeader.length_encode] at hstore
        have h := @writeSpec_success _ hb (nBuffLen + Int32.ofNat HEADER_LENGTH).toInt
          (pHead.encode ++ slice strBuff 0 nBuffLen.toInt.toNat)
          (by rw [List.length_append, length_slice, packetHeader.length_encode]; omega)
        rw [List.length_append, length_slice, packetHeader.length_encode,
          show ((HEADER_LENGTH + nBuffLen.toInt.toNat : ℕ) : ℤ) =
            (nBuffLen + Int32.ofNat HEADER_LENGTH).toInt by omega] at h
        rwa [hstore]

/-! ### Reads -/

theorem isReadOverAgain_spec {b : CCircleBuff} (hb : Ok b) :
    Ok b.isReadOverAgain ∧ readable b.isReadOverAgain = readable b ∧
    b.isReadOverAgain.buffer = b.buffer ∧ b.isReadOverAgain.bufCapacity = b.bufCapacity ∧
    (b.isReadOverAgain.writeIndex < b.isReadOverAgain.readIndex →
      b.isReadOverAgain.readIndex < b.isReadOverAgain.lastIndex) := by
  have hb' := hb
  obtain ⟨h1, h2, h3, h4, h5, h6, h7⟩ := hb
  rcases Int.lt_or_le b.writeIndex b.readIndex with hn | hn
  · have hnn : ¬ b.isNormal = true := by rw [isNormal_iff]; omega
    by_cases hl : b.readIndex ≥ b.lastIndex
    · have he : b.isReadOverAgain = { b with readIndex := 0, lastIndex := b.bufCapacity } := by
        simp [isReadOverAgain, hnn, hl]
      have hz : (b.lastIndex - b.readIndex).toNat = 0 := by omega
      rw [he]
      refine ⟨⟨le_rfl, h2, by simp; omega, le_rfl, h5, h6, fun _ => rfl⟩, ?_, rfl, rfl,
        fun h => absurd h (by simp; omega)⟩
      rw [readable_of_normal (by simpa using h2), readable_of_wrapped hn, hz]
      simp
    · have he : b.isReadOverAgain = b := by simp [isReadOverAgain, hl]
      rw [he]
      exact ⟨hb', rfl, rfl, rfl, fun _ => by omega⟩
  · have he : b.isReadOverAgain = b := by simp [isReadOverAgain, isNormal_iff.mpr hn]
    rw [he]
    exact ⟨hb', rfl, rfl, rfl, fun h => by omega⟩

/-- The bytes offered to a reader are a front part of the queue. -/
theorem slice_getReadLen_prefix (b : CCircleBuff) :
    slice b.buffer b.readIndex.toNat b.getReadLen.toNat <+: readable b := by
  rcases Int.lt_or_le b.writeIndex b.readIndex with hn | hn
  · rw [getReadLen_of_wrapped hn, readable_of_wrapped hn]
    exact List.prefix_append _ _
  · rw [getReadLen_of_normal hn]
    exact ⟨[], by rw [List.append_nil, readable_of_normal hn]⟩

/-- **`ReadSendBuff` offers a front part of the queue**, and nothing only if the queue is empty. -/
theorem readSendBuff_spec {b : CCircleBuff} (hb : Ok b) :
    Ok b.readSendBuff.2.2 ∧ readable b.readSendBuff.2.2 = readable b ∧
    b.readSendBuff.2.2.bufCapacity = b.bufCapacity ∧
    b.readSendBuff.2.1 <+: readable b ∧
    (b.readSendBuff.2.1.length : ℤ) ≤ b.readSendBuff.2.2.getReadLen ∧
    (b.readSendBuff.1 = .eBuffNULL ↔ readable b = []) ∧
    (b.readSendBuff.2.1 = [] ↔ readable b = []) := by
  obtain ⟨hok, hread, -, hcap, hlt⟩ := isReadOverAgain_spec hb
  have hle := hok.read_le_last
  have h0 : 0 ≤ b.isReadOverAgain.getReadLen := by
    rcases Int.lt_or_le b.isReadOverAgain.writeIndex b.isReadOverAgain.readIndex with hn | hn
    · rw [getReadLen_of_wrapped hn]; omega
    · rw [getReadLen_of_normal hn]; omega
  unfold readSendBuff
  dsimp only
  by_cases he : b.isReadOverAgain.isEmpty = true
  · have hrw : b.isReadOverAgain.readIndex = b.isReadOverAgain.writeIndex := by
      simpa [isEmpty] using he
    have hnil : readable b = [] := by
      rw [← hread, readable_of_normal hrw.le, hrw, Int.sub_self]; rfl
    rw [if_pos he]
    exact ⟨hok, hread, hcap, List.nil_prefix, by simpa using h0, by simp [hnil], by simp [hnil]⟩
  · have hrw : b.isReadOverAgain.readIndex ≠ b.isReadOverAgain.writeIndex := by
      simpa [isEmpty] using he
    have hpos : 0 < b.isReadOverAgain.getReadLen := by
      rcases Int.lt_or_le b.isReadOverAgain.writeIndex b.isReadOverAgain.readIndex with hn | hn
      · have := hlt hn
        rw [getReadLen_of_wrapped hn]; omega
      · rw [getReadLen_of_normal hn]; omega
    have hpre := slice_getReadLen_prefix b.isReadOverAgain
    have hne : slice b.isReadOverAgain.buffer b.isReadOverAgain.readIndex.toNat
        b.isReadOverAgain.getReadLen.toNat ≠ [] := by
      intro h
      have := congrArg List.length h
      rw [length_slice, List.length_nil] at this
      omega
    have hne' : readable b ≠ [] := by
      intro h
      rw [hread, h] at hpre
      exact hne (List.prefix_nil.mp hpre)
    rw [if_neg he]
    refine ⟨hok, hread, hcap, hread ▸ hpre, ?_, by simp [hne'], by simp [hne, hne']⟩
    dsimp only
    rw [length_slice]
    omega

/-- **`HadRead` takes what was read from the front of the queue.** -/
theorem hadRead_spec {b : CCircleBuff} (hb : Ok b) {k : ℕ} (hk : (k : ℤ) ≤ b.getReadLen) :
    Ok (b.hadRead k) ∧ readable (b.hadRead k) = (readable b).drop k := by
  obtain ⟨h1, h2, h3, h4, h5, h6, h7⟩ := hb
  have hkr : (b.readIndex + k).toNat = b.readIndex.toNat + k := by omega
  rcases Int.lt_or_le b.writeIndex b.readIndex with hn | hn
  · rw [getReadLen_of_wrapped hn] at hk
    refine ⟨⟨by simp [hadRead]; omega, h2, by simp [hadRead]; omega, h4, h5, h6,
      fun h => absurd h (by simp [hadRead]; omega)⟩, ?_⟩
    rw [readable_of_wrapped hn, readable_of_wrapped (by simp [hadRead]; omega),
      List.drop_append_of_le_length (by rw [length_slice]; omega), drop_slice]
    simp only [hadRead]
    rw [hkr]
    congr 2
    omega
  · rw [getReadLen_of_normal hn] at hk
    have hl := h7 hn
    refine ⟨⟨by simp [hadRead]; omega, h2, by simp [hadRead]; omega, h4, h5, h6, fun _ => hl⟩, ?_⟩
    rw [readable_of_normal hn, readable_of_normal (by simp [hadRead]; omega), drop_slice]
    simp only [hadRead]
    rw [hkr]
    congr 1
    omega

/-! ### Writers and a reader -/

/-- A write, with the block its bytes come from. -/
inductive Write
  | send (strBuff : ℕ → UInt8) (gh : packetHeader)
  | buffer (strBuff : ℕ → UInt8) (buffLen : Int32)

/-- The code a write returns and the buffer it leaves. -/
def Write.apply (b : CCircleBuff) : Write → NetWorkRet × CCircleBuff
  | .send strBuff gh => b.writeSend strBuff gh
  | .buffer strBuff buffLen => b.writeBuffer strBuff buffLen

/-- The bytes of a write. -/
def Write.bytes : Write → List UInt8
  | .send strBuff gh => gh.encode ++
      slice strBuff 0 (if gh.remoteType ≤ 0 then htonlInt gh.length else gh.length).toInt.toNat
  | .buffer strBuff buffLen => slice strBuff 0 buffLen.toInt.toNat

theorem Write.spec {b : CCircleBuff} (hb : Ok b) (w : Write) :
    WriteSpec b w.bytes (w.apply b) := by
  cases w with
  | send strBuff gh => exact writeData_spec hb strBuff _ gh
  | buffer strBuff buffLen => exact writeBuffer_spec hb strBuff buffLen

/-- A call on the buffer. A reader calls `HadRead` with a part of what it was offered last. -/
inductive Op
  | write (w : Write)
  | readSendBuff
  | hadRead (k : ℕ)

/-- The buffer between its writers and its reader, with the bytes that `ReadSendBuff` offered and
`HadRead` has not answered, all bytes of successful writes, and all bytes taken. -/
structure Queue where
  buf : CCircleBuff
  offered : List UInt8
  written : List UInt8
  consumed : List UInt8

def Queue.new (buffSize : ℕ) (block : ℕ → UInt8) : Queue where
  buf := CCircleBuff.new buffSize block
  offered := []
  written := []
  consumed := []

def Queue.step (s : Queue) : Op → Option Queue
  | .write w =>
    let r := w.apply s.buf
    some { s with
      buf := r.2, written := s.written ++ if r.1 = .eNetSuccess then w.bytes else [] }
  | .readSendBuff =>
    let r := s.buf.readSendBuff
    some { s with buf := r.2.2, offered := r.2.1 }
  | .hadRead k =>
    if k ≤ s.offered.length then
      some { s with
        buf := s.buf.hadRead k, offered := [], consumed := s.consumed ++ s.offered.take k }
    else none

structure QueueOk (buffSize : ℕ) (s : Queue) : Prop where
  ok : Ok s.buf
  cap : s.buf.bufCapacity = buffSize
  conserved : s.consumed ++ readable s.buf = s.written
  offered : s.offered <+: readable s.buf
  offered_le : (s.offered.length : ℤ) ≤ s.buf.getReadLen

theorem queueOk_new {buffSize : ℕ} (hcap : buffSize < 2147483648) (block : ℕ → UInt8) :
    QueueOk buffSize (Queue.new buffSize block) where
  ok := ⟨le_rfl, le_rfl, by simp [Queue.new, CCircleBuff.new], le_rfl,
    by simp [Queue.new, CCircleBuff.new], by simp [Queue.new, CCircleBuff.new]; omega, fun _ => rfl⟩
  cap := rfl
  conserved := rfl
  offered := List.nil_prefix
  offered_le := by simp [Queue.new, CCircleBuff.new, getReadLen, isNormal]

theorem queueOk_step {buffSize : ℕ} (s : Queue) (o : Op) (s' : Queue) (hs : QueueOk buffSize s)
    (h : s.step o = some s') : QueueOk buffSize s' := by
  obtain ⟨hok, hcap, hcons, hoff, hle⟩ := hs
  cases o with
  | write w =>
    cases h
    have hw := w.spec hok
    refine ⟨hw.ok, hw.cap.trans hcap, ?_, ?_, hle.trans hw.readLen⟩
    · dsimp only
      rw [hw.content, ← hcons, List.append_assoc]
    · dsimp only
      rw [hw.content]
      exact hoff.trans (List.prefix_append _ _)
  | readSendBuff =>
    cases h
    obtain ⟨hok', hread, hcap', hpre, hlen, -, -⟩ := readSendBuff_spec hok
    exact ⟨hok', hcap'.trans hcap, by dsimp only; rw [hread]; exact hcons,
      by dsimp only; rw [hread]; exact hpre, hlen⟩
  | hadRead k =>
    simp only [Queue.step] at h
    split_ifs at h with hk
    cases h
    obtain ⟨hok', hread⟩ := hadRead_spec hok (k := k) (by omega)
    have htake : s.offered.take k = (readable s.buf).take k := by
      obtain ⟨t, ht⟩ := hoff
      rw [← ht, List.take_append_of_le_length hk]
    have h0 : 0 ≤ (s.buf.hadRead k).getReadLen := by
      have h3 := hok'.read_le_last
      rcases Int.lt_or_le (s.buf.hadRead k).writeIndex (s.buf.hadRead k).readIndex with hn | hn
      · rw [getReadLen_of_wrapped hn]; omega
      · rw [getReadLen_of_normal hn]; omega
    refine ⟨hok', hcap, ?_, List.nil_prefix, by simpa using h0⟩
    dsimp only
    rw [hread, htake, List.append_assoc, List.take_append_drop, hcons]

/-- **The circular buffer is a first-in first-out queue.** After any calls on a buffer of any
capacity, the bytes taken and the bytes still readable are together the bytes of the successful
writes; the indices are inside the buffer; a read is offered a front part of the queue, empty only
if the queue is; and whatever is written next, no unread cell changes, no cell behind the buffer
does, and the queue stays as it is unless the write succeeds. -/
theorem circleBuff_fifo (buffSize : ℕ) (hcap : buffSize < 2147483648) (block : ℕ → UInt8)
    (ops : List Op) (s : Queue) (h : run Queue.step (Queue.new buffSize block) ops = some s) :
    s.consumed ++ readable s.buf = s.written ∧
    (0 ≤ s.buf.readIndex ∧ s.buf.readIndex ≤ s.buf.lastIndex ∧ s.buf.lastIndex ≤ buffSize) ∧
    (0 ≤ s.buf.writeIndex ∧ s.buf.writeIndex ≤ buffSize) ∧
    (s.buf.readSendBuff.2.1 <+: readable s.buf ∧
      (s.buf.readSendBuff.2.1 = [] ↔ readable s.buf = [])) ∧
    ∀ w : Write,
      readable (w.apply s.buf).2 =
        readable s.buf ++ (if (w.apply s.buf).1 = .eNetSuccess then w.bytes else []) ∧
      (∀ i, Unread s.buf i → (w.apply s.buf).2.buffer i = s.buf.buffer i) ∧
      (∀ i, (w.apply s.buf).2.buffer i ≠ s.buf.buffer i → i < buffSize) := by
  obtain ⟨hok, hc, hcons, -, -⟩ :=
    run_inv queueOk_step h (queueOk_new hcap block)
  have hr := readSendBuff_spec hok
  have hlast := hok.last_le_cap
  have hwrite := hok.write_le_cap
  refine ⟨hcons, ⟨hok.zero_le_read, hok.read_le_last, by omega⟩, ⟨hok.zero_le_write, by omega⟩,
    ⟨hr.2.2.2.1, hr.2.2.2.2.2.2⟩, fun w => ?_⟩
  have hw := w.spec hok
  refine ⟨hw.content, hw.keeps, fun i hi => ?_⟩
  have := hw.inside i hi
  omega

/-- Writes to a buffer of four cells, the third one starting again at the front behind a reader
that is still at the third cell, and the fourth one finding no room. -/
def wrapping : List Op :=
  [.write (.buffer (fun i => UInt8.ofNat (i + 1)) 3), .readSendBuff, .hadRead 2,
    .write (.buffer (fun i => UInt8.ofNat (i + 9)) 1), .write (.buffer (fun _ => 7) 1),
    .write (.buffer (fun _ => 8) 1)]

def wrapped : Queue := (run Queue.step (Queue.new 4 fun _ => 0) wrapping).get (by decide)

theorem circleBuff_fifo_wrapped :
    wrapped.consumed = [1, 2] ∧ readable wrapped.buf = [3, 9, 7] ∧
      wrapped.consumed ++ readable wrapped.buf = wrapped.written :=
  ⟨by decide, by decide,
    (circleBuff_fifo 4 (by decide) (fun _ => 0) wrapping wrapped (Option.some_get _).symm).1⟩

end ChatShow.CommBase.CircleFifo
