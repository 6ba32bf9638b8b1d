import ChatShow.CommBase.CircleFifo

/-! # Sending on a session

`Session::Send` offers the socket what `ReadSendBuff` finds, until the socket has taken that or would
block. This is one of the two segments of a buffer whose writer has started again at the front, so that
the other one stays (`oneSegment_iff`); and where a call fails, what the calls before have sent stays too
(`send_meets_iff`). -/

namespace ChatShow.CommBase.SessionSend

open ChatShow.Lib.Cells ChatShow.CommBase.NetWorkConfig ChatShow.CommBase.CircleBuffer
open ChatShow.CommBase.CircleBuffer.CCircleBuff ChatShow.CommBase.CircleFifo

/-- What `send` returns: a count, `EAGAIN`, 0, or another error. -/
inductive Answer
  | taken (n : ℕ)
  | again
  | closed
  | error

/-- What the calls of a `Send` return, with so many bytes offered. -/
structure Socket where
  answer : ℕ → ℕ → Answer
  bound : ∀ call offered n, answer call offered = .taken n → 0 < n ∧ n ≤ offered

def eSockSendErr : ℤ := 29

/-- The loop of `Session::Send`, with what it returns and the bytes sent. -/
def sendLoop (sock : Socket) (nBuffLen : ℕ) : ℕ → ℕ → ℕ → Option (ℤ × ℕ)
  | 0, _, _ => none
  | fuel + 1, call, nSendTotal =>
    match sock.answer call (nBuffLen - nSendTotal) with
    | .closed => some (NetWorkRet.eSocketClose.code, nSendTotal)
    | .again => some (NetWorkRet.eNetSuccess.code, nSendTotal)
    | .error => some (eSockSendErr, nSendTotal)
    | .taken nRet =>
      let nSendTotal := nSendTotal + nRet
      if nSendTotal ≥ nBuffLen then some (NetWorkRet.eNetSuccess.code, nSendTotal)
      else sendLoop sock nBuffLen fuel (call + 1) nSendTotal

/-- What `Send` returns, the bytes that the socket has taken, and the buffer. -/
structure Sent where
  ret : ℤ
  taken : List UInt8
  buf : CCircleBuff

/-- `Session::Send`; `HadRead` is called only behind the loop. -/
def send (sock : Socket) (bufSend : CCircleBuff) : Option Sent :=
  if bufSend.isEmpty then some ⟨NetWorkRet.eNetSuccess.code, [], bufSend⟩
  else
    let (res, bufRead, bufSend) := bufSend.readSendBuff
    if res ≠ .eNetSuccess then some ⟨NetWorkRet.eNetSuccess.code, [], bufSend⟩
    else
      (sendLoop sock bufRead.length bufRead.length 0 0).map fun (ret, nSendTotal) =>
        { ret := ret
          taken := bufRead.take nSendTotal
          buf := if ret = NetWorkRet.eNetSuccess.code then bufSend.hadRead nSendTotal else bufSend }

/-! ### The loop -/

/-- The calls before `call` take `total` bytes, and there are more. -/
inductive Takes (sock : Socket) (len : ℕ) : ℕ → ℕ → Prop
  | start : Takes sock len 0 0
  | call {call total n : ℕ} (h : Takes sock len call total)
      (hn : sock.answer call (len - total) = .taken n) (hlt : total + n < len) :
      Takes sock len (call + 1) (total + n)

/-- A call fails. -/
def Fails (sock : Socket) (call offered : ℕ) : Prop :=
  sock.answer call offered = .closed ∨ sock.answer call offered = .error

/-- A call fails, and calls before it have taken bytes. -/
def FailsLate (sock : Socket) (len : ℕ) : Prop :=
  ∃ call total, Takes sock len call total ∧ 0 < total ∧ Fails sock call (len - total)

/-- Each call takes all that it is offered. -/
def TakesAll (sock : Socket) : Prop := ∀ call offered, 0 < offered → sock.answer call offered = .taken offered

section

variable {sock : Socket} {len fuel call total : ℕ}

/-- The loop comes to its end, and where it does not succeed a call has failed. -/
theorem sendLoop_spec (h : Takes sock len call total) (hlt : total < len) (hfuel : len ≤ fuel + total) :
    ∃ ret n, sendLoop sock len fuel call total = some (ret, n) ∧ n ≤ len ∧
      (ret ≠ NetWorkRet.eNetSuccess.code → ∃ call', Takes sock len call' n ∧ Fails sock call' (len - n)) := by
  induction fuel generalizing call total with
  | zero => omega
  | succ fuel ih =>
    unfold sendLoop
    cases hans : sock.answer call (len - total) with
    | closed => exact ⟨_, _, rfl, hlt.le, fun _ => ⟨call, h, Or.inl hans⟩⟩
    | again => exact ⟨_, _, rfl, hlt.le, fun hne => absurd rfl hne⟩
    | error => exact ⟨_, _, rfl, hlt.le, fun _ => ⟨call, h, Or.inr hans⟩⟩
    | taken n =>
      obtain ⟨hpos, hle⟩ := sock.bound call _ n hans
      dsimp only
      by_cases hend : total + n ≥ len
      · rw [if_pos hend]
        exact ⟨_, _, rfl, by omega, fun hne => absurd rfl hne⟩
      · rw [if_neg hend]
        exact ih (h.call hans (by omega)) (by omega) (by omega)

/-- The loop comes to each of the calls. -/
theorem Takes.sendLoop (h : Takes sock len call total) :
    ∃ fuel, len ≤ fuel + total ∧ sendLoop sock len fuel call total = sendLoop sock len len 0 0 := by
  induction h with
  | start => exact ⟨len, by omega, rfl⟩
  | call h hn hlt ih =>
    rename_i call total n
    obtain ⟨fuel, hfuel, heq⟩ := ih
    have hpos := (sock.bound call _ n hn).1
    obtain ⟨fuel, rfl⟩ : ∃ f, fuel = f + 1 := ⟨fuel - 1, by omega⟩
    refine ⟨fuel, by omega, ?_⟩
    rw [← heq, SessionSend.sendLoop, hn]
    dsimp only
    rw [if_neg (by omega)]

theorem not_failsLate_of_takesAll (h : TakesAll sock) : ¬ FailsLate sock len := by
  rintro ⟨call, total, htakes, hpos, -⟩
  cases htakes with
  | start => omega
  | call hs hn hlt =>
    rw [h _ _ (by omega)] at hn
    cases hn
    omega

theorem Takes.lt (h : Takes sock len call total) (hlen : 0 < len) : total < len := by
  cases h with
  | start => exact hlen
  | call h hn hlt => exact hlt

/-- Where a call fails, the loop ends with what has been sent. -/
theorem sendLoop_fails (h : Takes sock len call total) (hlen : 0 < len)
    (hfails : Fails sock call (len - total)) :
    ∃ ret, SessionSend.sendLoop sock len len 0 0 = some (ret, total) ∧ ret ≠ NetWorkRet.eNetSuccess.code := by
  obtain ⟨fuel, hfuel, heq⟩ := h.sendLoop
  have hlt := h.lt hlen
  obtain ⟨fuel, rfl⟩ : ∃ f, fuel = f + 1 := ⟨fuel - 1, by omega⟩
  rw [← heq]
  unfold SessionSend.sendLoop
  rcases hfails with hans | hans
  · rw [hans]
    exact ⟨_, rfl, by decide⟩
  · rw [hans]
    exact ⟨_, rfl, by decide⟩

/-- A socket that takes all is called once. -/
theorem sendLoop_takesAll (h : TakesAll sock) (hlen : 0 < len) :
    sendLoop sock len len 0 0 = some (NetWorkRet.eNetSuccess.code, len) := by
  obtain ⟨len, rfl⟩ : ∃ n, len = n + 1 := ⟨len - 1, by omega⟩
  rw [sendLoop, Nat.sub_zero, h 0 (len + 1) hlen]
  dsimp only
  rw [if_pos (by omega), Nat.zero_add]

end

/-! ### The buffer -/

/-- What is unsent does not go on at the front of the buffer. -/
def OneSegment (b : CCircleBuff) : Prop :=
  b.readIndex ≤ b.writeIndex ∨ b.lastIndex ≤ b.readIndex ∨ b.writeIndex = 0

section

variable {b : CCircleBuff}

/-- Where the writer is in front of the reader still, the buffer is as it was. -/
theorem isReadOverAgain_wrapped (h : b.isReadOverAgain.writeIndex < b.isReadOverAgain.readIndex)
    (h0 : 0 ≤ b.writeIndex) : b.isReadOverAgain = b ∧ b.readIndex < b.lastIndex := by
  unfold isReadOverAgain at h ⊢
  rcases Int.lt_or_le b.writeIndex b.readIndex with hn | hn
  · rw [if_neg (by rw [isNormal_iff]; omega)] at h ⊢
    by_cases hl : b.readIndex ≥ b.lastIndex
    · rw [if_pos hl] at h
      exact absurd h (by simpa using h0)
    · exact ⟨if_neg hl, by omega⟩
  · rw [if_pos (isNormal_iff.mpr hn)] at h
    omega

theorem isReadOverAgain_normal (h : b.isReadOverAgain.readIndex ≤ b.isReadOverAgain.writeIndex) :
    OneSegment b := by
  unfold isReadOverAgain at h
  rcases Int.lt_or_le b.writeIndex b.readIndex with hn | hn
  · rw [if_neg (by rw [isNormal_iff]; omega)] at h
    by_cases hl : b.readIndex ≥ b.lastIndex
    · exact Or.inr (Or.inl hl)
    · rw [if_neg hl] at h
      omega
  · exact Or.inl hn

/-- **All that is unsent is offered to the socket just when it is one segment.** -/
theorem oneSegment_iff (hb : Ok b) : OneSegment b ↔ b.readSendBuff.2.1 = readable b := by
  have hread := (isReadOverAgain_spec hb).2.1
  unfold readSendBuff
  dsimp only
  rcases Int.lt_or_le b.isReadOverAgain.writeIndex b.isReadOverAgain.readIndex with hn | hn
  · obtain ⟨heq, hlt⟩ := isReadOverAgain_wrapped hn hb.zero_le_write
    have hempty : ¬ b.isEmpty = true := by
      unfold isEmpty
      rw [beq_iff_eq]
      rw [heq] at hn
      omega
    rw [heq] at hn ⊢
    rw [if_neg hempty, getReadLen_of_wrapped hn, readable_of_wrapped hn]
    dsimp only
    rw [List.self_eq_append_right, ← List.length_eq_zero_iff, length_slice]
    have h0 := hb.zero_le_write
    unfold OneSegment
    omega
  · refine ⟨fun _ => ?_, fun _ => isReadOverAgain_normal hn⟩
    rw [← hread, readable_of_normal hn, getReadLen_of_normal hn]
    by_cases hempty : b.isReadOverAgain.isEmpty = true
    · rw [if_pos hempty]
      rw [isEmpty, beq_iff_eq] at hempty
      rw [hempty, Int.sub_self]
      rfl
    · rw [if_neg hempty]

theorem readSendBuff_fst (b : CCircleBuff) :
    b.readSendBuff.1 = .eBuffNULL ∨ b.readSendBuff.1 = .eNetSuccess := by
  unfold readSendBuff
  dsimp only
  by_cases hempty : b.isReadOverAgain.isEmpty = true
  · exact Or.inl (by rw [if_pos hempty])
  · exact Or.inr (by rw [if_neg hempty])

/-- Where nothing is unsent, no call is made. -/
theorem send_nil (hb : Ok b) (sock : Socket) (hnil : readable b = []) :
    ∃ s, send sock b = some s ∧ s.taken = [] ∧ readable s.buf = [] ∧ Ok s.buf := by
  obtain ⟨hok, hread, -, -, -, hnull, -⟩ := readSendBuff_spec hb
  unfold send
  by_cases hempty : b.isEmpty = true
  · rw [if_pos hempty]
    exact ⟨_, rfl, rfl, hnil, hb⟩
  · rw [if_neg hempty]
    dsimp only
    rw [if_pos (by rw [hnull.mpr hnil]; decide)]
    exact ⟨_, rfl, rfl, hread.trans hnil, hok⟩

/-- What `Send` does with what is unsent. -/
theorem send_cons (hb : Ok b) (sock : Socket) (hne : readable b ≠ []) {ret : ℤ} {n : ℕ}
    (hn : n ≤ b.readSendBuff.2.1.length)
    (hloop : sendLoop sock b.readSendBuff.2.1.length b.readSendBuff.2.1.length 0 0 = some (ret, n)) :
    ∃ s, send sock b = some s ∧ s.taken = (readable b).take n ∧
      s.buf = (if ret = NetWorkRet.eNetSuccess.code then b.readSendBuff.2.2.hadRead n
        else b.readSendBuff.2.2) ∧
      readable s.buf = if ret = NetWorkRet.eNetSuccess.code then (readable b).drop n else readable b := by
  obtain ⟨hok, hread, -, hpre, hlen, hnull, -⟩ := readSendBuff_spec hb
  have hempty : ¬ b.isEmpty = true := by
    intro he
    rw [isEmpty, beq_iff_eq] at he
    refine hne ?_
    rw [readable_of_normal he.le, he, Int.sub_self]
    rfl
  have hres : b.readSendBuff.1 = .eNetSuccess :=
    (readSendBuff_fst b).resolve_left fun he => hne (hnull.mp he)
  have htake : b.readSendBuff.2.1.take n = (readable b).take n := by
    obtain ⟨t, ht⟩ := hpre
    rw [← ht, List.take_append_of_le_length hn]
  have hdrop := (hadRead_spec hok (k := n) (by omega)).2
  unfold send
  rw [if_neg hempty]
  dsimp only
  rw [if_neg (by rw [hres]; decide), hloop]
  refine ⟨_, rfl, htake, rfl, ?_⟩
  dsimp only
  split
  · rw [hdrop, hread]
  · exact hread

/-- A `Send` drains the buffer where the socket takes all, and what the socket has taken is what has gone
from the front of the buffer. -/
def Meets (sock : Socket) (b : CCircleBuff) : Prop :=
  ∃ s, send sock b = some s ∧ (TakesAll sock → readable s.buf = []) ∧ readable b = s.taken ++ readable s.buf

/-- **A `Send` does so just when the socket does not take all or what is unsent is one segment, and no
call fails behind one that has taken bytes.** -/
theorem send_meets_iff (b : CCircleBuff) (hb : Ok b) (sock : Socket) :
    Meets sock b ↔ (TakesAll sock → OneSegment b) ∧ ¬ FailsLate sock b.readSendBuff.2.1.length := by
  obtain ⟨-, -, -, hpre, -, -, hnil⟩ := readSendBuff_spec hb
  rw [oneSegment_iff hb]
  by_cases hempty : readable b = []
  · obtain ⟨s, hs, htaken, hread, -⟩ := send_nil hb sock hempty
    rw [hnil.mpr hempty, hempty]
    refine ⟨fun _ => ⟨fun _ => rfl, ?_⟩, fun _ => ⟨s, hs, fun _ => hread, by rw [htaken, hread]; exact hempty⟩⟩
    rintro ⟨call, total, htakes, hpos, -⟩
    cases htakes with
    | start => omega
    | call h hn hlt => exact absurd hlt (Nat.not_lt_zero _)
  · have hlen : 0 < b.readSendBuff.2.1.length := List.length_pos_iff.mpr fun h => hempty (hnil.mp h)
    obtain ⟨ret, n, hloop, hle, hfails⟩ := @sendLoop_spec sock _ b.readSendBuff.2.1.length 0 0
      Takes.start hlen (by omega)
    obtain ⟨s, hs, htaken, -, hread⟩ := send_cons hb sock hempty hle hloop
    have hall (h : TakesAll sock) : ret = NetWorkRet.eNetSuccess.code ∧ n = b.readSendBuff.2.1.length := by
      have heq := sendLoop_takesAll h hlen
      rw [hloop] at heq
      cases heq
      exact ⟨rfl, rfl⟩
    have hdrain : (TakesAll sock → readable s.buf = []) ↔
        (TakesAll sock → b.readSendBuff.2.1 = readable b) := by
      refine forall_congr' fun h => ?_
      obtain ⟨hret, rfl⟩ := hall h
      rw [hread, if_pos hret, List.drop_eq_nil_iff]
      exact ⟨fun hle' => hpre.eq_of_length_le hle', fun heq => by rw [heq]⟩
    have hconserved : readable b = s.taken ++ readable s.buf ↔
        ¬ FailsLate sock b.readSendBuff.2.1.length := by
      rw [htaken, hread]
      by_cases hret : ret = NetWorkRet.eNetSuccess.code
      · rw [if_pos hret, List.take_append_drop]
        refine ⟨fun _ => ?_, fun _ => rfl⟩
        rintro ⟨call, total, htakes, -, hfail⟩
        obtain ⟨ret', heq, hne⟩ := sendLoop_fails htakes hlen hfail
        rw [hloop] at heq
        cases heq
        exact hne hret
      · rw [if_neg hret, List.self_eq_append_left, List.take_eq_nil_iff, or_iff_left hempty]
        obtain ⟨call, htakes, hfail⟩ := hfails hret
        constructor
        · rintro rfl ⟨call', total, htakes', hpos, hfail'⟩
          obtain ⟨ret', heq, -⟩ := sendLoop_fails htakes' hlen hfail'
          rw [hloop] at heq
          cases heq
          omega
        · intro hlate
          by_contra hne
          exact hlate ⟨call, n, htakes, Nat.pos_of_ne_zero hne, hfail⟩
    constructor
    · rintro ⟨s', hs', hd, hc⟩
      rw [hs] at hs'
      cases hs'
      exact ⟨hdrain.mp hd, hconserved.mp hc⟩
    · rintro ⟨hone, hlate⟩
      exact ⟨s, hs, hdrain.mpr hone, hconserved.mpr hlate⟩

theorem length_readSendBuff (h : 0 < b.readSendBuff.2.1.length) :
    (b.readSendBuff.2.1.length : ℤ) = b.readSendBuff.2.2.getReadLen := by
  unfold readSendBuff at h ⊢
  dsimp only at h ⊢
  by_cases hempty : b.isReadOverAgain.isEmpty = true
  · rw [if_pos hempty] at h
    exact absurd h (Nat.lt_irrefl 0)
  · rw [if_neg hempty] at h ⊢
    dsimp only at h ⊢
    rw [length_slice] at h ⊢
    omega

/-- What is left is one segment, where all that was offered is sent. -/
theorem oneSegment_hadRead : OneSegment (b.hadRead b.getReadLen) := by
  unfold OneSegment hadRead
  rcases Int.lt_or_le b.writeIndex b.readIndex with hn | hn
  · rw [getReadLen_of_wrapped hn]
    exact Or.inr (Or.inl (by dsimp only; omega))
  · rw [getReadLen_of_normal hn]
    exact Or.inl (by dsimp only; omega)

/-- **The next `Send` drains what the first one leaves**, if there is one. -/
theorem send_twice (hb : Ok b) {sock : Socket} (hall : TakesAll sock) :
    ∃ s s', send sock b = some s ∧ send sock s.buf = some s' ∧ readable s'.buf = [] := by
  by_cases hempty : readable b = []
  · obtain ⟨s, hs, -, hread, hok⟩ := send_nil hb sock hempty
    obtain ⟨s', hs', -, hread', -⟩ := send_nil hok sock hread
    exact ⟨s, s', hs, hs', hread'⟩
  · obtain ⟨hok, -, -, -, hlen, -, hnil⟩ := readSendBuff_spec hb
    have hpos : 0 < b.readSendBuff.2.1.length := List.length_pos_iff.mpr fun h => hempty (hnil.mp h)
    obtain ⟨s, hs, -, hbuf, -⟩ := send_cons hb sock hempty (le_refl _) (sendLoop_takesAll hall hpos)
    rw [if_pos rfl] at hbuf
    have hok' := (hadRead_spec hok hlen).1
    have hone : OneSegment s.buf := by
      rw [hbuf, length_readSendBuff hpos]
      exact oneSegment_hadRead
    rw [← hbuf] at hok'
    obtain ⟨s', hs', hdrain, -⟩ :=
      (send_meets_iff s.buf hok' sock).mpr ⟨fun _ => hone, not_failsLate_of_takesAll hall⟩
    exact ⟨s, s', hs, hs', hdrain hall⟩

end

/-- A socket that takes all that it is offered. -/
def allTaken : Socket where
  answer _ offered := if offered = 0 then .again else .taken offered
  bound _ offered n h := by
    split_ifs at h with h0
    cases h
    omega

theorem takesAll_allTaken : TakesAll allTaken := fun _ _ h => if_neg (Nat.pos_iff_ne_zero.mp h)

theorem send_meets_iff_normal :
    Meets allTaken
      { readIndex := 1, writeIndex := 3, lastIndex := 4, bufCapacity := 4, buffer := UInt8.ofNat } :=
  (send_meets_iff _ (by constructor <;> decide) allTaken).mpr
    ⟨fun _ => Or.inl (by decide), not_failsLate_of_takesAll takesAll_allTaken⟩

/-- The byte that was written at the front of the buffer is not sent. -/
theorem send_keeps_wrapped :
    ¬ ∀ b sock, Ok b → TakesAll sock → ∃ s, send sock b = some s ∧ readable s.buf = [] := by
  intro h
  obtain ⟨s, hs, hread⟩ := h wrapped.buf allTaken (by constructor <;> decide) takesAll_allTaken
  have hleft : (send allTaken wrapped.buf).map (fun s => readable s.buf) = some [7] := by decide
  rw [hs, Option.map_some, hread] at hleft
  cases hleft

end ChatShow.CommBase.SessionSend
