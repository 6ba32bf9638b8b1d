import ChatShow.Antlib.HttpTurns

/-! # Messages that have been handed over

What the handlers have been called with stays so, whatever a connection reads afterwards
(`recvAll_grows`): of a turn, of a read, of a call of `tcpconnection_recv` and of all calls. A call that
finds nothing to read, or a closed connection, calls no handler. -/

namespace ChatShow.Antlib.HttpDispatched

open ChatShow.Antlib.TcpMsglist
open ChatShow.Antlib.TcpProtocol4 (TCPCONNECTION_BUFLEN)
open ChatShow.Antlib.TcpProtocol4.TcpConnection (ReadRet)
open ChatShow.Antlib.TcpProtocolHttp ChatShow.Antlib.TcpProtocolHttp.HttpConnection
open ChatShow.Antlib.HttpTurns

variable (env : Env) {c : HttpConnection}

/-! ### A turn -/

theorem prefix_called (l : List HandlerMsg) (called : Bool) (msg : HandlerMsg) :
    l <+: if called then l ++ [msg] else l := by
  split_ifs
  · exact List.prefix_append _ _
  · exact List.prefix_refl _

theorem addBody_grows {l : List HandlerMsg} (hl : c.done = l) (msg : HandlerMsg) :
    l <+: turnDone (c.addBody msg) := by
  subst hl
  unfold addBody
  split
  · exact List.prefix_refl _
  · rename_i result msg' called _
    dsimp only
    by_cases h0 : result ≥ 0
    · rw [if_pos h0]
      exact prefix_called _ called msg'
    · rw [if_neg h0]
      by_cases h2 : result = -2
      · rw [if_pos h2]
        exact prefix_called _ called msg'
      · rw [if_neg h2]
        exact prefix_called _ called msg'

theorem takeGet_grows {l : List HandlerMsg} (hl : c.done = l) : l <+: turnDone (c.takeGet env) := by
  subst hl
  unfold takeGet
  split
  · exact List.prefix_refl _
  · dsimp only
    split
    · exact List.prefix_refl _
    · exact List.prefix_refl _
    · split
      · exact List.prefix_refl _
      · rename_i result msg called _
        by_cases h2 : result = -2
        · rw [if_pos h2]
          exact prefix_called _ called msg
        · rw [if_neg h2]
          exact prefix_called _ called msg

theorem takePost_grows {l : List HandlerMsg} (hl : c.done = l) :
    l <+: turnDone (c.takePost env) := by
  subst hl
  unfold takePost
  dsimp only
  split
  · exact List.prefix_refl _
  · split_ifs
    · exact List.prefix_refl _
    · split
      · exact List.prefix_refl _
      · exact List.prefix_refl _
      · refine addBody_grows (l := c.done) ?_ _
        rfl

theorem httpReadedGet_grows : c.done <+: turnDone (c.httpReadedGet env) := by
  unfold httpReadedGet
  dsimp only
  split_ifs
  · exact List.prefix_refl _
  · exact List.prefix_refl _
  · exact List.prefix_refl _
  · exact takeGet_grows env rfl

theorem httReadedPost_grows : c.done <+: turnDone (c.httReadedPost env) := by
  unfold httReadedPost
  split
  · exact addBody_grows rfl _
  · dsimp only
    split_ifs
    · exact List.prefix_refl _
    · exact List.prefix_refl _
    · exact takePost_grows env rfl

/-- A turn does not take back what the handlers have been called with. -/
theorem readedTurn_grows : c.done <+: turnDone (c.readedTurn env) := by
  unfold readedTurn
  split_ifs
  · exact httpReadedGet_grows env
  · exact httReadedPost_grows env
  · exact List.prefix_refl _

/-! ### A read -/

theorem readedLoop_grows (fuel : ℕ) (c : HttpConnection) :
    c.done <+: turnDone (readedLoop env fuel c) := by
  induction fuel generalizing c with
  | zero => exact List.prefix_refl _
  | succ fuel ih =>
    have hturn := readedTurn_grows env (c := c)
    unfold readedLoop
    cases h : c.readedTurn env with
    | error c' =>
      rw [h] at hturn
      exact hturn
    | ok p =>
      obtain ⟨i, c'⟩ := p
      rw [h] at hturn
      dsimp only
      split_ifs
      · exact hturn.trans (ih c')
      · exact hturn

/-- What follows the loop calls no handler. -/
theorem checkResult_done (c : HttpConnection) (i : ℤ) : dispatched (c.checkResult i) = c.done := by
  unfold checkResult
  split_ifs
  · rfl
  · unfold HttpConnection.tcpResetbuf TcpProtocol4.TcpConnection.tcpResetbuf
    split_ifs <;> rfl
  · rfl

theorem httpReadedData_done (add : ℕ) (c : HttpConnection) :
    dispatched (c.httpReadedData env add) =
      turnDone (readedLoop env (c.offset + add + 1) { c with offset := c.offset + add }) := by
  unfold httpReadedData
  cases readedLoop env (c.offset + add + 1) { c with offset := c.offset + add } with
  | error c' => rfl
  | ok p => exact checkResult_done _ _

theorem httpReadedData_grows (add : ℕ) (c : HttpConnection) :
    c.done <+: dispatched (c.httpReadedData env add) := by
  rw [httpReadedData_done]
  exact readedLoop_grows env _ { c with offset := c.offset + add }

/-! ### A call -/

theorem tcpRead_cases (c : HttpConnection) (off len : ℕ) (r : ReadRet) :
    c.tcpRead off len r = .error c ∨
      ∃ n c', c.tcpRead off len r = .ok (n, c') ∧ c'.done = c.done := by
  unfold HttpConnection.tcpRead TcpProtocol4.TcpConnection.tcpRead
  cases r with
  | data bytes =>
    dsimp only
    split_ifs
    · exact Or.inl rfl
    · exact Or.inr ⟨_, _, rfl, rfl⟩
  | again => exact Or.inr ⟨_, _, rfl, rfl⟩
  | closed => exact Or.inr ⟨_, _, rfl, rfl⟩

/-- The loop of `tcpconnection_recv` behind a call of `http_readed_data`. -/
def recvNext (reads : List ReadRet) (c : HttpConnection) : Run HttpConnection :=
  if c.socket = true then
    if c.offset < TCPCONNECTION_BUFLEN then
      match reads with
      | [] => .ok c
      | r :: reads =>
        match c.tcpRead c.offset (TCPCONNECTION_BUFLEN - c.offset) r with
        | .error c => .error c
        | .ok (n, c) => recvLoop env reads n c
    else .error c
  else .ok c

theorem recvLoop_eq (reads : List ReadRet) (n : ℕ) (c : HttpConnection) :
    recvLoop env reads n c =
      if n > 0 ∧ c.socket = true then
        match c.httpReadedData env n with
        | .error c => .error c
        | .ok c => recvNext env reads c
      else .ok c := by
  unfold recvLoop
  rfl

theorem recvNext_grows (reads : List ReadRet) (c : HttpConnection) :
    c.done <+: dispatched (recvNext env reads c) := by
  induction reads generalizing c with
  | nil =>
    unfold recvNext
    split_ifs <;> exact List.prefix_refl _
  | cons r reads ih =>
    unfold recvNext
    split_ifs
    · dsimp only
      rcases tcpRead_cases c c.offset (TCPCONNECTION_BUFLEN - c.offset) r with
        hr | ⟨n, c', hr, hd⟩
      · rw [hr]
        exact List.prefix_refl _
      · rw [hr, ← hd]
        dsimp only
        rw [recvLoop_eq]
        split_ifs
        · have hread := httpReadedData_grows env n c'
          cases h : c'.httpReadedData env n with
          | error c'' => rw [h] at hread; exact hread
          | ok c'' => rw [h] at hread; exact hread.trans (ih c'')
        · exact List.prefix_refl _
    · exact List.prefix_refl _
    · exact List.prefix_refl _

theorem recvLoop_grows (reads : List ReadRet) (n : ℕ) (c : HttpConnection) :
    c.done <+: dispatched (recvLoop env reads n c) := by
  rw [recvLoop_eq]
  split_ifs
  · have hread := httpReadedData_grows env n c
    cases h : c.httpReadedData env n with
    | error c' => rw [h] at hread; exact hread
    | ok c' => rw [h] at hread; exact hread.trans (recvNext_grows env reads c')
  · exact List.prefix_refl _

theorem recv_grows (reads : List ReadRet) (c : HttpConnection) :
    c.done <+: dispatched (c.tcpconnectionRecv env reads) := by
  unfold tcpconnectionRecv
  split_ifs with hs
  · exact List.prefix_refl _
  rcases tcpRead_cases c 0 TCPCONNECTION_BUFLEN (reads.headD .again) with hr | ⟨n, c', hr, hd⟩
  · rw [hr]
    exact List.prefix_refl _
  · rw [hr, ← hd]
    dsimp only
    have hloop (c'' : HttpConnection) (hc : c''.done = c'.done) : c'.done <+: dispatched
        (match recvLoop env reads.tail n c'' with
        | .error c => .error c
        | .ok c => .ok (if c.socket = false then c.tcpconnectionClose "receive error" else c)) := by
      have hgrows := recvLoop_grows env reads.tail n c''
      rw [hc] at hgrows
      cases h : recvLoop env reads.tail n c'' with
      | error c₁ => rw [h] at hgrows; exact hgrows
      | ok c₁ =>
        rw [h] at hgrows
        dsimp only
        split_ifs <;> exact hgrows
    split_ifs
    · exact List.prefix_refl _
    · exact hloop _ rfl
    · exact hloop _ rfl

/-! ### All calls -/

/-- **What the handlers have been called with stays so.** -/
theorem recvAll_grows (calls : List (List (List UInt8))) (c : HttpConnection) :
    c.done <+: dispatched (c.recvAll env calls) := by
  induction calls generalizing c with
  | nil => exact List.prefix_refl _
  | cons chunks calls ih =>
    have hrecv := recv_grows env (chunks.map .data) c
    unfold recvAll
    cases h : c.tcpconnectionRecv env (chunks.map .data) with
    | error c' => rw [h] at hrecv; exact hrecv
    | ok c' => rw [h] at hrecv; exact hrecv.trans (ih c')

theorem recvLoop_zero (reads : List ReadRet) (c : HttpConnection) :
    recvLoop env reads 0 c = .ok c := by
  unfold recvLoop
  rw [if_neg (fun h => absurd h.1 (Nat.lt_irrefl 0))]

theorem recv_nothing (c : HttpConnection) :
    ∃ c', c.tcpconnectionRecv env [] = .ok c' ∧ c'.done = c.done := by
  have hread : c.tcpRead 0 TCPCONNECTION_BUFLEN .again = .ok (0, c) := rfl
  unfold tcpconnectionRecv
  rw [List.headD_nil, hread]
  simp only [recvLoop_zero]
  split_ifs <;> exact ⟨_, rfl, rfl⟩

theorem recv_fresh (h : Fresh c) : c.tcpconnectionRecv env [] = .ok c := by
  have hread : c.tcpRead 0 TCPCONNECTION_BUFLEN .again = .ok (0, c) := rfl
  unfold tcpconnectionRecv
  rw [List.headD_nil, hread, if_neg (by rw [h.socket]; decide)]
  dsimp only
  rw [h.protocol, if_neg (by decide), if_neg (by decide), recvLoop_zero]
  dsimp only
  rw [if_neg (by rw [h.socket]; decide)]

/-- Calls that find nothing to read call no handler. -/
theorem recvAll_nothing {calls : List (List (List UInt8))} (h : ∀ chunks ∈ calls, chunks = [])
    (c : HttpConnection) : dispatched (c.recvAll env calls) = c.done := by
  induction calls generalizing c with
  | nil => rfl
  | cons chunks calls ih =>
    have hc : chunks = [] := h chunks List.mem_cons_self
    obtain ⟨c', hr, hd⟩ := recv_nothing env c
    unfold recvAll
    rw [hc, List.map_nil, hr, ← hd]
    exact ih (fun x hx => h x (List.mem_cons_of_mem _ hx)) c'

/-- A closed connection is left alone. -/
theorem recvAll_closed (calls : List (List (List UInt8))) (hs : c.socket = false) :
    c.recvAll env calls = .ok c := by
  induction calls with
  | nil => rfl
  | cons chunks calls ih =>
    unfold recvAll tcpconnectionRecv
    rw [if_pos hs]
    exact ih

end ChatShow.Antlib.HttpDispatched
