import ChatShow.Antlib.HttpRequest

/-! # A turn on a request

Between two reads a connection holds the bytes of an incomplete header, or it has the message of a POST
request, of whose body some bytes are there (`Ready`). A turn of the loop of `http_readed_data` keeps it
waiting, makes the message whole, or rejects the request (`Turned`): `turned_head` where the header is
still to be found, `turned_addBody` where the message is there. -/

namespace ChatShow.Antlib.HttpTurns

open ChatShow.Lib.Cells ChatShow.Lib.CStrings
open ChatShow.Antlib.HttpProtocol ChatShow.Antlib.TcpMsglist ChatShow.Antlib.TcpStringmsg
open ChatShow.Antlib.TcpProtocol4 (TCPCONNECTION_BUFLEN)
open ChatShow.Antlib.TcpProtocolHttp ChatShow.Antlib.TcpProtocolHttp.HttpConnection
open ChatShow.Antlib.HttpRequest

/-! ### The message of a request -/

/-- The message `msg` as its handler gets it, with the body `w`. -/
def parsed (fields : List TcpmsgField) (base : ℕ) (msg : HandlerMsg) (w : List UInt8) :
    Option (Option HandlerMsg) :=
  (parseStringmsg fields base (streamSize msg)
    { msg.data with buf := store msg.data.buf 0 w, off := 0 }).map fun s =>
      s.map fun s => { msg with data := s }

/-- The message that a table makes, with the body `w`. -/
def message (env : Env) (c : HttpConnection)
    (got : Option (Option (HandlerMsg × List TcpmsgField))) (w : List UInt8) : Option HandlerMsg :=
  got.join.bind fun m => (parsed m.2 (env.addr c.allocs) m.1 w).join

/-- The message that is due for a request on the connection `c`: there is none unless the parsers take
the header, a table is registered for its path and admits the length, and the body has the fields of
that table. -/
def due (env : Env) (c : HttpConnection) (r : Request) : Option HandlerMsg :=
  if headerLoop (cells r.head) r.head.length 0 = some (some r.head.length) ∧
      r.head.length < TCPCONNECTION_BUFLEN then
    if r.isGet then
      (parseHttpGet r.head).bind fun g =>
        message env c (c.getbykey env g.buf g.path1 g.path2 g.len)
          (slice (cells (g.buf.drop g.values)) 0 g.len)
    else
      (parseHttpPost r.head []).bind fun p =>
        if p.contentLen ≥ 0x7FFFFFFF then none
        else
          message env c (c.getbykey env p.buf p.path1 p.path2 p.contentLen)
            (r.body.take r.announced)
  else none

/-- What a message is made with besides the request. -/
def maker (c : HttpConnection) : UInt64 × UInt64 × UInt32 × ℕ := (c.userid, c.id, c.ip, c.allocs)

variable {env : Env} {c c₀ : HttpConnection} {r : Request}

theorem maker_eq (h : maker c = maker c₀) :
    c.userid = c₀.userid ∧ c.id = c₀.id ∧ c.ip = c₀.ip ∧ c.allocs = c₀.allocs := by
  simpa [maker] using h

theorem getbykey_congr (h : maker c = maker c₀) (buf : List UInt8) (path1 : ℕ) (path2 : Option ℕ)
    (len : ℤ) : c.getbykey env buf path1 path2 len = c₀.getbykey env buf path1 path2 len := by
  obtain ⟨h1, h2, h3, h4⟩ := maker_eq h
  unfold getbykey
  rw [h1, h2, h3, h4]

/-- A message that has been made is empty, and has the length that was asked for. -/
theorem getbykey_spec {buf : List UInt8} {path1 : ℕ} {path2 : Option ℕ} {len : ℤ}
    {msg : HandlerMsg} {fields : List TcpmsgField}
    (h : c.getbykey env buf path1 path2 len = some (some (msg, fields))) :
    0 ≤ len ∧ msg.data.len = len ∧ msg.data.off = 0 := by
  obtain ⟨key1, -, h⟩ := Option.bind_eq_some_iff.mp h
  obtain ⟨key2, -, h⟩ := Option.bind_eq_some_iff.mp h
  unfold tcpmsgGetbykey at h
  split_ifs at h
  · cases h
  · cases ht : env.tables (key1.getD []) (key2.getD []) with
    | none => rw [ht] at h; cases h
    | some t =>
      rw [ht] at h
      dsimp only at h
      split_ifs at h with hsize
      · cases h
      · obtain ⟨m, hm, he⟩ := Option.map_eq_some_iff.mp h
        cases he
        unfold createTcpstream at hm
        by_cases hlen : len < 0 ∨ 2147483648 ≤ sizeofTcpStream + len + 8 * (t.table.n : ℤ)
        · rw [if_pos hlen] at hm
          cases hm
        · rw [if_neg hlen] at hm
          cases hm
          exact ⟨by omega, rfl, rfl⟩

/-! ### Adding to a body -/

/-- `msg` with the first bytes of its body. -/
def filled (msg : HandlerMsg) (w : List UInt8) : HandlerMsg :=
  { msg with data := { msg.data with buf := store msg.data.buf 0 w, off := w.length } }

theorem filled_nil {msg : HandlerMsg} (h : msg.data.off = 0) : filled msg [] = msg := by
  have hbuf : store msg.data.buf 0 [] = msg.data.buf := by
    funext i
    exact store_of_ge (Nat.zero_le _)
  unfold filled
  rw [hbuf, List.length_nil, Nat.cast_zero, ← h]

theorem store_filled (msg : HandlerMsg) (w l : List UInt8) :
    store (filled msg w).data.buf (filled msg w).data.off.toNat l = store msg.data.buf 0 (w ++ l) := by
  have h := store_store_append msg.data.buf 0 w l
  rw [Nat.zero_add] at h
  exact h

/-- Fewer bytes than are missing. -/
theorem putout_part {fields : List TcpmsgField} {base : ℕ} {msg : HandlerMsg} {w : List UInt8}
    {a : ℕ → UInt8} {n : ℕ} (h : (w.length + n : ℤ) < msg.data.len) :
    httpmsgPutoutRange fields base (filled msg w) (some a) n =
      some (-1, filled msg (w ++ slice a 0 n), false) := by
  have hlen : (filled msg w).data.len = msg.data.len := rfl
  have hoff : (filled msg w).data.off = w.length := rfl
  unfold httpmsgPutoutRange
  rw [if_neg (by omega), hlen, hoff, if_neg (by omega)]
  split_ifs with hn
  · have hst := store_filled msg w (slice a 0 n)
    dsimp only at hst ⊢
    rw [Option.getD_some, Int.toNat_natCast n]
    rw [hoff] at hst
    rw [hst, show ((w.length : ℤ) + n) = ((w ++ slice a 0 n).length : ℕ) by
      rw [List.length_append, length_slice, Nat.cast_add]]
    rfl
  · have hn0 : n = 0 := by omega
    rw [hn0, slice_zero, List.append_nil]

/-- All bytes that are missing, or more. -/
theorem putout_whole (fields : List TcpmsgField) (base : ℕ) {msg : HandlerMsg} {w : List UInt8}
    {a : ℕ → UInt8} {n k : ℕ} (hk : msg.data.len = (w.length + k : ℕ)) (hn : k ≤ n) :
    httpmsgPutoutRange fields base (filled msg w) (some a) n =
      match parsed fields base msg (w ++ slice a 0 k) with
      | none => none
      | some none => some (-2, filled msg w, false)
      | some (some m) => some ((k : ℤ), m, true) := by
  have hlen : (filled msg w).data.len = msg.data.len := rfl
  have hoff : (filled msg w).data.off = w.length := rfl
  have hmiss : msg.data.len - w.length = (k : ℤ) := by omega
  have hst := store_filled msg w (slice a 0 k)
  unfold httpmsgPutoutRange parsed
  dsimp only at hst ⊢
  rw [if_neg (by omega), hlen, hoff, if_pos (by omega), hmiss, Int.toNat_natCast k,
    Option.getD_some]
  rw [hoff] at hst
  rw [hst]
  dsimp only [filled, streamSize]
  cases parseStringmsg fields base (msg.datalen - 52).toNat
      { msg.data with buf := store msg.data.buf 0 (w ++ slice a 0 k), off := 0 } with
  | none => rfl
  | some s => cases s <;> rfl

/-- The part of `_htt_readed_post` that adds to a body of which `v` is there, when the buffer has `n`
more bytes. -/
theorem addBody_part {msg : HandlerMsg} {v : List UInt8} {n : ℕ} (hn : c.msgbegin + n = c.offset)
    (h : (v.length + n : ℤ) < msg.data.len) :
    c.addBody (filled msg v) = .ok (0, { c with
      msg := some (filled msg (v ++ slice c.buf c.msgbegin n)), msgbegin := c.offset }) := by
  have hcast : (c.offset : ℤ) - c.msgbegin = n := by omega
  unfold addBody
  rw [hcast, putout_part h, slice_shift, Nat.add_zero]
  rfl

theorem addBody_whole {msg : HandlerMsg} {v : List UInt8} {n k : ℕ}
    (hn : c.msgbegin + n = c.offset) (hk : msg.data.len = (v.length + k : ℕ)) (hkn : k ≤ n) :
    c.addBody (filled msg v) =
      match parsed c.fields c.base msg (v ++ slice c.buf c.msgbegin k) with
      | none => .error c
      | some none => .ok (-1, { c with msg := some (filled msg v) })
      | some (some m) =>
        .ok (1, { c with msg := none, msgbegin := c.msgbegin + k, done := c.done ++ [m] }) := by
  have hcast : (c.offset : ℤ) - c.msgbegin = n := by omega
  unfold addBody
  rw [hcast, putout_whole _ _ hk hkn, slice_shift, Nat.add_zero]
  cases parsed c.fields c.base msg (v ++ slice c.buf c.msgbegin k) with
  | none => rfl
  | some m =>
    cases m with
    | none => rfl
    | some m =>
      dsimp only
      rw [if_pos (Int.natCast_nonneg k), Int.toNat_natCast, if_pos rfl]

/-! ### Between two reads -/

/-- A message has been made of the header of a POST request. -/
structure Made (env : Env) (c₀ : HttpConnection) (r : Request) (msg : HandlerMsg)
    (fields : List TcpmsgField) : Prop where
  post : ¬ r.isGet
  scan : scan r r.head.length = some (some r.head.length)
  room : r.head.length < TCPCONNECTION_BUFLEN
  made : ∃ p, parseHttpPost r.head [] = some p ∧ p.contentLen < 0x7FFFFFFF ∧
    c₀.getbykey env p.buf p.path1 p.path2 p.contentLen = some (some (msg, fields))

/-- A connection that has not handed any message to a handler yet. -/
structure Fresh (c : HttpConnection) : Prop where
  socket : c.socket = true
  protocol : c.protocol = true
  done : c.done = []

/-- The connection waits for more of the request, behind the first `n` bytes of it. -/
inductive Waits (env : Env) (c₀ : HttpConnection) (r : Request) (n : ℕ) (c : HttpConnection) : Prop
  | head (hn : n < r.head.length) (hroom : n < TCPCONNECTION_BUFLEN) (hscan : scan r n = some none)
      (hmsg : c.msg = none) (hmsgoff : c.msgoff = n) (hoffset : c.offset = n)
      (hbuf : slice c.buf 0 n = r.bytes.take n) (hmaker : maker c = maker c₀)
  | body (msg : HandlerMsg) (hn : r.head.length ≤ n) (hlt : n < r.size)
      (hmade : Made env c₀ r msg c.fields) (hbase : c.base = env.addr c₀.allocs)
      (hmsg : c.msg = some (filled msg (r.body.take (n - r.head.length)))) (hoffset : c.offset = 0)

/-- What holds between two reads, behind the first `n` bytes of the request. -/
structure Ready (env : Env) (c₀ : HttpConnection) (r : Request) (n : ℕ) (c : HttpConnection) :
    Prop where
  fresh : Fresh c
  msgbegin : c.msgbegin = 0
  waits : Waits env c₀ r n c

theorem headerLoop_head (r : Request) :
    headerLoop (cells r.head) r.head.length 0 = scan r r.head.length :=
  headerLoop_congr fun j hj => (cells_bytes r (by omega)).symm

variable (env c) in
theorem due_get (hget : r.isGet) (hscan : scan r r.head.length = some (some r.head.length))
    (hroom : r.head.length < TCPCONNECTION_BUFLEN) :
    due env c r = (parseHttpGet r.head).bind fun g =>
      message env c (c.getbykey env g.buf g.path1 g.path2 g.len)
        (slice (cells (g.buf.drop g.values)) 0 g.len) := by
  unfold due
  rw [headerLoop_head, if_pos ⟨hscan, hroom⟩, if_pos hget]

variable (env c) in
theorem due_post (hpost : ¬ r.isGet) (hscan : scan r r.head.length = some (some r.head.length))
    (hroom : r.head.length < TCPCONNECTION_BUFLEN) :
    due env c r = (parseHttpPost r.head []).bind fun p =>
      if p.contentLen ≥ 0x7FFFFFFF then none
      else message env c (c.getbykey env p.buf p.path1 p.path2 p.contentLen)
        (r.body.take r.announced) := by
  unfold due
  rw [headerLoop_head, if_pos ⟨hscan, hroom⟩, if_neg hpost]

theorem due_of_made {msg : HandlerMsg} {fields : List TcpmsgField}
    (h : Made env c₀ r msg fields) :
    due env c₀ r = (parsed fields (env.addr c₀.allocs) msg (r.body.take r.announced)).join ∧
      msg.data.len = r.announced ∧ msg.data.off = 0 := by
  obtain ⟨hpost, hscan, hroom, p, hp, hlen, hgot⟩ := h
  obtain ⟨h1, h2, h3⟩ := getbykey_spec hgot
  have hann : r.announced = p.contentLen.toNat := by
    unfold Request.announced
    rw [if_neg hpost, hp]
    rfl
  refine ⟨?_, by omega, h3⟩
  rw [due_post env c₀ hpost hscan hroom, hp, Option.bind_some, if_neg (by omega), hgot]
  rfl

/-! ### A turn of the loop -/

/-- What the handlers have been called with after a turn. -/
def turnDone : Run (ℤ × HttpConnection) → List HandlerMsg
  | .ok (_, c) => c.done
  | .error c => c.done

/-- What a turn comes to when the first `k` bytes of the request have been read and the buffer ends at
`o`: it waits for more of the header or of the body, it hands the message to its handler, or it rejects
the request. -/
inductive Turned (env : Env) (c₀ : HttpConnection) (r : Request) (k o : ℕ) :
    Run (ℤ × HttpConnection) → Prop
  | head {c : HttpConnection} (hk : k < r.head.length) (hready : Ready env c₀ r k c) :
      Turned env c₀ r k o (.ok (0, c))
  | body {c : HttpConnection} (msg : HandlerMsg) (hk : r.head.length ≤ k) (hlt : k < r.size)
      (hmade : Made env c₀ r msg c.fields) (hbase : c.base = env.addr c₀.allocs)
      (hmsg : c.msg = some (filled msg (r.body.take (k - r.head.length)))) (hfresh : Fresh c)
      (hoffset : c.offset = o) (hbegin : c.msgbegin = o) :
      Turned env c₀ r k o (.ok (0, c))
  | whole {c : HttpConnection} (m : HandlerMsg) (hdue : due env c₀ r = some m) (hk : r.size ≤ k)
      (hdone : c.done = [m]) (hoffset : c.offset = o) (hbegin : c.msgbegin + (k - r.size) = o)
      (hpos : 0 < c.msgbegin) :
      Turned env c₀ r k o (.ok (1, c))
  | closed {c : HttpConnection} (hdue : due env c₀ r = none) (hdone : c.done = []) :
      Turned env c₀ r k o (.ok (-1, c))
  | failed {c : HttpConnection} (hdue : due env c₀ r = none) (hdone : c.done = []) :
      Turned env c₀ r k o (.error c)

/-- The bytes that are missing of a body, as the window has them. -/
theorem take_body {r : Request} {l : List UInt8} {n k : ℕ} (hn : r.head.length ≤ n)
    (h : l = (r.bytes.drop n).take k) :
    r.body.take (n - r.head.length) ++ l = r.body.take (n - r.head.length + k) := by
  have hd : r.bytes.drop n = r.body.drop (n - r.head.length) := by
    unfold Request.bytes
    rw [List.drop_append, List.drop_of_length_le hn, List.nil_append]
  rw [h, hd, ← List.take_add]

/-- A body of which `k` bytes of the request are there with what the buffer has. -/
theorem turned_addBody (hr : WellFormed r) {msg : HandlerMsg} {n m : ℕ} (hfresh : Fresh c)
    (hmade : Made env c₀ r msg c.fields) (hbase : c.base = env.addr c₀.allocs)
    (hn : r.head.length ≤ n) (hsize : n ≤ r.size) (hm : c.msgbegin + m = c.offset)
    (hbuf : slice c.buf c.msgbegin m = (r.bytes.drop n).take m)
    (hpos : 0 < c.msgbegin ∨ n < r.size) :
    Turned env c₀ r (n + m) c.offset (c.addBody (filled msg (r.body.take (n - r.head.length)))) := by
  obtain ⟨hdue, hl, -⟩ := due_of_made hmade
  have hbody := hr.body
  have hv : (r.body.take (n - r.head.length)).length = n - r.head.length := by
    rw [List.length_take]
    unfold Request.size at hsize
    omega
  unfold Request.size at hsize hpos
  rcases Nat.lt_or_ge (n + m) (r.head.length + r.announced) with hlt | hge
  · rw [addBody_part hm (by rw [hv, hl]; omega), take_body hn hbuf]
    refine .body msg (by omega) hlt hmade hbase ?_ ⟨hfresh.1, hfresh.2, hfresh.3⟩ rfl rfl
    rw [show n + m - r.head.length = n - r.head.length + m by omega]
  · have hk : msg.data.len =
        ((r.body.take (n - r.head.length)).length + (r.head.length + r.announced - n) : ℕ) := by
      rw [hv, hl]
      omega
    have hwin : slice c.buf c.msgbegin (r.head.length + r.announced - n) =
        (r.bytes.drop n).take (r.head.length + r.announced - n) := by
      have h := congrArg (List.take (r.head.length + r.announced - n)) hbuf
      rwa [take_slice, List.take_take, Nat.min_eq_left (by omega)] at h
    rw [addBody_whole hm hk (by omega), take_body hn hwin, hbase,
      show n - r.head.length + (r.head.length + r.announced - n) = r.announced by omega]
    cases hp : parsed c.fields (env.addr c₀.allocs) msg (r.body.take r.announced) with
    | none => exact .failed (by rw [hdue, hp]; rfl) hfresh.done
    | some m' =>
      cases m' with
      | none => exact .closed (by rw [hdue, hp]; rfl) hfresh.done
      | some m' =>
        refine .whole m' (by rw [hdue, hp]; rfl) hge ?_ rfl ?_ ?_
        · dsimp only
          rw [hfresh.done]
          rfl
        · unfold Request.size
          dsimp only
          omega
        · dsimp only
          omega

/-- The buffer begins with the first `k` bytes of the request. -/
theorem cell_of_slice {buf : ℕ → UInt8} {l : List UInt8} {k j : ℕ}
    (h : slice buf 0 k = l.take k) (hj : j < k) : buf j = cells l j := by
  have hg : (slice buf 0 k)[j]? = (l.take k)[j]? := by rw [h]
  rw [getElem?_slice, if_pos hj, List.getElem?_take, if_pos hj, Nat.zero_add] at hg
  unfold cells
  rw [List.getD_eq_getElem?_getD, ← hg]
  rfl

/-- The search goes on behind the `n` bytes that it has seen. -/
theorem headerLen_spec {n k : ℕ} (hbegin : c.msgbegin = 0) (hmsgoff : c.msgoff = n)
    (hoffset : c.offset = k) (hn : n ≤ k) (hfit : k ≤ TCPCONNECTION_BUFLEN)
    (hscan : scan r n = some none) (hbuf : slice c.buf 0 k = r.bytes.take k) :
    parseHttpHeaderLen (shift c.buf c.msgbegin) ((c.offset - c.msgbegin) % 65536) c.msgoff =
      match scan r k with
      | none => (-1, n)
      | some (some len) => (len, len)
      | some none => (0, k) := by
  have hmod : k % 65536 = k :=
    Nat.mod_eq_of_lt (lt_of_le_of_lt hfit (by decide))
  have hloop : headerLoop (shift c.buf 0) (k - n) n = scan r k := by
    have hadd := headerLoop_add (cells r.bytes) n (k - n) 0
    rw [Nat.add_sub_cancel' hn, show headerLoop (cells r.bytes) n 0 = some none from hscan,
      Nat.zero_add] at hadd
    unfold scan
    rw [hadd]
    refine headerLoop_congr fun j hj => ?_
    unfold shift
    rw [Nat.zero_add]
    exact cell_of_slice hbuf (by omega)
  unfold parseHttpHeaderLen
  rw [hbegin, hoffset, hmsgoff, Nat.sub_zero, hmod, hloop]
  cases scan r k with
  | none => rfl
  | some found =>
    cases found with
    | none => exact congrArg (fun m => ((0 : ℤ), m)) (Nat.add_sub_cancel' hn)
    | some len => rfl

theorem due_eq_none_of_scan (h : scan r r.head.length = none) : due env c r = none := by
  unfold due
  rw [headerLoop_head, h, if_neg (by simp)]

theorem due_eq_none_of_room (h : TCPCONNECTION_BUFLEN ≤ r.head.length) : due env c r = none := by
  unfold due
  rw [if_neg (by omega)]

/-- What the parsers of both methods do before they take the header, and `take` after it. -/
theorem turned_header (hr : WellFormed r) {n k : ℕ} (take : HttpConnection → Run (ℤ × HttpConnection))
    (hfresh : Fresh c) (hbegin : c.msgbegin = 0) (hmsgoff : c.msgoff = n) (hoffset : c.offset = k)
    (hn : n ≤ k) (hfit : k ≤ TCPCONNECTION_BUFLEN) (hscan : scan r n = some none)
    (hbuf : slice c.buf 0 k = r.bytes.take k) (hmsg : c.msg = none) (hmaker : maker c = maker c₀)
    (htake : r.head.length ≤ k → r.head.length < TCPCONNECTION_BUFLEN →
      scan r r.head.length = some (some r.head.length) →
      Turned env c₀ r k k (take { c with msgoff := r.head.length })) :
    Turned env c₀ r k k
      (let (result, msgoff) :=
        parseHttpHeaderLen (shift c.buf c.msgbegin) ((c.offset - c.msgbegin) % 65536) c.msgoff
      let c := { c with msgoff := msgoff }
      if result = -1 ∨ msgoff ≥ TCPCONNECTION_BUFLEN then .ok (-1, c)
      else if result = 0 then .ok (0, c)
      else take c) := by
  rw [headerLen_spec hbegin hmsgoff hoffset hn hfit hscan hbuf]
  rcases scan_cases hr k with ⟨hlt, hs⟩ | ⟨hs, hall⟩ | ⟨hle, hs, hall⟩
  · rw [hs]
    dsimp only
    by_cases hfull : k < TCPCONNECTION_BUFLEN
    · rw [if_neg (not_or.mpr ⟨by decide, Nat.not_le.mpr hfull⟩), if_pos rfl]
      exact .head hlt ⟨⟨hfresh.1, hfresh.2, hfresh.3⟩, hbegin,
        .head hlt hfull hs hmsg rfl hoffset hbuf hmaker⟩
    · rw [if_pos (Or.inr (Nat.not_lt.mp hfull))]
      exact .closed (due_eq_none_of_room (by omega)) hfresh.done
  · rw [hs]
    dsimp only
    rw [if_pos (Or.inl rfl)]
    exact .closed (due_eq_none_of_scan hall) hfresh.done
  · rw [hs]
    dsimp only
    have hlen := (headerLoop_found hall).1
    by_cases hroom : r.head.length < TCPCONNECTION_BUFLEN
    · rw [if_neg (not_or.mpr ⟨by omega, Nat.not_le.mpr hroom⟩), if_neg (by omega)]
      exact htake hle hroom hall
    · rw [if_pos (Or.inr (Nat.not_lt.mp hroom))]
      exact .closed (due_eq_none_of_room (Nat.not_lt.mp hroom)) hfresh.done

/-- A GET request: the message has all values when it is made. -/
theorem turned_takeGet (hget : r.isGet) {k : ℕ} (hfresh : Fresh c)
    (hbegin : c.msgbegin = 0) (hmsgoff : c.msgoff = r.head.length) (hoffset : c.offset = k)
    (hmaker : maker c = maker c₀) (hroom : r.head.length < TCPCONNECTION_BUFLEN)
    (hscan : scan r r.head.length = some (some r.head.length)) (hk : r.head.length ≤ k)
    (hhead : slice c.buf 0 r.head.length = r.head) :
    Turned env c₀ r k k (c.takeGet env) := by
  have hsize : r.size = r.head.length := by
    unfold Request.size Request.announced
    rw [if_pos hget, Nat.add_zero]
  have hpos := (headerLoop_found hscan).1
  have hdue := due_get env c₀ hget hscan hroom
  have hallocs := (maker_eq hmaker).2.2.2
  have hslice : slice c.buf c.msgbegin c.msgoff = r.head := by rw [hbegin, hmsgoff, hhead]
  unfold takeGet
  rw [hslice]
  cases hg : parseHttpGet r.head with
  | none =>
    rw [hg, Option.bind_none] at hdue
    exact .closed hdue hfresh.done
  | some g =>
    rw [hg, Option.bind_some] at hdue
    have hcongr (buf : ℕ → UInt8) :
        { c with buf := buf }.getbykey env g.buf g.path1 g.path2 g.len =
          c₀.getbykey env g.buf g.path1 g.path2 g.len := getbykey_congr hmaker _ _ _ _
    dsimp only
    rw [hcongr]
    cases hgot : c₀.getbykey env g.buf g.path1 g.path2 g.len with
    | none =>
      rw [hgot] at hdue
      exact .failed hdue hfresh.done
    | some got =>
      rw [hgot] at hdue
      cases got with
      | none => exact .closed hdue hfresh.done
      | some got =>
        obtain ⟨msg, fields⟩ := got
        obtain ⟨-, hl, ho⟩ := getbykey_spec hgot
        have hput := putout_whole fields (env.addr c₀.allocs) (w := [])
          (a := cells (g.buf.drop g.values)) (k := g.len) (by rw [hl]; simp) (Nat.le_refl g.len)
        rw [filled_nil ho, List.nil_append] at hput
        dsimp only
        rw [hallocs, hput]
        replace hdue : due env c₀ r = (parsed fields (env.addr c₀.allocs) msg
          (slice (cells (g.buf.drop g.values)) 0 g.len)).join := hdue
        cases hp : parsed fields (env.addr c₀.allocs) msg
            (slice (cells (g.buf.drop g.values)) 0 g.len) with
        | none =>
          rw [hp] at hdue
          exact .failed hdue hfresh.done
        | some m =>
          rw [hp] at hdue
          cases m with
          | none => exact .closed hdue hfresh.done
          | some m =>
            dsimp only
            rw [if_neg (by omega), if_pos rfl, hfresh.done]
            refine .whole m hdue (by omega) rfl hoffset ?_ ?_
            · dsimp only
              omega
            · dsimp only
              omega

/-- A POST request: the message is made, and takes what the buffer has of its body. -/
theorem turned_takePost (hr : WellFormed r) (hpost : ¬ r.isGet) {k : ℕ} (hfresh : Fresh c)
    (hbegin : c.msgbegin = 0) (hmsgoff : c.msgoff = r.head.length) (hoffset : c.offset = k)
    (hmaker : maker c = maker c₀) (hroom : r.head.length < TCPCONNECTION_BUFLEN)
    (hscan : scan r r.head.length = some (some r.head.length)) (hk : r.head.length ≤ k)
    (hhead : slice c.buf 0 r.head.length = r.head)
    (hbody : slice c.buf r.head.length (k - r.head.length) =
      (r.bytes.drop r.head.length).take (k - r.head.length)) :
    Turned env c₀ r k k (c.takePost env) := by
  subst hoffset
  have hpos := (headerLoop_found hscan).1
  have hdue := due_post env c₀ hpost hscan hroom
  have hallocs := (maker_eq hmaker).2.2.2
  have hslice : slice c.buf c.msgbegin c.msgoff = r.head := by rw [hbegin, hmsgoff, hhead]
  unfold takePost
  dsimp only
  rw [hslice, parseHttpPost_behind hr]
  cases hp : parseHttpPost r.head [] with
  | none =>
    rw [hp, Option.bind_none] at hdue
    exact .closed hdue hfresh.done
  | some p =>
    rw [hp, Option.bind_some] at hdue
    have hcongr (buf : ℕ → UInt8) :
        { c with buf := buf }.getbykey env p.buf p.path1 p.path2 p.contentLen =
          c₀.getbykey env p.buf p.path1 p.path2 p.contentLen := getbykey_congr hmaker _ _ _ _
    dsimp only
    rw [hcongr]
    by_cases hmax : p.contentLen ≥ 0x7FFFFFFF
    · rw [if_pos hmax] at hdue ⊢
      exact .closed hdue hfresh.done
    · rw [if_neg hmax] at hdue ⊢
      cases hgot : c₀.getbykey env p.buf p.path1 p.path2 p.contentLen with
      | none =>
        rw [hgot] at hdue
        exact .failed hdue hfresh.done
      | some got =>
        rw [hgot] at hdue
        cases got with
        | none => exact .closed hdue hfresh.done
        | some got =>
          obtain ⟨msg, fields⟩ := got
          have hmade : Made env c₀ r msg fields := ⟨hpost, hscan, hroom, p, hp, by omega, hgot⟩
          have hempty := filled_nil (getbykey_spec hgot).2.2
          have hlen : p.buf.length = r.head.length := parseHttpPost_length (by omega) hp
          have hwin : slice (store c.buf c.msgbegin p.buf) (c.msgbegin + c.msgoff)
              (c.offset - r.head.length) =
                (r.bytes.drop r.head.length).take (c.offset - r.head.length) := by
            rw [hbegin, hmsgoff, Nat.zero_add, slice_store_of_disjoint (Or.inr (by omega)), hbody]
          have hadd := turned_addBody hr (c := { c with
            buf := store c.buf c.msgbegin p.buf, msgbegin := c.msgbegin + c.msgoff, msgoff := 0
            msg := some msg, fields := fields, base := env.addr c.allocs, allocs := c.allocs + 1 })
            (n := r.head.length) (m := c.offset - r.head.length) ⟨hfresh.1, hfresh.2, hfresh.3⟩ hmade
            (by rw [hallocs]) (Nat.le_refl _) (Nat.le_add_right _ _) (by dsimp only; omega) hwin
            (Or.inl (by dsimp only; omega))
          rw [Nat.sub_self, List.take_zero, hempty, Nat.add_sub_cancel' hk] at hadd
          exact hadd

/-- A turn with the first bytes of the request at the front of the buffer, up to `k`. -/
theorem turned_head (hr : WellFormed r) {n k : ℕ} (hfresh : Fresh c) (hbegin : c.msgbegin = 0)
    (hmsg : c.msg = none) (hmsgoff : c.msgoff = n) (hoffset : c.offset = k) (hn : n ≤ k)
    (hpos : 0 < k) (hfit : k ≤ TCPCONNECTION_BUFLEN) (hscan : scan r n = some none)
    (hbuf : slice c.buf 0 k = r.bytes.take k) (hmaker : maker c = maker c₀) :
    Turned env c₀ r k k (c.readedTurn env) := by
  obtain ⟨pre, -, hl⟩ := head_eq hr
  have hfirst : r.head.head? = some (c.buf c.msgbegin) := by
    rw [hbegin, cell_of_slice hbuf hpos, cells_bytes r (by omega)]
    unfold cells
    obtain ⟨b, l, hbl⟩ := List.exists_cons_of_length_pos (by omega : 0 < r.head.length)
    rw [hbl]
    rfl
  have hhead (hle : r.head.length ≤ k) : slice c.buf 0 r.head.length = r.head := by
    have h := congrArg (List.take r.head.length) hbuf
    rwa [take_slice, List.take_take, Nat.min_eq_left hle, Request.bytes, List.take_left] at h
  have hbody (hle : r.head.length ≤ k) : slice c.buf r.head.length (k - r.head.length) =
      (r.bytes.drop r.head.length).take (k - r.head.length) := by
    have h := congrArg (List.drop r.head.length) hbuf
    rwa [drop_slice, Nat.zero_add, List.drop_take] at h
  unfold readedTurn
  by_cases hget : r.isGet
  · have hG : c.buf c.msgbegin = 'G'.toUInt8 := Option.some.inj (hfirst.symm.trans hget)
    unfold httpReadedGet
    rw [if_pos hG, hmsg]
    exact turned_header hr (takeGet env) hfresh hbegin hmsgoff hoffset hn hfit hscan hbuf hmsg hmaker
      fun hle hroom hall => turned_takeGet (c := { c with msgoff := r.head.length }) hget
        ⟨hfresh.1, hfresh.2, hfresh.3⟩ hbegin rfl hoffset hmaker hroom hall hle (hhead hle)
  · have hP : c.buf c.msgbegin = 'P'.toUInt8 :=
      Option.some.inj (hfirst.symm.trans (hr.method.resolve_left hget))
    unfold httReadedPost
    rw [if_neg (by rw [hP]; decide), if_pos hP, hmsg]
    exact turned_header hr (takePost env) hfresh hbegin hmsgoff hoffset hn hfit hscan hbuf hmsg hmaker
      fun hle hroom hall => turned_takePost (c := { c with msgoff := r.head.length }) hr hget
        ⟨hfresh.1, hfresh.2, hfresh.3⟩ hbegin rfl hoffset hmaker hroom hall hle (hhead hle) (hbody hle)

end ChatShow.Antlib.HttpTurns
