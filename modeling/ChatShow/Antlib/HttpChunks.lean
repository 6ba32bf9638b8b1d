import ChatShow.Antlib.HttpDispatched

/-! # When a request can come in pieces

A read keeps the connection waiting for more of the request, hands the message to its handler, or stops
the connection before (`After`, `readed_after`), and so do the reads of a call of `tcpconnection_recv`
and the calls one after the other. It stops the connection only if there is no message for the request,
or if the reads are not `Resumed`: `http_readed_data` goes by the first byte of each read even where it
has a message to fill. -/

namespace ChatShow.Antlib.HttpChunks

open ChatShow.Lib.Cells
open ChatShow.Antlib.TcpMsglist
open ChatShow.Antlib.TcpProtocol4 (TCPCONNECTION_BUFLEN)
open ChatShow.Antlib.TcpProtocol4.TcpConnection (ReadRet)
open ChatShow.Antlib.TcpProtocolHttp ChatShow.Antlib.TcpProtocolHttp.HttpConnection
open ChatShow.Antlib.HttpRequest ChatShow.Antlib.HttpTurns ChatShow.Antlib.HttpDispatched

variable {env : Env} {c c₀ : HttpConnection} {r : Request}

/-! ### A read -/

/-- The bytes that the buffer holds when the first `n` bytes of the request have been read. -/
def heldAt (r : Request) (n : ℕ) : ℕ := if n < r.head.length then n else 0

/-- The condition on the reads behind the first `n` bytes of a request, until it is complete: a read
behind the header begins with the byte `P`, and one that does not complete the request leaves room in
the buffer. -/
def Resumed (r : Request) : ℕ → List (List UInt8) → Prop
  | _, [] => True
  | n, w :: ws =>
    (n < r.size → (r.head.length ≤ n → w.head? = some 'P'.toUInt8) ∧
      (n + w.length < r.size → heldAt r n + w.length < TCPCONNECTION_BUFLEN)) ∧
    Resumed r (n + w.length) ws

/-- Each read until the request is complete brings no more than there is room for. -/
def Fits (r : Request) : ℕ → List (List UInt8) → Prop
  | _, [] => True
  | n, w :: ws =>
    (n < r.size → heldAt r n + w.length ≤ TCPCONNECTION_BUFLEN) ∧ Fits r (n + w.length) ws

instance decidableResumed (r : Request) :
    ∀ (n : ℕ) (ws : List (List UInt8)), Decidable (Resumed r n ws)
  | _, [] => inferInstanceAs (Decidable True)
  | n, w :: ws =>
    have := decidableResumed r (n + w.length) ws
    inferInstanceAs (Decidable ((_ → (_ → _) ∧ (_ → _)) ∧ _))

instance decidableFits (r : Request) :
    ∀ (n : ℕ) (ws : List (List UInt8)), Decidable (Fits r n ws)
  | _, [] => inferInstanceAs (Decidable True)
  | n, w :: ws =>
    have := decidableFits r (n + w.length) ws
    inferInstanceAs (Decidable ((_ → _) ∧ _))

theorem resumed_append {ws ws' : List (List UInt8)} {n : ℕ} :
    Resumed r n (ws ++ ws') ↔ Resumed r n ws ∧ Resumed r (n + ws.flatten.length) ws' := by
  induction ws generalizing n with
  | nil => simp [Resumed]
  | cons w ws ih =>
    rw [List.cons_append, Resumed, Resumed, ih, List.flatten_cons, List.length_append, and_assoc,
      Nat.add_assoc]

theorem fits_append {ws ws' : List (List UInt8)} {n : ℕ} :
    Fits r n (ws ++ ws') ↔ Fits r n ws ∧ Fits r (n + ws.flatten.length) ws' := by
  induction ws generalizing n with
  | nil => simp [Fits]
  | cons w ws ih =>
    rw [List.cons_append, Fits, Fits, ih, List.flatten_cons, List.length_append, and_assoc,
      Nat.add_assoc]

/-- Behind the request there is no condition. -/
theorem resumed_of_le {ws : List (List UInt8)} {n : ℕ} (h : r.size ≤ n) : Resumed r n ws := by
  induction ws generalizing n with
  | nil => trivial
  | cons w ws ih => exact ⟨fun hlt => by omega, ih (by omega)⟩

/-- What the reads `ws` behind the first `n` bytes of the request come to: the connection waits for
more, it has been stopped before it has called any handler, or the message due has been handed to its
handler, and no other where nothing comes behind the request. -/
inductive After (env : Env) (c₀ : HttpConnection) (r : Request) (n : ℕ) (ws : List (List UInt8)) :
    Run HttpConnection → Prop
  | waits {c : HttpConnection} (hok : Resumed r n ws) (hlt : n + ws.flatten.length < r.size)
      (hready : Ready env c₀ r (n + ws.flatten.length) c) : After env c₀ r n ws (.ok c)
  | stopped {x : Run HttpConnection} (hwhy : due env c₀ r = none ∨ ¬ Resumed r n ws)
      (hdone : dispatched x = []) (hclosed : ∀ c, x = .ok c → c.socket = false) :
      After env c₀ r n ws x
  | handled {x : Run HttpConnection} (m : HandlerMsg) (hdue : due env c₀ r = some m)
      (hok : Resumed r n ws) (hle : r.size ≤ n + ws.flatten.length) (hdone : [m] <+: dispatched x)
      (honly : r.bytes.length ≤ r.size → dispatched x = [m]) : After env c₀ r n ws x

theorem readedLoop_succ (fuel : ℕ) {i : ℤ} {c' : HttpConnection}
    (h : c.readedTurn env = .ok (i, c')) (hi : ¬ (i > 0 ∧ c'.msgbegin < c'.offset)) :
    readedLoop env (fuel + 1) c = .ok (i, c') := by
  rw [readedLoop, h]
  exact if_neg hi

/-- With a message to fill, the parser of the POST requests has to be chosen again. -/
theorem turn_post {msg : HandlerMsg} (hmsg : c.msg = some msg)
    (hb : c.buf c.msgbegin = 'P'.toUInt8) : c.readedTurn env = c.addBody msg := by
  unfold readedTurn httReadedPost
  rw [if_neg (by rw [hb]; decide), if_pos hb, hmsg]

variable (env) in
/-- Otherwise an assertion fails, or the connection is closed. -/
theorem turn_other {msg : HandlerMsg} (hmsg : c.msg = some msg)
    (hb : c.buf c.msgbegin ≠ 'P'.toUInt8) :
    c.readedTurn env = .error c ∨ c.readedTurn env = .ok (-1, c) := by
  unfold readedTurn httpReadedGet
  by_cases hG : c.buf c.msgbegin = 'G'.toUInt8
  · rw [if_pos hG, hmsg]
    exact Or.inl rfl
  · rw [if_neg hG, if_neg hb]
    exact Or.inr rfl

/-- From the first turn of a read to what the read comes to. -/
theorem after_of_turned {n o : ℕ} {w : List UInt8} {x : Run (ℤ × HttpConnection)}
    (hx : c.readedTurn env = x) (hturn : Turned env c₀ r (n + w.length) o x) (fuel : ℕ)
    (ho : o = heldAt r n + w.length) (hpos : 0 < o) (hlt : n < r.size)
    (hlen : n + w.length ≤ r.bytes.length)
    (hP : r.head.length ≤ n → w.head? = some 'P'.toUInt8) :
    ∀ y, (match readedLoop env (fuel + 1) c with
        | .error c => .error c
        | .ok (i, c) => c.checkResult i) = y →
      After env c₀ r n [w] y := by
  rintro y rfl
  have hflat : n + [w].flatten.length = n + w.length := by
    rw [List.flatten_singleton]
  cases hturn with
  | @head c' hk hready =>
    rw [readedLoop_succ fuel hx (fun h => absurd h.1 (by decide))]
    have hcheck : c'.checkResult 0 = .ok c' := by
      unfold checkResult
      rw [if_neg (by decide), if_neg (by rw [hready.msgbegin]; decide)]
    dsimp only
    rw [hcheck]
    cases hready.waits with
    | head hn hfull =>
      refine .waits ⟨fun _ => ⟨hP, fun _ => ?_⟩, trivial⟩ ?_ (by rw [hflat]; exact hready)
      · unfold heldAt
        rw [if_pos (by omega)]
        exact hfull
      · rw [hflat]
        unfold Request.size
        omega
    | body => omega
  | @body c' msg hk hlt' hmade hbase hmsg hfresh hoffset hbegin =>
    rw [readedLoop_succ fuel hx (fun h => absurd h.1 (by decide))]
    unfold checkResult
    dsimp only
    rw [if_neg (by decide), hbegin, if_pos hpos, hoffset]
    unfold HttpConnection.tcpResetbuf TcpProtocol4.TcpConnection.tcpResetbuf
    by_cases hfull : o < TCPCONNECTION_BUFLEN
    · rw [if_pos ⟨Nat.le_refl o, hfull⟩, if_neg (Nat.lt_irrefl o)]
      refine .waits ⟨fun _ => ⟨hP, fun _ => by omega⟩, trivial⟩ (by rw [hflat]; exact hlt') ?_
      rw [hflat]
      exact ⟨⟨hfresh.1, hfresh.2, hfresh.3⟩, rfl, .body msg hk hlt' hmade hbase hmsg rfl⟩
    · rw [if_neg (fun h => hfull h.2)]
      refine .stopped (Or.inr fun h => hfull ?_) hfresh.done (by rintro c ⟨⟩)
      rw [ho]
      exact (h.1 hlt).2 hlt'
  | @whole c' m hdue hk hdone hoffset hbegin hpos' =>
    have hok : Resumed r n [w] := ⟨fun _ => ⟨hP, fun h => by omega⟩, trivial⟩
    have hrun : turnDone (readedLoop env (fuel + 1) c) =
        if c'.msgbegin < c'.offset then turnDone (readedLoop env fuel c') else [m] := by
      split_ifs with hmore
      · rw [readedLoop, hx]
        dsimp only
        rw [if_pos ⟨by decide, hmore⟩]
      · rw [readedLoop_succ fuel hx (fun h => hmore h.2)]
        exact hdone
    have hdisp : dispatched (match readedLoop env (fuel + 1) c with
        | .error c => .error c
        | .ok (i, c) => c.checkResult i) = turnDone (readedLoop env (fuel + 1) c) := by
      cases readedLoop env (fuel + 1) c with
      | error c => rfl
      | ok p => exact checkResult_done _ _
    refine .handled m hdue hok (by rw [hflat]; exact hk) ?_ fun hall => ?_
    · rw [hdisp, hrun, ← hdone]
      split_ifs
      · exact readedLoop_grows env fuel c'
      · exact List.prefix_refl _
    · rw [hdisp, hrun, if_neg (by omega)]
  | @closed c' hdue hdone =>
    rw [readedLoop_succ fuel hx (fun h => absurd h.1 (by decide))]
    exact .stopped (Or.inl hdue) hdone (by rintro c ⟨⟩; rfl)
  | @failed c' hdue hdone =>
    unfold readedLoop
    rw [hx]
    exact .stopped (Or.inl hdue) hdone (by rintro c ⟨⟩)

/-- **A read.** -/
theorem readed_after (hr : WellFormed r) {n : ℕ} {w : List UInt8} (hc : Ready env c₀ r n c)
    (hw : w ≠ []) (hbytes : w <+: r.bytes.drop n) (hlt : n < r.size)
    (hfit : heldAt r n + w.length ≤ TCPCONNECTION_BUFLEN) :
    After env c₀ r n [w]
      ({ c with buf := store c.buf c.offset w }.httpReadedData env w.length) := by
  have hpos : 0 < w.length := List.length_pos_iff.mpr hw
  obtain ⟨rest, hrest⟩ := hbytes
  have hlen : n + w.length ≤ r.bytes.length := by
    have h := congrArg List.length hrest
    rw [List.length_append, List.length_drop] at h
    omega
  have htake : (r.bytes.drop n).take w.length = w := by rw [← hrest, List.take_left]
  unfold httpReadedData
  cases hc.waits with
  | head hn hroom hscan hmsg hmsgoff hoffset hbuf hmaker =>
    have hheld : heldAt r n = n := if_pos hn
    have hwin : slice (store c.buf c.offset w) 0 (n + w.length) = r.bytes.take (n + w.length) := by
      have h := slice_store_append c.buf 0 n w
      rw [Nat.zero_add] at h
      rw [hoffset, h, hbuf, List.take_add, htake]
    exact after_of_turned rfl (turned_head hr (c := { c with
      buf := store c.buf c.offset w, offset := c.offset + w.length })
      ⟨hc.fresh.1, hc.fresh.2, hc.fresh.3⟩ hc.msgbegin hmsg hmsgoff (by dsimp only; omega)
      (Nat.le_add_right _ _) (by omega) (by omega) hscan hwin hmaker) _ (by omega) (by omega)
      hlt hlen (fun h => by omega) _ rfl
  | body msg hn hlt' hmade hbase hmsg hoffset =>
    have hheld : heldAt r n = 0 := if_neg (by omega)
    have hwin : slice (store c.buf c.offset w) c.msgbegin w.length =
        (r.bytes.drop n).take w.length := by
      rw [htake, hoffset, hc.msgbegin]
      exact slice_store_same _ _ _
    have hfirst : w.head? = some (store c.buf c.offset w c.msgbegin) := by
      obtain ⟨b, l, rfl⟩ := List.exists_cons_of_ne_nil hw
      rw [hoffset, hc.msgbegin]
      rfl
    by_cases hP : w.head? = some 'P'.toUInt8
    · have hturn := turned_addBody hr (c := { c with
        buf := store c.buf c.offset w, offset := c.offset + w.length }) (m := w.length)
        ⟨hc.fresh.1, hc.fresh.2, hc.fresh.3⟩ hmade hbase hn hlt.le
        (by dsimp only; rw [hc.msgbegin, hoffset]) hwin (Or.inr hlt)
      have hb : store c.buf c.offset w c.msgbegin = 'P'.toUInt8 :=
        Option.some.inj (hfirst.symm.trans hP)
      exact after_of_turned (c := { c with
        buf := store c.buf c.offset w, offset := c.offset + w.length }) (turn_post hmsg hb) hturn _
        (by dsimp only; omega) (by dsimp only; omega) hlt hlen (fun _ => hP) _ rfl
    · have hbad : ¬ Resumed r n [w] := fun h => hP ((h.1 hlt).1 hn)
      have hb : store c.buf c.offset w c.msgbegin ≠ 'P'.toUInt8 := fun h => hP (h ▸ hfirst)
      rw [readedLoop]
      rcases turn_other env (c := { c with
        buf := store c.buf c.offset w, offset := c.offset + w.length }) hmsg hb with hx | hx
      · rw [hx]
        exact .stopped (Or.inr hbad) hc.fresh.done (by rintro c ⟨⟩)
      · rw [hx]
        exact .stopped (Or.inr hbad) hc.fresh.done (by rintro c ⟨⟩; rfl)

/-! ### The reads of a call -/

theorem ready_offset {n : ℕ} (h : Ready env c₀ r n c) :
    c.offset = heldAt r n ∧ c.offset < TCPCONNECTION_BUFLEN := by
  unfold heldAt
  cases h.waits with
  | head hn hroom _ _ _ hoffset => exact ⟨by rw [if_pos hn, hoffset], by rw [hoffset]; exact hroom⟩
  | body _ hn _ _ _ _ hoffset =>
    exact ⟨by rw [if_neg (by omega), hoffset], by rw [hoffset]; decide⟩

theorem tcpRead_data {o n : ℕ} {w : List UInt8} (hw : w ≠ []) (hlen : w.length ≤ n) :
    c.tcpRead o n (.data w) = .ok (w.length, { c with buf := store c.buf o w }) := by
  unfold HttpConnection.tcpRead TcpProtocol4.TcpConnection.tcpRead
  dsimp only
  rw [if_neg (not_or.mpr ⟨hw, Nat.not_lt.mpr hlen⟩)]

/-- The bytes of the request that are read behind a first read of `w`. -/
theorem prefix_drop {w : List UInt8} {ws : List (List UInt8)} {n : ℕ}
    (h : (w :: ws).flatten <+: r.bytes.drop n) :
    w <+: r.bytes.drop n ∧ ws.flatten <+: r.bytes.drop (n + w.length) := by
  obtain ⟨rest, h⟩ := h
  rw [List.flatten_cons, List.append_assoc] at h
  refine ⟨⟨_, h⟩, rest, ?_⟩
  rw [← List.drop_drop, ← h, List.drop_left]

theorem length_le_of_flatten {ws : List (List UInt8)} {n : ℕ} (hn : n ≤ r.bytes.length)
    (h : ws.flatten <+: r.bytes.drop n) : n + ws.flatten.length ≤ r.bytes.length := by
  have hl := h.length_le
  rw [List.length_drop] at hl
  omega

theorem eq_nil_of_flatten {ws : List (List UInt8)} (hne : ∀ w ∈ ws, w ≠ [])
    (h : ws.flatten.length = 0) : ws = [] := by
  cases ws with
  | nil => rfl
  | cons w ws =>
    rw [List.flatten_cons, List.length_append] at h
    exact absurd (List.length_eq_zero_iff.mp (by omega)) (hne w List.mem_cons_self)

/-- What goes on behind the reads `ws` matters only where the connection waits for more. -/
theorem after_append {n : ℕ} {ws ws' : List (List UInt8)} {x : Run HttpConnection}
    {f : HttpConnection → Run HttpConnection}
    (hlen : n + (ws ++ ws').flatten.length ≤ r.bytes.length)
    (hgrows : ∀ c, c.done <+: dispatched (f c)) (hclosed : ∀ c, c.socket = false → f c = .ok c)
    (hnil : ws'.flatten.length = 0 → ∀ c, dispatched (f c) = c.done)
    (hnext : ∀ c, n + ws.flatten.length < r.size → Ready env c₀ r (n + ws.flatten.length) c →
      After env c₀ r (n + ws.flatten.length) ws' (f c)) :
    After env c₀ r n ws x → After env c₀ r n (ws ++ ws')
      (match x with
        | .error c => .error c
        | .ok c => f c) := by
  have hflat : n + (ws ++ ws').flatten.length = n + ws.flatten.length + ws'.flatten.length := by
    rw [List.flatten_append, List.length_append, Nat.add_assoc]
  intro h
  cases h with
  | @waits c' hok hlt hready =>
    have hbad : ¬ Resumed r (n + ws.flatten.length) ws' → ¬ Resumed r n (ws ++ ws') :=
      fun h hall => h (resumed_append.mp hall).2
    have hafter := hnext c' hlt hready
    dsimp only
    generalize f c' = y at hafter ⊢
    cases hafter with
    | waits hok' hlt' hready' =>
      exact .waits (resumed_append.mpr ⟨hok, hok'⟩) (by omega) (by rw [hflat]; exact hready')
    | stopped hwhy hdone hclosed' => exact .stopped (hwhy.imp_right hbad) hdone hclosed'
    | handled m hdue hok' hle hdone honly =>
      exact .handled m hdue (resumed_append.mpr ⟨hok, hok'⟩) (by omega) hdone honly
  | stopped hwhy hdone hclosed' =>
    have hwhy' : due env c₀ r = none ∨ ¬ Resumed r n (ws ++ ws') :=
      hwhy.imp_right fun h hall => h (resumed_append.mp hall).1
    cases x with
    | error c' => exact .stopped hwhy' hdone (by rintro c ⟨⟩)
    | ok c' =>
      dsimp only
      rw [hclosed c' (hclosed' c' rfl)]
      exact .stopped hwhy' hdone hclosed'
  | handled m hdue hok hle hdone honly =>
    refine .handled m hdue (resumed_append.mpr ⟨hok, resumed_of_le hle⟩) (by omega) ?_ fun hall => ?_
    · cases x with
      | error c' => exact hdone
      | ok c' => exact hdone.trans (hgrows c')
    · cases x with
      | error c' => exact honly hall
      | ok c' => exact (hnil (by omega) c').trans (honly hall)

theorem size_le (hr : WellFormed r) : r.size ≤ r.bytes.length := by
  have hb := hr.body
  unfold Request.size Request.bytes
  rw [List.length_append]
  omega

/-- The loop of `tcpconnection_recv` after a read of `w`, where `hnext` is what it does behind the call
of `http_readed_data`. -/
theorem recvLoop_after (hr : WellFormed r) {ws : List (List UInt8)} {n : ℕ} {w : List UInt8}
    (hc : Ready env c₀ r n c) (hlt : n < r.size) (hne : ∀ x ∈ w :: ws, x ≠ [])
    (hbytes : (w :: ws).flatten <+: r.bytes.drop n) (hfits : Fits r n (w :: ws))
    (hnext : ∀ c, n + w.length < r.size → Ready env c₀ r (n + w.length) c →
      After env c₀ r (n + w.length) ws (recvNext env (ws.map .data) c)) :
    After env c₀ r n (w :: ws)
      (recvLoop env (ws.map .data) w.length { c with buf := store c.buf c.offset w }) := by
  have hw := hne w List.mem_cons_self
  have hread := readed_after hr hc hw (prefix_drop hbytes).1 hlt (hfits.1 hlt)
  have hcons : w :: ws = [w] ++ ws := rfl
  rw [recvLoop_eq, if_pos ⟨List.length_pos_iff.mpr hw, hc.fresh.socket⟩, hcons]
  refine after_append (length_le_of_flatten (hlt.le.trans (size_le hr)) hbytes)
    (recvNext_grows env _) (fun c hs => ?_) (fun hnil c => ?_) ?_ hread
  · unfold recvNext
    rw [if_neg (by rw [hs]; decide)]
  · rw [eq_nil_of_flatten (fun x hx => hne x (List.mem_cons_of_mem _ hx)) hnil]
    unfold recvNext
    split_ifs <;> rfl
  · rw [List.flatten_singleton]
    exact hnext

theorem recvNext_after (hr : WellFormed r) (ws : List (List UInt8)) (n : ℕ) (c : HttpConnection)
    (hc : Ready env c₀ r n c) (hlt : n < r.size) (hne : ∀ x ∈ ws, x ≠ [])
    (hbytes : ws.flatten <+: r.bytes.drop n) (hfits : Fits r n ws) :
    After env c₀ r n ws (recvNext env (ws.map .data) c) := by
  obtain ⟨ho, hroom⟩ := ready_offset hc
  induction ws generalizing n c with
  | nil =>
    unfold recvNext
    rw [if_pos hc.fresh.socket, if_pos hroom]
    exact .waits trivial hlt hc
  | cons w ws ih =>
    have hfit := hfits.1 hlt
    unfold recvNext
    rw [if_pos hc.fresh.socket, if_pos hroom, List.map_cons]
    dsimp only
    rw [tcpRead_data (hne w List.mem_cons_self) (by omega)]
    refine recvLoop_after hr hc hlt hne hbytes hfits fun c' hlt' hready => ?_
    obtain ⟨ho', hroom'⟩ := ready_offset hready
    exact ih (n + w.length) c' hready hlt' (fun x hx => hne x (List.mem_cons_of_mem _ hx))
      (prefix_drop hbytes).2 hfits.2 ho' hroom'

/-- A call of `tcpconnection_recv` notes that the connection was closed. -/
theorem after_close {n : ℕ} {ws : List (List UInt8)} {x : Run HttpConnection} :
    After env c₀ r n ws x → After env c₀ r n ws
      (match x with
        | .error c => .error c
        | .ok c => .ok (if c.socket = false then c.tcpconnectionClose "receive error" else c)) := by
  have hdisp : dispatched (match x with
      | .error c => .error c
      | .ok c => .ok (if c.socket = false then c.tcpconnectionClose "receive error" else c)) =
      dispatched x := by
    cases x with
    | error c => rfl
    | ok c =>
      dsimp only
      split_ifs <;> rfl
  intro h
  cases h with
  | @waits c hok hlt hready =>
    dsimp only
    rw [if_neg (by rw [hready.fresh.socket]; decide)]
    exact .waits hok hlt hready
  | stopped hwhy hdone hclosed =>
    refine .stopped hwhy (hdisp.trans hdone) fun c' hc' => ?_
    cases x with
    | error c => cases hc'
    | ok c =>
      dsimp only at hc'
      rw [if_pos (hclosed c rfl)] at hc'
      cases hc'
      rfl
  | handled m hdue hok hle hdone honly =>
    exact .handled m hdue hok hle (by rwa [hdisp]) fun hall => hdisp.trans (honly hall)

/-- A call of `tcpconnection_recv` that reads something, not in the middle of a header. -/
theorem recv_after (hr : WellFormed r) (ws : List (List UInt8)) (n : ℕ) (c : HttpConnection)
    {w : List UInt8} (hc : Ready env c₀ r n c) (hlt : n < r.size) (hheld : heldAt r n = 0)
    (hne : ∀ x ∈ w :: ws, x ≠ []) (hbytes : (w :: ws).flatten <+: r.bytes.drop n)
    (hfits : Fits r n (w :: ws)) :
    After env c₀ r n (w :: ws) (c.tcpconnectionRecv env ((w :: ws).map .data)) := by
  have hloop := recvLoop_after hr hc hlt hne hbytes hfits fun c' hlt' hready =>
    recvNext_after hr ws (n + w.length) c' hready hlt'
      (fun x hx => hne x (List.mem_cons_of_mem _ hx)) (prefix_drop hbytes).2 hfits.2
  have hfit := hfits.1 hlt
  have hread := tcpRead_data (c := c) (o := c.offset) (n := TCPCONNECTION_BUFLEN)
    (hne w List.mem_cons_self) (by omega)
  have hfront : c.tcpRead 0 TCPCONNECTION_BUFLEN (.data w) =
      c.tcpRead c.offset TCPCONNECTION_BUFLEN (.data w) := by rw [(ready_offset hc).1, hheld]
  have hp : ¬ c.protocol = false := by rw [hc.fresh.protocol]; decide
  unfold tcpconnectionRecv
  rw [if_neg (by rw [hc.fresh.socket]; decide), List.map_cons, List.headD_cons, hfront, hread,
    List.tail_cons]
  dsimp only
  rw [if_neg (fun h => hp h.1), if_neg hp]
  exact after_close hloop

/-! ### All calls -/

/-- No call that reads something begins in the middle of the header. -/
def CallsBegin (r : Request) : ℕ → List (List (List UInt8)) → Prop
  | _, [] => True
  | n, chs :: calls =>
    (chs ≠ [] → heldAt r n = 0) ∧ CallsBegin r (n + chs.flatten.length) calls

instance decidableCallsBegin (r : Request) :
    ∀ (n : ℕ) (calls : List (List (List UInt8))), Decidable (CallsBegin r n calls)
  | _, [] => inferInstanceAs (Decidable True)
  | n, chs :: calls =>
    have := decidableCallsBegin r (n + chs.flatten.length) calls
    inferInstanceAs (Decidable ((_ → _) ∧ _))

theorem recvAll_after (hr : WellFormed r) (calls : List (List (List UInt8))) (n : ℕ)
    (c : HttpConnection) (hc : Ready env c₀ r n c) (hlt : n < r.size)
    (hne : ∀ chs ∈ calls, ∀ w ∈ chs, w ≠ []) (hbytes : calls.flatten.flatten <+: r.bytes.drop n)
    (hfits : Fits r n calls.flatten) (hbegin : CallsBegin r n calls) :
    After env c₀ r n calls.flatten (c.recvAll env calls) := by
  induction calls generalizing n c with
  | nil => exact .waits trivial hlt hc
  | cons chs calls ih =>
    have hne' : ∀ chs ∈ calls, ∀ w ∈ chs, w ≠ [] := fun x hx => hne x (List.mem_cons_of_mem _ hx)
    cases chs with
    | nil =>
      unfold recvAll
      rw [List.map_nil, recv_fresh env hc.fresh]
      exact ih n c hc hlt hne' hbytes hfits hbegin.2
    | cons w ws =>
      rw [List.flatten_cons] at hbytes hfits ⊢
      obtain ⟨hfits1, hfits2⟩ := fits_append.mp hfits
      have hlen := length_le_of_flatten (hlt.le.trans (size_le hr)) hbytes
      obtain ⟨rest, hrest⟩ := hbytes
      rw [List.flatten_append, List.append_assoc] at hrest
      have hcall := recv_after hr ws n c hc hlt (hbegin.1 (List.cons_ne_nil _ _))
        (hne _ List.mem_cons_self) ⟨_, hrest⟩ hfits1
      refine after_append hlen (recvAll_grows env calls) (fun c hs => recvAll_closed env calls hs)
        (fun hnil c => recvAll_nothing env (fun chs hchs => ?_) c) (fun c' hlt' hready => ?_) hcall
      · refine List.flatten_eq_nil_iff.mp (eq_nil_of_flatten (fun w hw => ?_) hnil) chs hchs
        obtain ⟨l, hl, hw⟩ := List.mem_flatten.mp hw
        exact hne' l hl w hw
      · refine ih _ c' hready hlt' hne' ⟨rest, ?_⟩ hfits2 hbegin.2
        rw [← List.drop_drop, ← hrest, List.drop_left]

/-! ### Fresh connections -/

/-- A connection as `tcpconnection_init` leaves it, or, where the protocol was given to it, as
`tcp_connected` does. -/
structure Start (c : HttpConnection) : Prop where
  socket : c.socket = true
  offset : c.offset = 0
  done : c.done = []
  msg : c.protocol = true → c.msg = none
  msgbegin : c.protocol = true → c.msgbegin = 0
  msgoff : c.protocol = true → c.msgoff = 0

/-- The connection with the protocol that its first read chooses. -/
def connected (c : HttpConnection) : HttpConnection :=
  if c.protocol = false then { c.tcpConnected with protocol := true } else c

variable (env) in
theorem ready_start (hr : WellFormed r) (hc : Start c) :
    Ready env (connected c) r 0 (connected c) ∧ 0 < r.size := by
  obtain ⟨pre, -, hl⟩ := head_eq hr
  refine ⟨?_, by unfold Request.size; omega⟩
  unfold connected
  by_cases hp : c.protocol = false
  · rw [if_pos hp]
    exact ⟨⟨hc.socket, rfl, hc.done⟩, rfl,
      .head (by omega) (by decide) rfl rfl rfl hc.offset rfl rfl⟩
  · have hp' : c.protocol = true := by simpa using hp
    rw [if_neg hp]
    exact ⟨⟨hc.socket, hp', hc.done⟩, hc.msgbegin hp',
      .head (by omega) (by decide) rfl (hc.msg hp') (hc.msgoff hp') hc.offset rfl rfl⟩

/-- The condition on the first read of a connection whose protocol it has to choose. -/
def Chooses (c : HttpConnection) (calls : List (List (List UInt8))) : Prop :=
  c.protocol = false → 4 ≤ ((calls.headD []).headD []).length

instance (c : HttpConnection) (calls : List (List (List UInt8))) : Decidable (Chooses c calls) :=
  inferInstanceAs (Decidable (_ → _))

variable (env) in
/-- A first read of four bytes or more makes the connection one that has the protocol. -/
theorem recvAll_connected (hs : c.socket = true) {calls : List (List (List UInt8))}
    (hchooses : Chooses c calls) (hne : calls ≠ [])
    (hroom : ((calls.headD []).headD []).length ≤ TCPCONNECTION_BUFLEN) :
    c.recvAll env calls = (connected c).recvAll env calls := by
  unfold connected
  by_cases hp : c.protocol = false
  · have hfour := hchooses hp
    obtain ⟨chs, calls, rfl⟩ := List.exists_cons_of_ne_nil hne
    cases chs with
    | nil => exact absurd hfour (Nat.not_le.mpr (Nat.succ_pos 3))
    | cons w ws =>
      have hw : w ≠ [] := by
        rintro rfl
        exact absurd hfour (Nat.not_le.mpr (Nat.succ_pos 3))
      have h1 := tcpRead_data (c := c) (o := 0) hw hroom
      have h2 := tcpRead_data (c := { c.tcpConnected with protocol := true }) (o := 0) hw hroom
      rw [if_pos hp]
      unfold recvAll tcpconnectionRecv
      rw [if_neg (by rw [hs]; decide), if_neg (by rw [show c.tcpConnected.socket = true from hs]; decide),
        List.map_cons, List.headD_cons, h1, h2]
      dsimp only
      rw [if_neg (fun h => absurd h.2 (Nat.not_lt.mpr hfour)), if_pos hp,
        if_neg (fun h => absurd h.1 (by decide)), if_neg (by decide)]
      rfl
  · rw [if_neg hp]

variable (env) in
/-- A shorter first read closes the connection. -/
theorem recvAll_short (hc : Start c) {calls : List (List (List UInt8))}
    (hchooses : ¬ Chooses c calls) : dispatched (c.recvAll env calls) = [] := by
  obtain ⟨hp, hfour⟩ := Classical.not_imp.mp hchooses
  cases calls with
  | nil => exact hc.done
  | cons chs calls =>
    have hread : ∃ r, (chs.map ReadRet.data).headD .again = r ∧
        (c.tcpRead 0 TCPCONNECTION_BUFLEN r = .error c ∨
          ∃ n c', c.tcpRead 0 TCPCONNECTION_BUFLEN r = .ok (n, c') ∧ n < 4 ∧ c'.done = [] ∧
            c'.protocol = false) := by
      cases chs with
      | nil => exact ⟨_, rfl, Or.inr ⟨0, c, rfl, by decide, hc.done, hp⟩⟩
      | cons w ws =>
        refine ⟨.data w, rfl, ?_⟩
        unfold HttpConnection.tcpRead TcpProtocol4.TcpConnection.tcpRead
        dsimp only
        split_ifs
        · exact Or.inl rfl
        · exact Or.inr ⟨_, _, rfl, Nat.not_le.mp hfour, hc.done, hp⟩
    obtain ⟨r, hr, hread⟩ := hread
    unfold recvAll tcpconnectionRecv
    rw [if_neg (by rw [hc.socket]; decide), hr]
    rcases hread with h | ⟨n, c', h, hn, hd, hp'⟩
    · rw [h]
      exact hc.done
    · rw [h]
      dsimp only
      rw [if_pos ⟨hp', hn⟩]
      dsimp only
      rw [recvAll_closed env calls rfl]
      exact hd

/-- The handlers have been called with the message that is due for the request, and, where nothing
comes behind the request, with no other. -/
def Dispatches (env : Env) (c : HttpConnection) (r : Request) (x : Run HttpConnection) : Prop :=
  (dispatched x).head? = due env c r ∧
    (r.bytes.length = r.size → dispatched x = (due env c r).toList)

theorem dispatches_of_after (hr : WellFormed r) {ws : List (List UInt8)} {x : Run HttpConnection}
    (hws : ws.flatten = r.bytes) (h : After env c₀ r 0 ws x) :
    Dispatches env c₀ r x ↔ due env c₀ r = none ∨ Resumed r 0 ws := by
  have hsize := size_le hr
  unfold Dispatches
  cases h with
  | waits hok hlt hready =>
    rw [hws] at hlt
    omega
  | stopped hwhy hdone hclosed =>
    rw [hdone]
    constructor
    · rintro ⟨h, -⟩
      exact Or.inl h.symm
    · intro h
      have hnone : due env c₀ r = none := by
        rcases h with h | h
        · exact h
        · exact hwhy.resolve_right (not_not.mpr h)
      rw [hnone]
      exact ⟨rfl, fun _ => rfl⟩
  | handled m hdue hok hle hdone honly =>
    obtain ⟨t, ht⟩ := hdone
    refine ⟨fun _ => Or.inr hok, fun _ => ⟨?_, fun hall => ?_⟩⟩
    · rw [hdue, ← ht]
      rfl
    · rw [hdue, honly hall.le]
      rfl

/-- The first read has room. -/
theorem first_fits {calls : List (List (List UInt8))} (hpos : 0 < r.size)
    (hfits : Fits r 0 calls.flatten) :
    ((calls.headD []).headD []).length ≤ TCPCONNECTION_BUFLEN := by
  cases calls with
  | nil => exact Nat.zero_le _
  | cons chs calls =>
    cases chs with
    | nil => exact Nat.zero_le _
    | cons w ws =>
      have h := hfits.1 hpos
      exact (Nat.le_add_left _ _).trans h

variable (env) in
theorem dispatches_iff (hr : WellFormed r) (hc : Start c) (calls : List (List (List UInt8)))
    (hne : ∀ chs ∈ calls, ∀ w ∈ chs, w ≠ []) (hbytes : calls.flatten.flatten = r.bytes)
    (hfits : Fits r 0 calls.flatten) (hbegin : CallsBegin r 0 calls) :
    Dispatches env (connected c) r (c.recvAll env calls) ↔
      due env (connected c) r = none ∨ Chooses c calls ∧ Resumed r 0 calls.flatten := by
  obtain ⟨hready, hpos⟩ := ready_start env hr hc
  by_cases hchooses : Chooses c calls
  · have hcalls : calls ≠ [] := by
      rintro rfl
      have h := size_le hr
      rw [← hbytes] at h
      exact absurd hpos (Nat.not_lt.mpr h)
    rw [recvAll_connected env hc.socket hchooses hcalls (first_fits hpos hfits)]
    have hprefix : calls.flatten.flatten <+: r.bytes.drop 0 :=
      ⟨[], by rw [List.append_nil, List.drop_zero, hbytes]⟩
    have hafter := recvAll_after hr calls 0 (connected c) hready hpos hne hprefix hfits hbegin
    rw [dispatches_of_after hr hbytes hafter]
    exact or_congr_right (and_iff_right hchooses).symm
  · have hd := recvAll_short env hc hchooses
    unfold Dispatches
    rw [hd]
    constructor
    · rintro ⟨h, -⟩
      exact Or.inl h.symm
    · rintro (h | h)
      · rw [h]
        exact ⟨rfl, fun _ => rfl⟩
      · exact absurd h.1 hchooses

variable (env) in
/-- **When a request can come in pieces.** On a fresh connection, and for every well-formed request cut
into reads in any way such that no call of `tcpconnection_recv` begins in the middle of its header: the
handlers are called with the message due for it if and only if there is none, or the first read brings
the four bytes that choose the protocol, every read that goes on with the body begins with the byte
`P`, and no read before the last one fills the buffer. A request that fits into one read always gets
its message when it comes in one. -/
theorem http_chunks (hr : WellFormed r) (hc : Start c) (calls : List (List (List UInt8)))
    (hne : ∀ chs ∈ calls, ∀ w ∈ chs, w ≠ []) (hbytes : calls.flatten.flatten = r.bytes)
    (hfits : Fits r 0 calls.flatten) (hbegin : CallsBegin r 0 calls) :
    (Dispatches env (connected c) r (c.recvAll env calls) ↔
      due env (connected c) r = none ∨ Chooses c calls ∧ Resumed r 0 calls.flatten) ∧
    (r.bytes.length ≤ TCPCONNECTION_BUFLEN →
      Dispatches env (connected c) r (c.recvAll env [[r.bytes]])) := by
  refine ⟨dispatches_iff env hr hc calls hne hbytes hfits hbegin, fun hroom => ?_⟩
  obtain ⟨pre, -, hl⟩ := head_eq hr
  have hlen : 4 ≤ r.bytes.length := by
    unfold Request.bytes
    rw [List.length_append]
    omega
  have hsize := size_le hr
  have hheld : heldAt r 0 = 0 := if_pos (by omega)
  refine (dispatches_iff env hr hc [[r.bytes]] ?_ ?_ ?_ ?_).mpr (Or.inr ⟨fun _ => hlen, ?_, trivial⟩)
  · intro chs hchs w hw
    rw [List.mem_singleton.mp hchs, List.mem_singleton] at hw
    rw [hw]
    exact List.ne_nil_of_length_pos (by omega)
  · rw [List.flatten_singleton, List.flatten_singleton]
  · exact ⟨fun _ => by rw [hheld]; omega, trivial⟩
  · exact ⟨fun _ => hheld, trivial⟩
  · exact fun _ => ⟨fun h => by omega, fun h => by omega⟩

/-! ### A login -/

def bytesOf (s : String) : List UInt8 := s.toList.map Char.toUInt8

/-- The table of a login, with a name of 3 to 33 characters. -/
def loginTable : Env where
  tables := fun key1 key2 =>
    if key1 = bytesOf "user" ∧ key2 = bytesOf "login" then some ⟨7, [⟨bytesOf "name", 3, 33, 0⟩]⟩
    else none
  malloc := fun _ _ => 0
  addr := fun _ => 4096

def login : Request where
  head := bytesOf "POST /user/login HTTP/1.1\r\nContent-Length: 8\r\n\r\n"
  body := bytesOf "name=bob"

def accepted : HttpConnection := { buf := fun _ => 0 }

theorem start_accepted : Start accepted :=
  ⟨rfl, rfl, rfl, fun _ => rfl, fun _ => rfl, fun _ => rfl⟩

theorem wellFormed_login : WellFormed login :=
  wellFormed_of_checks login (by decide +kernel) (by decide +kernel) (by decide +kernel)
    (by decide +kernel) (by decide +kernel)

/-- A login whose header comes in two reads, the second one with the body. -/
theorem http_chunks_login :
    (due loginTable (connected accepted) login).isSome = true ∧
    Dispatches loginTable (connected accepted) login (accepted.recvAll loginTable
      [[login.head.take 20, login.head.drop 20 ++ login.body]]) :=
  ⟨by decide +kernel, (http_chunks loginTable wellFormed_login start_accepted
    [[login.head.take 20, login.head.drop 20 ++ login.body]] (by decide +kernel)
    (by decide +kernel) (by decide +kernel) (by decide +kernel)).1.mpr (Or.inr (by decide +kernel))⟩

/-- A login whose body comes in a read of its own, which begins with the byte `n`: the connection is
closed, and no handler is called. -/
theorem login_torn :
    WellFormed login ∧ Start accepted ∧ [login.head, login.body].flatten = login.bytes ∧
    (dispatched (accepted.recvAll loginTable [[login.bytes]])).length = 1 ∧
    (dispatched (accepted.recvAll loginTable [[login.head, login.body]])).length = 0 :=
  ⟨wellFormed_login, start_accepted, by decide +kernel, by decide +kernel, by decide +kernel⟩

end ChatShow.Antlib.HttpChunks
