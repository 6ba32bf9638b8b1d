import ChatShow.CommBase.DispatchMessage
import ChatShow.Lib.Tokens

/-! # The completion of a request

A registered request is completed by a reply with its token or by the timeout sweep, and both take its
entry out of `m_timeOut`. The tokens make up a ledger: registered tokens are pending in `m_timeOut`,
those the sweep has taken leave through `tTimeOut`, and a call of `Handle_Ack` completes one
(`step_moves`). So where no handler throws, `Ack_Handler`s are there, replies carry the id of their
request and there are fewer than 2 ^ 31 requests, every request is completed exactly once
(`request_completed_once`). -/

namespace ChatShow.CommBase.RequestAck

open ChatShow.CommBase.NetWorkConfig ChatShow.CommBase.MessageManager
open ChatShow.CommBase.DispatchMessage ChatShow.CommBase.DispatchMessage.System
open ChatShow.Lib.Maps ChatShow.Lib.Runs ChatShow.Lib.Tokens Std

/-! ### The ledger -/

/-- The tokens that `Handle_Ack` has been called for. -/
def acked (calls : List (Int32 × Call)) : List Int32 :=
  (calls.filter fun e => e.2.isAck).map Prod.fst

theorem acked_append (l l' : List (Int32 × Call)) : acked (l ++ l') = acked l ++ acked l' := by
  rw [acked, List.filter_append, List.map_append]
  rfl

theorem acked_of_not_ack {call : Option Call} (k : Int32) (h : ∀ c ∈ call, c.isAck = false) :
    acked (call.toList.map (k, ·)) = [] := by
  rcases call with _ | c
  · rfl
  · have hc : c.isAck = false := h c rfl
    simp [acked, hc]

def tokens (l : List AckItem) : List Int32 := l.map AckItem.token

/-- What the dispatcher keeps about tokens. -/
def ledger (s : System) : Ledger Int32 where
  issued := tokens s.registered
  pending k := (s.timeOut[k]?).isSome
  leaving := s.loop.leaving
  done := acked s.calls

theorem pending_eq_false {s : System} {k : Int32} :
    (ledger s).pending k = false ↔ s.timeOut[k]? = none := by
  dsimp only [ledger]
  rw [Option.isSome_eq_false_iff, Option.isNone_iff_eq_none]

/-! ### Conditions and invariants -/

/-- A request that is registered has an `Ack_Handler`, and a reply carries the id of its request. -/
def Answered (env : Env) (s : System) : Label → Prop
  | .addAckTimeOut t _ => ∀ m, s.adders t = .queued m →
      (env.handlers.getAckHandler env.local_type_ (s.heap m).messageID).isSome
  | .dispatch _ => ∀ message rest (item : AckItem), s.loop = .messages (message :: rest) →
      message.1.messageType = Ack → s.timeOut[message.1.reqID]? = some item →
      message.1.messageID = (s.heap item.req).messageID
  | _ => True

/-- The tokens given out are 1, 2, 3 and so on. -/
structure Numbered (s : System) : Prop where
  token : s.token = Int32.ofNat (s.registered.length + 1)
  tokens : tokens s.registered =
    (List.range s.registered.length).map fun i => Int32.ofNat (i + 1)

/-- The message answers the request of `item`: it tells of the timeout, or it is a reply of the kind
`R` with the token. -/
def Answers (R : Message → Prop) (item : AckItem) (ack : Message) : Prop :=
  ack.req = some item.req ∧ (ack.errno = NetWorkRet.eReqTimeOut.code ∨
    ∃ reply, R reply ∧ reply.messageType = Ack ∧ reply.reqID = item.token ∧
      ack = { reply with req := some item.req })

/-- Registered requests have an `Ack_Handler`. -/
def Handled (env : Env) (s : System) : Prop := ∀ item ∈ s.registered,
  (env.handlers.getAckHandler env.local_type_ (s.heap item.req).messageID).isSome

/-- Entries and messages belong to registered requests; the messages received are of the kind `R`. -/
structure Tracked (R : Message → Prop) (s : System) : Prop where
  entry : ∀ (k : Int32) (item : AckItem), s.timeOut[k]? = some item →
    item.token = k ∧ item ∈ s.registered
  leaving : ∀ now rest, s.loop = .timeouts now rest → ∀ e ∈ rest, e.2.messageType = Ack ∧
    e.2.errno = NetWorkRet.eReqTimeOut.code ∧ ∃ item ∈ s.registered, item.token = e.1 ∧
      e.2.req = some item.req ∧ e.2.messageID = (s.heap item.req).messageID
  received : ∀ message ∈ s.deque, R message.1
  taken : ∀ rest, s.loop = .messages rest → ∀ message ∈ rest, R message.1
  calls : ∀ k handler ack, (k, .handle_Ack handler ack) ∈ s.calls →
    ∃ item ∈ s.registered, item.token = k ∧ Answers R item ack

/-! ### Tokens -/

theorem getToken_ofNat {n : ℕ} (h : n < 2147483648) :
    getToken (Int32.ofNat n) = (Int32.ofNat n, Int32.ofNat (n + 1)) := by
  have hn : ¬ Int32.ofNat n < 0 := by
    rw [Int32.lt_iff_toInt_lt, Int32.toInt_ofNat_of_lt h]
    exact Int.not_lt.mpr (Int.natCast_nonneg n)
  rw [getToken, if_neg hn, Int32.ofNat_add]
  rfl

theorem ofNat_inj {m n : ℕ} (hm : m < 2147483648) (hn : n < 2147483648)
    (h : Int32.ofNat m = Int32.ofNat n) : m = n := by
  have h' := congrArg Int32.toInt h
  rw [Int32.toInt_ofNat_of_lt hm, Int32.toInt_ofNat_of_lt hn] at h'
  exact Int.ofNat_inj.mp h'

/-- The token given out next. -/
theorem Numbered.getToken {s : System} (hs : Numbered s) (hn : s.registered.length + 1 < 2147483648) :
    getToken s.token = (Int32.ofNat (s.registered.length + 1),
      Int32.ofNat (s.registered.length + 1 + 1)) := by
  rw [hs.token, getToken_ofNat hn]

/-- It has not been given out before. -/
theorem Numbered.fresh {s : System} (hs : Numbered s) (hn : s.registered.length + 1 < 2147483648) :
    (DispatchMessage.getToken s.token).1 ∉ RequestAck.tokens s.registered := by
  rw [hs.getToken hn, hs.tokens]
  intro h
  obtain ⟨i, hi, he⟩ := List.mem_map.mp h
  have hlt := List.mem_range.mp hi
  have := ofNat_inj (by omega) hn he
  omega

theorem tokens_append (l l' : List AckItem) : tokens (l ++ l') = tokens l ++ tokens l' :=
  List.map_append

variable {env : Env} {R : Message → Prop}

theorem registered_le {s s' : System} {a : Label} (h : step env s a = some s') :
    s.registered.length ≤ s'.registered.length := by
  cases step_taken h with
  | registered t now message ht r hr =>
    dsimp only
    rw [List.length_append]
    exact Nat.le_add_right _ _
  | _ => exact le_rfl

theorem numbered_step {s s' : System} {a : Label} (hs : Numbered s)
    (hn : s'.registered.length < 2147483648) (h : step env s a = some s') : Numbered s' := by
  cases step_taken h with
  | registered t now message ht r hr =>
    subst hr
    rw [List.length_append, List.length_singleton] at hn
    have ht := hs.getToken hn
    constructor
    · rw [List.length_append, List.length_singleton]
      exact congrArg Prod.snd ht
    · rw [tokens_append, hs.tokens, List.length_append, List.length_singleton, List.range_succ,
        List.map_append]
      exact congrArg (_ ++ [·]) (congrArg Prod.fst ht)
  | timeout throws now k message rest hl r hr =>
    subst hr
    obtain ⟨t, ht⟩ := DispatchBase.dispatch_frame env s.toDispatchBase message
    rw [ht]
    exact ⟨hs.token, hs.tokens⟩
  | message throws message rest hl r hr =>
    subst hr
    obtain ⟨t, ht⟩ := DispatchBase.dispatch_frame env s.toDispatchBase message.1
    rw [ht]
    exact ⟨hs.token, hs.tokens⟩
  | swept bnow hl hb r hr =>
    subst hr
    exact ⟨hs.token, hs.tokens⟩
  | pushed | setReqID | take | sent | noSession | session | channelSent | getHead | write | closed
  | timedOut | takeMessages | dispatched | addMessage | network => exact ⟨hs.token, hs.tokens⟩

/-! ### The moves of the ledger -/

theorem moves_of_eq {s s' : System} (h : ledger s' = ledger s) : (ledger s).Moves (ledger s') := by
  rw [h]
  exact .stay

/-- A message for an `Ack_Handler` that is there leads to its call. -/
theorem callAck_eq (env : Env) (message : Message)
    (h : (env.handlers.getAckHandler env.local_type_ message.messageID).isSome) :
    ∃ handler, DispatchBase.callAck env message = some (.handle_Ack handler message) := by
  obtain ⟨handler, hh⟩ := Option.isSome_iff_exists.mp h
  refine ⟨handler, ?_⟩
  rw [DispatchBase.callAck, hh]
  rfl

/-- The tokens that the sweep takes out of `m_timeOut`, in its order. -/
theorem takeTimeOut_tokens (d : DispatchBase) (block : ℕ → UInt8) (heap : ℕ → Message) (now : ℕ) :
    (d.takeTimeOut block heap now).1.map Prod.fst =
      keysOf d.timeOut fun item => item.time ≤ now := by
  dsimp only [DispatchBase.takeTimeOut]
  rw [List.map_map]
  rfl

/-- A request is registered under the next token. -/
theorem ledger_registered (s : System) (t message now : ℕ) :
    ledger { s with
      toDispatchBase := (s.toDispatchBase.addAckTimeOut message (s.heap message).timeout now).2
      adders := Function.update s.adders t (.registered message
        (s.toDispatchBase.addAckTimeOut message (s.heap message).timeout now).1.token)
      registered := s.registered ++
        [(s.toDispatchBase.addAckTimeOut message (s.heap message).timeout now).1] } =
      (ledger s).issue (getToken s.token).1 := by
  refine Ledger.ext (tokens_append _ _) (funext fun k => ?_) rfl rfl
  rw [Ledger.pending_issue]
  dsimp only [ledger, DispatchBase.addAckTimeOut]
  rw [get_insert]
  split_ifs
  · rfl
  · rfl

/-- The sweep takes out the entries whose time has come. -/
theorem ledger_swept (s : System) (block : ℕ → UInt8) (now : ℕ) :
    ledger { s with
      toDispatchBase := (s.toDispatchBase.takeTimeOut block s.heap now).2
      loop := .timeouts now (s.toDispatchBase.takeTimeOut block s.heap now).1 } =
      (ledger s).expire (keysOf s.timeOut fun item => item.time ≤ now) := by
  refine Ledger.ext rfl (funext fun k => ?_) (takeTimeOut_tokens _ _ _ _) rfl
  dsimp only [ledger, DispatchBase.takeTimeOut, Ledger.expire]
  rw [get_eraseAll]
  split_ifs
  · rfl
  · rfl

/-- An `Ack` takes out its entry, and its handler is called. -/
theorem ledger_acked {s : System} (hl : (ledger s).leaving = []) (k : Int32) (handler : ℕ)
    (message : Message) (rest : List Received) :
    ledger { s with
      timeOut := s.timeOut.erase k
      calls := s.calls ++ (some (Call.handle_Ack handler message)).toList.map (k, ·)
      loop := .messages rest } = (ledger s).take k := by
  refine Ledger.ext rfl (funext fun k' => ?_) hl.symm (acked_append _ _)
  rw [Ledger.pending_take]
  dsimp only [ledger]
  rw [get_erase]
  split_ifs
  · rfl
  · rfl

/-- **Every step is a move of the ledger.** -/
theorem step_moves {s s' : System} {a : Label} (hs : Tracked R s) (hh : Handled env s)
    (hd : Numbered s)
    (hn : s'.registered.length < 2147483648) (hg : Answered env s a) (ha : a ≠ .dispatch true)
    (h : step env s a = some s') :
    (ledger s).Moves (ledger s') := by
  cases step_taken h with
  | registered t now message ht r hr =>
    subst hr
    rw [List.length_append, List.length_singleton] at hn
    rw [ledger_registered]
    exact .issue _ (hd.fresh hn)
  | swept bnow hl hb r hr =>
    subst hr
    rw [ledger_swept]
    refine .expire _ (congrArg Loop.leaving hl) (nodup_keysOf _ _) fun k hk => ?_
    obtain ⟨item, hi, -⟩ := mem_keysOf.mp hk
    exact Option.isSome_iff_exists.mpr ⟨item, hi⟩
  | timeout throws now k message rest hl r hr =>
    subst hr
    obtain ⟨hack, herr, item, hmem, -, -, hid⟩ := hs.leaving now _ hl (k, message) List.mem_cons_self
    have hd : s.toDispatchBase.dispatch env message = _ :=
      DispatchBase.dispatch_of_timeout hack herr
    obtain ⟨handler, hc⟩ := callAck_eq env message (hid ▸ hh item hmem)
    have hf : ¬ (throws = true ∧ (DispatchBase.callAck env message).isSome) := by
      rintro ⟨rfl, -⟩
      exact ha rfl
    rw [hd, if_neg hf, hc]
    have he : ledger { s with
        calls := s.calls ++ (some (Call.handle_Ack handler message)).toList.map (k, ·)
        loop := .timeouts now rest } =
        { ledger s with leaving := rest.map Prod.fst, done := acked s.calls ++ [k] } :=
      Ledger.ext rfl rfl rfl (acked_append _ _)
    rw [he]
    exact .leave k _ (congrArg Loop.leaving hl)
  | message throws message rest hl r hr =>
    subst hr
    have hf : ∀ r : Option Call × DispatchBase,
        ¬ (throws = true ∧ r.1.isSome ∧ ¬ env.single = true) := by
      rintro r ⟨rfl, -⟩
      exact ha rfl
    rw [if_neg (hf _)]
    have herr := errno_received message
    have hleave : (ledger s).leaving = [] := congrArg Loop.leaving hl
    rcases DispatchBase.dispatch_eq env s.toDispatchBase message.1 with
      ⟨item, hack, -, hi, hd⟩ | ⟨-, he, -⟩ | ⟨hd, hc⟩
    · have hid := hg message rest item hl hack hi
      obtain ⟨-, hmem⟩ := hs.entry _ item hi
      obtain ⟨handler, hc⟩ := callAck_eq env { message.1 with req := some item.req }
        (hid ▸ hh item hmem)
      rw [hd, hc]
      refine Eq.subst (ledger_acked hleave message.1.reqID handler _ rest).symm ?_
      exact .take _ (Option.isSome_iff_exists.mpr ⟨item, hi⟩)
    · exact absurd he herr
    · rw [hd]
      refine moves_of_eq (Ledger.ext rfl rfl hleave.symm ?_)
      dsimp only [ledger]
      rw [acked_append, acked_of_not_ack _ hc, List.append_nil]
  | closed bnow hl =>
    refine moves_of_eq (Ledger.ext rfl rfl ?_ rfl)
    exact (congrArg Loop.leaving hl).symm
  | timedOut now hl =>
    refine moves_of_eq (Ledger.ext rfl rfl ?_ rfl)
    exact (congrArg Loop.leaving hl).symm
  | takeMessages hl =>
    refine moves_of_eq (Ledger.ext rfl rfl ?_ rfl)
    exact (congrArg Loop.leaving hl).symm
  | dispatched hl =>
    refine moves_of_eq (Ledger.ext rfl rfl ?_ rfl)
    exact (congrArg Loop.leaving hl).symm
  | pushed | setReqID | take | sent | noSession | session | channelSent | getHead | write
  | addMessage | network => exact .stay

/-! ### Entries, messages and calls -/

/-- Only parts of the system change that nothing is said of here. -/
theorem Tracked.frame {s s' : System} (hs : Tracked R s) (ht : s'.timeOut = s.timeOut)
    (hr : s'.registered = s.registered)
    (hh : ∀ m, (s'.heap m).messageID = (s.heap m).messageID) (hl : s'.loop = s.loop)
    (hd : s'.deque = s.deque) (hc : s'.calls = s.calls) : Tracked R s' := by
  constructor
  · rw [ht, hr]
    exact hs.entry
  · rw [hl, hr]
    intro now rest hrest e he
    simp only [hh]
    exact hs.leaving now rest hrest e he
  · rw [hd]
    exact hs.received
  · rw [hl]
    exact hs.taken
  · rw [hc, hr]
    exact hs.calls

theorem messageID_update {heap : ℕ → Message} {m : ℕ} {message : Message}
    (h : message.messageID = (heap m).messageID) (m' : ℕ) :
    (Function.update heap m message m').messageID = (heap m').messageID := by
  by_cases hm : m' = m
  · rw [hm, Function.update_self, h]
  · rw [Function.update_of_ne hm]

theorem Tracked.addAckTimeOut {s : System} (hs : Tracked R s) {t now message : ℕ}
    {r : AckItem × DispatchBase}
    (hr : s.toDispatchBase.addAckTimeOut message (s.heap message).timeout now = r) :
    Tracked R { s with
      toDispatchBase := r.2
      adders := Function.update s.adders t (.registered message r.1.token)
      registered := s.registered ++ [r.1] } := by
  subst hr
  constructor
  · intro k item hi
    dsimp only [DispatchBase.addAckTimeOut] at hi ⊢
    rw [get_insert] at hi
    split_ifs at hi with hk
    · cases hi
      exact ⟨hk, List.mem_append_right _ (List.mem_singleton_self _)⟩
    · obtain ⟨hik, him⟩ := hs.entry k item hi
      exact ⟨hik, List.mem_append_left _ him⟩
  · intro now' rest hrest e he
    obtain ⟨hack, herr, item, hi, hrest⟩ := hs.leaving now' rest hrest e he
    exact ⟨hack, herr, item, List.mem_append_left _ hi, hrest⟩
  · exact hs.received
  · exact hs.taken
  · intro k handler ack hc
    obtain ⟨item, hi, hrest⟩ := hs.calls k handler ack hc
    exact ⟨item, List.mem_append_left _ hi, hrest⟩

/-- The messages of the sweep tell the timeouts of the entries taken. -/
theorem Tracked.takeTimeOut {s : System} (hs : Tracked R s) {now : ℕ} {loop : Loop}
    (hl : loop = .timeouts now (s.toDispatchBase.takeTimeOut env.block s.heap now).1) :
    Tracked R { s with
      toDispatchBase := (s.toDispatchBase.takeTimeOut env.block s.heap now).2
      loop := loop } := by
  subst hl
  constructor
  · intro k item hi
    dsimp only [DispatchBase.takeTimeOut] at hi
    rw [get_eraseAll] at hi
    split_ifs at hi
    exact hs.entry k item hi
  · intro now' rest hrest e he
    cases hrest
    obtain ⟨⟨k, item⟩, hi, rfl⟩ := List.mem_map.mp he
    obtain ⟨hik, him⟩ := hs.entry k item
      (TreeMap.mem_toList_iff_getElem?_eq_some.mp (List.mem_filter.mp hi).1)
    exact ⟨rfl, rfl, item, him, hik, rfl, rfl⟩
  · exact hs.received
  · intro rest hrest
    cases hrest
  · exact hs.calls

/-- A message of `tTimeOut` is dispatched. -/
theorem Tracked.timeout {s : System} (hs : Tracked R s) {now : ℕ} {k : Int32}
    {message : Message} {rest : List (Int32 × Message)} {loop : Loop}
    (hl : s.loop = .timeouts now ((k, message) :: rest)) {r : Option Call × DispatchBase}
    (hr : s.toDispatchBase.dispatch env message = r)
    (hloop : loop = .idle ∨ loop = .timeouts now rest) :
    Tracked R { s with
      toDispatchBase := r.2
      calls := s.calls ++ r.1.toList.map (k, ·)
      loop := loop } := by
  obtain ⟨hack, herr, item, hi, hik, hreq, hid⟩ := hs.leaving now _ hl (k, message) List.mem_cons_self
  rw [DispatchBase.dispatch_of_timeout hack herr] at hr
  subst hr
  constructor
  · exact hs.entry
  · intro now' rest' hrest e he
    rcases hloop with rfl | rfl
    · cases hrest
    · cases hrest
      exact hs.leaving now _ hl e (List.mem_cons_of_mem _ he)
  · exact hs.received
  · intro rest' hrest
    rcases hloop with rfl | rfl <;> cases hrest
  · intro k' handler ack hc
    rcases List.mem_append.mp hc with hc | hc
    · exact hs.calls k' handler ack hc
    · obtain ⟨call, hcall, he⟩ := List.mem_map.mp hc
      cases he
      obtain ⟨handler', -, he⟩ := Option.map_eq_some_iff.mp (Option.mem_toList.mp hcall)
      cases he
      exact ⟨item, hi, hik, hreq, Or.inl herr⟩

/-- A message received is dispatched. -/
theorem Tracked.message {s : System} (hs : Tracked R s) {message : Received}
    {rest : List Received} {loop : Loop} (hl : s.loop = .messages (message :: rest))
    {r : Option Call × DispatchBase} (hr : s.toDispatchBase.dispatch env message.1 = r)
    (hloop : loop = .idle ∨ loop = .messages rest) :
    Tracked R { s with
      toDispatchBase := r.2
      calls := s.calls ++ r.1.toList.map (message.1.reqID, ·)
      loop := loop } := by
  have hRm : R message.1 := hs.taken _ hl message List.mem_cons_self
  have herr := errno_received message
  have hleaving : ∀ now rest', loop ≠ .timeouts now rest' := by
    rcases hloop with rfl | rfl <;> intro now rest' <;> exact Loop.noConfusion
  have htaken : ∀ rest', loop = .messages rest' → ∀ m ∈ rest', R m.1 := by
    intro rest' hrest m hm
    rcases hloop with rfl | rfl
    · cases hrest
    · cases hrest
      exact hs.taken _ hl m (List.mem_cons_of_mem _ hm)
  subst hr
  rcases DispatchBase.dispatch_eq env s.toDispatchBase message.1 with
    ⟨item, hack, -, hi, hd⟩ | ⟨-, he, -⟩ | ⟨hd, hc⟩
  · obtain ⟨hik, him⟩ := hs.entry _ item hi
    rw [hd]
    refine ⟨?_, fun now rest' h => absurd h (hleaving now rest'), hs.received, htaken,
      ?_⟩
    · intro k item' hi'
      dsimp only at hi'
      rw [get_erase] at hi'
      split_ifs at hi'
      exact hs.entry k item' hi'
    · intro k handler ack hc
      rcases List.mem_append.mp hc with hc | hc
      · exact hs.calls k handler ack hc
      · obtain ⟨call, hcall, he⟩ := List.mem_map.mp hc
        cases he
        obtain ⟨handler', -, he⟩ := Option.map_eq_some_iff.mp (Option.mem_toList.mp hcall)
        cases he
        exact ⟨item, him, hik, rfl, Or.inr ⟨message.1, hRm, hack, hik.symm, rfl⟩⟩
  · exact absurd he herr
  · rw [hd]
    refine ⟨hs.entry, fun now rest' h => absurd h (hleaving now rest'), hs.received,
      htaken, ?_⟩
    intro k handler ack hc'
    rcases List.mem_append.mp hc' with hc' | hc'
    · exact hs.calls k handler ack hc'
    · obtain ⟨call, hcall, he⟩ := List.mem_map.mp hc'
      cases he
      exact absurd (hc _ (Option.mem_toList.mp hcall)) (by simp [Call.isAck])

theorem tracked_step {s s' : System} {a : Label} (hs : Tracked R s)
    (hR : ∀ vec, a = .addMessage vec → ∀ message ∈ vec, R message.1)
    (h : step env s a = some s') : Tracked R s' := by
  cases step_taken h with
  | registered t now message ht r hr => exact hs.addAckTimeOut hr
  | setReqID t message token ht =>
    exact hs.frame rfl rfl (messageID_update rfl) rfl rfl rfl
  | getHead se message messages channels m' ht hm' =>
    exact hs.frame rfl rfl (messageID_update (Session.prepare_encrypt hm').2.2) rfl rfl rfl
  | swept bnow hl hb r hr =>
    subst hr
    exact hs.takeTimeOut rfl
  | timeout throws now k message rest hl r hr =>
    refine hs.timeout hl hr ?_
    split_ifs
    · exact Or.inl rfl
    · exact Or.inr rfl
  | message throws message rest hl r hr =>
    refine hs.message hl hr ?_
    split_ifs
    · exact Or.inl rfl
    · exact Or.inr rfl
  | closed bnow hl =>
    exact ⟨hs.entry, nofun, hs.received, nofun, hs.calls⟩
  | timedOut now hl =>
    exact ⟨hs.entry, nofun, hs.received, nofun, hs.calls⟩
  | takeMessages hl =>
    refine ⟨hs.entry, nofun, fun _ h => absurd h List.not_mem_nil, ?_, hs.calls⟩
    intro rest hrest
    cases hrest
    exact hs.received
  | dispatched hl =>
    exact ⟨hs.entry, nofun, hs.received, nofun, hs.calls⟩
  | addMessage vec =>
    refine ⟨hs.entry, hs.leaving, ?_, hs.taken, hs.calls⟩
    intro message hm
    rcases List.mem_append.mp hm with hm | hm
    · exact hs.received message hm
    · exact hR vec rfl message hm
  | pushed | take | sent | noSession | session | channelSent | write | network =>
    exact hs.frame rfl rfl (fun _ => rfl) rfl rfl rfl

/-! ### Runs -/

theorem handled_step {s s' : System} {a : Label} (hs : Handled env s) (hg : Answered env s a)
    (h : step env s a = some s') : Handled env s' := by
  have of_heap : ∀ heap : ℕ → Message, (∀ m, (heap m).messageID = (s.heap m).messageID) →
      ∀ item ∈ s.registered,
        (env.handlers.getAckHandler env.local_type_ (heap item.req).messageID).isSome := by
    intro heap hh item hi
    rw [hh]
    exact hs item hi
  cases step_taken h with
  | registered t now message ht r hr =>
    subst hr
    intro item hi
    rcases List.mem_append.mp hi with hi | hi
    · exact hs item hi
    · cases List.mem_singleton.mp hi
      exact hg message ht
  | setReqID t message token ht => exact of_heap _ (messageID_update rfl)
  | getHead se message messages channels m' ht hm' =>
    exact of_heap _ (messageID_update (Session.prepare_encrypt hm').2.2)
  | _ => exact hs

/-- What holds as long as tokens are not reused. -/
structure Inv (env : Env) (R : Message → Prop) (s : System) : Prop where
  numbered : Numbered s
  tracked : Tracked R s
  handled : Handled env s
  balanced : (ledger s).Balanced

/-- A label that hands over only messages of the kind `R`, and whose handler does not throw. -/
def Kind (R : Message → Prop) (a : Label) : Prop :=
  (∀ vec, a = .addMessage vec → ∀ message ∈ vec, R message.1) ∧ a ≠ .dispatch true

theorem inv_step {s s' : System} {a : Label} (hs : Inv env R s) (ha : Kind R a)
    (hg : Answered env s a) (h : step env s a = some s')
    (hn : s'.registered.length < 2147483648) : Inv env R s' where
  numbered := numbered_step hs.numbered hn h
  tracked := tracked_step hs.tracked ha.1 h
  handled := handled_step hs.handled hg h
  balanced := hs.balanced.moves (step_moves hs.tracked hs.handled hs.numbered hn hg ha.2 h)

theorem tracked_new (heap : ℕ → Message) (sessions : Sessions) : Tracked R (new heap sessions) := by
  refine ⟨?_, nofun, fun _ h => absurd h List.not_mem_nil, nofun,
    fun _ _ _ h => absurd h List.not_mem_nil⟩
  intro k item hi
  exact absurd hi (by simp [new])

theorem inv_new (heap : ℕ → Message) (sessions : Sessions) : Inv env R (new heap sessions) := by
  constructor
  · exact ⟨rfl, rfl⟩
  · exact tracked_new heap sessions
  · exact fun _ h => absurd h List.not_mem_nil
  · refine ⟨List.nodup_nil, fun k => ?_⟩
    simp [ledger, new, tokens, acked, Loop.leaving]

theorem inv_run {s s' : System} {l : List Label} (h : run (step env) s l = some s')
    (hk : ∀ a ∈ l, Kind R a) (hg : Along (step env) (Answered env) s l) (hs : Inv env R s)
    (hn : s'.registered.length < 2147483648) : Inv env R s' := by
  refine run_inv_along (P := fun s => s.registered.length < 2147483648 → Inv env R s) ?_ h hk hg
    (fun _ => hs) hn
  intro s a s' hs ha hg h hn
  exact inv_step (hs ((registered_le h).trans_lt hn)) ha hg h hn

theorem registered_le_run {s s' : System} {l : List Label} (h : run (step env) s l = some s') :
    s.registered.length ≤ s'.registered.length :=
  run_inv (P := fun s' => s.registered.length ≤ s'.registered.length)
    (fun _ _ _ hs h => hs.trans (registered_le h)) h le_rfl

/-- A token that is out of `m_timeOut` stays out. -/
theorem done_run {s s' : System} {l : List Label} {k : Int32} (h : run (step env) s l = some s')
    (hk : ∀ a ∈ l, Kind R a) (hg : Along (step env) (Answered env) s l) (hs : Inv env R s)
    (hn : s'.registered.length < 2147483648) (hi : k ∈ tokens s.registered)
    (hp : s.timeOut[k]? = none) : k ∈ tokens s'.registered ∧ s'.timeOut[k]? = none := by
  have hinv := run_inv_along (P := fun s => s.registered.length < 2147483648 →
    Inv env R s ∧ k ∈ (ledger s).issued ∧ (ledger s).pending k = false) ?_ h hk hg
    (fun _ => ⟨hs, hi, pending_eq_false.mpr hp⟩) hn
  · exact ⟨hinv.2.1, pending_eq_false.mp hinv.2.2⟩
  · intro s a s' hs ha hg h hn
    obtain ⟨hs, hi, hp⟩ := hs ((registered_le h).trans_lt hn)
    refine ⟨inv_step hs ha hg h hn, ?_⟩
    exact (step_moves hs.tracked hs.handled hs.numbered hn hg ha.2 h).pending_eq_false hi hp

/-- An entry whose time has come is out of `m_timeOut` after the sweep. -/
theorem swept_none {s s' : System} {bnow : ℕ} (hs : Inv env R s)
    (h : step env s (.sweep bnow) = some s') (hb : bnow / 1000 - s.timeNow > 1000) {item : AckItem}
    (hi : item ∈ s.registered) (ht : item.time ≤ bnow / 1000) :
    s'.timeOut[item.token]? = none := by
  cases step_taken h with
  | closed _ _ hb' => exact absurd hb hb'
  | swept _ hl _ r hr =>
    subst hr
    refine (get_eraseAll _ _ _).trans ?_
    split_ifs with hk
    · rfl
    · by_contra hne
      obtain ⟨item', hi'⟩ := Option.ne_none_iff_exists'.mp hne
      obtain ⟨hk', him⟩ := hs.tracked.entry _ item' hi'
      have he : item' = item := List.inj_on_of_nodup_map hs.balanced.nodup him hi hk'
      subst he
      exact hk (mem_keysOf.mpr ⟨item', hi', decide_eq_true ht⟩)

/-- After a sweep past its time and the dispatch of what the sweep took, a request is completed. -/
theorem swept_completed {s s₁ s₂ s' : System} {l₁ l₂ : List Label} {bnow : ℕ}
    (hs : Inv env R s) (h₁ : run (step env) s l₁ = some s₁)
    (h₂ : step env s₁ (.sweep bnow) = some s₂) (h' : run (step env) s₂ l₂ = some s')
    (hk : ∀ a ∈ l₁ ++ .sweep bnow :: l₂, Kind R a)
    (hg : Along (step env) (Answered env) s (l₁ ++ .sweep bnow :: l₂))
    (hn : s'.registered.length < 2147483648) (hb : bnow / 1000 - s₁.timeNow > 1000)
    {item : AckItem} (hi : item ∈ s₁.registered) (ht : item.time ≤ bnow / 1000)
    (hl : s'.loop.leaving = []) :
    s'.timeOut[item.token]? = none ∧ (acked s'.calls).count item.token = 1 := by
  have hn₂ := (registered_le_run h').trans_lt hn
  have hn₁ := (registered_le h₂).trans_lt hn₂
  obtain ⟨hg₁, hg₂⟩ := along_append hg
  have hgs := hg₂ s₁ h₁
  have hk₁ : ∀ a ∈ l₁, Kind R a := fun a ha => hk a (List.mem_append_left _ ha)
  have hks : Kind R (.sweep bnow) := hk _ (List.mem_append_right _ List.mem_cons_self)
  have hk₂ : ∀ a ∈ l₂, Kind R a := fun a ha =>
    hk a (List.mem_append_right _ (List.mem_cons_of_mem _ ha))
  have hinv₁ := inv_run h₁ hk₁ hg₁ hs hn₁
  have hinv₂ := inv_step hinv₁ hks hgs.1 h₂ hn₂
  have hinv' := inv_run h' hk₂ (hgs.2 s₂ h₂) hinv₂ hn
  have hi₂ : item.token ∈ tokens s₂.registered := by
    cases step_taken h₂ <;> exact List.mem_map_of_mem hi
  obtain ⟨hi', hp'⟩ := done_run h' hk₂ (hgs.2 s₂ h₂) hinv₂ hn hi₂ (swept_none hinv₁ h₂ hb hi ht)
  refine ⟨hp', hinv'.balanced.count_done hi' (pending_eq_false.mpr hp') ?_⟩
  rw [ledger, hl]
  exact List.not_mem_nil

/-- The loop can dispatch all that a sweep has taken. -/
theorem drain (env : Env) (rest : List (Int32 × Message)) {s : System} {now : ℕ}
    (hl : s.loop = .timeouts now rest) :
    ∃ s', run (step env) s (List.replicate rest.length (.dispatch false)) = some s' ∧
      s'.loop = .timeouts now [] ∧ s'.registered = s.registered ∧
      Along (step env) (Answered env) s (List.replicate rest.length (.dispatch false)) := by
  induction rest generalizing s with
  | nil => exact ⟨s, rfl, hl, rfl, trivial⟩
  | cons e rest ih =>
    obtain ⟨k, message⟩ := e
    have hstep : ∃ s₁, step env s (.dispatch false) = some s₁ ∧ s₁.loop = .timeouts now rest ∧
        s₁.registered = s.registered := by
      dsimp only [step, System.dispatch]
      rw [hl]
      refine ⟨_, rfl, ?_, rfl⟩
      dsimp only
      rw [if_neg]
      rintro ⟨hf, -⟩
      cases hf
    obtain ⟨s₁, h₁, hl₁, hr₁⟩ := hstep
    obtain ⟨s', h', hl', hr', ha'⟩ := ih hl₁
    refine ⟨s', run_cons_some.mpr ⟨s₁, h₁, h'⟩, hl', hr'.trans hr₁, ?_, fun s₂ h₂ => ?_⟩
    · intro message rest item hm
      rw [hl] at hm
      cases hm
    · cases h₁.symm.trans h₂
      exact ha'

/-! ### The theorem -/

/-- The messages that the labels hand over. -/
def Handed (l : List Label) (message : Message) : Prop :=
  ∃ vec, Label.addMessage vec ∈ l ∧ ∃ m ∈ vec, m.1 = message

/-- **Every registered request is completed exactly once.** In every run in which no handler throws,
registered requests have an `Ack_Handler` and replies carry the id of their request, and which
registers fewer than 2 ^ 31 requests: the tokens are distinct; each is in `m_timeOut`, on its way to
`Handle_Ack` or through it, and in one place only; each call of `Handle_Ack` is for a registered
request and carries its reply or its timeout; a reply whose token is not registered does nothing; a
request is through once the loop is done with a sweep past its time; and the loop can do that. -/
theorem request_completed_once {heap : ℕ → Message} {sessions : Sessions} {s : System}
    {l : List Label} (h : run (step env) (new heap sessions) l = some s)
    (hthrow : ∀ a ∈ l, a ≠ .dispatch true)
    (hg : Along (step env) (Answered env) (new heap sessions) l)
    (hn : s.registered.length < 2 ^ 31) :
    (tokens s.registered).Nodup ∧
    (∀ item ∈ s.registered, (s.timeOut[item.token]?).isSome.toNat +
      s.loop.leaving.count item.token + (acked s.calls).count item.token = 1) ∧
    (∀ k handler ack, (k, Call.handle_Ack handler ack) ∈ s.calls →
      ∃ item ∈ s.registered, item.token = k ∧ Answers (Handed l) item ack) ∧
    (∀ message rest throws s', s.loop = .messages (message :: rest) →
      message.1.messageType = Ack → s.timeOut[message.1.reqID]? = none →
      step env s (.dispatch throws) = some s' → s'.calls = s.calls ∧ s'.timeOut = s.timeOut) ∧
    (∀ l₁ bnow l₂ s₁, l = l₁ ++ .sweep bnow :: l₂ →
      run (step env) (new heap sessions) l₁ = some s₁ → bnow / 1000 - s₁.timeNow > 1000 →
      s.loop.leaving = [] → ∀ item ∈ s₁.registered, item.time ≤ bnow / 1000 →
      s.timeOut[item.token]? = none ∧ (acked s.calls).count item.token = 1) ∧
    (∀ bnow, s.loop = .idle → bnow / 1000 - s.timeNow > 1000 →
      (∀ item ∈ s.registered, item.time ≤ bnow / 1000) →
      ∃ n s', run (step env) s (.sweep bnow :: List.replicate n (.dispatch false)) = some s' ∧
        ∀ item ∈ s.registered, s'.timeOut[item.token]? = none ∧
          (acked s'.calls).count item.token = 1) := by
  have hk : ∀ a ∈ l, Kind (Handed l) a := by
    intro a ha
    refine ⟨fun vec he message hm => ?_, hthrow a ha⟩
    subst he
    exact ⟨vec, ha, message, hm, rfl⟩
  have hs₀ : Inv env (Handed l) (new heap sessions) := inv_new heap sessions
  have hs := inv_run h hk hg hs₀ hn
  refine ⟨hs.balanced.nodup, fun item hi => hs.balanced.count_issued (List.mem_map_of_mem hi),
    hs.tracked.calls, ?_, ?_, ?_⟩
  · intro message rest throws s' hl hack hnone hstep
    have herr := errno_received message
    dsimp only [step, System.dispatch] at hstep
    rw [hl] at hstep
    dsimp only at hstep
    rw [DispatchBase.dispatch_of_none hack herr hnone] at hstep
    cases hstep
    exact ⟨List.append_nil _, rfl⟩
  · rintro l₁ bnow l₂ s₁ rfl h₁ hb hl item hi ht
    obtain ⟨s₁', h₁', h₂⟩ := run_append_some.mp h
    cases h₁.symm.trans h₁'
    obtain ⟨s₂, h₂, h'⟩ := run_cons_some.mp h₂
    exact swept_completed hs₀ h₁ h₂ h' hk hg hn hb hi ht hl
  · intro bnow hl hb ht
    have hstep : ∃ rest s₁, step env s (.sweep bnow) = some s₁ ∧
        s₁.loop = .timeouts (bnow / 1000) rest ∧ s₁.registered = s.registered := by
      dsimp only [step]
      rw [hl]
      dsimp only
      rw [if_pos hb]
      exact ⟨_, _, rfl, rfl, rfl⟩
    obtain ⟨rest, s₁, h₁, hl₁, hr₁⟩ := hstep
    obtain ⟨s', h', hl', hr', ha'⟩ := drain env rest hl₁
    refine ⟨rest.length, s', run_cons_some.mpr ⟨s₁, h₁, h'⟩, fun item hi => ?_⟩
    have h₀ : run (step env) s [] = some s := rfl
    refine swept_completed (R := Handed l) hs h₀ h₁ h' ?_ ⟨trivial, fun s₂ h₂ => ?_⟩ ?_ hb hi
      (ht item hi) ?_
    · intro a ha
      rcases List.mem_cons.mp ha with rfl | ha
      · exact ⟨nofun, nofun⟩
      · cases List.eq_of_mem_replicate ha
        exact ⟨nofun, nofun⟩
    · cases h₁.symm.trans h₂
      exact ha'
    · rw [hr', hr₁]
      exact hn
    · rw [hl']
      rfl

/-! ### A reply, a second one, and a timeout -/

/-- The reply to a request with the id 5. -/
def reply₅ (k : Int32) : Received :=
  ⟨{ content := fun _ => 0, messageID := 5, messageType := Ack, reqID := k }, rfl⟩

/-- The messages 3 and 4 are sent. A reply to the first comes twice, and the second times out. -/
def replies : List Label :=
  [.addSendMessage 0 3, .addAckTimeOut 0 0, .setReqID 0, .addSendMessage 1 4, .addAckTimeOut 1 0,
    .addMessage [reply₅ 1, reply₅ 1], .sweep 0, .proceed, .dispatch false, .dispatch false,
    .proceed, .sweep 2000000, .dispatch false]

def repliesSystem (n : ℕ) : System :=
  (run (step env₅) (new requests₅ sessions₇) (replies.take n)).getD (new requests₅ sessions₇)

theorem repliesSystem_eq {n : ℕ} {s : System}
    (h : run (step env₅) (new requests₅ sessions₇) (replies.take n) = some s) :
    repliesSystem n = s := by
  rw [repliesSystem, h, Option.getD_some]

theorem request_completed_once_replies :
    acked (repliesSystem 13).calls = [1, 2] ∧ ∀ item ∈ (repliesSystem 13).registered,
      ((repliesSystem 13).timeOut[item.token]?).isSome.toNat +
        (repliesSystem 13).loop.leaving.count item.token +
        (acked (repliesSystem 13).calls).count item.token = 1 := by
  obtain ⟨s, hs⟩ := Option.isSome_iff_exists.mp
    (by decide +kernel : (run (step env₅) (new requests₅ sessions₇) replies).isSome)
  have hn : (repliesSystem 13).registered.length < 2 ^ 31 := by decide +kernel
  refine ⟨by decide +kernel, ?_⟩
  rw [@repliesSystem_eq 13 s hs] at hn ⊢
  refine (request_completed_once hs ?_ (along_of_take fun n hn s' h => ?_) hn).2.1
  · simp [replies]
  have h' := repliesSystem_eq h
  subst h'
  rcases n with _ | _ | _ | _ | _ | _ | _ | _ | _ | _ | _ | _ | _ | n
  · trivial
  · intro m hm
    cases (by decide +kernel : (repliesSystem 1).adders 0 = .queued 3).symm.trans hm
    decide +kernel
  · trivial
  · trivial
  · intro m hm
    cases (by decide +kernel : (repliesSystem 4).adders 1 = .queued 4).symm.trans hm
    decide +kernel
  · trivial
  · trivial
  · trivial
  · intro message rest item hl hack hi
    cases (rfl : (repliesSystem 8).loop = .messages [reply₅ 1, reply₅ 1]).symm.trans hl
    cases (by decide +kernel :
      (repliesSystem 8).timeOut[(1 : Int32)]? = some ⟨1, 3, 0⟩).symm.trans hi
    rfl
  · intro message rest item hl hack hi
    cases (rfl : (repliesSystem 9).loop = .messages [reply₅ 1]).symm.trans hl
    cases (by decide +kernel : (repliesSystem 9).timeOut[(1 : Int32)]? = none).symm.trans hi
  · trivial
  · trivial
  · intro message rest item hl
    exact Loop.noConfusion hl
  · exact absurd hn (by simp [replies])

end ChatShow.CommBase.RequestAck
