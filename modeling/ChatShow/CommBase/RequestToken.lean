import ChatShow.CommBase.DispatchMessage

/-! # The token of a request

A request that leaves carries its token in its header. The sender reads it from the message, and
`AddSendMessage` puts the message into the queue of the sender before it gives it a token, so a
request can leave without one (`token_missed`). Where the sender builds the header of a request only
when nobody is in `AddSendMessage` with it, where no token is given out that is still registered, and
where neither a reply nor a timeout takes the entry of a request that is yet to be written, every
request leaves with the token it is registered under (`token_written`). -/

namespace ChatShow.CommBase.RequestToken

open ChatShow.CommBase.NetWorkConfig ChatShow.CommBase.MessageManager
open ChatShow.CommBase.DispatchMessage ChatShow.CommBase.DispatchMessage.System
open ChatShow.Lib.Maps ChatShow.Lib.Runs Std

/-! ### What is registered, and what is yet to be written -/

/-- `m_timeOut` has the message under the token. -/
def Entry (s : System) (k : Int32) (m : ℕ) : Prop :=
  ∃ item : AckItem, s.timeOut[k]? = some item ∧ item.req = m

/-- The message is in `m_sendDeque`, or the sender has taken it and has not written it. -/
def Waiting (s : System) (m : ℕ) : Prop :=
  (∃ (channel : ℤ) (q : List ℕ), s.sendDeque[channel]? = some q ∧ m ∈ q) ∨ m ∈ s.sender.messages

/-- The message waits, or somebody is in `AddSendMessage` with it. -/
def Unsent (s : System) (m : ℕ) : Prop := (∃ t, (s.adders t).message = some m) ∨ Waiting s m

/-- The condition on the steps. -/
def Prompt (s : System) : Label → Prop
  | .send => ∀ se message messages channels, s.sender = .sending se (message :: messages) channels →
      (s.heap message).messageType = Request → ∀ t, (s.adders t).message ≠ some message
  | .addAckTimeOut _ _ => s.timeOut[(getToken s.token).1]? = none
  | .sweep bnow => bnow / 1000 - s.timeNow > 1000 → ∀ (k : Int32) (item : AckItem),
      s.timeOut[k]? = some item → item.time ≤ bnow / 1000 → ¬ Unsent s item.req
  | .dispatch _ => ∀ (message : Message) (item : AckItem), s.loop.next = some message →
      message.messageType = Ack → message.errno ≠ NetWorkRet.eReqTimeOut.code →
      s.timeOut[message.reqID]? = some item → ¬ Unsent s item.req
  | _ => True

/-! ### The invariant -/

/-- A token on its way into a message is registered, a request that waits and has its token is
registered under it, and so is one whose header is built. -/
structure Tokens (s : System) : Prop where
  registered : ∀ t m k, s.adders t = .registered m k → Entry s k m
  waiting : ∀ m, Waiting s m → (s.heap m).messageType = Request →
    (∀ t, (s.adders t).message ≠ some m) → Entry s (s.heap m).reqID m
  header : ∀ se m head messages channels, s.sender = .header se m head messages channels →
    (s.heap m).messageType = Request → Entry s head.toSmallEndian.reqID m

theorem waiting_header {s : System} {se m : ℕ} {head : packetHeader} {messages : List ℕ}
    {channels : List (ℤ × List ℕ)} (h : s.sender = .header se m head messages channels) :
    Waiting s m := by
  refine Or.inr ?_
  rw [h]
  exact List.mem_cons_self

/-- Only `m_timeOut` changes, and no request that is yet to be written leaves it. -/
theorem Tokens.of_entry {s s' : System} (hs : Tokens s) (hh : s'.heap = s.heap)
    (ha : s'.adders = s.adders) (hse : s'.sender = s.sender) (hq : s'.sendDeque = s.sendDeque)
    (he : ∀ k m, Unsent s m → Entry s k m → Entry s' k m) : Tokens s' := by
  have hw : ∀ m, Waiting s' m → Waiting s m := by
    intro m hm
    unfold Waiting at hm
    rwa [hse, hq] at hm
  constructor
  · intro t m k ht
    rw [ha] at ht
    refine he k m (Or.inl ⟨t, ?_⟩) (hs.registered t m k ht)
    rw [ht]
    rfl
  · intro m hm hr hn
    rw [hh] at hr ⊢
    rw [ha] at hn
    exact he _ m (Or.inr (hw m hm)) (hs.waiting m (hw m hm) hr hn)
  · intro se m head messages channels h hr
    rw [hse] at h
    rw [hh] at hr
    exact he _ m (Or.inr (waiting_header h)) (hs.header se m head messages channels h hr)

/-- The sender moves on, and has no header in its hands. -/
theorem Tokens.of_waiting {s s' : System} (hs : Tokens s) (hh : s'.heap = s.heap)
    (ha : s'.adders = s.adders) (ht : s'.timeOut = s.timeOut)
    (hw : ∀ m, Waiting s' m → Waiting s m)
    (hn : ∀ se m head messages channels, s'.sender ≠ .header se m head messages channels) :
    Tokens s' := by
  have he : ∀ k m, Entry s k m → Entry s' k m := by
    intro k m h
    unfold Entry
    rwa [ht]
  constructor
  · intro t m k h
    rw [ha] at h
    exact he k m (hs.registered t m k h)
  · intro m hm hr hf
    rw [hh] at hr ⊢
    rw [ha] at hf
    exact he _ m (hs.waiting m (hw m hm) hr hf)
  · intro se m head messages channels h
    exact absurd h (hn se m head messages channels)

/-- A thread that is not the one to learn a token now was so before. -/
theorem registered_of_update {adders : ℕ → Adder} {t t' m : ℕ} {a : Adder} {k : Int32}
    (h : Function.update adders t a t' = .registered m k) (ha : ∀ m k, a ≠ .registered m k) :
    adders t' = .registered m k := by
  by_cases ht : t' = t
  · rw [ht, Function.update_self] at h
    exact absurd h (ha m k)
  · rwa [Function.update_of_ne ht] at h

/-- Nobody was in there with a message, where nobody is now and the thread that moved was not. -/
theorem message_ne_of_update {adders : ℕ → Adder} {t m : ℕ} {a : Adder}
    (h : ∀ t', (Function.update adders t a t').message ≠ some m)
    (ht : (adders t).message ≠ some m) : ∀ t', (adders t').message ≠ some m := by
  intro t'
  by_cases htt : t' = t
  · rwa [htt]
  · have h' := h t'
    rwa [Function.update_of_ne htt] at h'

theorem mem_pushSend {d : DispatchBase} {channelID channel : ℤ} {message m : ℕ} {q : List ℕ}
    (hq : (d.pushSend channelID message).sendDeque[channel]? = some q) (hm : m ∈ q) :
    m = message ∨ ∃ (channel : ℤ) (q : List ℕ), d.sendDeque[channel]? = some q ∧ m ∈ q := by
  dsimp only [DispatchBase.pushSend] at hq
  rw [get_insert] at hq
  split_ifs at hq
  · cases hq
    rcases hd : d.sendDeque[channelID]? with _ | q
    · rw [hd] at hm
      exact Or.inl (List.mem_singleton.mp hm)
    · rw [hd] at hm
      rcases List.mem_append.mp hm with hm | hm
      · exact Or.inr ⟨channelID, q, hd, hm⟩
      · exact Or.inl (List.mem_singleton.mp hm)
  · exact Or.inr ⟨channel, q, hq, hm⟩

/-! ### The steps of `AddSendMessage` -/

/-- The message waits, and nobody is in `AddSendMessage` with it unless it is a request. -/
theorem Tokens.pushed {s : System} (hs : Tokens s) {t message : ℕ} (ht : s.adders t = .idle) :
    Tokens { s with
      toDispatchBase := s.toDispatchBase.pushSend (s.heap message).channelID message
      adders := Function.update s.adders t
        (if (s.heap message).messageType = Request then .queued message else .idle) } := by
  constructor
  · intro t' m k h
    refine hs.registered t' m k (registered_of_update h ?_)
    intro m k
    split_ifs <;> exact Adder.noConfusion
  · intro m hm hr hn
    have hne : m ≠ message := by
      rintro rfl
      refine hn t ?_
      dsimp only
      rw [Function.update_self, if_pos hr]
      rfl
    refine hs.waiting m ?_ hr (message_ne_of_update hn ?_)
    · rcases hm with ⟨channel, q, hq, hmq⟩ | hm
      · exact Or.inl ((mem_pushSend hq hmq).resolve_left hne)
      · exact Or.inr hm
    · rw [ht]
      exact Option.some_ne_none m ∘ Eq.symm
  · exact hs.header

/-- The message is registered under a token that was free. -/
theorem Tokens.addAckTimeOut {s : System} (hs : Tokens s) {t now message : ℕ}
    (ht : s.adders t = .queued message) (hk : s.timeOut[(getToken s.token).1]? = none)
    {r : AckItem × DispatchBase}
    (hr : s.toDispatchBase.addAckTimeOut message (s.heap message).timeout now = r) :
    Tokens { s with
      toDispatchBase := r.2
      adders := Function.update s.adders t (.registered message r.1.token)
      registered := s.registered ++ [r.1] } := by
  subst hr
  have he : ∀ k m, Entry s k m → Entry { s with
      toDispatchBase :=
        (s.toDispatchBase.addAckTimeOut message (s.heap message).timeout now).2 } k m := by
    rintro k m ⟨item, hi, hm⟩
    refine ⟨item, ?_, hm⟩
    have hne : (getToken s.token).1 ≠ k := by
      rintro rfl
      rw [hk] at hi
      cases hi
    exact (get_insert_of_ne _ _ hne).trans hi
  constructor
  · intro t' m k h
    dsimp only at h
    by_cases htt : t' = t
    · rw [htt, Function.update_self] at h
      cases h
      exact ⟨_, get_insert_self _ _ _, rfl⟩
    · rw [Function.update_of_ne htt] at h
      exact he k m (hs.registered t' m k h)
  · intro m hm hr hn
    have hne : message ≠ m := by
      rintro rfl
      refine hn t ?_
      dsimp only
      rw [Function.update_self]
      rfl
    refine he _ m (hs.waiting m hm hr (message_ne_of_update hn ?_))
    rw [ht]
    exact fun h => hne (Option.some.inj h)
  · intro se m head messages channels h hr
    exact he _ m (hs.header se m head messages channels h hr)

/-- The message learns its token. -/
theorem Tokens.setReqID {s : System} (hs : Tokens s) {t message : ℕ} {token : Int32}
    (ht : s.adders t = .registered message token) :
    Tokens { s with
      heap := Function.update s.heap message { s.heap message with reqID := token }
      adders := Function.update s.adders t .idle } := by
  have htype : ∀ m, (Function.update s.heap message
      { s.heap message with reqID := token } m).messageType = (s.heap m).messageType := by
    intro m
    by_cases hm : m = message
    · rw [hm, Function.update_self]
    · rw [Function.update_of_ne hm]
  constructor
  · intro t' m k h
    exact hs.registered t' m k (registered_of_update h fun m k => Adder.noConfusion)
  · intro m hm hr hn
    dsimp only
    by_cases hme : m = message
    · rw [hme, Function.update_self]
      exact hs.registered t message token ht
    · rw [Function.update_of_ne hme]
      refine hs.waiting m hm ((htype m).symm.trans hr) (message_ne_of_update hn ?_)
      rw [ht]
      exact fun h => hme (Option.some.inj h).symm
  · intro se m head messages channels h hr
    exact hs.header se m head messages channels h ((htype m).symm.trans hr)

/-! ### The steps of the sender -/

/-- The header of a request that nobody is in `AddSendMessage` with carries its token. -/
theorem Tokens.getHead {md5 : MD5} {s : System} (hs : Tokens s) {se message : ℕ}
    {messages : List ℕ} {channels : List (ℤ × List ℕ)} {m' : Message}
    (h : s.sender = .sending se (message :: messages) channels)
    (hm' : ((s.sessions.object se).prepare (s.heap message)).encryptMessage md5 = some m')
    (hg : (s.heap message).messageType = Request → ∀ t, (s.adders t).message ≠ some message) :
    Tokens { s with
      heap := Function.update s.heap message m'
      sender := .header se message m'.getHead messages channels } := by
  obtain ⟨hreq, htype, -⟩ := Session.prepare_encrypt hm'
  have hheap : ∀ m, (Function.update s.heap message m' m).messageType = (s.heap m).messageType ∧
      (Function.update s.heap message m' m).reqID = (s.heap m).reqID := by
    intro m
    by_cases hm : m = message
    · rw [hm, Function.update_self]
      exact ⟨htype, hreq⟩
    · rw [Function.update_of_ne hm]
      exact ⟨rfl, rfl⟩
  have hw : ∀ m, m ∈ message :: messages ++ channels.flatMap Prod.snd → m ∈ s.sender.messages := by
    intro m hm
    rw [h]
    exact hm
  constructor
  · exact hs.registered
  · intro m hm hr hn
    dsimp only
    rw [(hheap m).2]
    refine hs.waiting m ?_ ((hheap m).1.symm.trans hr) hn
    rcases hm with hq | hm
    · exact Or.inl hq
    · exact Or.inr (hw m hm)
  · intro se' m head messages' channels' h' hr
    cases h'
    rw [Message.getHead, packetHeader.toSmallEndian_toSmallEndian]
    dsimp only
    rw [hreq]
    have hr' := (hheap message).1.symm.trans hr
    exact hs.waiting message (Or.inr (hw message List.mem_cons_self)) hr' (hg hr')

/-- What is in `m_sendDeque` goes to the sender. -/
theorem waiting_of_toList {s : System} {m : ℕ} (h : m ∈ s.sendDeque.toList.flatMap Prod.snd) :
    Waiting s m := by
  obtain ⟨⟨channel, q⟩, hq, hm⟩ := List.mem_flatMap.mp h
  exact Or.inl ⟨channel, q, TreeMap.mem_toList_iff_getElem?_eq_some.mp hq, hm⟩

/-! ### The steps of the loop -/

/-- The sweep leaves the requests that are yet to be written. -/
theorem entry_takeTimeOut {s : System} {block : ℕ → UInt8} {now : ℕ} {k : Int32} {m : ℕ}
    (hg : ∀ (k : Int32) (item : AckItem), s.timeOut[k]? = some item → item.time ≤ now →
      ¬ Unsent s item.req) (hu : Unsent s m) (h : Entry s k m) :
    Entry { s with
      toDispatchBase := (s.toDispatchBase.takeTimeOut block s.heap now).2 } k m := by
  obtain ⟨item, hi, rfl⟩ := h
  refine ⟨item, (get_eraseAll _ _ k).trans ?_, rfl⟩
  rw [if_neg, hi]
  rw [mem_keysOf]
  rintro ⟨item', hi', ht⟩
  cases hi.symm.trans hi'
  exact hg k item hi (of_decide_eq_true ht) hu

/-- A message that is dispatched leaves them too. -/
theorem entry_dispatch {env : Env} {s : System} {message : Message} {k : Int32} {m : ℕ}
    (hg : ∀ item : AckItem, message.messageType = Ack →
      message.errno ≠ NetWorkRet.eReqTimeOut.code → s.timeOut[message.reqID]? = some item →
      ¬ Unsent s item.req) (hu : Unsent s m) (h : Entry s k m) :
    Entry { s with toDispatchBase := (s.toDispatchBase.dispatch env message).2 } k m := by
  rcases DispatchBase.dispatch_eq env s.toDispatchBase message with
    ⟨item, ht, he, hi, hd⟩ | ⟨-, -, hd⟩ | ⟨hd, -⟩
  · obtain ⟨item', hi', rfl⟩ := h
    refine ⟨item', ?_, rfl⟩
    rw [hd]
    dsimp only
    rw [get_erase, if_neg, hi']
    rintro rfl
    cases hi.symm.trans hi'
    exact hg item ht he hi hu
  · rw [hd]
    exact h
  · rw [hd]
    exact h

/-! ### The theorem -/

variable {env : Env}

theorem tokens_step (s : System) (a : Label) (s' : System) (hs : Tokens s) (hg : Prompt s a)
    (h : step env s a = some s') : Tokens s' := by
  cases step_taken h with
  | pushed t message ht => exact hs.pushed ht
  | registered t now message ht r hr => exact hs.addAckTimeOut ht hg hr
  | setReqID t message token ht => exact hs.setReqID ht
  | take ht =>
    refine hs.of_waiting rfl rfl rfl ?_ fun se m head messages channels => Sender.noConfusion
    rintro m (⟨channel, q, hq, -⟩ | hm)
    · exact absurd hq (by simp)
    · exact waiting_of_toList hm
  | sent ht =>
    refine hs.of_waiting rfl rfl rfl ?_ fun se m head messages channels => Sender.noConfusion
    rintro m (hq | hm)
    · exact Or.inl hq
    · cases hm
  | noSession channel messages channels ht =>
    refine hs.of_waiting rfl rfl rfl ?_ fun se m head messages channels => Sender.noConfusion
    rintro m (hq | hm)
    · exact Or.inl hq
    · refine Or.inr ?_
      rw [ht]
      exact List.mem_append_right messages hm
  | session channel messages channels se ht =>
    refine hs.of_waiting rfl rfl rfl ?_ fun se m head messages channels => Sender.noConfusion
    rintro m (hq | hm)
    · exact Or.inl hq
    · refine Or.inr ?_
      rw [ht]
      exact hm
  | channelSent se channels ht =>
    refine hs.of_waiting rfl rfl rfl ?_ fun se m head messages channels => Sender.noConfusion
    rintro m (hq | hm)
    · exact Or.inl hq
    · refine Or.inr ?_
      rw [ht]
      exact hm
  | getHead se message messages channels m' ht hm' =>
    exact hs.getHead ht hm' (hg se message messages channels ht)
  | write se message head messages channels ht =>
    refine hs.of_waiting rfl rfl rfl ?_ fun se m head messages channels => Sender.noConfusion
    rintro m (hq | hm)
    · exact Or.inl hq
    · refine Or.inr ?_
      rw [ht]
      exact List.mem_cons_of_mem message hm
  | swept bnow hl hb r hr =>
    subst hr
    exact hs.of_entry rfl rfl rfl rfl fun k m hu he => entry_takeTimeOut (hg hb) hu he
  | timeout throws now k message rest hl r hr =>
    subst hr
    refine hs.of_entry rfl rfl rfl (DispatchBase.dispatch_sendDeque env _ _) fun k m hu he =>
      entry_dispatch (fun item => hg message item ?_) hu he
    rw [hl]
    rfl
  | message throws message rest hl r hr =>
    subst hr
    refine hs.of_entry rfl rfl rfl (DispatchBase.dispatch_sendDeque env _ _) fun k m hu he =>
      entry_dispatch (fun item => hg message.1 item ?_) hu he
    rw [hl]
    rfl
  | closed | timedOut | takeMessages | dispatched | addMessage | network =>
    exact hs.of_entry rfl rfl rfl rfl fun k m _ he => he

theorem tokens_new (heap : ℕ → Message) (sessions : Sessions) : Tokens (new heap sessions) := by
  constructor
  · intro t m k h
    cases h
  · rintro m (⟨channel, q, hq, -⟩ | hm)
    · exact absurd hq (by simp [new])
    · cases hm
  · intro se m head messages channels h
    cases h

/-- **Where the steps are prompt, a request is written with the token it is registered under.** -/
theorem token_written {heap : ℕ → Message} {sessions : Sessions} {s : System} {l : List Label}
    (h : run (step env) (new heap sessions) l = some s)
    (hg : Along (step env) Prompt (new heap sessions) l) {se message : ℕ} {head : packetHeader}
    {messages : List ℕ} {channels : List (ℤ × List ℕ)}
    (hw : s.sender = .header se message head messages channels)
    (hr : (s.heap message).messageType = Request) :
    ∃ item : AckItem, s.timeOut[head.toSmallEndian.reqID]? = some item ∧ item.req = message := by
  have hs : Tokens s := run_inv_along (Q := fun _ => True)
    (fun s a s' hs _ => tokens_step s a s' hs) h (fun _ _ => trivial) hg (tokens_new heap sessions)
  exact hs.header se message head messages channels hw hr

/-! ### A request that leaves with its token, and one that leaves without -/

/-- The header of a message with the id 5, with the token `k`. -/
def header₅ (k : Int32) : packetHeader :=
  { remoteType := 2, remoteID := 1, messageID := 5, messageType := Request, reqID := k }

/-- The message 3 is sent, and then the sender goes on up to its header. -/
def prompt : List Label :=
  [.addSendMessage 0 3, .addAckTimeOut 0 0, .setReqID 0, .send, .send, .send]

/-- The state after the first `n` steps of it. -/
def promptSystem (n : ℕ) : System :=
  (run (step env₅) (new requests₅ sessions₇) (prompt.take n)).getD (new requests₅ sessions₇)

theorem promptSystem_eq {n : ℕ} {s : System}
    (h : run (step env₅) (new requests₅ sessions₇) (prompt.take n) = some s) :
    promptSystem n = s := by
  rw [promptSystem, h, Option.getD_some]

theorem token_written_prompt :
    (promptSystem 6).sender = .header 0 3 (header₅ 1) [] [] ∧
      ∃ item : AckItem, (promptSystem 6).timeOut[(header₅ 1).toSmallEndian.reqID]? = some item ∧
        item.req = 3 := by
  obtain ⟨s, hs⟩ := Option.isSome_iff_exists.mp
    (by decide +kernel : (run (step env₅) (new requests₅ sessions₇) prompt).isSome)
  have hw : (promptSystem 6).sender = .header 0 3 (header₅ 1) [] [] := by decide +kernel
  have hr : ((promptSystem 6).heap 3).messageType = Request := by decide +kernel
  refine ⟨hw, ?_⟩
  rw [@promptSystem_eq 6 s hs] at hw hr ⊢
  refine token_written hs (along_of_take fun n hn s' h => ?_) hw hr
  have h' := promptSystem_eq h
  subst h'
  rcases n with _ | _ | _ | _ | _ | _ | n
  · trivial
  · exact (by decide +kernel : (promptSystem 1).timeOut[(1 : Int32)]? = none)
  · trivial
  · intro se message messages channels h
    exact Sender.noConfusion ((by decide +kernel : (promptSystem 3).sender = .idle).symm.trans h)
  · intro se message messages channels h
    exact Sender.noConfusion
      ((by decide +kernel : (promptSystem 4).sender = .taken [(7, [3])]).symm.trans h)
  · intro se message messages channels h hr t
    rcases t with _ | t <;> exact (Option.some_ne_none message).symm
  · exact absurd hn (by simp [prompt])

/-- **A request that leaves without its token.** The sender builds the header of the message 3 before
the message is registered, and is to write it when it is: the token is 1, and the header says 0. -/
def earlySystem : System :=
  (run (step env₅) (new requests₅ sessions₇)
    [.addSendMessage 0 3, .send, .send, .send, .addAckTimeOut 0 0]).get (by decide +kernel)

theorem token_missed :
    earlySystem.sender = .header 0 3 (header₅ 0) [] [] ∧
      (earlySystem.heap 3).messageType = Request ∧
      earlySystem.timeOut.toList = [(1, { token := 1, req := 3, time := 0 })] ∧
      earlySystem.timeOut[(header₅ 0).toSmallEndian.reqID]? = none := by
  refine ⟨by decide +kernel, by decide +kernel, by decide +kernel, by decide +kernel⟩

end ChatShow.CommBase.RequestToken
