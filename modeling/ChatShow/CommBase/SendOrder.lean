import ChatShow.CommBase.DispatchMessage

/-! # The order of what is sent

Producers push under the lock, and the sender swaps the map of queues out and writes it channel by
channel. What has been offered to the buffer of a channel, what the sender has in hand for it and
what is queued for it are, one behind the other, what has been pushed for it (`channel_order`), as
long as the sender finds a session for the channel. -/

namespace ChatShow.CommBase.SendOrder

open ChatShow.CommBase.NetWorkConfig ChatShow.CommBase.MessageManager
open ChatShow.CommBase.DispatchMessage ChatShow.CommBase.DispatchMessage.System
open ChatShow.Lib.Maps ChatShow.Lib.Runs Std

variable {env : Env}

/-- The queues that the sender has taken and has not begun. -/
def channels : Sender → List (ℤ × List ℕ)
  | .idle => []
  | .taken channels => channels
  | .sending _ _ channels => channels
  | .header _ _ _ _ channels => channels

/-- The session whose `AddMessage` the sender is in, with the messages left. -/
def current : Sender → Option (ℕ × List ℕ)
  | .sending se messages _ => some (se, messages)
  | .header se message _ messages _ => some (se, message :: messages)
  | _ => none

/-- The messages pushed for the channel `c`, in order. -/
def pushed (heap : ℕ → Message) (c : ℤ) : List Label → List ℕ
  | [] => []
  | .addSendMessage _ message :: l =>
    if (heap message).channelID = c then message :: pushed heap c l else pushed heap c l
  | _ :: l => pushed heap c l

/-- The messages of a list that are for the channel `c`. -/
def onChannel (heap : ℕ → Message) (c : ℤ) (l : List ℕ) : List ℕ :=
  l.filter fun message => (heap message).channelID = c

/-- The messages for the channel `c` that have been offered to a send buffer. -/
def offeredOn (heap : ℕ → Message) (c : ℤ) (s : System) : List ℕ :=
  onChannel heap c (s.offered.map fun e => e.2.1)

/-- The messages for the channel `c` that the sender has in hand. -/
def inHand (heap : ℕ → Message) (c : ℤ) (s : System) : List ℕ :=
  onChannel heap c s.sender.messages

/-- The messages that `m_sendDeque` has for the channel `c`. -/
def queuedOn (c : ℤ) (s : System) : List ℕ := s.sendDeque[c]?.getD []

/-- The sender finds a session where it looks for that of the channel `c`. -/
def ChannelUp (c : ℤ) (s : System) : Label → Prop
  | .send => ∀ messages rest, s.sender = .taken ((c, messages) :: rest) →
    s.sessions.session[c]? ≠ none
  | _ => True

theorem channelUp_of_session {c : ℤ} {s : System} (a : Label)
    (h : s.sessions.session[c]? ≠ none) : ChannelUp c s a := by
  unfold ChannelUp
  split
  · exact fun _ _ _ => h
  · trivial

theorem onChannel_append (heap : ℕ → Message) (c : ℤ) (l l' : List ℕ) :
    onChannel heap c (l ++ l') = onChannel heap c l ++ onChannel heap c l' :=
  List.filter_append _ _

/-! ### Messages stay with their channel -/

/-- A message keeps its channel, and each queue holds messages of its own channel. `Found` says of
which sessions a channel has had. -/
structure Sorted (heap : ℕ → Message) (Found : ℤ → ℕ → Prop) (s : System) : Prop where
  channel : ∀ message, (s.heap message).channelID = (heap message).channelID
  queue : ∀ c q, s.sendDeque[c]? = some q → ∀ message ∈ q, (heap message).channelID = c
  taken : ∀ e ∈ channels s.sender, ∀ message ∈ e.2, (heap message).channelID = e.1
  current : ∀ e ∈ current s.sender, ∀ message ∈ e.2, Found (heap message).channelID e.1
  offered : ∀ e ∈ s.offered, Found (heap e.2.1).channelID e.1

section
variable {heap : ℕ → Message} {Found : ℤ → ℕ → Prop} {s s' : System} {c : ℤ}

/-- What keeps the queues, the sender and what was offered. -/
theorem Sorted.frame (hs : Sorted heap Found s)
    (hheap : ∀ message, (s'.heap message).channelID = (s.heap message).channelID)
    (hq : s'.sendDeque = s.sendDeque) (hsend : s'.sender = s.sender)
    (ho : s'.offered = s.offered) : Sorted heap Found s' where
  channel message := (hheap message).trans (hs.channel message)
  queue := by rw [hq]; exact hs.queue
  taken := by rw [hsend]; exact hs.taken
  current := by rw [hsend]; exact hs.current
  offered := by rw [ho]; exact hs.offered

theorem channelID_update {h : ℕ → Message} {i : ℕ} {m : Message}
    (hm : m.channelID = (h i).channelID) (message : ℕ) :
    (Function.update h i m message).channelID = (h message).channelID := by
  rcases eq_or_ne message i with rfl | hne
  · rw [Function.update_self, hm]
  · rw [Function.update_of_ne hne]

theorem channelID_prepare_encrypt {md5 : MD5} {se : Session} {m m' : Message}
    (h : (se.prepare m).encryptMessage md5 = some m') : m'.channelID = m.channelID := by
  obtain ⟨content, length, rfl⟩ := Message.encryptMessage_eq h
  dsimp only [Session.prepare]
  split_ifs <;> rfl

theorem get_pushSend (d : DispatchBase) (k : ℤ) (message : ℕ) (c : ℤ) :
    (d.pushSend k message).sendDeque[c]?.getD [] =
      d.sendDeque[c]?.getD [] ++ if k = c then [message] else [] := by
  dsimp only [DispatchBase.pushSend]
  rw [get_insert]
  by_cases hk : k = c
  · subst hk
    rw [if_pos rfl, if_pos rfl]
    cases d.sendDeque[k]? with
    | none => rfl
    | some q => rfl
  · rw [if_neg hk, if_neg hk, List.append_nil]

theorem Sorted.pushSend (hs : Sorted heap Found s) (message : ℕ) :
    ∀ c q, (s.toDispatchBase.pushSend (s.heap message).channelID message).sendDeque[c]? = some q →
      ∀ m ∈ q, (heap m).channelID = c := by
  intro c q hq m hm
  have hget := get_pushSend s.toDispatchBase (s.heap message).channelID message c
  rw [hq, Option.getD_some] at hget
  rw [hget, List.mem_append] at hm
  rcases hm with hm | hm
  · rcases hold : s.sendDeque[c]? with _ | q'
    · rw [hold] at hm
      exact absurd hm List.not_mem_nil
    · rw [hold] at hm
      exact hs.queue c q' hold m hm
  · split_ifs at hm with hk
    · rw [List.mem_singleton.mp hm, ← hk, hs.channel]
    · exact absurd hm List.not_mem_nil

theorem sorted_step {a : Label} (hs : Sorted heap Found s)
    (hf : ∀ c se, s.sessions.session[c]? = some se → Found c se)
    (h : step env s a = some s') : Sorted heap Found s' := by
  cases step_taken h with
  | pushed t message ht => exact { hs with queue := hs.pushSend message }
  | registered t now message ht r hr =>
    subst hr
    exact hs.frame (fun _ => rfl) rfl rfl rfl
  | setReqID t message token ht => exact hs.frame (channelID_update rfl) rfl rfl rfl
  | take hi =>
    refine { hs with queue := ?_, taken := ?_, current := nofun }
    · intro c q hq
      exact absurd hq (by simp)
    · intro e he
      exact hs.queue e.1 e.2 (TreeMap.mem_toList_iff_getElem?_eq_some.mp he)
  | sent hi => exact { hs with taken := fun _ he => absurd he List.not_mem_nil, current := nofun }
  | noSession channel messages rest hi hse =>
    have ht := hs.taken
    rw [hi] at ht
    exact { hs with taken := fun e he => ht e (List.mem_cons_of_mem _ he), current := nofun }
  | session channel messages rest se hi hse =>
    have ht := hs.taken
    rw [hi] at ht
    refine { hs with taken := fun e he => ht e (List.mem_cons_of_mem _ he), current := ?_ }
    rintro e ⟨⟩ message hm
    rw [ht _ List.mem_cons_self message hm]
    exact hf channel se hse
  | channelSent se rest hi =>
    have ht := hs.taken
    rw [hi] at ht
    exact { hs with taken := ht, current := nofun }
  | getHead se message messages rest m hi hm =>
    have ht := hs.taken
    have hc := hs.current
    rw [hi] at ht hc
    refine { hs with channel := fun i => ?_, taken := ht, current := hc }
    exact (channelID_update (channelID_prepare_encrypt hm) i).trans (hs.channel i)
  | write se message head messages rest hi =>
    have ht := hs.taken
    have hc := hs.current
    rw [hi] at ht hc
    refine { hs with taken := ht, current := ?_, offered := ?_ }
    · rintro e ⟨⟩ m hm
      exact hc _ rfl m (List.mem_cons_of_mem _ hm)
    · intro e he
      rcases List.mem_append.mp he with he | he
      · exact hs.offered e he
      · rw [List.mem_singleton.mp he]
        exact hc _ rfl message List.mem_cons_self
  | closed | timedOut | takeMessages | dispatched | addMessage | network =>
    exact hs.frame (fun _ => rfl) rfl rfl rfl
  | swept bnow hl hb r hr =>
    subst hr
    exact hs.frame (fun _ => rfl) rfl rfl rfl
  | timeout throws now k message rest hl r hr =>
    subst hr
    exact hs.frame (fun _ => rfl) (DispatchBase.dispatch_sendDeque ..) rfl rfl
  | message throws message rest hl r hr =>
    subst hr
    exact hs.frame (fun _ => rfl) (DispatchBase.dispatch_sendDeque ..) rfl rfl

/-! ### One step -/

/-- What was pushed for the channel `c`, wherever it is. -/
def allOn (heap : ℕ → Message) (c : ℤ) (s : System) : List ℕ :=
  offeredOn heap c s ++ inHand heap c s ++ queuedOn c s

theorem allOn_congr (ho : s'.offered = s.offered) (hsend : s'.sender = s.sender)
    (hq : s'.sendDeque = s.sendDeque) : allOn heap c s' = allOn heap c s := by
  rw [allOn, allOn, offeredOn, offeredOn, inHand, inHand, queuedOn, queuedOn, ho, hsend, hq]

/-- **Each step moves messages of the channel forward, and only a push adds one.** -/
theorem allOn_step {a : Label} (hs : Sorted heap Found s) (hc : ChannelUp c s a)
    (h : step env s a = some s') : allOn heap c s' = allOn heap c s ++ pushed heap c [a] := by
  cases step_taken h with
  | pushed t message ht =>
    have hq : queuedOn c { s with
        toDispatchBase := s.toDispatchBase.pushSend (s.heap message).channelID message } =
        queuedOn c s ++ if (s.heap message).channelID = c then [message] else [] :=
      get_pushSend ..
    rw [hs.channel] at hq
    rw [hs.channel]
    exact (congrArg (offeredOn heap c s ++ inHand heap c s ++ ·) hq).trans
      (List.append_assoc _ _ _).symm
  | take hi =>
    have hnil : inHand heap c s = [] := by rw [inHand, hi]; rfl
    have hall : inHand heap c { s with sendDeque := ∅, sender := .taken s.sendDeque.toList } =
        queuedOn c s := filter_flatMap_toList c hs.queue
    have hempty : queuedOn c { s with sendDeque := ∅, sender := .taken s.sendDeque.toList } = [] := by
      rw [queuedOn, TreeMap.getElem?_emptyc]
      rfl
    have hoff : offeredOn heap c { s with sendDeque := ∅, sender := .taken s.sendDeque.toList } =
        offeredOn heap c s := rfl
    rw [allOn, allOn, hall, hnil, hempty, hoff, List.append_nil, List.append_nil]
    exact (List.append_nil _).symm
  | noSession channel messages rest hi hse =>
    have hne : channel ≠ c := by
      rintro rfl
      exact hc messages rest hi hse
    have ht := hs.taken
    rw [hi] at ht
    have hnil : onChannel heap c messages = [] := by
      rw [onChannel, List.filter_eq_nil_iff]
      intro message hm
      rw [ht _ List.mem_cons_self message hm, decide_eq_true_iff]
      exact hne
    have hin : inHand heap c s = inHand heap c { s with sender := .taken rest } := by
      rw [inHand, hi]
      refine (onChannel_append ..).trans ?_
      rw [hnil]
      rfl
    rw [allOn, allOn, hin]
    exact (List.append_nil _).symm
  | write se message head messages rest hi =>
    have hin : inHand heap c s = onChannel heap c [message] ++
        onChannel heap c (messages ++ rest.flatMap Prod.snd) := by
      rw [inHand, hi]
      exact onChannel_append heap c [message] _
    rw [allOn, allOn, hin, ← List.append_assoc (offeredOn heap c s), offeredOn, offeredOn,
      ← onChannel_append]
    dsimp only
    rw [List.map_append]
    exact (List.append_nil _).symm
  | sent hi | channelSent se rest hi | session channel messages rest se hi hse
  | getHead se message messages rest m hi hm =>
    refine Eq.trans ?_ (List.append_nil _).symm
    rw [allOn, allOn, inHand, inHand, hi]
    rfl
  | registered t now message ht r hr | swept bnow hl hb r hr =>
    subst hr
    exact (allOn_congr rfl rfl rfl).trans (List.append_nil _).symm
  | setReqID | closed | timedOut | takeMessages | dispatched | addMessage | network =>
    exact (allOn_congr rfl rfl rfl).trans (List.append_nil _).symm
  | timeout throws now k message rest hl r hr | message throws message rest hl r hr =>
    subst hr
    refine Eq.trans ?_ (List.append_nil _).symm
    exact allOn_congr rfl rfl (DispatchBase.dispatch_sendDeque ..)

/-! ### A run -/

theorem pushed_cons (heap : ℕ → Message) (c : ℤ) (a : Label) (l : List Label) :
    pushed heap c (a :: l) = pushed heap c [a] ++ pushed heap c l := by
  cases a with
  | addSendMessage t message =>
    dsimp only [pushed]
    split_ifs <;> rfl
  | _ => rfl

theorem sorted_run {l : List Label} (hs : Sorted heap Found s)
    (hf : Along (step env) (fun s _ => ∀ c se, s.sessions.session[c]? = some se → Found c se) s l)
    (h : run (step env) s l = some s') : Sorted heap Found s' :=
  run_inv_along (G := fun s _ => ∀ c se, s.sessions.session[c]? = some se → Found c se)
    (Q := fun _ => True) (fun _ _ _ hs _ hf h => sorted_step hs hf h) h (fun _ _ => trivial) hf hs

theorem allOn_run {l : List Label} (hs : Sorted heap (fun _ _ => True) s)
    (hc : Along (step env) (ChannelUp c) s l) (h : run (step env) s l = some s') :
    allOn heap c s' = allOn heap c s ++ pushed heap c l := by
  induction l generalizing s with
  | nil =>
    cases h
    exact (List.append_nil _).symm
  | cons a l ih =>
    obtain ⟨s₁, h₁, h₂⟩ := run_cons_some.mp h
    rw [ih (sorted_step hs (fun _ _ _ => trivial) h₁) (hc.2 s₁ h₁) h₂, allOn_step hs hc.1 h₁,
      pushed_cons heap c a l, List.append_assoc]

theorem sorted_new (heap : ℕ → Message) (sessions : Sessions) (Found : ℤ → ℕ → Prop) :
    Sorted heap Found (new heap sessions) where
  channel _ := rfl
  queue c q hq := absurd hq (by simp [new])
  taken _ he := absurd he List.not_mem_nil
  current := nofun
  offered _ he := absurd he List.not_mem_nil

end

/-- **The messages of a channel are sent in the order in which they were pushed, and each once.** In
every run in which the sender finds a session for the channel `c`, what has been offered to a send
buffer for `c`, what the sender has in hand and what is queued are what has been pushed for `c`; and
what was offered was offered to a session that its channel had. -/
theorem channel_order {heap : ℕ → Message} {sessions : Sessions} {s : System} {l : List Label}
    {c : ℤ} (h : run (step env) (new heap sessions) l = some s)
    (hc : Along (step env) (ChannelUp c) (new heap sessions) l) :
    offeredOn heap c s ++ inHand heap c s ++ queuedOn c s = pushed heap c l ∧
    ∀ e ∈ s.offered, ∃ n s₁, run (step env) (new heap sessions) (l.take n) = some s₁ ∧
      s₁.sessions.session[(heap e.2.1).channelID]? = some e.1 := by
  constructor
  · exact (allOn_run (sorted_new heap sessions _) hc h).trans (List.nil_append _)
  · have hs : Sorted heap (fun c se => ∃ n s₁, run (step env) (new heap sessions) (l.take n) =
        some s₁ ∧ s₁.sessions.session[c]? = some se) s := by
      refine sorted_run (sorted_new heap sessions _) ?_ h
      exact along_of_take fun n _ s₁ h₁ c se hse => ⟨n, s₁, h₁, hse⟩
    exact hs.offered

/-- The messages 3 and 4 are pushed for the channel 7 by two threads, and the first is written before
the second is pushed. -/
def twoSent : List Label :=
  [.addSendMessage 0 3, .send, .send, .send, .send, .addSendMessage 1 4, .send, .send]

theorem channel_order_twoSent :
    ∃ s, run (step env₅) (new requests₅ sessions₇) twoSent = some s ∧
      offeredOn requests₅ 7 s ++ inHand requests₅ 7 s ++ queuedOn 7 s = [3, 4] := by
  obtain ⟨s, hs⟩ := Option.isSome_iff_exists.mp
    (by decide +kernel : (run (step env₅) (new requests₅ sessions₇) twoSent).isSome)
  have hup : Along (step env₅) (fun s _ => s.sessions.session[(7 : ℤ)]? ≠ none)
      (new requests₅ sessions₇) twoSent := by
    decide +kernel
  exact ⟨s, hs, (channel_order hs (hup.mono fun _ a h => channelUp_of_session a h)).1⟩

end ChatShow.CommBase.SendOrder
