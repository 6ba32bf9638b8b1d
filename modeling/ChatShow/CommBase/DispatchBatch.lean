import ChatShow.CommBase.DispatchMessage

/-! # Handlers that throw

The loop takes a batch, the expired requests or the messages received, and dispatches one after the
other. `svr` has its `try` around both loops, and `ProcessMessage` has one around each message
received but none around the expired requests. So a batch is dispatched in full exactly where no
handler throws with a message behind it, but for the messages received in `ProcessMessage`
(`batch_dispatched`). -/

namespace ChatShow.CommBase.DispatchBatch

open ChatShow.CommBase.NetWorkConfig ChatShow.CommBase.MessageManager
open ChatShow.CommBase.DispatchMessage ChatShow.CommBase.DispatchMessage.System
open ChatShow.Lib.Runs

variable {env : Env}

/-- The loop is at a batch. -/
def Working : Loop → Prop
  | .timeouts _ _ => True
  | .messages _ => True
  | _ => False

/-- What is left of the batch. -/
def batch : Loop → List Message
  | .timeouts _ rest => rest.map Prod.snd
  | .messages rest => rest.map Subtype.val
  | _ => []

/-- The message that a step dispatches. -/
def shown (s : System) : Label → List Message
  | .dispatch _ => s.loop.next.toList
  | _ => []

/-- The messages that a run dispatches, in order. -/
def dispatched (env : Env) : System → List Label → List Message
  | _, [] => []
  | s, a :: l => shown s a ++ ((step env s a).map fun s' => dispatched env s' l).getD []

/-- The handler of the next message throws, and the exception leaves the loop over the batch. -/
def Drops (env : Env) (s : System) : Label → Prop
  | .dispatch throws =>
    match s.loop with
    | .timeouts _ ((_, message) :: _) =>
      throws = true ∧ (s.toDispatchBase.dispatch env message).1.isSome
    | .messages (message :: _) =>
      throws = true ∧ (s.toDispatchBase.dispatch env message.1).1.isSome ∧ ¬ env.single
    | _ => False
  | _ => False

/-- Such a handler is that of the last message of the batch. -/
def LastDrops (env : Env) (s : System) (a : Label) : Prop :=
  Drops env s a → (batch s.loop).length = 1

/-- The same step, where the handler does not throw. -/
def quiet : Label → Label
  | .dispatch _ => .dispatch false
  | a => a

/-- The states but for where the loop stands. -/
def SameButLoop (s s' : System) : Prop := { s with loop := s'.loop } = s'

theorem SameButLoop.rfl {s : System} : SameButLoop s s := Eq.refl s

theorem batch_of_not_working {loop : Loop} (h : ¬ Working loop) : batch loop = [] := by
  cases loop with
  | idle => rfl
  | queue => rfl
  | timeouts now rest => exact absurd trivial h
  | messages rest => exact absurd trivial h

/-! ### One step -/

/-- What a step is to the batch. -/
inductive Turn (env : Env) (s : System) (a : Label) (s' : System) : Prop
  /-- the loop stays at the batch -/
  | stays (hw : Working s'.loop) (hb : batch s.loop = shown s a ++ batch s'.loop)
      (hd : ¬ Drops env s a) (hq : step env s (quiet a) = some s')
  /-- the loop is through with the batch -/
  | ends (hw : ¬ Working s'.loop) (hb : batch s.loop = []) (hs : shown s a = [])
      (hd : ¬ Drops env s a) (hq : step env s (quiet a) = some s')
  /-- an exception takes the loop out of the batch -/
  | drops (hw : ¬ Working s'.loop) (message : Message) (rest : List Message)
      (hb : batch s.loop = message :: rest) (hs : shown s a = [message]) (hd : Drops env s a)
      (hq : ∃ s'', step env s (quiet a) = some s'' ∧ SameButLoop s'' s')

/-- A step that neither dispatches nor ends the batch. -/
theorem turn_of_loop_eq {s s' : System} {a : Label} (hw : Working s.loop)
    (hl : s'.loop = s.loop) (hs : shown s a = []) (hd : ¬ Drops env s a)
    (hq : step env s (quiet a) = some s') : Turn env s a s' := by
  refine .stays (hl ▸ hw) ?_ hd hq
  rw [hl, hs, List.nil_append]

theorem turn_timeout {s : System} {throws : Bool} {now : ℕ} {k : Int32} {message : Message}
    {rest : List (Int32 × Message)} (hl : s.loop = .timeouts now ((k, message) :: rest))
    {s' : System} (h : step env s (.dispatch throws) = some s') :
    Turn env s (.dispatch throws) s' := by
  have hb : batch s.loop = message :: rest.map Prod.snd := by rw [hl]; rfl
  have hs : shown s (.dispatch throws) = [message] := by rw [shown, hl]; rfl
  have hdrops : Drops env s (.dispatch throws) ↔
      throws = true ∧ (s.toDispatchBase.dispatch env message).1.isSome := by
    simp only [Drops, hl]
  have hq := h
  simp only [step, System.dispatch, hl] at h
  by_cases hc : throws = true ∧ (s.toDispatchBase.dispatch env message).1.isSome
  · rw [if_pos hc] at h
    cases h
    refine .drops id message _ hb hs (hdrops.mpr hc) ⟨{ s with
      toDispatchBase := (s.toDispatchBase.dispatch env message).2
      calls := s.calls ++ (s.toDispatchBase.dispatch env message).1.toList.map (k, ·)
      loop := .timeouts now rest }, ?_, rfl⟩
    simp only [quiet, step, System.dispatch, hl, Bool.false_eq_true, false_and, if_false]
  · rw [if_neg hc] at h
    cases h
    refine .stays trivial ?_ (hdrops.not.mpr hc) ?_
    · rw [hb, hs]
      rfl
    · simp only [quiet, step, System.dispatch, hl, Bool.false_eq_true, false_and, if_false]

theorem turn_message {s : System} {throws : Bool} {message : Received} {rest : List Received}
    (hl : s.loop = .messages (message :: rest)) {s' : System}
    (h : step env s (.dispatch throws) = some s') : Turn env s (.dispatch throws) s' := by
  have hb : batch s.loop = message.1 :: rest.map Subtype.val := by rw [hl]; rfl
  have hs : shown s (.dispatch throws) = [message.1] := by rw [shown, hl]; rfl
  have hdrops : Drops env s (.dispatch throws) ↔ throws = true ∧
      (s.toDispatchBase.dispatch env message.1).1.isSome ∧ ¬ env.single := by
    simp only [Drops, hl]
  simp only [step, System.dispatch, hl] at h
  by_cases hc : throws = true ∧ (s.toDispatchBase.dispatch env message.1).1.isSome ∧ ¬ env.single
  · rw [if_pos hc] at h
    cases h
    refine .drops id message.1 _ hb hs (hdrops.mpr hc) ⟨{ s with
      toDispatchBase := (s.toDispatchBase.dispatch env message.1).2
      calls := s.calls ++ (s.toDispatchBase.dispatch env message.1).1.toList.map
        (message.1.reqID, ·)
      loop := .messages rest }, ?_, rfl⟩
    simp only [quiet, step, System.dispatch, hl, Bool.false_eq_true, false_and, if_false]
  · rw [if_neg hc] at h
    cases h
    refine .stays trivial ?_ (hdrops.not.mpr hc) ?_
    · rw [hb, hs]
      rfl
    · simp only [quiet, step, System.dispatch, hl, Bool.false_eq_true, false_and, if_false]

/-- **Every step that finds the loop at a batch is one of the three.** -/
theorem turn {s s' : System} {a : Label} (hw : Working s.loop) (h : step env s a = some s') :
    Turn env s a s' := by
  have ht := step_taken h
  cases ht with
  | pushed | registered | setReqID | take | sent | noSession | session | channelSent | getHead
  | write | addMessage | network => exact turn_of_loop_eq hw rfl rfl id h
  | closed bnow hi => exact absurd hw (by rw [hi]; exact id)
  | swept bnow hi => exact absurd hw (by rw [hi]; exact id)
  | takeMessages hi => exact absurd hw (by rw [hi]; exact id)
  | timeout throws now k message rest hl => exact turn_timeout hl h
  | message throws message rest hl => exact turn_message hl h
  | timedOut now hl => exact .ends id (by rw [hl]; rfl) rfl id h
  | dispatched hl => exact .ends id (by rw [hl]; rfl) rfl id h

/-! ### A batch -/

theorem dispatched_cons {s s' : System} {a : Label} {l : List Label} (h : step env s a = some s') :
    dispatched env s (a :: l) = shown s a ++ dispatched env s' l := by
  rw [dispatched, h]
  rfl

/-- The loop is at a batch until the last step, and with it no more. -/
def Through (env : Env) (s : System) (l : List Label) (s' : System) : Prop :=
  run (step env) s l = some s' ∧ ¬ Working s'.loop ∧
    ∀ n < l.length, ∀ s₁, run (step env) s (l.take n) = some s₁ → Working s₁.loop

theorem Through.cons {s s' : System} {a : Label} {l : List Label} (h : Through env s (a :: l) s') :
    Working s.loop ∧ ∃ s₁, step env s a = some s₁ ∧ Through env s₁ l s' := by
  obtain ⟨hr, hw, hn⟩ := h
  obtain ⟨s₁, h₁, h₂⟩ := run_cons_some.mp hr
  refine ⟨hn 0 (Nat.succ_pos _) s rfl, s₁, h₁, h₂, hw, fun n hl s₂ hs₂ => ?_⟩
  exact hn (n + 1) (Nat.succ_lt_succ hl) s₂ (run_cons_some.mpr ⟨s₁, h₁, hs₂⟩)

theorem Through.of_not_working {s s' : System} {l : List Label} (h : Through env s l s')
    (hw : ¬ Working s.loop) : l = [] ∧ s' = s := by
  cases l with
  | nil => exact ⟨rfl, (Option.some.inj h.1).symm⟩
  | cons a l => exact absurd h.cons.1 hw

/-- **A batch is dispatched in full, and as if no handler threw, exactly where no exception leaves
its loop but after the last message.** -/
theorem batch_dispatched {s s' : System} {l : List Label} (h : Through env s l s') :
    (dispatched env s l = batch s.loop ∧
      ∃ s'', run (step env) s (l.map quiet) = some s'' ∧ SameButLoop s'' s') ↔
    Along (step env) (LastDrops env) s l := by
  induction l generalizing s with
  | nil =>
    obtain ⟨hr, hw, -⟩ := h
    cases hr
    exact ⟨fun _ => trivial, fun _ => ⟨(batch_of_not_working hw).symm, s', rfl, .rfl⟩⟩
  | cons a l ih =>
    obtain ⟨hw, s₁, h₁, hl⟩ := h.cons
    have halong : Along (step env) (LastDrops env) s (a :: l) ↔
        LastDrops env s a ∧ Along (step env) (LastDrops env) s₁ l := by
      refine and_congr_right fun _ => ⟨fun hn => hn s₁ h₁, fun hn s₂ h₂ => ?_⟩
      rw [h₁] at h₂
      cases h₂
      exact hn
    rw [halong, ← ih hl, dispatched_cons h₁, List.map_cons]
    simp only [run_cons]
    cases turn hw h₁ with
    | stays hw₁ hb hd hq =>
      have hlast : LastDrops env s a := fun hd' => absurd hd' hd
      rw [hb, List.append_cancel_left_eq, hq, Option.bind_some]
      exact ⟨fun hp => ⟨hlast, hp⟩, fun hp => hp.2⟩
    | ends hw₁ hb hs hd hq =>
      have hlast : LastDrops env s a := fun hd' => absurd hd' hd
      rw [hb, hs, List.nil_append, hq, Option.bind_some, batch_of_not_working hw₁]
      exact ⟨fun hp => ⟨hlast, hp⟩, fun hp => hp.2⟩
    | drops hw₁ message rest hb hs hd hq =>
      obtain ⟨s₂, hq, hsame⟩ := hq
      -- the exception was the last step, so nothing behind it is dispatched
      obtain ⟨rfl, hs'⟩ := hl.of_not_working hw₁
      rw [hb, hs, hq, batch_of_not_working hw₁, hs']
      constructor
      · rintro ⟨hrest, -⟩
        have hnil : rest = [] := (List.cons.inj hrest).2.symm
        refine ⟨fun _ => ?_, rfl, s₁, rfl, .rfl⟩
        rw [hb, hnil]
        rfl
      · rintro ⟨hlast, -⟩
        have hlen := hlast hd
        rw [hb, List.length_cons, Nat.add_eq_right, List.length_eq_zero_iff] at hlen
        subst hlen
        exact ⟨rfl, s₂, rfl, hsame⟩

/-! ### Two messages, two requests -/

/-- A message with the id 5, which has a handler, besides the handler for the replies. -/
def throwing (single : Bool) : Env :=
  { env₅ with
    handlers := { env₅.handlers with messageHandler := fun
      | 5 => some 0
      | _ => none }
    single := single }

def simple₅ : Received :=
  ⟨{ content := fun _ => 0, messageID := 5, messageType := SimpleMessage }, rfl⟩

/-- Two messages are received, and the loop takes them. -/
def twoMessages : List Label := [.addMessage [simple₅, simple₅], .sweep 0, .proceed]

/-- Two requests are sent and time out, and the loop takes them. -/
def twoRequests : List Label :=
  [.addSendMessage 0 1, .addAckTimeOut 0 0, .setReqID 0, .addSendMessage 0 2, .addAckTimeOut 0 0,
    .setReqID 0, .sweep 2000000]

def batchSystem (single : Bool) (l : List Label) : System :=
  (run (step (throwing single)) (new requests₅ sessions₇) l).getD (new requests₅ sessions₇)

/-- `ProcessMessage` dispatches both messages, though the handler of the first throws. -/
theorem batch_dispatched_twoMessages :
    dispatched (throwing true) (batchSystem true twoMessages)
      [.dispatch true, .dispatch false, .proceed] = batch (batchSystem true twoMessages).loop := by
  obtain ⟨s', hs'⟩ := Option.isSome_iff_exists.mp (by decide +kernel :
    (run (step (throwing true)) (batchSystem true twoMessages)
      [.dispatch true, .dispatch false, .proceed]).isSome)
  have hthrough : Through (throwing true) (batchSystem true twoMessages)
      [.dispatch true, .dispatch false, .proceed] s' := by
    refine ⟨hs', ?_, fun n hn s₁ h₁ => ?_⟩
    · cases hs'
      exact id
    · rcases n with _ | _ | _ | n
      · cases h₁
        trivial
      · cases h₁
        trivial
      · cases h₁
        trivial
      · exact absurd hn (Nat.not_lt.mpr (Nat.le_add_left 3 n))
  refine ((batch_dispatched hthrough).mpr (along_of_take fun n hn s₁ h₁ hd => ?_)).1
  rcases n with _ | _ | _ | n
  · cases h₁
    exact absurd rfl hd.2.2
  · cases h₁
    exact absurd rfl hd.2.2
  · exact hd.elim
  · exact absurd hn (Nat.not_lt.mpr (Nat.le_add_left 3 n))

/-- The handler of the first of two throws: the second is in no list any more and is not dispatched.
So it is for the messages in `svr`, and for the requests also in `ProcessMessage`. -/
theorem batch_cut :
    ((batch (batchSystem false twoMessages).loop).length = 2 ∧
      (dispatched (throwing false) (batchSystem false twoMessages) [.dispatch true]).length = 1 ∧
      (batchSystem false (twoMessages ++ [.dispatch true])).loop = .idle ∧
      (batchSystem false (twoMessages ++ [.dispatch true])).deque = []) ∧
    ∀ single, (batch (batchSystem single twoRequests).loop).length = 2 ∧
      (dispatched (throwing single) (batchSystem single twoRequests) [.dispatch true]).length = 1 ∧
      (batchSystem single (twoRequests ++ [.dispatch true])).loop = .idle ∧
      (batchSystem single (twoRequests ++ [.dispatch true])).timeOut.toList = [] := by
  refine ⟨⟨rfl, rfl, rfl, rfl⟩, fun single => ?_⟩
  cases single with
  | false => exact ⟨by decide +kernel, by decide +kernel, rfl, by decide +kernel⟩
  | true => exact ⟨by decide +kernel, by decide +kernel, rfl, by decide +kernel⟩

end ChatShow.CommBase.DispatchBatch
