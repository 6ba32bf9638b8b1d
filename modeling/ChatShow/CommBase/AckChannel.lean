import ChatShow.CommBase.RequestAck

/-! # Whose reply completes a request

`m_timeOut` is looked up by the token alone, and the channel that an `Ack` came in on is not
compared with the channel of the request. So the one request that an `Ack` completes is the one
registered under its token (`acks_by_token`), also where the `Ack` is another peer's
(`foreign_ack`). -/

namespace ChatShow.CommBase.AckChannel

open ChatShow.CommBase.NetWorkConfig ChatShow.CommBase.MessageManager
open ChatShow.CommBase.DispatchMessage ChatShow.CommBase.DispatchMessage.System
open ChatShow.CommBase.RequestAck ChatShow.Lib.Maps ChatShow.Lib.Runs Std

variable {env : Env}

/-- What the dispatch of an `Ack` does, on whatever channel it came. -/
theorem step_ack {s s' : System} {message : Received} {rest : List Received} {throws : Bool}
    (hl : s.loop = .messages (message :: rest)) (hack : message.1.messageType = Ack)
    (h : step env s (.dispatch throws) = some s') :
    s'.heap = s.heap ∧
    (∀ k, k ≠ message.1.reqID → s'.timeOut[k]? = s.timeOut[k]?) ∧
    (s.timeOut[message.1.reqID]? = none → s'.calls = s.calls ∧ s'.timeOut = s.timeOut) ∧
    ∀ item : AckItem, s.timeOut[message.1.reqID]? = some item →
      s'.timeOut[message.1.reqID]? = none ∧ s'.calls = s.calls ++
        (DispatchBase.callAck env { message.1 with req := some item.req }).toList.map
          (message.1.reqID, ·) := by
  have herr := errno_received message
  dsimp only [step, System.dispatch] at h
  rw [hl] at h
  dsimp only at h
  rcases hi : s.timeOut[message.1.reqID]? with _ | item
  · rw [DispatchBase.dispatch_of_none hack herr hi] at h
    cases h
    exact ⟨rfl, fun _ _ => rfl, fun _ => ⟨List.append_nil _, rfl⟩, nofun⟩
  · rw [DispatchBase.dispatch_of_some hack herr hi] at h
    cases h
    refine ⟨rfl, fun k hk => get_erase_of_ne _ (Ne.symm hk), nofun, ?_⟩
    rintro item' ⟨⟩
    exact ⟨get_erase_self _ _, rfl⟩

/-- **The request that an `Ack` completes is the one registered under its token.** In every run, a
call of `Handle_Ack` is for a registered request, with a reply that carries its token or its timeout;
and an `Ack`, on whatever channel it came, leaves every request but the one under its token alone,
does nothing where there is none, and else takes it out of `m_timeOut` and completes it. -/
theorem acks_by_token {heap : ℕ → Message} {sessions : Sessions} {s : System} {l : List Label}
    (h : run (step env) (new heap sessions) l = some s) :
    (∀ k handler ack, (k, Call.handle_Ack handler ack) ∈ s.calls →
      ∃ item ∈ s.registered, item.token = k ∧ Answers (Handed l) item ack) ∧
    ∀ message rest throws s', s.loop = .messages (message :: rest) →
      message.1.messageType = Ack → step env s (.dispatch throws) = some s' →
      s'.heap = s.heap ∧
      (∀ k, k ≠ message.1.reqID → s'.timeOut[k]? = s.timeOut[k]?) ∧
      (s.timeOut[message.1.reqID]? = none → s'.calls = s.calls ∧ s'.timeOut = s.timeOut) ∧
      ∀ item : AckItem, s.timeOut[message.1.reqID]? = some item →
        s'.timeOut[message.1.reqID]? = none ∧ s'.calls = s.calls ++
          (DispatchBase.callAck env { message.1 with req := some item.req }).toList.map
            (message.1.reqID, ·) := by
  have hs : Tracked (Handed l) s := by
    refine run_inv_along (G := fun _ _ => True) (Q := fun a => a ∈ l) ?_ h (fun a ha => ha)
      (along_of_take fun _ _ _ _ => trivial) (tracked_new heap sessions)
    intro s a s' hs ha _ h
    refine tracked_step hs ?_ h
    rintro vec rfl message hm
    exact ⟨vec, ha, message, hm, rfl⟩
  exact ⟨hs.calls, fun message rest throws s' hl hack h' => step_ack hl hack h'⟩

/-! ### An `Ack` from another peer -/

/-- A reply to a request with the id 5, on the channel 8. -/
def foreignAck : Received :=
  ⟨{ content := fun _ => 0, messageID := 5, messageType := Ack, reqID := 1, channelID := 8 }, rfl⟩

/-- The message 3 is sent on the channel 7, and an `Ack` with its token comes in on the channel 8. -/
def foreign : List Label :=
  [.addSendMessage 0 3, .addAckTimeOut 0 0, .setReqID 0, .addMessage [foreignAck], .sweep 0,
    .proceed]

def foreignSystem (l : List Label) : System :=
  (run (step env₅) (new requests₅ sessions₇) l).getD (new requests₅ sessions₇)

theorem acks_by_token_foreign :
    (foreignSystem foreign).loop = .messages [foreignAck] ∧
      ∀ s', step env₅ (foreignSystem foreign) (.dispatch false) = some s' →
        ∀ k : Int32, k ≠ 1 → s'.timeOut[k]? = (foreignSystem foreign).timeOut[k]? := by
  obtain ⟨s, hs⟩ := Option.isSome_iff_exists.mp
    (by decide +kernel : (run (step env₅) (new requests₅ sessions₇) foreign).isSome)
  have hl : (foreignSystem foreign).loop = .messages [foreignAck] := rfl
  refine ⟨hl, fun s' h' => ?_⟩
  have he : foreignSystem foreign = s := by rw [foreignSystem, hs, Option.getD_some]
  rw [he] at hl h' ⊢
  exact ((acks_by_token hs).2 foreignAck [] false s' hl rfl h').2.1

/-- `Handle_Ack` is called for the request of the channel 7 with the `Ack` of the channel 8, and its
entry is gone. -/
theorem foreign_ack :
    (foreignSystem foreign).timeOut.toList = [(1, { token := 1, req := 3, time := 0 })] ∧
      ((foreignSystem foreign).heap 3).channelID = 7 ∧ foreignAck.1.channelID = 8 ∧
      (foreignSystem (foreign ++ [.dispatch false])).calls =
        [(1, .handle_Ack 0 { foreignAck.1 with req := some 3 })] ∧
      (foreignSystem (foreign ++ [.dispatch false])).timeOut.toList = [] := by
  refine ⟨by decide +kernel, by decide +kernel, rfl, rfl, by decide +kernel⟩

end ChatShow.CommBase.AckChannel
