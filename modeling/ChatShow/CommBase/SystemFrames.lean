import ChatShow.CommBase.FramesTaken

/-! # Frames of the type of system messages

`Recv` refuses a frame whose type is above that of the system messages, but not one of that type,
which is dispatched like an event of the managers. Where no frame has the type and the id of an
event, the `on_..` functions are called for events only (`system_local`). -/

namespace ChatShow.CommBase.SystemFrames

open ChatShow.CommBase.NetWorkConfig ChatShow.CommBase.MessageManager
open ChatShow.CommBase.NetContext ChatShow.CommBase.EpollMain ChatShow.CommBase.Origin
open ChatShow.CommBase.FramesTaken
open ChatShow.CommBase.SessionManager (SessionMgr anyAddr)
open ChatShow.Lib.Runs

variable {env : Env} {s s' : Network}

/-- No frame that is taken has the type and the id of an event. -/
def NoEvent (env : Env) (s : Network) (a : Label) : Prop :=
  ∀ e ∈ taken env s a, ¬ IsEvent e.2

instance (s : Network) (a : Label) : Decidable (NoEvent env s a) := by
  unfold NoEvent
  infer_instance

/-- **System messages come from the process itself.** In every run in which no frame that is taken
has the type and the id of an event, an `on_..` function is called only for a message that
`SystemErr` has made of an event, and nothing that has been handed to a dispatcher is like one. -/
theorem system_local {object : ℕ → SessionManager.Session} {clock : ℕ → ℤ × Int32}
    {heap : ℕ → Message} {sessions : DispatchMessage.Sessions} {l : List Label}
    (h : run (Network.step env) (.new object clock heap sessions) l = some s)
    (hn : Along (Network.step env) (NoEvent env) (.new object clock heap sessions) l) :
    (∀ e ∈ s.handed, ¬ IsEvent e.2) ∧
    ∀ i, ∀ e ∈ (s.dispatch i).calls, e.2.isSystem = true →
      ∃ con ∈ s.mgr.events, e.2.message = systemErr env.mgr.block con := by
  have hi : Inv env (fun _ _ m => ¬ IsEvent m) s := inv_taken (fun _ _ _ _ _ hm => hm) h hn
  refine ⟨hi.handed, fun i e he hsys => ?_⟩
  rcases (hi.dispatch i).calls e he with ⟨hno, -⟩ | ⟨m, hl | ⟨o, ho⟩, hmade⟩
  · rw [hsys] at hno
    cases hno
  · obtain ⟨con, hcon, rfl⟩ := hl
    exact ⟨con, hcon, (hmade.system hsys).1⟩
  · exact absurd (hmade.system hsys).2 (hi.handed _ ho)

/-- A server connects, and the gate is told of it. -/
theorem system_local_connected :
    ∃ s, run (Network.step gateNet) quiet (sent [frame C2SMessage ConnMessage [2, 7, 0]] 1) =
        some s ∧ ∃ e ∈ (s.dispatch 0).calls, e.2.isSystem = true ∧
      ∃ con ∈ s.mgr.events, e.2.message = systemErr gateNet.mgr.block con := by
  obtain ⟨s, hs⟩ := Option.isSome_iff_exists.mp (by decide +kernel :
    (run (Network.step gateNet) quiet (sent [frame C2SMessage ConnMessage [2, 7, 0]] 1)).isSome)
  have hcall : ∃ e ∈ (s.dispatch 0).calls, e.2.isSystem = true := by
    cases hs
    decide +kernel
  obtain ⟨e, he, hsys⟩ := hcall
  exact ⟨s, hs, e, he, hsys, (system_local hs (by decide +kernel)).2 0 e he hsys⟩

/-- A peer sends a frame that says that the channel 7 is closed, and `on_channel_error` is called for
it, though nothing has happened to any channel. -/
theorem system_forged :
    ∃ s, run (Network.step gateNet) quiet
        (sent [frame eConnErrMessage SystemMessage (SystemMessageCon.encode
          { channel := 7, lid := 1, ltype := 1, rid := 7, rtype := 2
            err := Int32.ofInt NetWorkRet.eEpollClose.code, addr := anyAddr })] 1) = some s ∧
      s.mgr.events.length = 0 ∧
      (s.dispatch 0).calls.map (fun e => (e.2.isSystem, e.2.message.messageID)) =
        [(true, eConnErrMessage)] := by
  obtain ⟨s, hs⟩ := Option.isSome_iff_exists.mp (by decide +kernel :
    (run (Network.step gateNet) quiet
      (sent [frame eConnErrMessage SystemMessage (SystemMessageCon.encode
        { channel := 7, lid := 1, ltype := 1, rid := 7, rtype := 2
          err := Int32.ofInt NetWorkRet.eEpollClose.code, addr := anyAddr })] 1)).isSome)
  refine ⟨s, hs, ?_⟩
  cases hs
  decide +kernel

end ChatShow.CommBase.SystemFrames
