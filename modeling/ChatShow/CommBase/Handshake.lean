import ChatShow.CommBase.FramesTaken

/-! # Messages before the connection packet

`Recv` takes a frame like any other when it comes before the connection packet. Where it finds no
frame of a simple message, a request or a reply in what a session has received that has not been
promoted, no handler is called for one before (`handled_promoted`). -/

namespace ChatShow.CommBase.Handshake

open ChatShow.CommBase.NetWorkConfig ChatShow.CommBase.MessageManager
open ChatShow.CommBase.NetContext ChatShow.CommBase.EpollMain ChatShow.CommBase.Origin
open ChatShow.CommBase.FramesTaken
open ChatShow.Lib.Runs

variable {env : Env} {s : Network}

/-- Where a turn of `Recv(vec)` takes a frame of such a message, its session has been promoted. -/
def ConnectedFirst (env : Env) (s : Network) (a : Label) : Prop :=
  ∀ e ∈ taken env s a, IsHandled e.2 → e.1 ∈ s.mgr.promoted

instance (s : Network) (a : Label) : Decidable (ConnectedFirst env s a) := by
  unfold ConnectedFirst IsHandled
  infer_instance

/-- **Handlers see messages of promoted sessions only.** In every run in which a frame of a simple
message, a request or a reply is taken only from a session that has been promoted, every such message
that has been handed over is of a promoted session, and every handler that has been called was
called for one of them, or for a request that has timed out. -/
theorem handled_promoted {object : ℕ → SessionManager.Session} {clock : ℕ → ℤ × Int32}
    {heap : ℕ → Message} {sessions : DispatchMessage.Sessions} {l : List Label}
    (h : run (Network.step env) (.new object clock heap sessions) l = some s)
    (hp : Along (Network.step env) (ConnectedFirst env) (.new object clock heap sessions) l) :
    (∀ e ∈ s.handed, IsHandled e.2 → e.1 ∈ s.mgr.promoted) ∧
    ∀ i, ∀ e ∈ (s.dispatch i).calls, e.2.isSystem = false →
      e.2.message.errno = NetWorkRet.eReqTimeOut.code ∨
      ∃ o m req, (o, m) ∈ s.handed ∧ o ∈ s.mgr.promoted ∧ e.2.message = { m with req := req } := by
  have hi : Inv env (fun mgr o m => IsHandled m → o ∈ mgr.promoted) s :=
    inv_taken (fun _ _ _ _ hgrows hm ht => hgrows.promoted (hm ht)) h hp
  refine ⟨hi.handed, fun i e he hsys => ?_⟩
  rcases (hi.dispatch i).calls e he with ⟨-, ht⟩ | ⟨m, ⟨con, -, rfl⟩ | ⟨o, ho⟩, hmade⟩
  · exact Or.inl ht
  · have hne : ¬ SystemMessage ∈ [SimpleMessage, Request, Ack] := by decide
    exact absurd (hmade.handler hsys) hne
  · obtain ⟨req, hsame⟩ := hmade.same
    exact Or.inr ⟨o, m, req, ho, hi.handed _ ho (hmade.handler hsys), hsame⟩

/-- A server sends its connection packet and a simple message in one. -/
theorem handled_promoted_connected :
    ∃ s, run (Network.step gateNet) quiet
        (sent [frame C2SMessage ConnMessage [2, 7, 0], frame 5 SimpleMessage []] 2) = some s ∧
      (s.dispatch 0).calls.map (fun e => e.2.isSystem) = [true, false] ∧
      ∀ e ∈ s.handed, IsHandled e.2 → e.1 ∈ s.mgr.promoted := by
  obtain ⟨s, hs⟩ := Option.isSome_iff_exists.mp (by decide +kernel :
    (run (Network.step gateNet) quiet
      (sent [frame C2SMessage ConnMessage [2, 7, 0], frame 5 SimpleMessage []] 2)).isSome)
  refine ⟨s, hs, ?_, (handled_promoted hs (by decide +kernel)).1⟩
  cases hs
  decide +kernel

/-- A peer sends no connection packet, but a simple message, and its handler is called. -/
theorem handled_unpromoted :
    ∃ s, run (Network.step gateNet) quiet (sent [frame 5 SimpleMessage []] 1) = some s ∧
      s.mgr.promoted = [] ∧ s.handed.map (fun e => (e.1, e.2.messageType)) = [(0, SimpleMessage)] ∧
      (s.dispatch 0).calls.map (fun e => (e.2.isSystem, e.2.message.messageType)) =
        [(false, SimpleMessage)] := by
  obtain ⟨s, hs⟩ := Option.isSome_iff_exists.mp (by decide +kernel :
    (run (Network.step gateNet) quiet (sent [frame 5 SimpleMessage []] 1)).isSome)
  refine ⟨s, hs, ?_⟩
  cases hs
  decide +kernel

end ChatShow.CommBase.Handshake
