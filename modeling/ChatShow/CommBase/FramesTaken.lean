import ChatShow.CommBase.Origin

/-! # The frames that are taken

What the loops have, and with it what they hand to the dispatchers, is made of frames that turns of
`Recv(vec)` have taken. So a property of a message and its session that the managers do not take away
is one of all that is handed over, if the frames have it when they are taken (`inv_taken`). -/

namespace ChatShow.CommBase.FramesTaken

open ChatShow.CommBase.MessageManager ChatShow.CommBase.NetContext
open ChatShow.CommBase.EpollMain ChatShow.CommBase.Origin
open ChatShow.CommBase.DispatchMessage (Received)
open ChatShow.CommBase.SessionManager (SessionMgr)
open ChatShow.Lib.Runs

variable {env : Env} {s s' : Network} {t : Option (ℕ × Message)}

/-- The message that a turn of `Recv(vec)` makes of the frame that it has found, and its session. -/
def taken (env : Env) (s : Network) : Label → Option (ℕ × Message)
  | .turn loop block _ =>
    match s.reader loop with
    | .parsing o _ tmpHead nLeftSize _ =>
      match found (s.mgr.object o).toSession tmpHead nLeftSize with
      | some (.packet head) =>
        (Network.build env (s.mgr.object o).toSession head tmpHead block).join.map fun m => (o, m.1)
      | _ => none
    | _ => none
  | _ => none

/-- The frame that a loop has found. -/
theorem taken_packet {loop o tmpHead nLeftSize : ℕ} {vec : List Received} {last ctl : Bool}
    {block : ℕ → UInt8} {head : NetWorkConfig.packetHeader} {m : Option Received}
    (hr : s.reader loop = .parsing o vec tmpHead nLeftSize last)
    (hf : found (s.mgr.object o).toSession tmpHead nLeftSize = some (.packet head))
    (hm : Network.build env (s.mgr.object o).toSession head tmpHead block = some m) :
    taken env s (.turn loop block ctl) = m.map fun m => (o, m.1) := by
  unfold taken
  dsimp only
  rw [hr]
  dsimp only
  rw [hf]
  dsimp only
  rw [hm]
  rfl

/-- Messages of the session `o`. -/
def ofSession (o : ℕ) (vec : List Received) : List (ℕ × Message) := vec.map fun m => (o, m.1)

/-- The messages that a loop has, each with its session. -/
def has : Reader → List (ℕ × Message)
  | .idle => []
  | .reading o vec => ofSession o vec
  | .parsing o vec _ _ _ => ofSession o vec
  | .handing o vec => ofSession o vec

/-! ### What leaves the loops -/

theorem reader_tell (mgr : SessionMgr) : (s.tell env mgr).reader = s.reader := by
  have hfold : ∀ (events : List SystemMessageCon) (s : Network), (events.foldl
      (fun s con => s.push env con.channel.toInt [⟨systemErr env.mgr.block con, rfl⟩]) s).reader =
        s.reader := by
    intro events
    induction events with
    | nil => exact fun _ => rfl
    | cons con events ih => exact fun s => (ih _).trans rfl
  exact hfold _ _

theorem reader_addMessage {o : ℕ} {message : Message} {ctl : Bool} {ret : ℤ}
    (h : s.addMessage env o message ctl = some (ret, s')) : s'.reader = s.reader := by
  unfold Network.addMessage at h
  split at h
  case isFalse =>
    cases h
    rfl
  case isTrue =>
    obtain ⟨⟨res, m', mgr⟩, -, h⟩ := Option.bind_eq_some_iff.mp h
    dsimp only at h
    split at h
    case isTrue =>
      cases h
      exact reader_tell mgr
    case isFalse =>
    split at h
    case isTrue =>
      cases h
      exact (reader_tell _).trans (reader_tell mgr)
    case isFalse =>
      cases h
      exact reader_tell mgr

theorem reader_receive {o : ℕ} {m : Option Received} {ctl : Bool} {messages : List Received}
    (h : s.receive env o m ctl = some (messages, s')) : s'.reader = s.reader := by
  rcases m with _ | m
  · cases h
    rfl
  · obtain ⟨⟨ret, s₁⟩, hadd, h⟩ := Option.bind_eq_some_iff.mp h
    cases h
    exact reader_addMessage hadd

theorem reader_close {loop o : ℕ} (h : s.close env loop o = some s') :
    s'.reader = Function.update s.reader loop .idle := by
  obtain ⟨mgr, -, h⟩ := Option.bind_eq_some_iff.mp h
  cases h
  exact congrArg (Function.update · loop Reader.idle) (reader_tell mgr)

/-! ### What a step brings to a loop -/

/-- A loop has no more than it had, and the message of this turn. -/
def Keeps (t : Option (ℕ × Message)) (s s' : Network) : Prop :=
  ∀ loop, ∀ e ∈ has (s'.reader loop), e ∈ has (s.reader loop) ∨ t = some e

theorem keeps_of_eq (h : s'.reader = s.reader) : Keeps t s s' := by
  intro loop e he
  rw [h] at he
  exact Or.inl he

theorem keeps_update {loop : ℕ} {r : Reader} (h : s'.reader = Function.update s.reader loop r)
    (hr : ∀ e ∈ has r, e ∈ has (s.reader loop) ∨ t = some e) : Keeps t s s' := by
  intro loop' e he
  rw [h] at he
  rcases eq_or_ne loop' loop with rfl | hne
  · rw [Function.update_self] at he
    exact hr e he
  · rw [Function.update_of_ne hne] at he
    exact Or.inl he

/-- Where the loop goes on with what it has. -/
theorem keeps_same {loop : ℕ} {r : Reader} (h : s'.reader = Function.update s.reader loop r)
    (hr : has r = has (s.reader loop)) : Keeps t s s' :=
  keeps_update h fun _ he => Or.inl (hr ▸ he)

theorem keeps_idle {loop : ℕ} (h : s'.reader = Function.update s.reader loop .idle) :
    Keeps t s s' :=
  keeps_update h fun _ he => absurd he List.not_mem_nil

theorem has_passed (o : ℕ) (vec : List Received) (last : Bool) :
    has (if last then Reader.handing o vec else Reader.reading o vec) = ofSession o vec := by
  cases last <;> rfl

theorem keeps_turn {loop : ℕ} {block : ℕ → UInt8} {ctl : Bool}
    (h : s.turn env loop block ctl = some s') : Keeps (taken env s (.turn loop block ctl)) s s' := by
  unfold Network.turn at h
  split at h
  case h_2 => cases h
  case h_1 o vec tmpHead nLeftSize last hr =>
  have hhas : has (s.reader loop) = ofSession o vec := by
    rw [hr]
    rfl
  obtain ⟨f, hf, h⟩ := Option.bind_eq_some_iff.mp h
  cases f with
  | rest =>
    cases h
    exact keeps_same rfl ((has_passed ..).trans hhas.symm)
  | refused =>
    dsimp only at h
    split at h
    case isTrue => exact keeps_idle (reader_close h)
    case isFalse =>
      cases h
      exact keeps_same rfl ((has_passed ..).trans hhas.symm)
  | packet head =>
    obtain ⟨m, hm, h⟩ := Option.bind_eq_some_iff.mp h
    obtain ⟨⟨messages, s₁⟩, hrec, h⟩ := Option.bind_eq_some_iff.mp h
    have htaken : taken env s (.turn loop block ctl) = m.map fun m => (o, m.1) :=
      taken_packet hr hf hm
    have hreader : s₁.reader = s.reader := (reader_receive hrec).trans rfl
    have hmem : ∀ e ∈ ofSession o (vec ++ messages), e ∈ has (s.reader loop) ∨
        taken env s (.turn loop block ctl) = some e := by
      intro e he
      obtain ⟨m', hm', rfl⟩ := List.mem_map.mp he
      rcases List.mem_append.mp hm' with hm' | hm'
      · rw [hhas]
        exact Or.inl (List.mem_map.mpr ⟨m', hm', rfl⟩)
      · rw [htaken, ← (Feeds.receive hrec).2 m' hm']
        exact Or.inr rfl
    dsimp only at h
    split at h
    case isTrue =>
      cases h
      refine keeps_update (congrArg (Function.update · loop _) hreader) fun e he => hmem e ?_
      rw [has_passed] at he
      exact he
    case isFalse =>
      cases h
      exact keeps_update (congrArg (Function.update · loop _) hreader) hmem

theorem keeps_step {a : Label} (h : s.step env a = some s') : Keeps (taken env s a) s s' := by
  cases a with
  | manager a =>
    dsimp only [Network.step] at h
    split at h
    case h_1 => cases h
    case h_2 =>
      obtain ⟨mgr, -, rfl⟩ := Option.map_eq_some_iff.mp h
      exact keeps_of_eq (reader_tell mgr)
  | epoll loop fd =>
    dsimp only [Network.step] at h
    split at h
    case h_1 =>
      cases h
      exact keeps_update rfl fun _ he => absurd he List.not_mem_nil
    case h_2 => cases h
  | recv loop ret =>
    dsimp only [Network.step, Network.recv] at h
    split at h
    case h_2 => cases h
    case h_1 o vec hr =>
    have hhas : has (s.reader loop) = ofSession o vec := by
      rw [hr]
      rfl
    split at h
    case h_1 => exact keeps_idle (reader_close h)
    case h_2 bytes =>
      split at h
      case isTrue => cases h
      case isFalse =>
        cases h
        refine keeps_same rfl ?_
        rw [hhas]
        split_ifs <;> rfl
    case h_3 =>
      cases h
      exact keeps_same rfl hhas.symm
  | turn loop block ctl => exact keeps_turn h
  | hand loop now =>
    dsimp only [Network.step, Network.hand] at h
    split at h
    case h_2 => cases h
    case h_1 o vec hr =>
    split at h
    case isTrue => exact keeps_idle ((reader_close h).trans rfl)
    case isFalse =>
      cases h
      exact keeps_idle rfl
  | dispatcher i b =>
    dsimp only [Network.step] at h
    split at h
    case h_1 => cases h
    case h_2 =>
      obtain ⟨d, -, rfl⟩ := Option.map_eq_some_iff.mp h
      exact keeps_of_eq rfl

/-- What is handed over is what the loop has. -/
theorem mem_handedBy {a : Label} {e : ℕ × Message} (h : e ∈ handedBy s a) :
    ∃ loop, e ∈ has (s.reader loop) := by
  cases a with
  | hand loop now =>
    unfold handedBy at h
    dsimp only at h
    split at h
    case h_1 o vec hr =>
      refine ⟨loop, ?_⟩
      rw [hr]
      exact h
    case h_2 => exact absurd h List.not_mem_nil
  | _ => exact absurd h List.not_mem_nil

/-! ### Runs -/

theorem grows_step {a : Label} (h : s.step env a = some s') : Grows s.mgr s'.mgr := by
  rcases step_cases h with ⟨i, b, d, -, -, rfl⟩ | hf
  · exact .rfl
  · exact hf.grows

/-- **What the frames have when they are taken, all has that is handed over.** -/
theorem inv_taken {P : SessionMgr → ℕ → Message → Prop}
    (hP : ∀ mgr mgr' o m, Grows mgr mgr' → P mgr o m → P mgr' o m)
    {object : ℕ → SessionManager.Session} {clock : ℕ → ℤ × Int32} {heap : ℕ → Message}
    {sessions : DispatchMessage.Sessions} {l : List Label}
    (h : run (Network.step env) (.new object clock heap sessions) l = some s)
    (ht : Along (Network.step env) (fun s a => ∀ e ∈ taken env s a, P s.mgr e.1 e.2)
      (.new object clock heap sessions) l) : Inv env P s := by
  -- what the loops have does, too
  refine (run_inv_along (P := fun s => Inv env P s ∧
    ∀ loop, ∀ e ∈ has (s.reader loop), P s.mgr e.1 e.2) (Q := fun _ => True) ?_ h
    (fun _ _ => trivial) ht
    ⟨inv_new object clock heap sessions, fun _ _ he => absurd he List.not_mem_nil⟩).1
  rintro s a s' ⟨hi, hv⟩ - hg hs
  refine ⟨inv_step hP hi (fun e he => ?_) hs, fun loop e he => ?_⟩
  · obtain ⟨loop, he⟩ := mem_handedBy he
    exact hv loop e he
  · refine hP _ _ _ _ (grows_step hs) ?_
    rcases keeps_step hs loop e he with he | ht
    · exact hv loop e he
    · exact hg e ht

end ChatShow.CommBase.FramesTaken
