import ChatShow.Antlib.TcpListener

/-! # The servers accept in turn

Every interleaving of the threads of the servers, with what they do to their connections otherwise. -/

namespace ChatShow.Antlib.TcpListener

open ChatShow.Antlib.TcpConnections ChatShow.Lib.Runs

variable {s s' : System} {n k : ℕ} {l : Listener}

/-- What holds in every state. -/
structure Good (n : ℕ) (s : System) : Prop where
  ring : Ring s.listener n s.rounds.length
  rounds : ∀ i < s.rounds.length, s.rounds[i]? = some (i % n)
  turn : ∀ k, s.pc k ≠ .out → k = s.rounds.length % n
  server : ∀ k < n, NetIds.Good (s.server k)
  accepted : s.accepted.map Prod.snd ++ s.backlog = s.arrived

theorem other_good {t : TcpConnections.State} (h : NetIds.Good t) :
    NetIds.Good { t with mainid := t.mainid + 1, opened := t.opened + 1 } := by
  obtain ⟨t', ht', hgood⟩ := h.step (a := .otherServer) trivial
  cases ht'
  exact hgood

/-- A server has got to a state that is as the others expect it. -/
theorem setServer_good {t : TcpConnections.State} (h : ∀ k < n, NetIds.Good (s.server k))
    (ht : NetIds.Good t) : ∀ j < n, NetIds.Good ((s.setServer k t).server j) := by
  intro j hj
  unfold System.setServer
  dsimp only
  split_ifs
  · exact ht
  · exact h j hj
  · exact other_good (h j hj)

theorem Good.index (h : Good n s) (hn : 0 < n) : s.listener.index = some (s.rounds.length % n) ∧
    s.listener.nodes (s.rounds.length % n) =
      some ⟨s.rounds.length % n, some ((s.rounds.length + 1) % n)⟩ := by
  refine ⟨by rw [h.ring.index, if_neg (by omega)], ?_⟩
  rw [h.ring.node _ (Nat.mod_lt _ hn), Nat.mod_add_mod]

/-- Where the thread of the server whose turn it is has gone on. -/
theorem Good.go (h : Good n s) {pc : Pc} (hk : pc = .out ∨ k = s.rounds.length % n) : Good n (s.go k pc) where
  ring := h.ring
  rounds := h.rounds
  turn j hj := by
    have hj : Function.update s.pc k pc j ≠ .out := hj
    show j = s.rounds.length % n
    rcases eq_or_ne j k with rfl | hne
    · rw [Function.update_self] at hj
      exact hk.resolve_left hj
    · rw [Function.update_of_ne hne] at hj
      exact h.turn j hj
  server := h.server
  accepted := h.accepted

/-- The server whose turn it is begins; the others leave the socket alone. -/
theorem Good.run (h : Good n s) (hn : 0 < n) (k : ℕ) : ∃ s', s.step (.run k) = some s' ∧ Good n s' := by
  obtain ⟨hindex, hnode⟩ := h.index hn
  unfold System.step
  dsimp only
  rw [hindex, Option.bind_some, hnode, Option.map_some]
  refine ⟨_, rfl, ?_⟩
  dsimp only
  split_ifs with hk
  · exact h.go (Or.inr hk.symm)
  · exact h

/-- The `ASSERT` of `add_tcpconnection` holds: there is a free slot where the count is below the number of
slots. -/
theorem Good.accept (h : Good n s) (hn : 0 < n) (hk : s.pc k = .accept) (fails : Bool) (now : UInt32) :
    ∃ s', s.accept k fails now = some s' ∧ Good n s' := by
  have hturn : k = s.rounds.length % n := h.turn k (by rw [hk]; nofun)
  have hlt : k < n := hturn ▸ Nat.mod_lt _ hn
  unfold System.accept
  by_cases hcount : (s.server k).conns.aliveCount < tcplistMax
  · rw [if_pos hcount]
    cases hb : s.backlog with
    | nil => exact ⟨_, rfl, h.go (Or.inr hturn)⟩
    | cons fd rest =>
      dsimp only
      split_ifs
      · exact ⟨_, rfl, h.go (Or.inr hturn)⟩
      · obtain ⟨alive, free, hslots⟩ := (h.server k hlt).divided
        obtain ⟨t, ht, hgood⟩ := (h.server k hlt).step (a := .addTcpconnection fd now)
          (hslots.free_head.mpr hcount)
        rw [ht]
        refine ⟨_, rfl, h.ring, h.rounds, h.turn, setServer_good h.server hgood, ?_⟩
        have hacc := h.accepted
        rw [hb] at hacc
        dsimp only
        rw [List.map_append, List.append_assoc]
        exact hacc
  · rw [if_neg hcount]
    exact ⟨_, rfl, h.go (Or.inr hturn)⟩

/-- The turn is that of the next server. -/
theorem Good.pass (h : Good n s) (hn : 0 < n) (hk : s.pc k = .pass) :
    ∃ s', s.pass k = some s' ∧ Good n s' := by
  obtain ⟨hindex, hnode⟩ := h.index hn
  have hturn : k = s.rounds.length % n := h.turn k (by rw [hk]; nofun)
  unfold System.pass
  rw [hindex, Option.bind_some, hnode, Option.map_some]
  refine ⟨_, rfl, ⟨h.ring.made, h.ring.node, h.ring.none, ?_, h.ring.list⟩, fun i hi => ?_, fun j hj => ?_,
    h.server, h.accepted⟩
  · dsimp only
    rw [if_neg (by omega), List.length_append, List.length_singleton]
  · dsimp only at hi ⊢
    rw [List.length_append, List.length_singleton] at hi
    rcases Nat.lt_succ_iff_lt_or_eq.mp hi with hi | rfl
    · rw [List.getElem?_append_left hi]
      exact h.rounds i hi
    · rw [List.getElem?_concat_length, hturn]
  · have hj : Function.update s.pc k .out j ≠ .out := hj
    rcases eq_or_ne j k with rfl | hne
    · rw [Function.update_self] at hj
      exact absurd rfl hj
    · rw [Function.update_of_ne hne] at hj
      exact absurd ((h.turn j hj).trans hturn.symm) hne

theorem Good.step (h : Good n s) (hn : 0 < n) {a : Label} (hok : System.Ok n s a) :
    ∃ s', s.step a = some s' ∧ Good n s' := by
  cases a with
  | arrive fd =>
    refine ⟨_, rfl, h.ring, h.rounds, h.turn, h.server, ?_⟩
    dsimp only
    rw [← List.append_assoc, h.accepted]
  | run k => exact h.run hn k
  | accept k fails now => exact h.accept hn hok fails now
  | pass k => exact h.pass hn hok
  | other k a =>
    obtain ⟨hk, -, -, hvalid⟩ := hok
    obtain ⟨t, ht, hgood⟩ := (h.server k hk).step hvalid
    refine ⟨s.setServer k t, congrArg (Option.map (s.setServer k)) ht, h.ring, h.rounds, h.turn,
      setServer_good h.server hgood, h.accepted⟩

instance (n : ℕ) (s : System) : DecidablePred (System.Ok n s)
  | .arrive _ => .isTrue trivial
  | .run k => inferInstanceAs (Decidable (k < n ∧ s.pc k = .out))
  | .accept k _ _ => inferInstanceAs (Decidable (s.pc k = .accept))
  | .pass k => inferInstanceAs (Decidable (s.pc k = .pass))
  | .other k a => inferInstanceAs
      (Decidable (k < n ∧ s.pc k = .out ∧ System.IsOther a ∧ NetIds.Valid (s.server k) a))

/-- The listener of the servers below `n`, whose connection lists are new. -/
def System.start (l : Listener) (conns : ℕ → TcpConnectionList) : System where
  listener := l
  server k := { conns := conns k }

/-- **Only one server at a time is at the socket, and they are there in turn**, whatever the order of the
steps of their threads. A connection is accepted once, in the order in which they came, no server has more
than it has slots for, no `ASSERT` fails, and the nodes of the listener can be freed at any time. -/
theorem accept_in_turn (hn : 0 < n) (hl : Listener.listen n = some l) {timeout : UInt16}
    {conns : ℕ → TcpConnectionList}
    (hconns : ∀ k < n, TcpConnectionList.init (UInt8.ofNat k) timeout = some (conns k)) {ls : List Label}
    (hok : Along System.step (System.Ok n) (.start l conns) ls) :
    ∃ s, run System.step (.start l conns) ls = some s ∧
      (∀ k k', s.pc k ≠ .out → s.pc k' ≠ .out → k = k') ∧
      (∀ i < s.rounds.length, s.rounds[i]? = some (i % n)) ∧
      s.accepted.map Prod.snd ++ s.backlog = s.arrived ∧
      (∀ k < n, (s.server k).conns.aliveCount ≤ tcplistMax) ∧
      s.listener.destory = some fun _ => none := by
  obtain ⟨l', hl', hring⟩ := ring_listen n
  cases hl.symm.trans hl'
  have hgood : Good n (.start l conns) := by
    refine ⟨hring, fun i hi => absurd hi (Nat.not_lt_zero i), fun k hk => absurd rfl hk, fun k hk => ?_, rfl⟩
    obtain ⟨c, hc, hdiv⟩ := NetIds.divided_init (UInt8.ofNat k) timeout (fun _ => 0) 0
    cases (hconns k hk).symm.trans hc
    exact ⟨hdiv, rfl, fun id n hm => absurd hm List.not_mem_nil⟩
  obtain ⟨s, hs, h⟩ := run_total_along (fun _ _ h hg => h.step hn hg) hok hgood
  refine ⟨s, hs, fun k k' hk hk' => (h.turn k hk).trans (h.turn k' hk').symm, h.rounds, h.accepted,
    fun k hk => ?_, h.ring.destory⟩
  obtain ⟨alive, free, hslots⟩ := (h.server k hk).divided
  rw [hslots.linked.count]
  exact_mod_cast hslots.alive_length

/-- The connections of two servers at their start. -/
def newConns (k : ℕ) : TcpConnectionList :=
  (TcpConnectionList.init (UInt8.ofNat k) 60).getD (.cleared 0 0)

theorem init_newConns (k : ℕ) : TcpConnectionList.init (UInt8.ofNat k) 60 = some (newConns k) := by
  obtain ⟨c, hc, -⟩ := NetIds.divided_init (UInt8.ofNat k) 60 (fun _ => 0) 0
  unfold newConns
  rw [hc]
  rfl

/-- A connection comes, and a server accepts it; the other's turn is next. -/
def oneAccept : List Label :=
  [.arrive 5, .run 1, .run 0, .run 1, .accept 0 false 7, .accept 0 false 7, .pass 0, .run 0, .run 1]

theorem accept_in_turn_one : ∃ l, Listener.listen 2 = some l ∧
    Along System.step (System.Ok 2) (.start l newConns) oneAccept ∧
    ∃ s, run System.step (.start l newConns) oneAccept = some s ∧
      (∀ k k', s.pc k ≠ .out → s.pc k' ≠ .out → k = k') ∧
      (∀ i < s.rounds.length, s.rounds[i]? = some (i % 2)) ∧
      s.accepted.map Prod.snd ++ s.backlog = s.arrived ∧
      (∀ k < 2, (s.server k).conns.aliveCount ≤ tcplistMax) ∧
      s.listener.destory = some fun _ => none := by
  have hok : (Listener.listen 2).all (fun l =>
      Along System.step (System.Ok 2) (.start l newConns) oneAccept) = true := by
    decide +kernel
  obtain ⟨l, hl, -⟩ := ring_listen 2
  rw [hl] at hok
  have hok : Along System.step (System.Ok 2) (.start l newConns) oneAccept := of_decide_eq_true hok
  exact ⟨l, hl, hok, accept_in_turn (by decide) hl (fun k _ => init_newConns k) hok⟩

end ChatShow.Antlib.TcpListener
