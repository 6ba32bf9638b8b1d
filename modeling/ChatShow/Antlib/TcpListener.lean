import ChatShow.Antlib.NetIds
import ChatShow.Lib.Chains

/-! # The listener of the servers

`tcp_listenport` makes a listener with an accepter for each server. The accepters are linked in a ring, and
`_index` is that of the server whose turn it is: a server that it is not leaves the socket alone, and the
one that it is moves it on behind its last `accept`. The servers run in threads of their own, one each.

`none` is an `ASSERT` that fails, or a pointer to a node that is not there. -/

namespace ChatShow.Antlib.TcpListener

open ChatShow.Antlib.TcpConnections ChatShow.Lib.Chains ChatShow.Lib.Runs

/-- A listener; the value of a node is the server that it is the accepter of. -/
structure Listener where
  nodes : Heap ℕ := fun _ => none
  /-- the nodes so far -/
  made : ℕ := 0
  index : Option ℕ := none
  list : Option ℕ := none

namespace Listener

def setNext (l : Listener) (n : ℕ) (next : Option ℕ) : Option Listener :=
  (l.nodes n).map fun c => { l with nodes := Function.update l.nodes n (some { c with next := next }) }

/-- `add_tcp_accepter`. -/
def addTcpAccepter (l : Listener) (a : ℕ) : Option Listener := do
  let node := l.made
  let l := { l with nodes := Function.update l.nodes node (some ⟨a, none⟩), made := node + 1 }
  let l ← match l.list with
    | some n => l.setNext n (some node)
    | none => some { l with index := some node }
  let l := { l with list := some node }
  l.setNext node l.index

/-- `tcp_listenport`, for the servers that are numbered below `n`. -/
def listen (n : ℕ) : Option Listener := (List.range n).foldlM addTcpAccepter {}

/-- The loop of `destory_tcplistener`. -/
def freeNodes : ℕ → Heap ℕ → Option ℕ → Option (Heap ℕ)
  | _, nodes, none => some nodes
  | 0, _, some _ => none
  | k + 1, nodes, some n => (nodes n).bind fun c => freeNodes k (Function.update nodes n none) c.next

/-- `destory_tcplistener`: the nodes that have not been freed. -/
def destory (l : Listener) : Option (Heap ℕ) :=
  match l.list with
  | none => some l.nodes
  | some n => (l.nodes n).bind fun c =>
    freeNodes l.made (Function.update l.nodes n (some { c with next := none })) c.next

end Listener

/-! ### The servers -/

/-- Where the thread of a server is in `tcp_accepter_running`. -/
inductive Pc
  | out
  /-- at the head of the loop -/
  | accept
  /-- before `_index` is written -/
  | pass
  deriving DecidableEq

structure System where
  listener : Listener
  server : ℕ → TcpConnections.State
  pc : ℕ → Pc := fun _ => .out
  /-- the connections that wait at the socket -/
  backlog : List ℤ := []
  /-- the connections so far, and those that have been accepted with their servers -/
  arrived : List ℤ := []
  accepted : List (ℕ × ℤ) := []
  /-- the servers that have moved `_index` on -/
  rounds : List ℕ := []

inductive Label
  /-- a connection comes to the socket -/
  | arrive (fd : ℤ)
  /-- a server calls `tcp_accepter_running` -/
  | run (k : ℕ)
  /-- a turn of its loop, where `tcp_accept` may fail also where a connection waits -/
  | accept (k : ℕ) (fails : Bool) (now : UInt32)
  | pass (k : ℕ)
  /-- what a server does with its connections otherwise -/
  | other (k : ℕ) (a : TcpConnections.Label)

namespace System

def go (s : System) (k : ℕ) (pc : Pc) : System := { s with pc := Function.update s.pc k pc }

/-- A server has got to `t`. Where it has a connection more, `g_mainid` is another one for the others. -/
def setServer (s : System) (k : ℕ) (t : TcpConnections.State) : System :=
  { s with server := fun j =>
      if j = k then t
      else if t.opened = (s.server k).opened then s.server j
      else { s.server j with mainid := (s.server j).mainid + 1, opened := (s.server j).opened + 1 } }

/-- A turn of the loop of `tcp_accepter_running`. -/
def accept (s : System) (k : ℕ) (fails : Bool) (now : UInt32) : Option System :=
  if (s.server k).conns.aliveCount < tcplistMax then
    match s.backlog with
    | [] => some (s.go k .pass)
    | fd :: rest =>
      if fails then some (s.go k .pass)
      else ((s.server k).step (.addTcpconnection fd now)).map fun t =>
        { s.setServer k t with backlog := rest, accepted := s.accepted ++ [(k, fd)] }
  else some (s.go k .pass)

/-- `l->_index = l->_index->_next`. -/
def pass (s : System) (k : ℕ) : Option System :=
  s.listener.index.bind fun n => (s.listener.nodes n).map fun c =>
    { s.go k .out with listener := { s.listener with index := c.next }, rounds := s.rounds ++ [k] }

def step (s : System) : Label → Option System
  | .arrive fd => some { s with backlog := s.backlog ++ [fd], arrived := s.arrived ++ [fd] }
  | .run k =>
    s.listener.index.bind fun n => (s.listener.nodes n).map fun c =>
      if c.val = k then s.go k .accept else s
  | .accept k fails now => s.accept k fails now
  | .pass k => s.pass k
  | .other k a => ((s.server k).step a).map (s.setServer k)

/-- What a server does with its connections, but for accepting them. -/
def IsOther : TcpConnections.Label → Prop
  | .addTcpconnection .. | .otherServer => False
  | _ => True

instance : DecidablePred IsOther := fun a => by
  unfold IsOther
  split <;> infer_instance

/-- The steps there are, of the servers below `n`. A server does one thing at a time, and looks up netids
that it has given. -/
def Ok (n : ℕ) (s : System) : Label → Prop
  | .arrive _ => True
  | .run k => k < n ∧ s.pc k = .out
  | .accept k _ _ => s.pc k = .accept
  | .pass k => s.pc k = .pass
  | .other k a => k < n ∧ s.pc k = .out ∧ IsOther a ∧ NetIds.Valid (s.server k) a

end System

/-! ### The ring -/

variable {l l' : Listener} {n r : ℕ}

/-- The nodes are those of the servers below `n`, and `_index` has been moved on `r` times. -/
structure Ring (l : Listener) (n r : ℕ) : Prop where
  made : l.made = n
  node : ∀ k < n, l.nodes k = some ⟨k, some ((k + 1) % n)⟩
  none : ∀ k, n ≤ k → l.nodes k = none
  index : l.index = if n = 0 then .none else some (r % n)
  list : l.list = if n = 0 then .none else some (n - 1)

theorem ring_empty : Ring {} 0 0 where
  made := rfl
  node k hk := absurd hk (Nat.not_lt_zero k)
  none _ _ := rfl
  index := rfl
  list := rfl

/-- **A new accepter is put in the ring behind the last.** -/
theorem Ring.add (h : Ring l n 0) : ∃ l', l.addTcpAccepter n = some l' ∧ Ring l' (n + 1) 0 := by
  have hnew : Function.update l.nodes n (some ⟨n, .none⟩) n = some ⟨n, .none⟩ := Function.update_self ..
  rcases Nat.eq_zero_or_pos n with rfl | hn
  · have hlist : l.list = .none := h.list
    refine ⟨{ nodes := Function.update (Function.update l.nodes 0 (some ⟨0, .none⟩)) 0 (some ⟨0, some 0⟩)
              made := 1, index := some 0, list := some 0 }, ?_, rfl, fun k hk => ?_, fun k hk => ?_, rfl, rfl⟩
    · simp [Listener.addTcpAccepter, Listener.setNext, hlist, h.made]
    · rw [Nat.lt_one_iff.mp hk]
      rfl
    · have hk0 : k ≠ 0 := by omega
      dsimp only
      rw [Function.update_of_ne hk0, Function.update_of_ne hk0]
      exact h.none k (Nat.zero_le k)
  · have hlist : l.list = some (n - 1) := by rw [h.list, if_neg (by omega)]
    have hindex : l.index = some 0 := by rw [h.index, if_neg (by omega), Nat.zero_mod]
    have hne : n - 1 ≠ n := by omega
    have hlast : Function.update l.nodes n (some ⟨n, .none⟩) (n - 1) = some ⟨n - 1, some ((n - 1 + 1) % n)⟩ := by
      rw [Function.update_of_ne hne]
      exact h.node (n - 1) (by omega)
    refine ⟨{ nodes := Function.update (Function.update (Function.update l.nodes n (some ⟨n, .none⟩)) (n - 1)
                (some ⟨n - 1, some n⟩)) n (some ⟨n, some 0⟩)
              made := n + 1, index := some 0, list := some n }, ?_, rfl, fun k hk => ?_, fun k hk => ?_, ?_, ?_⟩
    · simp [Listener.addTcpAccepter, Listener.setNext, hlist, hindex, h.made, hlast, hne.symm]
    · dsimp only
      rcases eq_or_ne k n with rfl | hkn
      · rw [Function.update_self, Nat.mod_self]
      · rw [Function.update_of_ne hkn]
        rcases eq_or_ne k (n - 1) with rfl | hkl
        · rw [Function.update_self, Nat.mod_eq_of_lt (by omega), Nat.sub_add_cancel hn]
        · rw [Function.update_of_ne hkl, Function.update_of_ne hkn, h.node k (by omega),
            Nat.mod_eq_of_lt (show k + 1 < n by omega), Nat.mod_eq_of_lt (show k + 1 < n + 1 by omega)]
    · dsimp only
      rw [Function.update_of_ne (by omega), Function.update_of_ne (by omega),
        Function.update_of_ne (by omega)]
      exact h.none k (by omega)
    · rw [if_neg (Nat.succ_ne_zero n), Nat.zero_mod]
    · rw [if_neg (Nat.succ_ne_zero n)]
      rfl

theorem ring_listen (n : ℕ) : ∃ l, Listener.listen n = some l ∧ Ring l n 0 := by
  induction n with
  | zero => exact ⟨_, rfl, ring_empty⟩
  | succ n ih =>
    obtain ⟨l, hl, hring⟩ := ih
    obtain ⟨l', hl', hring'⟩ := hring.add
    refine ⟨l', ?_, hring'⟩
    unfold Listener.listen at hl ⊢
    rw [List.range_succ, List.foldlM_append, hl]
    simp [hl']

/-- The ring is opened behind its last node, and is a chain then. -/
theorem Ring.isChain (h : Ring l n r) (k : ℕ) (hk : k < n) :
    IsChain (Function.update l.nodes (n - 1) (some ⟨n - 1, .none⟩)) (some k)
      ((List.range' k (n - k)).map fun i => (i, i)) := by
  obtain ⟨d, hd⟩ : ∃ d, n - k = d + 1 := Nat.exists_eq_succ_of_ne_zero (by omega)
  induction d generalizing k with
  | zero =>
    have hlast : k = n - 1 := by omega
    rw [hd, hlast]
    exact ⟨rfl, .none, Function.update_self .., rfl⟩
  | succ d ih =>
    have hne : k ≠ n - 1 := by omega
    rw [hd]
    refine ⟨rfl, some (k + 1), ?_, ?_⟩
    · rw [Function.update_of_ne hne, h.node k hk, Nat.mod_eq_of_lt (by omega)]
    · have htail := ih (k + 1) (by omega) (by omega)
      rw [show n - (k + 1) = d + 1 by omega] at htail
      exact htail

theorem freeNodes_isChain {nodes : Heap ℕ} {p : Option ℕ} {c : List (ℕ × ℕ)} (h : IsChain nodes p c)
    (hnd : (addrs c).Nodup) {k : ℕ} (hk : c.length ≤ k) :
    ∃ nodes', Listener.freeNodes k nodes p = some nodes' ∧ Frees nodes nodes' c [] := by
  induction c generalizing nodes p k with
  | nil =>
    rw [show p = none from h]
    refine ⟨nodes, ?_, Frees.refl nodes []⟩
    unfold Listener.freeNodes
    rfl
  | cons x c ih =>
    obtain ⟨k, rfl⟩ := Nat.exists_eq_succ_of_ne_zero (Nat.ne_of_gt (Nat.lt_of_lt_of_le (Nat.succ_pos _) hk))
    obtain ⟨q, hx, hchain, hfrees⟩ := h.free hnd
    obtain ⟨rfl, -⟩ := id h
    obtain ⟨nodes', hrun, hfrees'⟩ := ih hchain (List.nodup_cons.mp hnd).2 (Nat.le_of_succ_le_succ hk)
    refine ⟨nodes', ?_, hfrees.trans hfrees' fun a ha => List.mem_cons_of_mem _ ha⟩
    rw [Listener.freeNodes, hx]
    exact hrun

/-- **`destory_tcplistener` frees each node once**, wherever `_index` is in the ring. -/
theorem Ring.destory (h : Ring l n r) : l.destory = some fun _ => .none := by
  unfold Listener.destory
  rcases Nat.eq_zero_or_pos n with rfl | hn
  · have hlist : l.list = .none := h.list
    rw [hlist]
    exact congrArg some (funext fun k => h.none k (Nat.zero_le k))
  · have hlist : l.list = some (n - 1) := by rw [h.list, if_neg (by omega)]
    rw [hlist]
    dsimp only
    rw [h.node (n - 1) (by omega), Option.bind_some, Nat.sub_add_cancel hn, Nat.mod_self, h.made]
    have haddrs : addrs ((List.range' 0 (n - 0)).map fun i => (i, i)) = List.range n := by
      rw [addrs, List.map_map, Nat.sub_zero, ← List.range_eq_range']
      exact List.map_id _
    obtain ⟨nodes', hrun, hfrees⟩ := freeNodes_isChain (h.isChain 0 hn)
      (by rw [haddrs]; exact List.nodup_range) (k := n) (by simp)
    rw [hrun]
    refine congrArg some (funext fun k => ?_)
    rcases Nat.lt_or_ge k n with hk | hk
    · exact hfrees.freed k (by rw [haddrs]; exact List.mem_range.mpr hk) List.not_mem_nil
    · rw [hfrees.other k (by rw [haddrs]; exact fun hm => absurd (List.mem_range.mp hm) (Nat.not_lt.mpr hk)),
        Function.update_of_ne (by omega)]
      exact h.none k hk

end ChatShow.Antlib.TcpListener
