import ChatShow.Antlib.TcpConnections
import ChatShow.Lib.Runs

/-! # Connections and their netids

In every state of a server, the slots are divided into those of the list of connections that are alive
and those of the queue of free ones, and a netid leads to its own connection or to none: that of a
connection that is closed is never the one of the next in its slot (`netIds_run`). -/

namespace ChatShow.Antlib.NetIds

open ChatShow.Antlib.TcpConnections ChatShow.Lib.DoubleList ChatShow.Lib.Runs

/-! ### The two lists -/

/-- The nodes of the two lists. -/
structure Linked (c : TcpConnectionList) (alive free : List ℕ) : Prop where
  isAlive : IsList c.nodes c.aliveList alive
  isFree : IsList c.nodes c.freeQueue free
  apart : ∀ i ∈ alive, i ∉ free
  count : c.aliveCount = alive.length

section

variable {c : TcpConnectionList} {alive free l₁ l₂ : List ℕ} {i : ℕ}

theorem Linked.popFree (h : Linked c alive (i :: free)) :
    ∃ nodes queue, c.popFree = some (some i, { c with nodes := nodes, freeQueue := queue }) ∧
      Linked { c with nodes := nodes, freeQueue := queue } alive free := by
  obtain ⟨nodes, queue, heq, hfree, hn⟩ := h.isFree.pop
  have hapart (j : ℕ) (hj : j ∈ alive) : j ∉ free := fun hm => h.apart j hj (List.mem_cons_of_mem i hm)
  refine ⟨nodes, queue, ?_, h.isAlive.apart hn hapart, hfree, hapart, h.count⟩
  unfold TcpConnectionList.popFree
  rw [heq]
  rfl

theorem Linked.popFree_empty (h : Linked c alive []) : c.popFree = some (none, c) := by
  unfold TcpConnectionList.popFree
  rw [pop_empty h.isFree]
  rfl

theorem Linked.pushFree (h : Linked c alive free) (ha : i ∉ alive) (hf : i ∉ free) :
    ∃ nodes queue, c.pushFree i = some { c with nodes := nodes, freeQueue := queue } ∧
      Linked { c with nodes := nodes, freeQueue := queue } alive (free ++ [i]) := by
  obtain ⟨nodes, queue, heq, hfree, hn⟩ := h.isFree.addTail hf
  have hapart (j : ℕ) (hj : j ∈ alive) : j ∉ free ++ [i] := fun hm => by
    rcases List.mem_append.mp hm with hm | hm
    · exact h.apart j hj hm
    · exact ha (List.mem_singleton.mp hm ▸ hj)
  refine ⟨nodes, queue, ?_, h.isAlive.apart hn hapart, hfree, hapart, h.count⟩
  unfold TcpConnectionList.pushFree
  rw [heq]
  rfl

theorem Linked.pushAlive (h : Linked c alive free) (ha : i ∉ alive) (hf : i ∉ free) :
    ∃ nodes queue, c.pushAlive i =
        some { c with nodes := nodes, aliveList := queue, aliveCount := c.aliveCount + 1 } ∧
      queue.tail = some i ∧
      Linked { c with nodes := nodes, aliveList := queue, aliveCount := c.aliveCount + 1 }
        (alive ++ [i]) free := by
  obtain ⟨nodes, queue, heq, halive, hn⟩ := h.isAlive.addTail ha
  have hapart (j : ℕ) (hj : j ∈ alive ++ [i]) : j ∉ free := by
    rcases List.mem_append.mp hj with hj | hj
    · exact h.apart j hj
    · rwa [List.mem_singleton.mp hj]
  refine ⟨nodes, queue, ?_, halive.tail.trans (List.getLast?_concat ..), halive,
    h.isFree.apart hn fun j hj hm => hapart j hm hj, hapart, ?_⟩
  · unfold TcpConnectionList.pushAlive
    rw [heq]
    rfl
  · dsimp only
    rw [h.count, List.length_append]
    rfl

theorem Linked.setConn (h : Linked c alive free) (i : ℕ) (x : TcpConnection) :
    Linked (c.setConn i x) alive free := ⟨h.isAlive, h.isFree, h.apart, h.count⟩

/-- A connection leaves the list of those that are alive. -/
theorem Linked.leave (h : Linked c (l₁ ++ i :: l₂) free) :
    ∃ nodes queue, remove c.nodes c.aliveList i = some (nodes, queue) ∧
      Linked { c with aliveCount := c.aliveCount - 1, nodes := nodes, aliveList := queue }
        (l₁ ++ l₂) free := by
  obtain ⟨nodes, queue, heq, halive, hn⟩ := h.isAlive.remove
  have hsub (j : ℕ) (hj : j ∈ l₁ ++ l₂) : j ∈ l₁ ++ i :: l₂ :=
    (List.Sublist.append_left (List.sublist_cons_self i l₂) l₁).subset hj
  have hapart (j : ℕ) (hj : j ∈ l₁ ++ l₂) : j ∉ free := h.apart j (hsub j hj)
  refine ⟨nodes, queue, heq, halive, h.isFree.apart hn fun j hj hm => hapart j hm hj, hapart, ?_⟩
  have hcount := h.count
  simp only [List.length_append, List.length_cons] at hcount ⊢
  omega

end

/-! ### The slots -/

/-- What holds of the slots: those that are alive have the number of their connection, below `opened`,
and those that are free have no netid. -/
structure Slots (c : TcpConnectionList) (conn : ℕ → ℕ) (opened : ℕ) (alive free : List ℕ) : Prop where
  linked : Linked c alive free
  perm : (alive ++ free).Perm (List.range tcplistMax)
  own : ∀ i < tcplistMax, (c.list i).id.arrayid = UInt16.ofNat i ∧ (c.list i).id.listid = c.listId
  live : ∀ i ∈ alive, (c.list i).id.mask = tcpidMask ∧
    (c.list i).id.index = UInt32.ofNat (conn i) ∧ conn i < opened
  freed : ∀ i ∈ free, (c.list i).id.mask = 0

/-- A netid that the list may have given. -/
structure OfList (c : TcpConnectionList) (id : TcpId) : Prop where
  listid : id.listid = c.listId
  arrayid : id.arrayid.toNat < tcplistMax
  mask : id.mask = tcpidMask

section

variable {c c' : TcpConnectionList} {conn conn' : ℕ → ℕ} {opened opened' : ℕ}
  {alive free alive' free' l₁ l₂ : List ℕ} {i : ℕ} {x : TcpConnection}

theorem Slots.mem_iff (h : Slots c conn opened alive free) : i ∈ alive ∨ i ∈ free ↔ i < tcplistMax := by
  rw [← List.mem_append, h.perm.mem_iff, List.mem_range]

/-- A slot gets another connection, and may get to the other list. -/
theorem Slots.update (h : Slots c conn opened alive free) (hlinked : Linked c' alive' free')
    (hperm : (alive' ++ free').Perm (alive ++ free)) (hlist : c'.list = Function.update c.list i x)
    (hlistid : c'.listId = c.listId)
    (hown : x.id.arrayid = (c.list i).id.arrayid ∧ x.id.listid = (c.list i).id.listid)
    (halive : ∀ j ∈ alive', j ≠ i → j ∈ alive) (hfree : ∀ j ∈ free', j ≠ i → j ∈ free)
    (hconn : ∀ j, j ≠ i → conn' j = conn j) (hopened : opened ≤ opened')
    (hlive : i ∈ alive' → x.id.mask = tcpidMask ∧ x.id.index = UInt32.ofNat (conn' i) ∧ conn' i < opened')
    (hfreed : i ∈ free' → x.id.mask = 0) : Slots c' conn' opened' alive' free' := by
  have hself : c'.list i = x := by
    rw [hlist]
    exact Function.update_self ..
  have hother (j : ℕ) (hj : j ≠ i) : c'.list j = c.list j := by
    rw [hlist]
    exact Function.update_of_ne hj ..
  refine ⟨hlinked, hperm.trans h.perm, fun j hj => ?_, fun j hj => ?_, fun j hj => ?_⟩
  · by_cases hji : j = i
    · subst hji
      rw [hself, hlistid, hown.1, hown.2]
      exact h.own j hj
    · rw [hother j hji, hlistid]
      exact h.own j hj
  · by_cases hji : j = i
    · subst hji
      rw [hself]
      exact hlive hj
    · obtain ⟨hmask, hindex, hlt⟩ := h.live j (halive j hj hji)
      rw [hother j hji, hconn j hji]
      exact ⟨hmask, hindex, Nat.lt_of_lt_of_le hlt hopened⟩
  · by_cases hji : j = i
    · subst hji
      rw [hself]
      exact hfreed hj
    · rw [hother j hji]
      exact h.freed j (hfree j hj hji)

theorem Slots.setConn (h : Slots c conn opened alive free) (hid : x.id = (c.list i).id) :
    Slots (c.setConn i x) conn opened alive free := by
  refine h.update (h.linked.setConn i x) (List.Perm.refl _) rfl rfl ⟨hid ▸ rfl, hid ▸ rfl⟩
    (fun _ hj _ => hj) (fun _ hj _ => hj) (fun _ _ => rfl) (Nat.le_refl _) ?_ ?_
  · exact fun hi => hid ▸ h.live i hi
  · exact fun hi => hid ▸ h.freed i hi

/-- **A connection that is closed becomes a free slot.** -/
theorem Slots.back (h : Slots c conn opened (l₁ ++ i :: l₂) free) (hclosed : (c.list i).socket = errorFd) :
    ∃ c', c.back i = some c' ∧ Slots c' conn opened (l₁ ++ l₂) (free ++ [i]) ∧ c'.listId = c.listId := by
  obtain ⟨nodes, queue, hremove, hlinked⟩ := h.linked.leave
  have hnodup := h.perm.nodup_iff.mpr List.nodup_range
  have ha : i ∉ l₁ ++ l₂ := (List.nodup_middle.mp (List.Nodup.of_append_left hnodup)).notMem
  have hf : i ∉ free := h.linked.apart i (by simp)
  have hcount : c.aliveCount > 0 := by
    rw [h.linked.count, List.length_append, List.length_cons]
    omega
  have hmove : (l₁ ++ l₂ ++ (free ++ [i])).Perm (l₁ ++ i :: l₂ ++ free) := by
    rw [List.append_assoc, List.append_assoc]
    refine List.Perm.append_left l₁ ?_
    rw [List.cons_append, ← List.append_assoc]
    exact List.perm_append_singleton i (l₂ ++ free)
  obtain ⟨nodes', queue', hpush, hlinked'⟩ := (hlinked.setConn i { c.list i with
    id := { (c.list i).id with mask := 0 } }).pushFree ha hf
  refine ⟨_, ?_, h.update hlinked' hmove rfl rfl ⟨rfl, rfl⟩ ?_ ?_ (fun _ _ => rfl) (Nat.le_refl _)
    (fun hi => absurd hi ha) (fun _ => rfl), rfl⟩
  · unfold TcpConnectionList.back TcpConnection.free
    rw [if_pos hclosed, if_pos hcount, hremove, if_pos hclosed]
    exact hpush
  · intro j hj _
    rw [List.mem_append, List.mem_cons]
    exact (List.mem_append.mp hj).imp_right Or.inr
  · exact fun j hj hji => (List.mem_append.mp hj).resolve_right fun hm => hji (List.mem_singleton.mp hm)

theorem back_open (hopen : (c.list i).socket ≠ errorFd) : c.back i = some c := if_neg hopen

/-- What a netid leads to. -/
theorem Slots.get (h : Slots c conn opened alive free) {id : TcpId} (hid : OfList c id) :
    ∃ r, c.get id = some r ∧ ∀ i, r = some i → i ∈ alive ∧ (c.list i).id = id := by
  unfold TcpConnectionList.get
  rw [if_pos ⟨hid.listid, hid.arrayid, hid.mask⟩]
  refine ⟨_, rfl, fun i hi => ?_⟩
  obtain ⟨⟨heq, -⟩, hi⟩ := Option.ite_none_right_eq_some.mp hi
  cases hi
  refine ⟨(h.mem_iff.mpr hid.arrayid).resolve_right fun hfree => ?_, heq⟩
  have hmask := h.freed _ hfree
  rw [heq, hid.mask] at hmask
  exact absurd hmask (by decide)

/-- The slots are divided into those that are alive and those that are free. -/
def Divided (c : TcpConnectionList) (conn : ℕ → ℕ) (opened : ℕ) : Prop :=
  ∃ alive free, Slots c conn opened alive free

/-- An operation that opens no connection. -/
def Keeps (c : TcpConnectionList) (conn : ℕ → ℕ) (opened : ℕ) (r : Option TcpConnectionList) : Prop :=
  ∃ c', r = some c' ∧ Divided c' conn opened ∧ c'.listId = c.listId

/-- A connection that is alive is changed, and is given back where it is closed. -/
theorem Slots.setBack (h : Slots c conn opened alive free) (hi : i ∈ alive) (hid : x.id = (c.list i).id) :
    Keeps c conn opened ((c.setConn i x).back i) := by
  have hset := h.setConn hid
  by_cases hclosed : ((c.setConn i x).list i).socket = errorFd
  · obtain ⟨l₁, l₂, rfl⟩ := List.append_of_mem hi
    obtain ⟨c', hback, hc', hlistid⟩ := hset.back hclosed
    exact ⟨c', hback, ⟨_, _, hc'⟩, hlistid⟩
  · exact ⟨_, back_open hclosed, ⟨_, _, hset⟩, rfl⟩

theorem Divided.event (h : Divided c conn opened) {id : TcpId} (hid : OfList c id) (error : Bool)
    (hd : Handled) : Keeps c conn opened (c.event id error hd) := by
  obtain ⟨alive, free, h⟩ := h
  obtain ⟨r, hget, hr⟩ := h.get hid
  unfold TcpConnectionList.event
  rw [hget]
  cases r with
  | none => exact ⟨c, rfl, ⟨_, _, h⟩, rfl⟩
  | some i =>
    refine h.setBack (hr i rfl).1 ?_
    cases error <;> rfl

theorem Divided.doTcpconnectionMsg (h : Divided c conn opened) {id : TcpId} (hid : OfList c id)
    (hd : Handled) : Keeps c conn opened (c.doTcpconnectionMsg id hd) := by
  obtain ⟨alive, free, h⟩ := h
  obtain ⟨r, hget, hr⟩ := h.get hid
  unfold TcpConnectionList.doTcpconnectionMsg
  rw [hget]
  cases r with
  | none => exact ⟨c, rfl, ⟨_, _, h⟩, rfl⟩
  | some i => exact h.setBack (hr i rfl).1 rfl

theorem Divided.events (h : Divided c conn opened) {events : List (TcpId × Bool × Handled)}
    (hids : ∀ e ∈ events, OfList c e.1) :
    Keeps c conn opened (events.foldlM (fun c e => c.event e.1 e.2.1 e.2.2) c) := by
  induction events generalizing c with
  | nil => exact ⟨c, rfl, h, rfl⟩
  | cons e events ih =>
    obtain ⟨c₁, h₁, hdiv, hlistid⟩ := h.event (hids e List.mem_cons_self) e.2.1 e.2.2
    have hids' (e' : TcpId × Bool × Handled) (he' : e' ∈ events) : OfList c₁ e'.1 := by
      obtain ⟨hl, ha, hm⟩ := hids e' (List.mem_cons_of_mem e he')
      exact ⟨hl.trans hlistid.symm, ha, hm⟩
    obtain ⟨c', h', hdiv', hlistid'⟩ := ih hdiv hids'
    refine ⟨c', ?_, hdiv', hlistid'.trans hlistid⟩
    rw [List.foldlM_cons, h₁]
    exact h'

/-- The loop over the connections that are alive comes to the end of the list; the node behind the one
that is taken out is read before. -/
theorem Slots.clear {now : UInt32} (n : ℕ) (h : Slots c conn opened (l₁ ++ l₂) free) (hn : l₂.length ≤ n) :
    Keeps c conn opened (TcpConnectionList.clear now n l₂.head? c) := by
  induction n generalizing c l₁ l₂ free with
  | zero =>
    rw [List.length_eq_zero_iff.mp (Nat.le_zero.mp hn)]
    exact ⟨c, rfl, ⟨_, _, h⟩, rfl⟩
  | succ n ih =>
    cases l₂ with
    | nil => exact ⟨c, rfl, ⟨_, _, h⟩, rfl⟩
    | cons i l₂ =>
      have hnext := (h.linked.isAlive.links l₁ i l₂ rfl).2
      have hlen : l₂.length ≤ n := Nat.le_of_succ_le_succ hn
      rw [List.head?_cons]
      unfold TcpConnectionList.clear
      rw [hnext]
      dsimp only
      by_cases ht : (c.list i).isTimeout now = true
      · rw [if_pos ht]
        have hset := h.setConn (i := i) (x := (c.list i).close) rfl
        obtain ⟨c₁, hback, h₁, hlistid⟩ := hset.back (congrArg _ (Function.update_self ..))
        obtain ⟨c', h', hdiv, hlistid'⟩ := ih h₁ hlen
        refine ⟨c', ?_, hdiv, hlistid'.trans hlistid⟩
        rw [hback]
        exact h'
      · rw [if_neg ht]
        have heq : l₁ ++ i :: l₂ = l₁ ++ [i] ++ l₂ := by simp
        exact ih (heq ▸ h) hlen

theorem Slots.alive_length (h : Slots c conn opened alive free) : alive.length ≤ tcplistMax := by
  have hlen := h.perm.length_eq
  rw [List.length_append, List.length_range] at hlen
  omega

theorem Divided.run (h : Divided c conn opened) {events : List (TcpId × Bool × Handled)}
    (hids : ∀ e ∈ events, OfList c e.1) (now : UInt32) : Keeps c conn opened (c.run events now) := by
  obtain ⟨c₁, h₁, hdiv, hlistid⟩ := h.events hids
  unfold TcpConnectionList.run
  rw [h₁]
  by_cases hnow : c₁.nextClearTime > now
  · exact ⟨c₁, if_pos hnow, hdiv, hlistid⟩
  · obtain ⟨alive, free, hslots⟩ := hdiv
    obtain ⟨c', h', hdiv', hlistid'⟩ := @Slots.clear _ _ _ free [] alive
      (now - UInt32.ofNat c₁.timeoutSeconds.toNat) tcplistMax hslots hslots.alive_length
    refine ⟨c', ?_, hdiv', hlistid'.trans hlistid⟩
    rw [← hslots.linked.isAlive.head] at h'
    exact (if_neg hnow).trans h'

/-! ### New connections -/

/-- A free slot gets a connection with the next number. -/
structure Opens (c : TcpConnectionList) (conn : ℕ → ℕ) (opened : ℕ) (c' : TcpConnectionList) : Prop where
  listid : c'.listId = c.listId
  added : ∃ i, c'.aliveList.tail = some i ∧ OfList c' (c'.list i).id ∧
    (c'.list i).id.index = UInt32.ofNat opened ∧ Divided c' (Function.update conn i opened) (opened + 1)

theorem Slots.popFree (h : Slots c conn opened alive (i :: free)) :
    ∃ c', c.popFree = some (some i, c') ∧ Linked c' alive free ∧ c'.list = c.list ∧ c'.listId = c.listId := by
  obtain ⟨nodes, queue, heq, hlinked⟩ := h.linked.popFree
  exact ⟨_, heq, hlinked, rfl, rfl⟩

theorem Slots.open (h : Slots c conn opened alive (i :: free)) (hlinked : Linked c' alive free)
    (hlist : c'.list = c.list) (hlistid : c'.listId = c.listId) (fd : ℤ) (state : TcpState)
    (type : UInt16) (now : UInt32) :
    ∃ c'', (c'.setConn i ((c'.list i).init (UInt32.ofNat opened) fd state type now)).pushAlive i = some c'' ∧
      Opens c conn opened c'' := by
  have hnodup := h.perm.nodup_iff.mpr List.nodup_range
  have hi := (List.nodup_middle.mp hnodup).notMem
  have ha : i ∉ alive := fun hm => hi (List.mem_append_left free hm)
  have hf : i ∉ free := fun hm => hi (List.mem_append_right alive hm)
  have hmax : i < tcplistMax := h.mem_iff.mp (Or.inr List.mem_cons_self)
  obtain ⟨nodes, queue, heq, htail, hpushed⟩ :=
    (hlinked.setConn i ((c'.list i).init (UInt32.ofNat opened) fd state type now)).pushAlive ha hf
  have hown := h.own i hmax
  have hself : (Function.update c'.list i ((c'.list i).init (UInt32.ofNat opened) fd state type now)) i =
      (c.list i).init (UInt32.ofNat opened) fd state type now := by
    rw [Function.update_self, hlist]
  refine ⟨_, heq, hlistid, i, htail, ?_, ?_, alive ++ [i], free, ?_⟩
  · refine ⟨?_, ?_, ?_⟩ <;> dsimp only [TcpConnectionList.setConn] <;> rw [hself]
    · exact hown.2.trans hlistid.symm
    · dsimp only [TcpConnection.init]
      rw [hown.1, UInt16.toNat_ofNat_of_lt' (Nat.lt_trans hmax (by decide))]
      exact hmax
    · rfl
  · dsimp only [TcpConnectionList.setConn]
    rw [hself]
    rfl
  · refine h.update (x := (c.list i).init (UInt32.ofNat opened) fd state type now) hpushed ?_ ?_ hlistid
      ⟨rfl, rfl⟩ ?_ ?_ ?_ (Nat.le_succ _) (fun _ => ?_) (fun hm => absurd hm hf)
    · rw [List.append_assoc]
      exact List.Perm.refl _
    · dsimp only [TcpConnectionList.setConn]
      rw [hlist]
    · exact fun j hj hji => (List.mem_append.mp hj).resolve_right fun hm => hji (List.mem_singleton.mp hm)
    · exact fun j hj _ => List.mem_cons_of_mem i hj
    · exact fun j hji => Function.update_of_ne hji ..
    · rw [Function.update_self]
      exact ⟨rfl, rfl, Nat.lt_succ_self _⟩

/-- A connection that a server accepts gets a slot where one is free. -/
theorem Divided.addTcpconnection (h : Divided c conn opened) (hhead : c.freeQueue.head ≠ none) (fd : ℤ)
    (now : UInt32) :
    ∃ c', c.addTcpconnection (UInt32.ofNat opened) fd now = some c' ∧ Opens c conn opened c' := by
  obtain ⟨alive, free, h⟩ := h
  cases free with
  | nil => exact absurd h.linked.isFree.head hhead
  | cons i free =>
    obtain ⟨c₁, hpop, hlinked, hlist, hlistid⟩ := h.popFree
    unfold TcpConnectionList.addTcpconnection
    rw [hpop]
    exact h.open hlinked hlist hlistid fd .nothng 0 now

/-- A connection that is made to another server gets a slot, where one is free and it does not fail. -/
theorem Divided.addTcpconnecting (h : Divided c conn opened) (re : Connected) (now : UInt32) :
    ∃ c' new, c.addTcpconnecting (UInt32.ofNat opened) re now = some (c', new) ∧
      if new then Opens c conn opened c' else Divided c' conn opened ∧ c'.listId = c.listId := by
  obtain ⟨alive, free, h⟩ := h
  unfold TcpConnectionList.addTcpconnecting
  cases free with
  | nil =>
    rw [h.linked.popFree_empty]
    exact ⟨c, false, rfl, ⟨_, _, h⟩, rfl⟩
  | cons i free =>
    obtain ⟨c₁, hpop, hlinked, hlist, hlistid⟩ := h.popFree
    rw [hpop]
    cases re with
    | failed =>
      have hnodup := h.perm.nodup_iff.mpr List.nodup_range
      have hi := (List.nodup_middle.mp hnodup).notMem
      obtain ⟨nodes, queue, hpush, hpushed⟩ := hlinked.pushFree (fun hm => hi (List.mem_append_left free hm))
        (fun hm => hi (List.mem_append_right alive hm))
      refine ⟨_, false, congrArg (Option.map (·, false)) hpush, ⟨alive, free ++ [i], ?_⟩, hlistid⟩
      refine h.update (x := c.list i) hpushed ?_ ?_ hlistid ⟨rfl, rfl⟩ (fun _ hj _ => hj) ?_ (fun _ _ => rfl)
        (Nat.le_refl _) (fun hm => absurd (List.mem_append_left free hm) hi)
        (fun _ => h.freed i List.mem_cons_self)
      · exact List.Perm.append_left alive (List.perm_append_singleton i free)
      · exact hlist.trans (Function.update_eq_self ..).symm
      · exact fun j hj _ => (List.perm_append_singleton i free).mem_iff.mp hj
    | connected fd =>
      obtain ⟨c', hopen, hc'⟩ := h.open hlinked hlist hlistid fd .nothng 1 now
      exact ⟨c', true, congrArg (Option.map (·, true)) hopen, hc'⟩
    | inProgress fd =>
      obtain ⟨c', hopen, hc'⟩ := h.open hlinked hlist hlistid fd .connecting 1 now
      exact ⟨c', true, congrArg (Option.map (·, true)) hopen, hc'⟩

/-- What `tcp_listener` checks before it accepts: there is a free slot as long as the count is below the
number of slots. -/
theorem Slots.free_head (h : Slots c conn opened alive free) :
    c.freeQueue.head ≠ none ↔ c.aliveCount < tcplistMax := by
  have hlen := h.perm.length_eq
  rw [List.length_append, List.length_range] at hlen
  rw [h.linked.isFree.head, h.linked.count]
  cases free with
  | nil =>
    rw [List.length_nil, Nat.add_zero] at hlen
    simp [hlen]
  | cons i free =>
    rw [List.length_cons] at hlen
    simp
    omega

end

/-! ### The list at its start -/

/-- The first `n` slots are free. -/
structure Made (c : TcpConnectionList) (listid : UInt8) (n : ℕ) : Prop where
  linked : Linked c [] (List.range n)
  made : ∀ i < n, (c.list i).id.arrayid = UInt16.ofNat i ∧ (c.list i).id.listid = listid ∧
    (c.list i).id.mask = 0
  listid : c.listId = listid

theorem made_cleared (listid : UInt8) (timeout : UInt16) :
    Made (TcpConnectionList.cleared listid timeout) listid 0 where
  linked := ⟨isList_empty _, isList_empty _, fun _ hi => absurd hi List.not_mem_nil, rfl⟩
  made i hi := absurd hi (Nat.not_lt_zero i)
  listid := rfl

theorem Made.initSlot {c : TcpConnectionList} {listid : UInt8} {n : ℕ} (h : Made c listid n) :
    ∃ c', c.initSlot listid n = some c' ∧ Made c' listid (n + 1) := by
  obtain ⟨nodes, queue, heq, hlinked⟩ := (h.linked.setConn n { c.list n with
    id := { (c.list n).id with arrayid := UInt16.ofNat n, listid := listid, mask := 0 }
    socket := errorFd }).pushFree List.not_mem_nil (fun hn => Nat.lt_irrefl n (List.mem_range.mp hn))
  refine ⟨_, heq, List.range_succ ▸ hlinked, fun i hi => ?_, h.listid⟩
  dsimp only [TcpConnectionList.setConn]
  by_cases hin : i = n
  · subst hin
    rw [Function.update_self]
    exact ⟨rfl, rfl, rfl⟩
  · rw [Function.update_of_ne hin]
    exact h.made i (Nat.lt_of_le_of_ne (Nat.le_of_lt_succ hi) hin)

theorem made_init (listid : UInt8) (timeout : UInt16) (n : ℕ) :
    ∃ c, (List.range n).foldlM (fun s i => s.initSlot listid i)
      (TcpConnectionList.cleared listid timeout) = some c ∧ Made c listid n := by
  induction n with
  | zero => exact ⟨_, rfl, made_cleared listid timeout⟩
  | succ n ih =>
    obtain ⟨c, hc, hmade⟩ := ih
    obtain ⟨c', hc', hmade'⟩ := hmade.initSlot
    refine ⟨c', ?_, hmade'⟩
    rw [List.range_succ, List.foldlM_append, hc]
    exact congrArg (Option.bind · _) hc'

theorem divided_init (listid : UInt8) (timeout : UInt16) (conn : ℕ → ℕ) (opened : ℕ) :
    ∃ c, TcpConnectionList.init listid timeout = some c ∧ Divided c conn opened := by
  obtain ⟨c, hc, h⟩ := made_init listid timeout tcplistMax
  refine ⟨c, hc, [], List.range tcplistMax, h.linked, ?_, fun i hi => ?_, ?_, fun i hi => ?_⟩
  · rw [List.nil_append]
  · obtain ⟨harrayid, hlistid, -⟩ := h.made i hi
    exact ⟨harrayid, hlistid.trans h.listid.symm⟩
  · exact fun i hi => absurd hi List.not_mem_nil
  · exact (h.made i (List.mem_range.mp hi)).2.2

/-! ### Runs -/

/-- A server accepts a connection where a slot is free, and the netids that are looked up are those of
its connections so far. -/
def Valid (s : State) : Label → Prop
  | .addTcpconnection _ _ => s.conns.freeQueue.head ≠ none
  | .addTcpconnecting _ _ => True
  | .otherServer => True
  | .lookUp id => id ∈ s.netids.map Prod.fst
  | .doTcpconnectionMsg id _ => id ∈ s.netids.map Prod.fst
  | .run events _ => ∀ e ∈ events, e.1 ∈ s.netids.map Prod.fst

instance (s : State) : ∀ a, Decidable (Valid s a)
  | .addTcpconnection _ _ => inferInstanceAs (Decidable (s.conns.freeQueue.head ≠ none))
  | .addTcpconnecting _ _ | .otherServer => .isTrue trivial
  | .lookUp id | .doTcpconnectionMsg id _ => inferInstanceAs (Decidable (id ∈ s.netids.map Prod.fst))
  | .run events _ => inferInstanceAs (Decidable (∀ e ∈ events, e.1 ∈ s.netids.map Prod.fst))

/-- What holds in every state. -/
structure Good (s : State) : Prop where
  divided : Divided s.conns s.conn s.opened
  mainid : s.mainid = UInt32.ofNat s.opened
  netids : ∀ id n, (id, n) ∈ s.netids → OfList s.conns id ∧ id.index = UInt32.ofNat n ∧ n < s.opened

theorem OfList.mono {c c' : TcpConnectionList} {id : TcpId} (h : OfList c id) (hlistid : c'.listId = c.listId) :
    OfList c' id := ⟨h.listid.trans hlistid.symm, h.arrayid, h.mask⟩

theorem Good.ofList {s : State} {id : TcpId} (h : Good s) (hid : id ∈ s.netids.map Prod.fst) :
    OfList s.conns id := by
  obtain ⟨⟨_, n⟩, hm, rfl⟩ := List.mem_map.mp hid
  exact (h.netids _ n hm).1

theorem Good.keeps {s : State} {r : Option TcpConnectionList} (h : Good s)
    (hr : Keeps s.conns s.conn s.opened r) :
    ∃ s', (r.map fun conns => { s with conns := conns }) = some s' ∧ Good s' := by
  obtain ⟨c', rfl, hdiv, hlistid⟩ := hr
  refine ⟨_, rfl, hdiv, h.mainid, fun id n hm => ?_⟩
  obtain ⟨hid, hn⟩ := h.netids id n hm
  exact ⟨hid.mono hlistid, hn⟩

theorem Good.opens {s : State} {c' : TcpConnectionList} (h : Good s)
    (hc : Opens s.conns s.conn s.opened c') : Good (s.opening c') := by
  obtain ⟨hlistid, i, htail, hid, hindex, hdiv⟩ := hc
  have hmain : s.mainid + 1 = UInt32.ofNat (s.opened + 1) := by
    rw [h.mainid, UInt32.ofNat_add]
    rfl
  unfold State.opening
  rw [htail]
  refine ⟨hdiv, hmain, fun id n hm => ?_⟩
  rcases List.mem_append.mp hm with hm | hm
  · obtain ⟨hid', hindex', hlt⟩ := h.netids id n hm
    exact ⟨hid'.mono hlistid, hindex', Nat.lt_succ_of_lt hlt⟩
  · cases List.mem_singleton.mp hm
    exact ⟨hid, hindex, Nat.lt_succ_self _⟩

/-- **Every step can be taken, and keeps what holds.** -/
theorem Good.step {s : State} {a : Label} (h : Good s) (ha : Valid s a) :
    ∃ s', s.step a = some s' ∧ Good s' := by
  cases a with
  | addTcpconnection fd now =>
    obtain ⟨c', heq, hc'⟩ := h.divided.addTcpconnection ha fd now
    rw [← h.mainid] at heq
    exact ⟨s.opening c', congrArg (Option.map s.opening) heq, h.opens hc'⟩
  | addTcpconnecting re now =>
    obtain ⟨c', new, heq, hc'⟩ := h.divided.addTcpconnecting re now
    rw [← h.mainid] at heq
    unfold State.step
    dsimp only
    rw [heq]
    cases new with
    | true => exact ⟨s.opening c', rfl, h.opens hc'⟩
    | false => exact h.keeps ⟨c', rfl, hc'⟩
  | otherServer =>
    obtain ⟨alive, free, hslots⟩ := h.divided
    refine ⟨_, rfl, ⟨alive, free, ⟨hslots.linked, hslots.perm, hslots.own, fun i hi => ?_, hslots.freed⟩⟩,
      ?_, fun id n hm => ?_⟩
    · obtain ⟨hmask, hindex, hlt⟩ := hslots.live i hi
      exact ⟨hmask, hindex, Nat.lt_succ_of_lt hlt⟩
    · dsimp only
      rw [h.mainid, UInt32.ofNat_add]
      rfl
    · obtain ⟨hid, hindex, hlt⟩ := h.netids id n hm
      exact ⟨hid, hindex, Nat.lt_succ_of_lt hlt⟩
  | lookUp id =>
    obtain ⟨alive, free, hslots⟩ := h.divided
    obtain ⟨r, hget, -⟩ := hslots.get (h.ofList ha)
    exact ⟨s, congrArg (Option.map fun _ => s) hget, h⟩
  | doTcpconnectionMsg id hd =>
    exact h.keeps (h.divided.doTcpconnectionMsg (h.ofList ha) hd)
  | run events now =>
    exact h.keeps (h.divided.run (fun e he => h.ofList (ha e he)) now)

/-- As long as the numbers differ, a netid leads to the connection that it was given to. -/
theorem Good.get {s : State} (h : Good s) (hopened : s.opened ≤ UInt32.size) {id : TcpId} {n : ℕ}
    (hid : (id, n) ∈ s.netids) :
    ∃ r, s.conns.get id = some r ∧ ∀ i, r = some i → s.conn i = n := by
  obtain ⟨hof, hindex, hn⟩ := h.netids id n hid
  obtain ⟨alive, free, hslots⟩ := h.divided
  obtain ⟨r, hget, hr⟩ := hslots.get hof
  refine ⟨r, hget, fun i hi => ?_⟩
  obtain ⟨halive, heq⟩ := hr i hi
  obtain ⟨-, hconn, hlt⟩ := hslots.live i halive
  have hnum : UInt32.ofNat (s.conn i) = UInt32.ofNat n := by
    rw [← hconn, heq, hindex]
  have hval := congrArg UInt32.toNat hnum
  rwa [UInt32.toNat_ofNat_of_lt' (Nat.lt_of_lt_of_le hlt hopened),
    UInt32.toNat_ofNat_of_lt' (Nat.lt_of_lt_of_le hn hopened)] at hval

/-- **In every state of a server, the list of those that are alive and the queue of the free ones divide
the slots, the count is the length of the first, and a netid leads to its own connection or to none**, as
long as there are at most 2^32 connections. -/
theorem netIds_run (listid : UInt8) (timeout : UInt16) (l : List Label) :
    ∃ conns, TcpConnectionList.init listid timeout = some conns ∧
      (Along State.step Valid { conns := conns } l →
        ∃ s, run State.step { conns := conns } l = some s ∧
          (∃ alive free, IsList s.conns.nodes s.conns.aliveList alive ∧
            IsList s.conns.nodes s.conns.freeQueue free ∧
            (alive ++ free).Perm (List.range tcplistMax) ∧ s.conns.aliveCount = alive.length) ∧
          (s.opened ≤ UInt32.size → ∀ id n, (id, n) ∈ s.netids →
            ∃ r, s.conns.get id = some r ∧ ∀ i, r = some i → s.conn i = n)) := by
  obtain ⟨conns, hinit, hdiv⟩ := divided_init listid timeout (fun _ => 0) 0
  have hgood : Good { conns := conns } := ⟨hdiv, rfl, fun id n hm => absurd hm List.not_mem_nil⟩
  refine ⟨conns, hinit, fun hl => ?_⟩
  obtain ⟨s, hs, h⟩ := run_total_along (fun s a hp hg => hp.step hg) hl hgood
  obtain ⟨alive, free, hslots⟩ := h.divided
  exact ⟨s, hs, ⟨alive, free, hslots.linked.isAlive, hslots.linked.isFree, hslots.perm,
    hslots.linked.count⟩, fun hopened id n hid => h.get hopened hid⟩

/-- A connection is accepted, an error ends it, and its netid is looked up. -/
theorem netIds_run_closed :
    ∃ conns s, TcpConnectionList.init 1 60 = some conns ∧
      run State.step { conns := conns } [.addTcpconnection 5 7,
        .run [({ mask := tcpidMask, listid := 1 }, true, ⟨false, 8, .nothng⟩)] 8,
        .lookUp { mask := tcpidMask, listid := 1 }] = some s ∧
      ∃ alive free, IsList s.conns.nodes s.conns.aliveList alive ∧
        IsList s.conns.nodes s.conns.freeQueue free ∧ (alive ++ free).Perm (List.range tcplistMax) := by
  obtain ⟨conns, hinit, h⟩ := netIds_run 1 60 [.addTcpconnection 5 7,
    .run [({ mask := tcpidMask, listid := 1 }, true, ⟨false, 8, .nothng⟩)] 8,
    .lookUp { mask := tcpidMask, listid := 1 }]
  have hall : (TcpConnectionList.init 1 60).all (fun conns =>
      Along State.step Valid { conns := conns } [.addTcpconnection 5 7,
        .run [({ mask := tcpidMask, listid := 1 }, true, ⟨false, 8, .nothng⟩)] 8,
        .lookUp { mask := tcpidMask, listid := 1 }]) = true := by
    decide +kernel
  rw [hinit] at hall
  obtain ⟨s, hs, ⟨alive, free, ha, hf, hperm, -⟩, -⟩ := h (of_decide_eq_true hall)
  exact ⟨conns, s, hinit, hs, alive, free, ha, hf, hperm⟩

end ChatShow.Antlib.NetIds
