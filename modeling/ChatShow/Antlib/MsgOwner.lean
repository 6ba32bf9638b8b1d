import ChatShow.Antlib.HandlerMsg

/-! # Who destroys a message

A message starts with the count 0 and each queue that gets it adds one, so that the count of its queues
is what each of them takes off again. But `free_handler_msg` destroys a message when the count before was
0: the last queue leaves it at 0, and nobody destroys it, unless there was one more `free_handler_msg`
while a queue had it. And a loop over a send queue goes on to what its slot had before where the queue
is empty. -/

namespace ChatShow.Antlib.MsgOwner

open ChatShow.Lib.Runs ChatShow.Antlib.SendQueue ChatShow.Antlib.HandlerMsg

/-! ### What is asked -/

/-- A message is destroyed at most once; one that has been in a queue is destroyed when no queue has it
any more; and no queue has one that is destroyed. -/
structure Owned (s : State) : Prop where
  once : ∀ m, s.destroyed m ≤ 1
  released : ∀ m, s.passed m = true → (s.destroyed m = 1 ↔ m ∉ s.holders)
  live : ∀ m ∈ s.holders, s.destroyed m = 0

/-- The last queue that has a message finds that it has been freed once more. -/
def LastFreed (s : State) (m : ℕ) : Prop := s.held m = 1 → s.used m = 0

/-- Where a send queue is empty its slot is, too. -/
def NothingLeft (q : TcpQueue) : Prop := q.count = 0 → q.first = none

/-- The message at the head of a send queue may be released. -/
def MayRelease (s : State) (q : TcpQueue) : Prop :=
  NothingLeft q ∧ ∀ m ∈ q.first, LastFreed s m ∧ NothingLeft q.pop

/-- What a step has to meet. -/
def Ok (s : State) : Label → Prop
  | .create => True
  | .send i m => i < s.handlers.length ∧ m < s.created ∧ s.destroyed m = 0
  | .handle _ => True
  | .handled i => ∀ h ∈ s.handlers[i]?, ∀ m ∈ h.busy, LastFreed s m
  | .free m => m < s.created ∧ s.destroyed m = 0 ∧ s.used m = s.held m
  | .addMsg i m => m < s.created ∧ s.destroyed m = 0 ∧
    ∀ c ∈ s.conns[i]?, c.sendqueue.count + 1 < tcpQueueNode
  | .write i w => ∀ c ∈ s.conns[i]?,
    if w = .all then MayRelease s c.sendqueue else NothingLeft c.sendqueue
  | .close i => ∀ c ∈ s.conns[i]?, NothingLeft c.sendqueue
  | .drop i => ∀ c ∈ s.conns[i]?, MayRelease s c.sendqueue
  | .connect _ _ => True

instance (s : State) (m : ℕ) : Decidable (LastFreed s m) := inferInstanceAs (Decidable (_ → _))

instance (q : TcpQueue) : Decidable (NothingLeft q) := inferInstanceAs (Decidable (_ → _))

instance (s : State) (q : TcpQueue) : Decidable (MayRelease s q) :=
  inferInstanceAs (Decidable (_ ∧ ∀ m ∈ q.first, LastFreed s m ∧ NothingLeft q.pop))

instance (s : State) : ∀ a, Decidable (Ok s a)
  | .create => .isTrue trivial
  | .send _ _ => inferInstanceAs (Decidable (_ ∧ _ ∧ _))
  | .handle _ => .isTrue trivial
  | .handled i => inferInstanceAs (Decidable (∀ h ∈ s.handlers[i]?, ∀ m ∈ h.busy, LastFreed s m))
  | .free _ => inferInstanceAs (Decidable (_ ∧ _ ∧ _))
  | .addMsg i _ => inferInstanceAs (Decidable (_ ∧ _ ∧
      ∀ c ∈ s.conns[i]?, c.sendqueue.count + 1 < tcpQueueNode))
  | .write i w => inferInstanceAs (Decidable (∀ c ∈ s.conns[i]?,
      if w = .all then MayRelease s c.sendqueue else NothingLeft c.sendqueue))
  | .close i => inferInstanceAs (Decidable (∀ c ∈ s.conns[i]?, NothingLeft c.sendqueue))
  | .drop i => inferInstanceAs (Decidable (∀ c ∈ s.conns[i]?, MayRelease s c.sendqueue))
  | .connect _ _ => .isTrue trivial

/-! ### How many queues have a message -/

theorem count_flatMap_set {α : Type} {l : List α} {f : α → List ℕ} {i : ℕ} {a : α}
    (h : l[i]? = some a) (b : α) (m : ℕ) :
    ((l.set i b).flatMap f).count m + (f a).count m = (l.flatMap f).count m + (f b).count m := by
  induction l generalizing i with
  | nil => cases h
  | cons c l ih =>
    cases i with
    | zero =>
      cases h
      rw [List.set_cons_zero, List.flatMap_cons, List.flatMap_cons, List.count_append,
        List.count_append]
      omega
    | succ i =>
      rw [List.set_cons_succ, List.flatMap_cons, List.flatMap_cons, List.count_append,
        List.count_append]
      have := ih (i := i) (by simpa using h)
      omega

variable {s t : State} {m i : ℕ}

theorem held_setHandler {a : Handler} (h : s.handlers[i]? = some a) (b : Handler)
    (hh : t.handlers = s.handlers.set i b) (hc : t.conns = s.conns) (m : ℕ) :
    t.held m + a.msgs.count m = s.held m + b.msgs.count m := by
  have := count_flatMap_set (f := Handler.msgs) h b m
  unfold State.held State.holders
  rw [hh, hc, List.count_append, List.count_append]
  omega

theorem held_setConn {a : Connection} (h : s.conns[i]? = some a) (b : Connection)
    (hh : t.handlers = s.handlers) (hc : t.conns = s.conns.set i b) (m : ℕ) :
    t.held m + a.sendqueue.pending.count m = s.held m + b.sendqueue.pending.count m := by
  have := count_flatMap_set (f := fun c : Connection => c.sendqueue.pending) h b m
  unfold State.held State.holders
  rw [hh, hc, List.count_append, List.count_append]
  omega

/-- A connection whose queue has what it had. -/
theorem held_setConn_of_eq {a b : Connection} (h : s.conns[i]? = some a)
    (hp : b.sendqueue.pending = a.sendqueue.pending) (hh : t.handlers = s.handlers)
    (hc : t.conns = s.conns.set i b) (m : ℕ) : t.held m = s.held m := by
  have := held_setConn h b hh hc m
  rw [hp] at this
  exact Nat.add_right_cancel this

theorem held_pos_iff : 0 < s.held m ↔ m ∈ s.holders := List.count_pos_iff

/-! ### The invariant -/

/-- A message is destroyed, or has not been in a queue, or the queues that have it have all counted
it, but for one time that it may have been freed. -/
def Kept (s : State) (m : ℕ) : Prop :=
  (s.destroyed m = 1 ∧ s.held m = 0) ∨
  (s.destroyed m = 0 ∧ s.passed m = false ∧ s.held m = 0 ∧ s.used m = 0) ∨
  (s.destroyed m = 0 ∧ s.passed m = true ∧ 0 < s.held m ∧
    (s.used m = s.held m ∨ s.used m + 1 = s.held m))

structure Inv (s : State) : Prop where
  kept : ∀ m, Kept s m
  conns : ∀ c ∈ s.conns, (c.alive = true → Good c.sendqueue) ∧
    (c.alive = false → c.sendqueue.pending = [])

theorem inv_start (handlers conns : ℕ) : Inv (.start handlers conns) := by
  have hempty : (State.start handlers conns).holders = [] := by
    unfold State.holders State.start
    refine List.append_eq_nil_iff.mpr ⟨?_, ?_⟩
    · exact List.flatMap_eq_nil_iff.mpr fun h hh => by rw [List.eq_of_mem_replicate hh]; rfl
    · exact List.flatMap_eq_nil_iff.mpr fun c hc => by rw [List.eq_of_mem_replicate hc]; rfl
  refine ⟨fun m => .inr (.inl ⟨rfl, rfl, ?_, rfl⟩), fun c hc => ?_⟩
  · unfold State.held
    rw [hempty]
    rfl
  · rw [List.eq_of_mem_replicate (show c ∈ List.replicate conns {} from hc)]
    exact ⟨fun h => absurd h (by decide), fun _ => rfl⟩

/-- **The invariant has what is asked.** -/
theorem Inv.toOwned (h : Inv s) : Owned s where
  once m := by
    obtain ⟨hd, -⟩ | ⟨hd, -⟩ | ⟨hd, -⟩ := h.kept m
    · exact Nat.le_of_eq hd
    · omega
    · omega
  released m hp := by
    rw [← held_pos_iff]
    obtain ⟨hd, hh⟩ | ⟨-, hp', -⟩ | ⟨hd, -, hh, -⟩ := h.kept m
    · simp [hd, hh]
    · rw [hp] at hp'
      cases hp'
    · simp [hd, hh]
  live m hm := by
    have hpos := held_pos_iff.mpr hm
    obtain ⟨-, hh⟩ | ⟨hd, -⟩ | ⟨hd, -⟩ := h.kept m
    · rw [hh] at hpos
      cases hpos
    · exact hd
    · exact hd

/-- A message that a queue has is not destroyed. -/
theorem Inv.live_of_held (h : Inv s) (hm : 0 < s.held m) : s.destroyed m = 0 :=
  h.toOwned.live m (held_pos_iff.mp hm)

/-! ### The count -/

/-- A queue that has a message gives it up. -/
theorem freed (h : Inv s) (hm : 0 < s.held m) (hlast : LastFreed s m) :
    ∃ s₁, s.freeHandlerMsg m = some s₁ ∧ s₁.handlers = s.handlers ∧ s₁.conns = s.conns ∧
      s₁.created = s.created ∧
      ∀ s', s'.used = s₁.used → s'.destroyed = s₁.destroyed → s'.passed = s₁.passed →
        (∀ x, s'.held x + [m].count x = s.held x) → ∀ x, Kept s' x := by
  have hlive := h.live_of_held hm
  obtain ⟨-, hz⟩ | ⟨-, -, hz, -⟩ | ⟨-, hp, -, hused⟩ := h.kept m
  · exact absurd hm (by simp [hz])
  · exact absurd hm (by simp [hz])
  have hnonneg : ¬ s.used m < 0 := by omega
  unfold State.freeHandlerMsg
  rw [if_neg (not_or.mpr ⟨not_not_intro hlive, hnonneg⟩)]
  refine ⟨_, rfl, rfl, rfl, rfl, fun s' hu hd hpass hheld x => ?_⟩
  have hx := hheld x
  rw [List.count_singleton] at hx
  by_cases hxm : x = m
  · subst hxm
    rw [if_pos (by simp)] at hx
    unfold Kept
    rw [hu, hd, hpass]
    dsimp only
    rw [Function.update_self]
    by_cases hone : s.held x = 1
    · -- the last queue that has it
      have hzero := hlast hone
      rw [if_pos (by omega), Function.update_self]
      exact .inl ⟨by omega, by omega⟩
    · rw [if_neg (by omega)]
      exact .inr (.inr ⟨hlive, hp, by omega, by omega⟩)
  · rw [if_neg (by simpa using Ne.symm hxm)] at hx
    have hsame : s'.held x = s.held x := hx
    have hdx : s'.destroyed x = s.destroyed x := by
      rw [hd]
      dsimp only
      split_ifs
      · exact Function.update_of_ne hxm _ _
      · rfl
    have hux : s'.used x = s.used x := by
      rw [hu]
      exact Function.update_of_ne hxm _ _
    unfold Kept
    rw [hsame, hdx, hux, hpass]
    exact h.kept x

/-- A queue gets a message. -/
theorem added (h : Inv s) (hlive : s.destroyed m = 0) :
    ∃ s₁, s.addHandlerMsgUsed m = some s₁ ∧ s₁.handlers = s.handlers ∧ s₁.conns = s.conns ∧
      ∀ s', s'.used = s₁.used → s'.destroyed = s₁.destroyed → s'.passed = s₁.passed →
        (∀ x, s'.held x = s.held x + [m].count x) → ∀ x, Kept s' x := by
  unfold State.addHandlerMsgUsed
  rw [if_neg (not_not_intro hlive)]
  refine ⟨_, rfl, rfl, rfl, fun s' hu hd hpass hheld x => ?_⟩
  have hx := hheld x
  rw [List.count_singleton] at hx
  unfold Kept
  rw [hu, hd, hpass]
  dsimp only
  by_cases hxm : x = m
  · subst hxm
    rw [if_pos (by simp)] at hx
    rw [Function.update_self, Function.update_self]
    refine .inr (.inr ⟨hlive, rfl, by omega, ?_⟩)
    obtain ⟨hd', -⟩ | ⟨-, -, hz, hu'⟩ | ⟨-, -, -, hu'⟩ := h.kept x
    · rw [hlive] at hd'
      cases hd'
    · omega
    · omega
  · rw [if_neg (by simpa using Ne.symm hxm)] at hx
    rw [Function.update_of_ne hxm, Function.update_of_ne hxm, hx]
    exact h.kept x

/-- The queues that have a message may change places. -/
theorem Inv.moved (h : Inv s) (hu : t.used = s.used) (hd : t.destroyed = s.destroyed)
    (hp : t.passed = s.passed) (hheld : ∀ x, t.held x = s.held x)
    (hc : ∀ c ∈ t.conns, (c.alive = true → Good c.sendqueue) ∧
      (c.alive = false → c.sendqueue.pending = [])) : Inv t := by
  refine ⟨fun x => ?_, hc⟩
  unfold Kept
  rw [hu, hd, hp, hheld]
  exact h.kept x

/-! ### Handlers -/

/-- The messages that a handler has, with the one that it handles. -/
theorem count_msgs (h : Handler) (x : ℕ) :
    h.msgs.count x = h.queue.count x + h.busy.toList.count x := List.count_append ..

theorem inv_send (h : Inv s) (hi : i < s.handlers.length) (hlive : s.destroyed m = 0) :
    ∃ s', s.sendHandlerMsg i m = some s' ∧ Inv s' := by
  obtain ⟨hl, hget⟩ : ∃ hl, s.handlers[i]? = some hl := ⟨_, List.getElem?_eq_getElem hi⟩
  obtain ⟨s₁, hadd, hh, hc, hkept⟩ := added h hlive
  unfold State.sendHandlerMsg
  rw [hget]
  dsimp only
  rw [hadd]
  refine ⟨{ s₁ with handlers := s₁.handlers.set i { hl with queue := hl.queue ++ [m] } }, rfl,
    hkept _ rfl rfl rfl fun x => ?_, fun c hcm => h.conns c (hc ▸ hcm)⟩
  have := held_setHandler (t := { s₁ with
    handlers := s₁.handlers.set i { hl with queue := hl.queue ++ [m] } }) hget
    { hl with queue := hl.queue ++ [m] } (by rw [← hh]) hc x
  rw [count_msgs, count_msgs] at this
  dsimp only at this
  rw [List.count_append] at this
  omega

theorem inv_handle (h : Inv s) (i : ℕ) : ∃ s', s.handle i = some s' ∧ Inv s' := by
  unfold State.handle
  split
  next m queue hget =>
    have hheld := held_setHandler (t := { s with
      handlers := s.handlers.set i { queue := queue, busy := some m } }) hget _ rfl rfl
    have hpos : 0 < s.held m := by
      have := hheld m
      rw [count_msgs, count_msgs, List.count_cons_self] at this
      unfold State.held
      refine List.count_pos_iff.mpr (List.mem_append_left _ (List.mem_flatMap.mpr
        ⟨_, List.mem_of_getElem? hget, List.mem_append_left _ List.mem_cons_self⟩))
    rw [if_neg (not_not_intro (h.live_of_held hpos))]
    refine ⟨_, rfl, h.moved rfl rfl rfl (fun x => ?_) h.conns⟩
    have := hheld x
    rw [count_msgs, count_msgs, List.count_cons] at this
    simp only [Option.toList_none, Option.toList_some, List.count_nil, List.count_singleton] at this
    omega
  next => exact ⟨s, rfl, h⟩

theorem inv_handled (h : Inv s) (hok : Ok s (.handled i)) :
    ∃ s', s.handled i = some s' ∧ Inv s' := by
  unfold State.handled
  split
  next queue m hget =>
    have hpos : 0 < s.held m := List.count_pos_iff.mpr (List.mem_append_left _
      (List.mem_flatMap.mpr ⟨_, List.mem_of_getElem? hget, List.mem_append_right _ (by simp)⟩))
    obtain ⟨s₁, hfree, hh, hc, -, hkept⟩ := freed h hpos (hok _ hget m rfl)
    rw [hfree]
    refine ⟨{ s₁ with handlers := s₁.handlers.set i { queue := queue, busy := none } }, rfl,
      hkept _ rfl rfl rfl fun x => ?_, fun c hcm => h.conns c (hc ▸ hcm)⟩
    have := held_setHandler (t := { s₁ with
      handlers := s₁.handlers.set i { queue := queue, busy := none } }) hget
      { queue := queue, busy := none } (by rw [← hh]) hc x
    rw [count_msgs, count_msgs] at this
    simp only [Option.toList_none, Option.toList_some, List.count_nil] at this
    omega
  next => exact ⟨s, rfl, h⟩

/-- One `free_handler_msg` for a message that all its queues have counted. -/
theorem inv_free (h : Inv s) (hlive : s.destroyed m = 0) (hused : s.used m = s.held m) :
    ∃ s', s.freeHandlerMsg m = some s' ∧ Inv s' := by
  unfold State.freeHandlerMsg
  rw [if_neg (not_or.mpr ⟨not_not_intro hlive, by omega⟩)]
  refine ⟨_, rfl, fun x => ?_, h.conns⟩
  have hheld : ∀ u d, State.held { s with used := u, destroyed := d } x = s.held x := fun _ _ => rfl
  unfold Kept
  rw [hheld]
  dsimp only
  by_cases hxm : x = m
  · subst hxm
    rw [Function.update_self]
    obtain ⟨hd, -⟩ | ⟨-, -, hz, -⟩ | ⟨-, hp, hpos, -⟩ := h.kept x
    · rw [hlive] at hd
      cases hd
    · rw [if_pos (by omega), Function.update_self]
      exact .inl ⟨by omega, hz⟩
    · rw [if_neg (by omega)]
      exact .inr (.inr ⟨hlive, hp, hpos, by omega⟩)
  · have hd : (if s.used m ≤ 0 then Function.update s.destroyed m (s.destroyed m + 1)
        else s.destroyed) x = s.destroyed x := by
      split_ifs
      · exact Function.update_of_ne hxm _ _
      · rfl
    rw [Function.update_of_ne hxm, hd]
    exact h.kept x

/-! ### Connections -/

/-- Nothing is left in a slot, or it is a message that waits. -/
theorem look_eq (h : Inv s) {q : TcpQueue} (hg : Good q) (hn : NothingLeft q)
    (hw : ∀ m ∈ q.pending, 0 < s.held m) : s.look q = some s := by
  unfold State.look
  obtain hz | hpos := Int.le_iff_eq_or_lt.mp hg.count.1
  · rw [hn hz.symm]
  · obtain ⟨m, hm, -, hp⟩ := hg.pop hpos
    rw [hm]
    dsimp only
    rw [if_neg (not_not_intro (h.live_of_held (hw m (by rw [hp]; exact List.mem_cons_self))))]

/-- The message in the slot of the head is the first that waits. -/
theorem pop_of_first {q : TcpQueue} (hg : Good q) (hn : NothingLeft q) (hf : q.first = some m) :
    Good q.pop ∧ q.pending = m :: q.pop.pending := by
  obtain hz | hpos := Int.le_iff_eq_or_lt.mp hg.count.1
  · rw [hn hz.symm] at hf
    cases hf
  · obtain ⟨m', hm', hpop, hp⟩ := hg.pop hpos
    rw [hf, Option.some.injEq] at hm'
    exact ⟨hpop, by rw [hm', hp]⟩

/-- The connections after one of them has been changed. -/
theorem conns_set (h : Inv s) {c : Connection} (hc : (c.alive = true → Good c.sendqueue) ∧
      (c.alive = false → c.sendqueue.pending = [])) :
    ∀ d ∈ s.conns.set i c, (d.alive = true → Good d.sendqueue) ∧
      (d.alive = false → d.sendqueue.pending = []) := by
  intro d hd
  obtain hd | rfl := List.mem_or_eq_of_mem_set hd
  · exact h.conns d hd
  · exact hc

/-- What waits in the queue of a connection is held. -/
theorem held_of_pending {c : Connection} (hget : s.conns[i]? = some c)
    (hm : m ∈ c.sendqueue.pending) : 0 < s.held m :=
  List.count_pos_iff.mpr (List.mem_append_right _
    (List.mem_flatMap.mpr ⟨_, List.mem_of_getElem? hget, hm⟩))

theorem inv_addMsg (h : Inv s) {c : Connection} (hget : s.conns[i]? = some c) (ha : c.alive = true)
    (hlive : s.destroyed m = 0) (hroom : c.sendqueue.count + 1 < tcpQueueNode) :
    ∃ s', s.addMsg i m c = some s' ∧ Inv s' := by
  have hgood := (h.conns c (List.mem_of_getElem? hget)).1 ha
  obtain ⟨q, hpush, hq, hpend⟩ := hgood.push (by rw [hgood.size]; exact hroom) m
  obtain ⟨s₁, hadd, hh, hc, hkept⟩ := added h hlive
  unfold State.addMsg
  rw [if_neg fun hfull => by omega, hpush, Option.bind_some, hadd]
  refine ⟨{ s₁ with conns := s₁.conns.set i { c with sendqueue := q } }, rfl,
    hkept _ rfl rfl rfl fun x => ?_, ?_⟩
  · have := held_setConn (t := { s₁ with conns := s₁.conns.set i { c with sendqueue := q } }) hget
      { c with sendqueue := q } hh (by rw [← hc]) x
    dsimp only at this
    rw [hpend, List.count_append] at this
    omega
  · dsimp only
    rw [hc]
    exact conns_set h ⟨fun _ => hq, fun hd => absurd ha (by simpa using hd)⟩

theorem inv_close (h : Inv s) {c : Connection} (hget : s.conns[i]? = some c) (ha : c.alive = true)
    (hn : NothingLeft c.sendqueue) : ∃ s', s.close i c = some s' ∧ Inv s' := by
  have hgood := (h.conns c (List.mem_of_getElem? hget)).1 ha
  have hinv : Inv { s with conns := s.conns.set i { c with isOpen := false } } := by
    refine h.moved rfl rfl rfl (held_setConn_of_eq hget ?_ rfl rfl) ?_
    · rfl
    · exact conns_set h ⟨fun _ => hgood, fun hd => absurd ha (by simpa using hd)⟩
  refine ⟨_, ?_, hinv⟩
  unfold State.close
  refine look_eq hinv hgood hn fun m hm => ?_
  have hlt := (List.getElem?_eq_some_iff.mp hget).1
  have hget' : (s.conns.set i { c with isOpen := false })[i]? = some { c with isOpen := false } := by
    rw [List.getElem?_set_self hlt]
  exact held_of_pending (s := { s with conns := s.conns.set i { c with isOpen := false } }) hget' hm

/-- **A connection releases the message at its head.** -/
theorem inv_release (h : Inv s) {c : Connection} (hget : s.conns[i]? = some c) (ha : c.alive = true)
    (hfirst : c.sendqueue.first = some m) (hok : MayRelease s c.sendqueue) :
    ∃ s', s.release i m c = some s' ∧ Inv s' := by
  have hgood := (h.conns c (List.mem_of_getElem? hget)).1 ha
  obtain ⟨hpop, hpend⟩ := pop_of_first hgood hok.1 hfirst
  have hheld : 0 < s.held m := held_of_pending hget (by rw [hpend]; exact List.mem_cons_self)
  obtain ⟨hlast, hnext⟩ := hok.2 m hfirst
  obtain ⟨s₁, hfree, hh, hc, -, hkept⟩ := freed h hheld hlast
  have hinv : Inv { s₁ with
      conns := s₁.conns.set i { c with sendqueue := c.sendqueue.pop } } := by
    refine ⟨hkept _ rfl rfl rfl fun x => ?_, ?_⟩
    · have := held_setConn (t := { s₁ with
        conns := s₁.conns.set i { c with sendqueue := c.sendqueue.pop } }) hget
        { c with sendqueue := c.sendqueue.pop } hh (by rw [← hc]) x
      dsimp only at this
      rw [hpend, List.count_cons] at this
      rw [List.count_singleton]
      omega
    · dsimp only
      rw [hc]
      exact conns_set h ⟨fun _ => hpop, fun hd => absurd ha (by simpa using hd)⟩
  unfold State.release
  rw [hfree, Option.bind_some]
  refine ⟨_, look_eq hinv hpop hnext fun x hx => ?_, hinv⟩
  have hlt := (List.getElem?_eq_some_iff.mp hget).1
  refine held_of_pending (c := { c with sendqueue := c.sendqueue.pop }) (i := i) ?_ hx
  dsimp only
  rw [hc, List.getElem?_set_self hlt]

theorem inv_write (h : Inv s) {c : Connection} (hget : s.conns[i]? = some c) (ha : c.alive = true)
    {w : Write} (hok : Ok s (.write i w)) : ∃ s', s.write i w c = some s' ∧ Inv s' := by
  have hc := hok c hget
  unfold State.write
  split
  next => exact ⟨s, rfl, h⟩
  next m hfirst =>
    have hn : NothingLeft c.sendqueue := by
      split_ifs at hc
      · exact hc.1
      · exact hc
    have hgood := (h.conns c (List.mem_of_getElem? hget)).1 ha
    obtain ⟨-, hpend⟩ := pop_of_first hgood hn hfirst
    have hheld : 0 < s.held m := held_of_pending hget (by rw [hpend]; exact List.mem_cons_self)
    rw [if_neg (not_not_intro (h.live_of_held hheld))]
    cases w with
    | all => exact inv_release h hget ha hfirst (by rwa [if_pos rfl] at hc)
    | part => exact ⟨s, rfl, h⟩
    | error => exact inv_close h hget ha hn

theorem inv_drop (h : Inv s) {c : Connection} (hget : s.conns[i]? = some c) (ha : c.alive = true)
    (hok : MayRelease s c.sendqueue) : ∃ s', s.drop i c = some s' ∧ Inv s' := by
  unfold State.drop
  split
  next m hfirst => exact inv_release h hget ha hfirst hok
  next hfirst =>
    have hgood := (h.conns c (List.mem_of_getElem? hget)).1 ha
    have hempty : c.sendqueue.pending = [] := by
      obtain hz | hpos := Int.le_iff_eq_or_lt.mp hgood.count.1
      · refine List.eq_nil_of_length_eq_zero ?_
        rw [length_pending hgood, ← hz]
        rfl
      · obtain ⟨m, hm, -⟩ := hgood.pop hpos
        rw [hfirst] at hm
        cases hm
    have hnone : (if c.type = 0 then c.sendqueue else {}).pending = [] := by
      split_ifs
      · exact hempty
      · rfl
    refine ⟨_, rfl, h.moved rfl rfl rfl (held_setConn_of_eq hget ?_ rfl rfl) ?_⟩
    · exact hnone.trans hempty.symm
    · exact conns_set h ⟨fun hd => absurd hd Bool.false_ne_true, fun _ => hnone⟩

theorem inv_connect (h : Inv s) {c : Connection} (hget : s.conns[i]? = some c)
    (ha : c.alive = false) (type : ℕ) : ∃ s', s.connect i type c = some s' ∧ Inv s' := by
  have hempty := (h.conns c (List.mem_of_getElem? hget)).2 ha
  refine ⟨_, rfl, h.moved rfl rfl rfl (held_setConn_of_eq hget ?_ rfl rfl) ?_⟩
  · exact (pending_reset _).trans hempty.symm
  · exact conns_set h ⟨fun _ => good_reset _, fun hd => absurd hd.symm Bool.false_ne_true⟩

/-! ### The runs -/

theorem inv_onConn (h : Inv s) {p : Connection → Bool} {f : Connection → Option State}
    (hf : ∀ c, s.conns[i]? = some c → p c = true → ∃ s', f c = some s' ∧ Inv s') :
    ∃ s', s.onConn i p f = some s' ∧ Inv s' := by
  unfold State.onConn
  split
  next c hget =>
    split_ifs with hp
    · exact hf c hget hp
    · exact ⟨s, rfl, h⟩
  next => exact ⟨s, rfl, h⟩

/-- **What a step that meets the condition keeps.** -/
theorem inv_step (h : Inv s) (a : Label) (hok : Ok s a) : ∃ s', s.step a = some s' ∧ Inv s' := by
  cases a with
  | create => exact ⟨_, rfl, h.kept, h.conns⟩
  | send => exact inv_send h hok.1 hok.2.2
  | handle => exact inv_handle h _
  | handled => exact inv_handled h hok
  | free => exact inv_free h hok.2.1 hok.2.2
  | addMsg => exact inv_onConn h fun c hget ha => inv_addMsg h hget ha hok.2.1 (hok.2.2 c hget)
  | write =>
    exact inv_onConn h fun c hget ha => inv_write h hget (Bool.and_eq_true_iff.mp ha).1 hok
  | close =>
    exact inv_onConn h fun c hget ha => inv_close h hget (Bool.and_eq_true_iff.mp ha).1 (hok c hget)
  | drop =>
    exact inv_onConn h fun c hget ha => inv_drop h hget (Bool.and_eq_true_iff.mp ha).1 (hok c hget)
  | connect i type =>
    exact inv_onConn h fun c hget ha => inv_connect h hget (by simpa using ha) type

end ChatShow.Antlib.MsgOwner
