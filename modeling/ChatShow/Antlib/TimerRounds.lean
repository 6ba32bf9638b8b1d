import ChatShow.Antlib.Timer

/-! # When timers are delivered

A timer of a near list is sent at the tick at which it is due. What `do_timer_event` puts into a far
list does not come back in time: `do_timers` moves the list of the block that ends and not that of the
one that begins, it moves the first node only, whose link `add_timer_link` has cut, and then frees this
node where a near list has it. And as a tick is sent before `_times` counts it, a round does not
send what is due when it ends, so that this is a round late. -/

namespace ChatShow.Antlib.TimerRounds

open ChatShow.Lib.LinkedQueue ChatShow.Lib.Runs ChatShow.Antlib.Timer

/-! ### What is asked -/

/-- The message is that of its timer, and is sent in the round in which `_times` first reaches its
`_expire`, or in that in which it is taken from the queue. -/
def InRound (nodes : List Node) (m : Sent) : Prop :=
  ∃ n, nodes[m.node]? = some n ∧ (m.handlerid = n.handlerid ∧ m.msg = n.msg) ∧
    (m.taken = true ∨ m.start < n.due) ∧ n.due ≤ m.ticks

structure OnTime (s : State) : Prop where
  once : (s.sent.map (·.node)).Nodup
  round : ∀ m ∈ s.sent, InRound s.nodes m
  /-- What was due when the last round ended has been sent. -/
  late : ∀ a n, s.nodes[a]? = some n → a ∉ s.queue → n.due ≤ s.start → a ∈ s.sent.map (·.node)
  linked : ∀ i a, Reaches s.next (s.near i).head a ∨ Reaches s.next (s.far i).head a →
    s.freed a = false

/-- A timer of the queue is due already, and `_times` has not come round since, or it is due in the
block of `_times`. -/
def Near (s : State) (n : Node) : Prop :=
  if n.due ≤ s.ticks then n.expire ≤ s.times else n.due / 65536 = s.ticks / 65536

/-- What a step has to meet. -/
def Ok (s : State) : Label → Prop
  | .add sec _ _ => sec ≤ timerMax
  | .tick => True
  | .event => ∀ a < s.nodes.length, ∀ n ∈ s.nodes[a]?,
    if a ∈ s.queue then Near s n else s.freed a = false → n.due ≠ s.ticks

instance (s : State) (n : Node) : Decidable (Near s n) := by
  unfold Near
  infer_instance

instance (s : State) : ∀ a, Decidable (Ok s a)
  | .add sec _ _ => inferInstanceAs (Decidable (sec ≤ timerMax))
  | .tick => inferInstanceAs (Decidable True)
  | .event => inferInstanceAs (Decidable (∀ a < s.nodes.length, ∀ n ∈ s.nodes[a]?,
      if a ∈ s.queue then Near s n else s.freed a = false → n.due ≠ s.ticks))

/-! ### The numbers of the lists -/

theorem toNat_and_mask (t : ℕ) : (UInt32.ofNat t &&& 0xFFFF).toNat = t % 65536 := by
  have hmask : (0xFFFF : UInt32).toNat = 2 ^ 16 - 1 := rfl
  rw [UInt32.toNat_and, hmask, Nat.and_two_pow_sub_one_eq_mod, UInt32.toNat_ofNat']
  omega

theorem toNat_shift (t : ℕ) : (UInt32.ofNat t >>> 16 &&& 0xFFFF).toNat = t / 65536 % 65536 := by
  have hmask : (0xFFFF : UInt32).toNat = 2 ^ 16 - 1 := rfl
  have hshift : (16 : UInt32).toNat % 32 = 16 := rfl
  rw [UInt32.toNat_and, hmask, Nat.and_two_pow_sub_one_eq_mod, UInt32.toNat_shiftRight, hshift,
    UInt32.toNat_ofNat', Nat.shiftRight_eq_div_pow]
  omega

theorem and_mask_eq (t : ℕ) : UInt32.ofNat t &&& 0xFFFF = 0xFFFF ↔ t % 65536 = 65535 := by
  rw [← UInt32.toNat_inj, toNat_and_mask]
  rfl

/-- Two ticks of one block differ in the last 16 bits only. -/
theorem or_mask_eq {t u : ℕ} (h : t / 65536 = u / 65536) :
    UInt32.ofNat t ||| 0xFFFF = UInt32.ofNat u ||| 0xFFFF := by
  have hmask : (0xFFFF : UInt32).toNat = 2 ^ 16 - 1 := rfl
  rw [← UInt32.toNat_inj, UInt32.toNat_or, UInt32.toNat_or, hmask, UInt32.toNat_ofNat',
    UInt32.toNat_ofNat']
  refine Nat.eq_of_testBit_eq fun i => ?_
  rw [Nat.testBit_or, Nat.testBit_or, Nat.testBit_two_pow_sub_one]
  obtain hi | hi := Nat.lt_or_ge i 16
  · simp [hi]
  · obtain ⟨j, rfl⟩ := Nat.exists_eq_add_of_le' hi
    have heq : t % 2 ^ 32 / 2 ^ 16 = u % 2 ^ 32 / 2 ^ 16 := by omega
    have hbit := congrArg (Nat.testBit · j) heq
    simp only [Nat.testBit_div_two_pow] at hbit
    rw [hbit]

theorem expire_le {s : State} {n : Node} (h : Near s n) : n.expire ≤ s.times ↔ n.due ≤ s.ticks := by
  unfold Near at h
  split_ifs at h with hd
  · exact ⟨fun _ => hd, fun _ => h⟩
  · refine ⟨fun hle => absurd hle ?_, fun hle => absurd hle hd⟩
    unfold Node.expire State.times
    rw [UInt32.le_iff_toNat_le, UInt32.toNat_ofNat', UInt32.toNat_ofNat']
    omega

/-! ### The invariant -/

/-- The near list `i` has the nodes `c i`, each due at a tick of the block of `_times` that is not over
and comes after `lo`; the far lists are empty. -/
structure Inv (lo : ℕ) (s : State) (c : ℕ → List ℕ) : Prop where
  near : ∀ i, IsQueue s.next (s.near i) (c i)
  far : ∀ i, s.far i = {}
  nodup : ∀ i, (c i).Nodup
  waits : ∀ i, ∀ a ∈ c i, a ∉ s.queue ∧ s.freed a = false ∧ ∃ n, s.nodes[a]? = some n ∧
    n.due % 65536 = i ∧ n.due / 65536 = s.ticks / 65536 ∧ s.ticks ≤ n.due ∧ lo < n.due
  queued : s.queue.Nodup ∧ ∀ a ∈ s.queue, a < s.nodes.length ∧ s.freed a = false
  freed : ∀ a, s.freed a = true ↔ a ∈ s.sent.map (·.node)
  all : ∀ a < s.nodes.length, a ∈ s.queue ∨ s.freed a = true ∨ ∃ i, a ∈ c i
  once : (s.sent.map (·.node)).Nodup
  round : ∀ m ∈ s.sent, InRound s.nodes m

theorem inv_init : Inv 0 {} fun _ => [] where
  near _ := isQueue_empty _
  far _ := rfl
  nodup _ := List.nodup_nil
  waits _ _ ha := by cases ha
  queued := ⟨List.nodup_nil, fun _ ha => by cases ha⟩
  freed _ := by simp
  all _ ha := by cases ha
  once := List.nodup_nil
  round _ hm := by cases hm

variable {s s' : State} {c : ℕ → List ℕ} {lo : ℕ}

namespace Inv

theorem lt_length (h : Inv lo s c) {i a : ℕ} (ha : a ∈ c i) : a < s.nodes.length := by
  obtain ⟨-, -, n, hn, -⟩ := h.waits i a ha
  exact (List.getElem?_eq_some_iff.mp hn).1

/-- A node is in the list of its tick only. -/
theorem eq_of_mem (h : Inv lo s c) {i j a : ℕ} (hi : a ∈ c i) (hj : a ∈ c j) : i = j := by
  obtain ⟨-, -, n, hn, hni, -⟩ := h.waits i a hi
  obtain ⟨-, -, n', hn', hnj, -⟩ := h.waits j a hj
  rw [hn, Option.some.injEq] at hn'
  rw [← hni, ← hnj, hn']

theorem length_le (h : Inv lo s c) (i : ℕ) : (c i).length ≤ s.nodes.length :=
  length_le_of_nodup (h.nodup i) fun _ ha => h.lt_length ha

/-- **The invariant has what is asked**, where the round has ended at `lo` or before. -/
theorem onTime (h : Inv s.start s c) : OnTime s where
  once := h.once
  round := h.round
  late a n hn hq hdue := by
    obtain hq' | hf | ⟨i, hi⟩ := h.all a (List.getElem?_eq_some_iff.mp hn).1
    · exact absurd hq' hq
    · exact (h.freed a).mp hf
    · obtain ⟨-, -, n', hn', -, -, -, hlo⟩ := h.waits i a hi
      rw [hn, Option.some.injEq] at hn'
      subst hn'
      exact absurd hlo (Nat.not_lt_of_le hdue)
  linked i a hr := by
    obtain hr | hr := hr
    · exact (h.waits i a ((h.near i).chain.mem_of_reaches hr)).2.1
    · rw [h.far i] at hr
      cases hr

/-! ### A timer is added -/

theorem add (h : Inv lo s c) (handlerid : UInt32) (msg due : ℕ) :
    Inv lo { s with
      nodes := s.nodes ++ [⟨handlerid, msg, due⟩], queue := s.queue ++ [s.nodes.length] } c := by
  have hold : ∀ {a n}, s.nodes[a]? = some n →
      (s.nodes ++ [⟨handlerid, msg, due⟩])[a]? = some n := fun {a n} hn => by
    rw [List.getElem?_append_left (List.getElem?_eq_some_iff.mp hn).1]
    exact hn
  have hnew : s.freed s.nodes.length = false := by
    by_contra hf
    obtain ⟨m, hm, hml⟩ := List.mem_map.mp ((h.freed _).mp (by simpa using hf))
    obtain ⟨n, hn, -⟩ := h.round m hm
    exact absurd (List.getElem?_eq_some_iff.mp hn).1 (by simp [hml])
  refine ⟨h.near, h.far, h.nodup, fun i a ha => ?_, ⟨?_, fun a ha => ?_⟩, h.freed, fun a ha => ?_,
    h.once, fun m hm => ?_⟩
  · obtain ⟨hq, hf, n, hn, hdue⟩ := h.waits i a ha
    refine ⟨fun hq' => ?_, hf, n, hold hn, hdue⟩
    obtain hq' | hq' := List.mem_append.mp hq'
    · exact hq hq'
    · exact absurd (h.lt_length ha) (by simp [List.mem_singleton.mp hq'])
  · refine List.nodup_append.mpr ⟨h.queued.1, List.nodup_singleton _, fun a ha b hb => ?_⟩
    rw [List.mem_singleton.mp hb]
    exact Nat.ne_of_lt (h.queued.2 a ha).1
  · simp only [List.length_append, List.length_singleton]
    obtain ha | ha := List.mem_append.mp ha
    · exact ⟨Nat.lt_succ_of_lt (h.queued.2 a ha).1, (h.queued.2 a ha).2⟩
    · rw [List.mem_singleton.mp ha]
      exact ⟨Nat.lt_succ_self _, hnew⟩
  · simp only [List.length_append, List.length_singleton] at ha
    obtain hlt | rfl := Nat.lt_succ_iff_lt_or_eq.mp ha
    · exact (h.all a hlt).imp_left fun hq => List.mem_append_left _ hq
    · exact .inl (by simp)
  · obtain ⟨n, hn, hrest⟩ := h.round m hm
    exact ⟨n, hold hn, hrest⟩

end Inv

/-! ### A tick -/

/-- The messages for nodes that have been made. -/
theorem mapM_sentOf (taken : Bool) {l : List ℕ} (h : ∀ a ∈ l, a < s.nodes.length) :
    ∃ sent, l.mapM (s.sentOf taken) = some sent ∧ sent.map (·.node) = l ∧
      ∀ m ∈ sent, s.sentOf taken m.node = some m := by
  induction l with
  | nil => exact ⟨[], rfl, rfl, fun _ hm => by cases hm⟩
  | cons a l ih =>
    obtain ⟨sent, hs, hmap, hm⟩ := ih fun b hb => h b (List.mem_cons_of_mem _ hb)
    obtain ⟨n, hn⟩ : ∃ n, s.nodes[a]? = some n :=
      ⟨_, List.getElem?_eq_getElem (h a List.mem_cons_self)⟩
    have ha : s.sentOf taken a = some ⟨a, n.handlerid, n.msg, s.start, s.ticks, taken⟩ := by
      unfold State.sentOf
      rw [hn]
      rfl
    refine ⟨⟨a, n.handlerid, n.msg, s.start, s.ticks, taken⟩ :: sent, ?_, ?_, ?_⟩
    · rw [List.mapM_cons, ha, hs]
      rfl
    · rw [List.map_cons, hmap]
    · rintro m (_ | ⟨_, hm'⟩)
      · exact ha
      · exact hm m hm'

theorem inRound_of_sentOf {taken : Bool} {m : Sent} {n : Node} (hm : s.sentOf taken m.node = some m)
    (hn : s.nodes[m.node]? = some n) (hdue : taken = true ∨ s.start < n.due)
    (hle : n.due ≤ s.ticks) : InRound s.nodes m := by
  unfold State.sentOf at hm
  rw [hn, Option.map_some, Option.some.injEq] at hm
  refine ⟨n, hn, ?_⟩
  rw [← hm]
  exact ⟨⟨rfl, rfl⟩, hdue, hle⟩

/-- Nothing is moved where the far list of the block is empty. -/
theorem cascade_eq (h : s.ticks % 65536 = 65535 → s.far (s.ticks / 65536 % 65536) = {}) :
    s.cascade = some s := by
  unfold State.cascade
  have hi : (s.times >>> 16 &&& 0xFFFF).toNat = s.ticks / 65536 % 65536 := toNat_shift s.ticks
  rw [hi]
  dsimp only
  split_ifs with hlast
  · have hempty := h ((and_mask_eq s.ticks).mp hlast)
    have hrelink : ∀ n, State.relink n none s = some s := fun n => by unfold State.relink; rfl
    have hfree : ∀ n, freeAll s.next n none s.freed = some s.freed := fun n => by
      unfold freeAll; rfl
    have hfar : Function.update s.far (s.ticks / 65536 % 65536) {} = s.far := by
      rw [← hempty]
      exact Function.update_eq_self _ s.far
    rw [hempty]
    dsimp only
    rw [hrelink, Option.bind_some, hempty, hfree, Option.map_some, hfar]
  · rfl

/-- The timers of the list of a tick are due at it, and those of the others later. -/
theorem Inv.later (h : Inv lo s c) {i : ℕ} (hi : s.ticks % 65536 = i) :
    (∀ a ∈ c i, ∃ n, s.nodes[a]? = some n ∧ n.due = s.ticks ∧ lo < n.due) ∧
    ∀ j ≠ i, ∀ a ∈ c j, ∃ n, s.nodes[a]? = some n ∧ n.due % 65536 = j ∧
      n.due / 65536 = (s.ticks + 1) / 65536 ∧ s.ticks + 1 ≤ n.due ∧ lo < n.due := by
  constructor
  · intro a ha
    obtain ⟨-, -, n, hn, hni, hblock, hle, hlo⟩ := h.waits i a ha
    exact ⟨n, hn, by omega, hlo⟩
  · intro j hj a ha
    obtain ⟨-, -, n, hn, hnj, hblock, hle, hlo⟩ := h.waits j a ha
    exact ⟨n, hn, hnj, by omega, by omega, hlo⟩

/-- The near list of the tick has been sent and freed. -/
theorem Inv.sendNear (h : Inv s.start s c) {i : ℕ} (hi : s.ticks % 65536 = i) {freed : ℕ → Bool}
    (hfreed : ∀ a, freed a = true ↔ s.freed a = true ∨ a ∈ c i) {sent : List Sent}
    (hnode : sent.map (·.node) = c i) (hmsg : ∀ m ∈ sent, s.sentOf false m.node = some m) :
    Inv s.start { s with
      ticks := s.ticks + 1, freed := freed, near := Function.update s.near i {}
      sent := s.sent ++ sent } (Function.update c i []) where
  near j := by
    dsimp only
    by_cases hj : j = i
    · subst hj
      rw [Function.update_self, Function.update_self]
      exact isQueue_empty _
    · rw [Function.update_of_ne hj, Function.update_of_ne hj]
      exact h.near j
  far := h.far
  nodup j := by
    by_cases hj : j = i
    · subst hj
      rw [Function.update_self]
      exact List.nodup_nil
    · rw [Function.update_of_ne hj]
      exact h.nodup j
  waits j a ha := by
    by_cases hj : j = i
    · subst hj
      rw [Function.update_self] at ha
      cases ha
    · rw [Function.update_of_ne hj] at ha
      refine ⟨(h.waits j a ha).1, Bool.eq_false_iff.mpr fun hf => ?_, (h.later hi).2 j hj a ha⟩
      obtain hf | hmem := (hfreed a).mp hf
      · exact absurd hf (Bool.eq_false_iff.mp (h.waits j a ha).2.1)
      · exact hj (h.eq_of_mem ha hmem)
  queued := by
    refine ⟨h.queued.1, fun a ha => ⟨(h.queued.2 a ha).1, Bool.eq_false_iff.mpr fun hf => ?_⟩⟩
    obtain hf | hmem := (hfreed a).mp hf
    · exact absurd hf (Bool.eq_false_iff.mp (h.queued.2 a ha).2)
    · exact (h.waits i a hmem).1 ha
  freed a := by rw [hfreed, h.freed, List.map_append, hnode, List.mem_append]
  all a ha := by
    refine (h.all a ha).imp_right fun hrest => ?_
    obtain hf | ⟨j, hj⟩ := hrest
    · exact .inl ((hfreed a).mpr (.inl hf))
    · by_cases hji : j = i
      · exact .inl ((hfreed a).mpr (.inr (hji ▸ hj)))
      · exact .inr ⟨j, by rwa [Function.update_of_ne hji]⟩
  once := by
    rw [List.map_append, hnode]
    refine List.nodup_append.mpr ⟨h.once, h.nodup i, fun a ha b hb he => ?_⟩
    subst he
    exact absurd ((h.freed a).mpr ha) (Bool.eq_false_iff.mp (h.waits i a hb).2.1)
  round m hm := by
    obtain hm | hm := List.mem_append.mp hm
    · exact h.round m hm
    · have hmi : m.node ∈ c i := by
        rw [← hnode]
        exact List.mem_map_of_mem hm
      obtain ⟨n, hn, hdue, hlo⟩ := (h.later hi).1 _ hmi
      have hround : InRound s.nodes m :=
        inRound_of_sentOf (hmsg m hm) hn (.inr hlo) (Nat.le_of_eq hdue)
      exact hround

/-- **A tick sends the near list of its number**, whose timers are due at it. -/
theorem Inv.tick (h : Inv s.start s c) :
    ∃ s' c', s.doTimers = some s' ∧ Inv s'.start s' c' := by
  have hi : (s.times &&& 0xFFFF).toNat = s.ticks % 65536 := toNat_and_mask s.ticks
  unfold State.doTimers
  rw [hi]
  generalize hslot : s.ticks % 65536 = i
  obtain ⟨sent, hsent, hnode, hmsg⟩ :=
    mapM_sentOf false (l := c i) fun a ha => h.lt_length ha
  obtain ⟨freed, hfree, hfreed⟩ := (h.near i).chain.freeAll (h.length_le i) (h.nodup i)
    fun a ha => (h.waits i a ha).2.1
  dsimp only
  rw [(h.near i).chain.follow (h.length_le i), Option.bind_some, hsent, Option.bind_some, hfree,
    Option.bind_some, cascade_eq (fun _ => by exact h.far _), Option.map_some]
  exact ⟨_, _, rfl, h.sendNear hslot hfreed hnode hmsg⟩

/-! ### The queue is taken -/

/-- A timer that is due when it is taken from the queue is sent. -/
theorem Inv.sendNow (h : Inv lo s c) {a : ℕ} {queue : List ℕ} (hq : s.queue = a :: queue)
    {n : Node} (hn : s.nodes[a]? = some n) (hdue : n.due ≤ s.ticks) :
    Inv lo { s with
      queue := queue, freed := Function.update s.freed a true
      sent := s.sent ++ [⟨a, n.handlerid, n.msg, s.start, s.ticks, true⟩] } c := by
  have hqueue := h.queued
  rw [hq, List.nodup_cons] at hqueue
  have ha := hqueue.2 a List.mem_cons_self
  have hne : ∀ i, ∀ b ∈ c i, b ≠ a := fun i b hb he =>
    (h.waits i b hb).1 (by rw [hq, he]; exact List.mem_cons_self)
  exact {
    near := h.near
    far := h.far
    nodup := h.nodup
    waits := fun i b hb => by
      obtain ⟨hbq, hf, hrest⟩ := h.waits i b hb
      dsimp only
      rw [Function.update_of_ne (hne i b hb)]
      exact ⟨fun hmem => hbq (by rw [hq]; exact List.mem_cons_of_mem _ hmem), hf, hrest⟩
    queued := by
      refine ⟨hqueue.1.2, fun b hb => ?_⟩
      dsimp only
      have hba : b ≠ a := fun he => hqueue.1.1 (by rw [← he]; exact hb)
      rw [Function.update_of_ne hba]
      exact hqueue.2 b (List.mem_cons_of_mem _ hb)
    freed := fun b => by
      dsimp only
      rw [List.map_append, List.map_singleton, List.mem_append, List.mem_singleton]
      by_cases hb : b = a
      · simp [hb]
      · rw [Function.update_of_ne hb, h.freed, or_iff_left hb]
    all := fun b hb => by
      by_cases hba : b = a
      · exact .inr (.inl (by rw [hba]; exact Function.update_self ..))
      · dsimp only
        rw [Function.update_of_ne hba]
        refine (h.all b hb).imp_left fun hmem => ?_
        rw [hq] at hmem
        exact (List.mem_cons.mp hmem).resolve_left hba
    once := by
      rw [List.map_append, List.map_singleton]
      refine List.nodup_append.mpr ⟨h.once, List.nodup_singleton _, fun b hb b' hb' he => ?_⟩
      rw [List.mem_singleton.mp hb'] at he
      subst he
      exact absurd ((h.freed b).mpr hb) (Bool.eq_false_iff.mp ha.2)
    round := fun m hm => by
      obtain hm | hm := List.mem_append.mp hm
      · exact h.round m hm
      · rw [List.mem_singleton.mp hm]
        exact ⟨n, hn, ⟨rfl, rfl⟩, .inl rfl, hdue⟩ }

/-- One that is due later in the block is put into the near list of its tick. -/
theorem Inv.addNear (h : Inv lo s c) {a : ℕ} {queue : List ℕ} (hq : s.queue = a :: queue)
    {n : Node} (hn : s.nodes[a]? = some n) (hdue : s.ticks < n.due) (hlo : lo ≤ s.ticks)
    (hblock : n.due / 65536 = s.ticks / 65536) {i : ℕ} (hi : n.due % 65536 = i) :
    Inv lo (State.addNear { s with queue := queue } i a) (Function.update c i (c i ++ [a])) := by
  have hqueue := h.queued
  rw [hq, List.nodup_cons] at hqueue
  have ha := hqueue.2 a List.mem_cons_self
  have hout : ∀ j, a ∉ c j := fun j hj =>
    (h.waits j a hj).1 (by rw [hq]; exact List.mem_cons_self)
  have htail : ∀ t ∈ (s.near i).tail, t ∈ c i := fun t ht =>
    List.mem_of_getLast? ((h.near i).tail ▸ ht)
  exact {
    near := fun j => by
      dsimp only [State.addNear]
      by_cases hj : j = i
      · subst hj
        rw [Function.update_self, Function.update_self]
        exact (h.near j).push (h.nodup j) (hout j)
      · rw [Function.update_of_ne hj, Function.update_of_ne hj]
        exact (h.near j).linkTail (hout j) fun t ht htj => hj (h.eq_of_mem htj (htail t ht))
    far := h.far
    nodup := fun j => by
      by_cases hj : j = i
      · subst hj
        rw [Function.update_self]
        refine List.nodup_append.mpr ⟨h.nodup j, List.nodup_singleton _, fun b hb b' hb' he => ?_⟩
        rw [List.mem_singleton.mp hb'] at he
        exact hout j (he ▸ hb)
      · rw [Function.update_of_ne hj]
        exact h.nodup j
    waits := fun j b hb => by
      have hold : ∀ j, b ∈ c j → b ∉ queue ∧ s.freed b = false ∧ ∃ n, s.nodes[b]? = some n ∧
          n.due % 65536 = j ∧ n.due / 65536 = s.ticks / 65536 ∧ s.ticks ≤ n.due ∧ lo < n.due :=
        fun j hb => by
          obtain ⟨hbq, hrest⟩ := h.waits j b hb
          exact ⟨fun hmem => hbq (by rw [hq]; exact List.mem_cons_of_mem _ hmem), hrest⟩
      by_cases hj : j = i
      · subst hj
        rw [Function.update_self] at hb
        obtain hb | hb := List.mem_append.mp hb
        · exact hold j hb
        · rw [List.mem_singleton.mp hb]
          exact ⟨hqueue.1.1, ha.2, n, hn, hi, hblock, Nat.le_of_lt hdue,
            Nat.lt_of_le_of_lt hlo hdue⟩
      · rw [Function.update_of_ne hj] at hb
        exact hold j hb
    queued := ⟨hqueue.1.2, fun b hb => hqueue.2 b (List.mem_cons_of_mem _ hb)⟩
    freed := h.freed
    all := fun b hb => by
      obtain hmem | hf | ⟨j, hj⟩ := h.all b hb
      · rw [hq] at hmem
        obtain rfl | hmem := List.mem_cons.mp hmem
        · exact .inr (.inr ⟨i, by simp⟩)
        · exact .inl hmem
      · exact .inr (.inl hf)
      · refine .inr (.inr ⟨j, ?_⟩)
        by_cases hji : j = i
        · subst hji
          simp [hj]
        · rwa [Function.update_of_ne hji]
    once := h.once
    round := h.round }

/-- **A timer of the queue is sent, or put into the near list of its tick.** -/
theorem Inv.take (h : Inv lo s c) {a : ℕ} {queue : List ℕ} (hq : s.queue = a :: queue)
    {n : Node} (hn : s.nodes[a]? = some n) (hnear : Near s n) (hlo : lo ≤ s.ticks) :
    ∃ s' c', State.take { s with queue := queue } a = some s' ∧ Inv lo s' c' ∧
      s'.queue = queue ∧ s'.nodes = s.nodes ∧ s'.ticks = s.ticks ∧ s'.start = s.start := by
  have hfreed : s.freed a = false := (h.queued.2 a (by rw [hq]; exact List.mem_cons_self)).2
  unfold State.take
  dsimp only
  rw [hn, Option.bind_some]
  split_ifs with hle hblock
  · refine ⟨_, c, ?_, h.sendNow hq hn ((expire_le hnear).mp hle), rfl, rfl, rfl, rfl⟩
    unfold State.sendNow State.sentOf
    dsimp only
    rw [hfreed, hn]
    rfl
  · have hlt : s.ticks < n.due := Nat.lt_of_not_le fun hd => hle ((expire_le hnear).mpr hd)
    have hsame : n.due / 65536 = s.ticks / 65536 := by
      unfold Near at hnear
      rwa [if_neg (Nat.not_le_of_lt hlt)] at hnear
    exact ⟨_, _, rfl, h.addNear hq hn hlt hlo hsame (toNat_and_mask n.due).symm, rfl, rfl, rfl, rfl⟩
  · have hlt : s.ticks < n.due := Nat.lt_of_not_le fun hd => hle ((expire_le hnear).mpr hd)
    unfold Near at hnear
    rw [if_neg (Nat.not_le_of_lt hlt)] at hnear
    exact absurd (or_mask_eq hnear) hblock

/-- The queue is taken to its end. -/
theorem Inv.takeAll (h : Inv lo s c) (hlo : lo ≤ s.ticks)
    (hnear : ∀ a ∈ s.queue, ∀ n ∈ s.nodes[a]?, Near s n) :
    ∃ s' c', s.takeAll s.queue.length = some s' ∧ Inv lo s' c' ∧ s'.ticks = s.ticks := by
  generalize hl : s.queue.length = k
  induction k generalizing s c with
  | zero => exact ⟨s, c, rfl, h, rfl⟩
  | succ k ih =>
    obtain ⟨a, queue, hq⟩ := List.exists_of_length_succ s.queue hl
    have hmem : a ∈ s.queue := by
      rw [hq]
      exact List.mem_cons_self
    obtain ⟨n, hn⟩ : ∃ n, s.nodes[a]? = some n :=
      ⟨_, List.getElem?_eq_getElem (h.queued.2 a hmem).1⟩
    obtain ⟨s₁, c₁, hrun, hinv, hq₁, hnodes, hticks, -⟩ := h.take hq hn (hnear a hmem n hn) hlo
    have hnear₁ : ∀ b ∈ s₁.queue, ∀ n ∈ s₁.nodes[b]?, Near s₁ n := by
      rw [hq₁, hnodes]
      intro b hb n hn
      have := hnear b (by rw [hq]; exact List.mem_cons_of_mem _ hb) n hn
      unfold Near State.times at this ⊢
      rwa [hticks]
    obtain ⟨s', c', hrun', hinv', hticks'⟩ := ih hinv (by rwa [hticks]) hnear₁
      (by rw [hq₁]; simpa [hq] using hl)
    refine ⟨s', c', ?_, hinv', hticks'.trans hticks⟩
    unfold State.takeAll
    rw [hq]
    dsimp only
    rw [hrun, Option.bind_some, hrun']

/-- **The round ends**, and nothing that waits is due. -/
theorem Inv.event (h : Inv s.start s c) (hok : Ok s .event) :
    ∃ s' c', s.doTimerEvent = some s' ∧ Inv s'.start s' c' := by
  have hnear : ∀ a ∈ s.queue, ∀ n ∈ s.nodes[a]?, Near s n := fun a ha n hn => by
    have := hok a (h.queued.2 a ha).1 n hn
    rwa [if_pos ha] at this
  have hwaits : Inv s.ticks s c :=
    ⟨h.near, h.far, h.nodup, fun i a ha => by
      obtain ⟨hq, hf, n, hn, hni, hblock, hle, -⟩ := h.waits i a ha
      have hne := hok a (h.lt_length ha) n hn
      rw [if_neg hq] at hne
      exact ⟨hq, hf, n, hn, hni, hblock, hle, Nat.lt_of_le_of_ne hle (Ne.symm (hne hf))⟩,
    h.queued, h.freed, h.all, h.once, h.round⟩
  obtain ⟨s', c', hrun, hinv, hticks⟩ := hwaits.takeAll (Nat.le_refl _) hnear
  refine ⟨{ s' with start := s'.ticks }, c', ?_, ?_⟩
  · unfold State.doTimerEvent
    rw [hrun]
    rfl
  · rw [← hticks] at hinv
    exact ⟨hinv.near, hinv.far, hinv.nodup, hinv.waits, hinv.queued, hinv.freed, hinv.all,
      hinv.once, hinv.round⟩

/-! ### The runs -/

/-- **What a step that meets the condition keeps.** -/
theorem inv_step (h : ∃ c, Inv s.start s c) (a : Label) (hok : Ok s a) :
    ∃ s', s.step a = some s' ∧ ∃ c', Inv s'.start s' c' := by
  obtain ⟨c, h⟩ := h
  cases a with
  | add sec handlerid msg =>
    change ∃ s', s.addTimer sec handlerid msg = some s' ∧ _
    unfold State.addTimer
    split_ifs with hsec hmax
    · exact ⟨s, rfl, c, h⟩
    · exact absurd hmax (Int.not_lt.mpr hok)
    · exact ⟨_, rfl, c, h.add handlerid msg _⟩
  | tick =>
    obtain ⟨s', c', hrun, h'⟩ := h.tick
    exact ⟨s', hrun, c', h'⟩
  | event =>
    obtain ⟨s', c', hrun, h'⟩ := h.event hok
    exact ⟨s', hrun, c', h'⟩

/-- **Where no timer goes to a far list and none is due at the tick with which a round ends**, each is
sent once and in its round. -/
theorem run_onTime {l : List Label} (h : Along State.step Ok {} l) :
    ∃ s, run State.step {} l = some s ∧ OnTime s := by
  obtain ⟨s, hs, c, hinv⟩ := run_total_along (P := fun s => ∃ c, Inv s.start s c)
    (fun s a hi hok => inv_step hi a hok) h ⟨_, inv_init⟩
  exact ⟨s, hs, hinv.onTime⟩

/-- A timer of three seconds in two rounds of two ticks. -/
theorem run_onTime_two : ∃ s, run State.step {}
    [.add 3 5 77, .event, .tick, .tick, .event, .tick, .tick, .event] = some s ∧ OnTime s :=
  run_onTime (by decide +kernel)

/-! ### A timer of the next block -/

/-- A tick for which nothing is there. -/
theorem idle_tick (hnear : ∀ i, s.near i = {})
    (hfar : s.ticks % 65536 = 65535 → s.far (s.ticks / 65536 % 65536) = {}) :
    s.doTimers = some { s with ticks := s.ticks + 1 } := by
  have hupdate : ∀ i, Function.update s.near i {} = s.near := fun i => by
    rw [← hnear i]
    exact Function.update_eq_self _ s.near
  have hfollow : ∀ n, follow s.next n none = some [] := fun n => by unfold follow; rfl
  have hfree : ∀ n, freeAll s.next n none s.freed = some s.freed := fun n => by
    unfold freeAll; rfl
  unfold State.doTimers
  dsimp only
  rw [hnear, hfollow, Option.bind_some, List.mapM_nil, Option.pure_def, Option.bind_some, hfree,
    Option.bind_some, hupdate, List.append_nil, cascade_eq hfar, Option.map_some]

theorem idle_ticks {k : ℕ} (hnear : ∀ i, s.near i = {})
    (hfar : ∀ t, s.ticks ≤ t → t < s.ticks + k → t % 65536 = 65535 →
      s.far (t / 65536 % 65536) = {}) :
    run State.step s (List.replicate k .tick) = some { s with ticks := s.ticks + k } := by
  induction k generalizing s with
  | zero => rfl
  | succ k ih =>
    have hstep : s.step .tick = some { s with ticks := s.ticks + 1 } :=
      idle_tick hnear (hfar s.ticks (Nat.le_refl _) (by omega))
    have hrest : ∀ t, s.ticks + 1 ≤ t → t < s.ticks + 1 + k → t % 65536 = 65535 →
        s.far (t / 65536 % 65536) = {} := fun t ht hk => hfar t (by omega) (by omega)
    rw [List.replicate_succ, run_cons, hstep, Option.bind_some,
      ih (s := { s with ticks := s.ticks + 1 }) hnear hrest]
    simp only [Nat.add_assoc, Nat.add_comm 1 k]

/-- A timer of two seconds that was added at the last tick of the first block. -/
def added : State where
  ticks := 65535
  start := 65535
  nodes := [⟨5, 77, 65537⟩]
  next := linkTail (fun _ => none) {} 0
  far := Function.update (fun _ => {}) 1 ⟨some 0, some 0⟩

theorem run_added : run State.step { ticks := 65535 } [.add 2 5 77, .event] = some added := rfl

/-- A timer of two seconds at the last tick of a block is not sent in the ticks of the next block, and
is then freed with a near list that has it. -/
theorem lost_next_block : ∃ s, run State.step {} (List.replicate 65535 .tick ++
      [.add 2 5 77, .event] ++ List.replicate 65536 .tick ++ [.event, .tick]) = some s ∧
    s.sent = [] ∧ (s.near 1).head = some 0 ∧ s.freed 0 = true ∧ ¬ OnTime s := by
  have hfirst : run State.step {} (List.replicate 65535 .tick) = some { ticks := 65535 } :=
    idle_ticks (s := {}) (fun _ => rfl) fun _ _ _ _ => rfl
  have hblock : run State.step added (List.replicate 65536 .tick) =
      some { added with ticks := 131071 } := by
    refine idle_ticks (s := added) (fun _ => rfl) fun t ht hk hlast => ?_
    have hlt : t < 65535 + 65536 := hk
    have hne : t / 65536 % 65536 ≠ 1 := by omega
    exact Function.update_of_ne (f := fun _ => ({} : Queue ℕ)) hne _
  obtain ⟨s, hs⟩ := Option.isSome_iff_exists.mp (by decide +kernel :
    (run State.step { added with ticks := 131071 } [.event, .tick]).isSome)
  refine ⟨s, ?_, ?_⟩
  · rw [run_append, run_append, run_append, hfirst, Option.bind_some, run_added, Option.bind_some,
      hblock, Option.bind_some, hs]
  · cases hs
    refine ⟨by decide +kernel, by decide +kernel, by decide +kernel, fun hon => ?_⟩
    have hlate := hon.late 0 ⟨5, 77, 65537⟩ (by decide +kernel) (by decide +kernel)
      (by decide +kernel)
    exact absurd hlate (by decide +kernel)

/-- **A timer of the next block is lost and freed with a near list that has it, and one that is due when
a round ends is late.** -/
theorem not_onTime :
    (∃ s, run State.step {} (List.replicate 65535 .tick ++ [.add 2 5 77, .event] ++
        List.replicate 65536 .tick ++ [.event, .tick]) = some s ∧
      s.sent = [] ∧ (s.near 1).head = some 0 ∧ s.freed 0 = true ∧ ¬ OnTime s) ∧
    ∃ s, run State.step {} [.add 1 5 77, .event, .tick, .event] = some s ∧ ¬ OnTime s := by
  refine ⟨lost_next_block, ?_⟩
  obtain ⟨s, hs⟩ := Option.isSome_iff_exists.mp (by decide +kernel :
    (run State.step {} [.add 1 5 77, .event, .tick, .event]).isSome)
  refine ⟨s, hs, fun hon => ?_⟩
  cases hs
  have hlate := hon.late 0 ⟨5, 77, 1⟩ (by decide +kernel) (by decide +kernel) (by decide +kernel)
  exact absurd hlate (by decide +kernel)

end ChatShow.Antlib.TimerRounds
