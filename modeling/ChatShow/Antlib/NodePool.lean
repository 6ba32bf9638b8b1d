import ChatShow.Antlib.SharedQueue
import ChatShow.Lib.LinkedQueue
import ChatShow.Lib.Runs

/-! # The pool of the nodes

Nodes are got and freed in any order, and whoever holds a node writes into it. The pool is a list with
a head and a tail, and a get of its last node leaves the tail where it is: the next node that is freed is
linked to a node that is held, and the pool has no head that leads to it. Until then the pool has the
nodes that are not held (`Linked`), and each of them is got again once it is old enough. -/

namespace ChatShow.Antlib.NodePool

open ChatShow.Lib.LinkedQueue ChatShow.Lib.Runs ChatShow.Antlib.SharedQueue

/-- The pool with the nodes there are, and what the holders of nodes have left in them. -/
structure State where
  squeue : Squeue := {}
  held : ℕ → Option Node := fun _ => none

inductive Label
  | get (now : UInt32)
  | free (now : UInt32) (n : ℕ)
  /-- The holder of a node writes into it. -/
  | write (n : ℕ) (a : Node)

/-- A node that is not held is neither freed nor written. -/
def State.step (s : State) : Label → Option State
  | .get now =>
    let (n, squeue) := s.squeue.getNode now
    some { squeue := squeue, held := Function.update s.held n (some {}) }
  | .free now n =>
    if (s.held n).isSome then
      some { squeue := s.squeue.freeNode now n, held := Function.update s.held n none }
    else none
  | .write n a =>
    if (s.held n).isSome then
      some { squeue := s.squeue.setNode n a, held := Function.update s.held n (some a) }
    else none

/-! ### What is asked -/

/-- The links of the nodes, and the pool as a queue. -/
def State.next (s : State) (n : ℕ) : Option ℕ := (s.squeue.node n).next
def State.pool (s : State) : Queue ℕ := ⟨s.squeue.pool.head, s.squeue.pool.tail⟩

/-- Gets of nodes come to the node. -/
def Available (s : State) (n : ℕ) : Prop :=
  ∃ (times : List UInt32) (s' : State), run State.step s (times.map .get) = some s' ∧ s'.held n ≠ none

structure Sound (s : State) : Prop where
  apart : ∀ n, Reaches s.next s.pool.head n → s.held n = none
  kept : ∀ n < s.squeue.made, s.held n = none → Available s n
  /-- What a holder has left in its node is there. -/
  intact : ∀ n a, s.held n = some a → s.squeue.node n = a

/-- What a step has to meet: a node is freed where the pool is not empty, or has never been used, and
before the last second of a `uint32_t`. -/
def Ok (s : State) : Label → Prop
  | .get _ => True
  | .free now _ => (s.pool.head = none → s.pool.tail = none) ∧ now + 60 ≠ 0xFFFFFFFF
  | .write _ _ => True

instance (s : State) : ∀ a, Decidable (Ok s a)
  | .get _ => inferInstanceAs (Decidable True)
  | .free now _ => inferInstanceAs (Decidable ((_ → _) ∧ now + 60 ≠ 0xFFFFFFFF))
  | .write _ _ => inferInstanceAs (Decidable True)

/-! ### The invariant -/

/-- The pool has the nodes of a list, which are those that are not held. -/
structure Linked (s : State) (l : List ℕ) : Prop where
  chain : Chain s.next s.pool.head l
  tail : l ≠ [] → s.pool.tail = l.getLast?
  nodup : l.Nodup
  mem : ∀ n, n ∈ l ↔ n < s.squeue.made ∧ s.held n = none
  time : ∀ n ∈ l, (s.squeue.node n).freeTime < 0xFFFFFFFF
  new : ∀ n, s.squeue.made ≤ n → s.held n = none
  intact : ∀ n a, s.held n = some a → s.squeue.node n = a

theorem linked_start : Linked {} [] where
  chain := rfl
  tail h := absurd rfl h
  nodup := List.nodup_nil
  mem n := by simp
  time n h := by cases h
  new n _ := rfl
  intact n a h := by cases h

variable {s s' : State} {l : List ℕ} {n h : ℕ} {now : UInt32}

/-! ### A node is got -/

theorem step_get_new (hhead : s.pool.head = none ∨
    ∃ h, s.pool.head = some h ∧ ¬ (s.squeue.node h).freeTime < now) :
    s.step (.get now) = some
      { squeue := s.squeue.newNode.2, held := Function.update s.held s.squeue.made (some {}) } := by
  have hnew : s.squeue.getNode now = s.squeue.newNode := by
    unfold Squeue.getNode
    obtain hnone | ⟨h, hsome, htime⟩ := hhead
    · have hnone' : s.squeue.pool.head = none := hnone
      rw [hnone']
    · have hsome' : s.squeue.pool.head = some h := hsome
      rw [hsome']
      exact if_neg htime
  unfold State.step
  dsimp only
  rw [hnew]
  rfl

/-- The state in which the head of the pool has been got. -/
def State.gotHead (s : State) (h : ℕ) : State where
  squeue := { s.squeue.setNode h {} with
    pool := { s.squeue.pool with
      head := (s.squeue.node h).next, count := s.squeue.pool.count - 1 } }
  held := Function.update s.held h (some {})

theorem step_get_head (hhead : s.pool.head = some h) (htime : (s.squeue.node h).freeTime < now) :
    s.step (.get now) = some (s.gotHead h) := by
  have hsome : s.squeue.pool.head = some h := hhead
  have hget : s.squeue.getNode now = (h, (s.gotHead h).squeue) := by
    unfold Squeue.getNode
    rw [hsome]
    exact if_pos htime
  unfold State.step
  dsimp only
  rw [hget]
  rfl

/-- A node that has been got is all zeros. -/
theorem intact_got (hi : ∀ n a, s.held n = some a → s.squeue.node n = a) (k n : ℕ) (a : Node)
    (ha : Function.update s.held k (some {}) n = some a) : Function.update s.squeue.node k {} n = a := by
  by_cases hn : n = k
  · rw [hn, Function.update_self] at ha ⊢
    exact Option.some.inj ha
  · rw [Function.update_of_ne hn] at ha ⊢
    exact hi n a ha

/-- A new node is held and not of the pool. -/
theorem Linked.new_node (hl : Linked s l) : Linked
    { squeue := s.squeue.newNode.2, held := Function.update s.held s.squeue.made (some {}) } l := by
  have hne : ∀ n ∈ l, n ≠ s.squeue.made := fun n hn => Nat.ne_of_lt ((hl.mem n).mp hn).1
  have hnode : ∀ n ≠ s.squeue.made, s.squeue.newNode.2.node n = s.squeue.node n :=
    fun n hn => Function.update_of_ne hn ..
  exact {
    chain := hl.chain.congr fun n hn => congrArg Node.next (hnode n (hne n hn))
    tail := hl.tail
    nodup := hl.nodup
    mem := fun n => by
      show n ∈ l ↔ n < s.squeue.made + 1 ∧ Function.update s.held s.squeue.made (some {}) n = none
      by_cases hn : n = s.squeue.made
      · rw [hn, Function.update_self]
        exact iff_of_false (fun hmem => hne _ hmem rfl) fun hmem => by cases hmem.2
      · rw [Function.update_of_ne hn, hl.mem n]
        refine and_congr_left fun _ => ?_
        omega
    time := fun n hn => by
      dsimp only
      rw [hnode n (hne n hn)]
      exact hl.time n hn
    new := fun n hn => by
      have hlt : s.squeue.made + 1 ≤ n := hn
      have hn' : n ≠ s.squeue.made := by omega
      exact (Function.update_of_ne hn' ..).trans (hl.new n (by omega))
    intact := intact_got hl.intact _ }

/-- **The head of the pool is got.** -/
theorem Linked.get_head (hl : Linked s (h :: l)) : Linked (s.gotHead h) l := by
  obtain ⟨hh, hnd⟩ := List.nodup_cons.mp hl.nodup
  have hne : ∀ n ∈ l, n ≠ h := fun n hn he => hh (he ▸ hn)
  have hheld : ∀ n ≠ h, (s.gotHead h).held n = s.held n := fun n hn => Function.update_of_ne hn ..
  have hnode : ∀ n ≠ h, (s.gotHead h).squeue.node n = s.squeue.node n :=
    fun n hn => Function.update_of_ne hn ..
  exact {
    chain := hl.chain.2.congr fun n hn => congrArg Node.next (hnode n (hne n hn))
    tail := fun hnil => by
      have ht := hl.tail (List.cons_ne_nil h l)
      rw [List.getLast?_cons_of_ne_nil hnil] at ht
      exact ht
    nodup := hnd
    mem := fun n => by
      show n ∈ l ↔ n < s.squeue.made ∧ _
      by_cases hn : n = h
      · subst hn
        refine iff_of_false hh fun hmem => ?_
        have he : Function.update s.held n (some {}) n = none := hmem.2
        rw [Function.update_self] at he
        cases he
      · have hmem := hl.mem n
        rw [List.mem_cons, or_iff_right hn] at hmem
        rw [hmem, hheld n hn]
    time := fun n hn => by
      rw [hnode n (hne n hn)]
      exact hl.time n (List.mem_cons_of_mem h hn)
    new := fun n hn => by
      have hlt : h < s.squeue.made := ((hl.mem h).mp List.mem_cons_self).1
      have hle : s.squeue.made ≤ n := hn
      rw [hheld n (by omega)]
      exact hl.new n hle
    intact := intact_got hl.intact h }

theorem Linked.get (hl : Linked s l) (now : UInt32) :
    ∃ s' l', s.step (.get now) = some s' ∧ Linked s' l' := by
  cases l with
  | nil => exact ⟨_, _, step_get_new (.inl hl.chain), hl.new_node⟩
  | cons h l =>
    by_cases htime : (s.squeue.node h).freeTime < now
    · exact ⟨_, l, step_get_head hl.chain.1 htime, hl.get_head⟩
    · exact ⟨_, _, step_get_new (.inr ⟨h, hl.chain.1, htime⟩), hl.new_node⟩

/-- **Every node of the pool is available.** -/
theorem Linked.available (hl : Linked s l) (hn : n ∈ l) : Available s n := by
  induction l generalizing s with
  | nil => cases hn
  | cons h l ih =>
    have hget := step_get_head hl.chain.1 (hl.time h List.mem_cons_self)
    obtain rfl | hn := List.mem_cons.mp hn
    · refine ⟨[0xFFFFFFFF], s.gotHead n, run_cons_eq hget rfl, ?_⟩
      show Function.update s.held n (some {}) n ≠ none
      rw [Function.update_self]
      exact Option.some_ne_none _
    · obtain ⟨times, s', hrun, hheld⟩ := ih hl.get_head hn
      exact ⟨0xFFFFFFFF :: times, s', run_cons_eq hget hrun, hheld⟩

theorem Linked.sound (hl : Linked s l) : Sound s where
  apart n hn := ((hl.mem n).mp (hl.chain.mem_of_reaches hn)).2
  kept n hn hheld := hl.available ((hl.mem n).mpr ⟨hn, hheld⟩)
  intact := hl.intact

/-! ### A node is freed -/

theorem next_freeNode (s : Squeue) (now : UInt32) (n : ℕ) :
    (fun k => ((s.freeNode now n).node k).next) =
      linkTail (fun k => (s.node k).next) ⟨s.pool.head, s.pool.tail⟩ n := by
  funext k
  have hset : ∀ (q : Squeue) (i : ℕ) (a : Node),
      (fun k => ((q.setNode i a).node k).next) = Function.update (fun k => (q.node k).next) i a.next := by
    intro q i a
    funext k
    unfold Squeue.setNode
    dsimp only
    by_cases hk : k = i
    · rw [hk, Function.update_self, Function.update_self]
    · rw [Function.update_of_ne hk, Function.update_of_ne hk]
  unfold Squeue.freeNode linkTail
  dsimp only
  cases ht : s.pool.tail with
  | some t =>
    have h := congrFun (hset (s.setNode n { s.node n with next := none, freeTime := now + 60 }) t
      { (s.setNode n { s.node n with next := none, freeTime := now + 60 }).node t with
        next := some n }) k
    rw [hset s n] at h
    simpa only [Squeue.setNode, ht] using h
  | none =>
    have h := congrFun (hset s n { s.node n with next := none, freeTime := now + 60 }) k
    simpa only [Squeue.setNode, ht] using h

theorem pool_freeNode (s : Squeue) (now : UInt32) (n : ℕ) :
    (⟨(s.freeNode now n).pool.head, (s.freeNode now n).pool.tail⟩ : Queue ℕ) =
      Queue.push ⟨s.pool.head, s.pool.tail⟩ n := by
  unfold Squeue.freeNode Queue.push
  dsimp only
  cases ht : s.pool.tail <;> simp only [Squeue.setNode, ht] <;> rfl

theorem made_freeNode (s : Squeue) (now : UInt32) (n : ℕ) : (s.freeNode now n).made = s.made := by
  unfold Squeue.freeNode
  dsimp only
  split <;> rfl

/-- Nothing is written but the node and the tail of the pool. -/
theorem node_freeNode {s : Squeue} {k : ℕ} (hk : k ≠ n) (ht : s.pool.tail ≠ some k) :
    (s.freeNode now n).node k = s.node k := by
  unfold Squeue.freeNode
  dsimp only
  cases h : s.pool.tail with
  | some t =>
    have hkt : k ≠ t := fun he => ht (he ▸ h)
    simp only [Squeue.setNode, h, Function.update_of_ne hkt, Function.update_of_ne hk]
  | none => simp only [Squeue.setNode, h, Function.update_of_ne hk]

theorem freeTime_freeNode (s : Squeue) (now : UInt32) (n k : ℕ) :
    ((s.freeNode now n).node k).freeTime = if k = n then now + 60 else (s.node k).freeTime := by
  have hn : ((s.setNode n { s.node n with next := none, freeTime := now + 60 }).node k).freeTime =
      if k = n then now + 60 else (s.node k).freeTime := by
    unfold Squeue.setNode
    dsimp only
    split_ifs with hk
    · rw [hk, Function.update_self]
    · rw [Function.update_of_ne hk]
  rw [← hn]
  unfold Squeue.freeNode
  dsimp only
  split
  · next t _ =>
    by_cases hk : k = t
    · subst hk
      unfold Squeue.setNode
      dsimp only
      rw [Function.update_self]
    · exact congrArg Node.freeTime (Function.update_of_ne hk ..)
  · rfl

theorem step_free (hheld : (s.held n).isSome) : s.step (.free now n) = some
    { squeue := s.squeue.freeNode now n, held := Function.update s.held n none } := by
  unfold State.step
  dsimp only
  rw [if_pos hheld]

/-- **A node is put behind the tail of the pool.** -/
theorem Linked.free (hl : Linked s l) (hheld : (s.held n).isSome)
    (hempty : s.pool.head = none → s.pool.tail = none) (hnow : now + 60 ≠ 0xFFFFFFFF) :
    Linked { squeue := s.squeue.freeNode now n, held := Function.update s.held n none } (l ++ [n]) := by
  have hn : n ∉ l := fun hmem => by
    rw [((hl.mem n).mp hmem).2] at hheld
    cases hheld
  have hlt : n < s.squeue.made := by
    by_contra hle
    rw [hl.new n (Nat.not_lt.mp hle)] at hheld
    cases hheld
  -- The tail is that of the list, also of an empty one.
  have hq : IsQueue s.next s.pool l := by
    refine ⟨hl.chain, ?_⟩
    by_cases hnil : l = []
    · have hchain := hl.chain
      rw [hnil] at hchain ⊢
      exact hempty hchain
    · exact hl.tail hnil
  have htail : ∀ k, s.squeue.pool.tail = some k → k ∈ l := fun k hk =>
    List.mem_of_getLast? (hq.tail.symm.trans hk)
  have hpush := hq.push hl.nodup hn
  have hpool : s.pool.push n = ⟨(s.squeue.freeNode now n).pool.head, (s.squeue.freeNode now n).pool.tail⟩ :=
    (pool_freeNode s.squeue now n).symm
  have hnext : linkTail s.next s.pool n = fun k => ((s.squeue.freeNode now n).node k).next :=
    (next_freeNode s.squeue now n).symm
  rw [hpool, hnext] at hpush
  exact {
    chain := hpush.chain
    tail := fun _ => hpush.tail
    nodup := List.nodup_append.mpr ⟨hl.nodup, List.nodup_singleton n, fun a ha b hb he =>
      hn (by rwa [he, List.mem_singleton.mp hb] at ha)⟩
    mem := fun k => by
      dsimp only
      rw [List.mem_append, List.mem_singleton, made_freeNode, hl.mem k]
      by_cases hk : k = n
      · subst hk
        rw [Function.update_self]
        exact iff_of_true (.inr rfl) ⟨hlt, rfl⟩
      · rw [Function.update_of_ne hk, or_iff_left hk]
    time := fun k hk => by
      dsimp only
      rw [freeTime_freeNode]
      split_ifs with hkn
      · rw [UInt32.lt_iff_toNat_lt]
        have hne : (now + 60).toNat ≠ 4294967295 := fun he => hnow (UInt32.toNat_inj.mp he)
        have hsize : (now + 60).toNat < 4294967296 := (now + 60).toNat_lt
        exact Nat.lt_of_le_of_ne (Nat.le_of_lt_succ hsize) hne
      · refine hl.time k ((List.mem_append.mp hk).resolve_right fun hmem => hkn ?_)
        exact List.mem_singleton.mp hmem
    new := fun k hk => by
      dsimp only at hk ⊢
      rw [made_freeNode] at hk
      rw [Function.update_of_ne (by omega)]
      exact hl.new k hk
    intact := fun k a ha => by
      dsimp only at ha ⊢
      by_cases hk : k = n
      · rw [hk, Function.update_self] at ha
        cases ha
      · rw [Function.update_of_ne hk] at ha
        have ht : s.squeue.pool.tail ≠ some k := fun ht => by
          rw [((hl.mem k).mp (htail k ht)).2] at ha
          cases ha
        rw [node_freeNode hk ht]
        exact hl.intact k a ha }

/-! ### A node is written -/

theorem Linked.write (hl : Linked s l) (hheld : (s.held n).isSome) (a : Node) : Linked
    { squeue := s.squeue.setNode n a, held := Function.update s.held n (some a) } l := by
  have hne : ∀ k ∈ l, k ≠ n := fun k hk he => by
    rw [he] at hk
    rw [((hl.mem n).mp hk).2] at hheld
    cases hheld
  have hnode : ∀ k ≠ n, (s.squeue.setNode n a).node k = s.squeue.node k :=
    fun k hk => Function.update_of_ne hk ..
  exact {
    chain := hl.chain.congr fun k hk => congrArg Node.next (hnode k (hne k hk))
    tail := hl.tail
    nodup := hl.nodup
    mem := fun k => by
      show k ∈ l ↔ k < s.squeue.made ∧ Function.update s.held n (some a) k = none
      by_cases hk : k = n
      · rw [hk, Function.update_self]
        exact iff_of_false (fun hmem => hne n hmem rfl) fun hmem => by cases hmem.2
      · rw [Function.update_of_ne hk]
        exact hl.mem k
    time := fun k hk => by
      dsimp only
      rw [hnode k (hne k hk)]
      exact hl.time k hk
    new := fun k hk => by
      have hnone := hl.new k hk
      have hkn : k ≠ n := fun he => by
        rw [← he, hnone] at hheld
        cases hheld
      exact (Function.update_of_ne hkn ..).trans hnone
    intact := fun k b hb => by
      dsimp only at hb ⊢
      by_cases hk : k = n
      · rw [hk, Function.update_self, Option.some.injEq] at hb
        rw [hk, ← hb]
        exact Function.update_self ..
      · rw [Function.update_of_ne hk] at hb
        rw [hnode k hk]
        exact hl.intact k b hb }

/-! ### A node is lost -/

/-- A node that is not held and is never got: the pool has no head, or the time of the node does not
pass. -/
structure Lost (s : State) (n : ℕ) : Prop where
  made : n < s.squeue.made
  held : s.held n = none
  out : s.pool.head = none ∨ (s.squeue.node n).freeTime = 0xFFFFFFFF

theorem Lost.get (hl : Lost s n) (hs : s.step (.get now) = some s') : Lost s' n := by
  have hmade := hl.made
  by_cases hhead : ∃ h, s.pool.head = some h ∧ (s.squeue.node h).freeTime < now
  · obtain ⟨h, hh, htime⟩ := hhead
    rw [step_get_head hh htime, Option.some.injEq] at hs
    have hmax : (s.squeue.node n).freeTime = 0xFFFFFFFF :=
      hl.out.resolve_left fun hnone => by rw [hh] at hnone; cases hnone
    have hne : n ≠ h := fun he => by
      rw [← he, hmax, UInt32.lt_iff_toNat_lt] at htime
      have hsize : now.toNat < 4294967296 := now.toNat_lt
      have hle : 4294967295 < now.toNat := htime
      omega
    subst hs
    refine ⟨hmade, (Function.update_of_ne hne ..).trans hl.held, .inr ?_⟩
    exact (congrArg Node.freeTime (Function.update_of_ne hne ..)).trans hmax
  · have hnew : s.pool.head = none ∨ ∃ h, s.pool.head = some h ∧ ¬ (s.squeue.node h).freeTime < now := by
      cases hp : s.pool.head with
      | none => exact .inl rfl
      | some h => exact .inr ⟨h, rfl, fun htime => hhead ⟨h, hp, htime⟩⟩
    rw [step_get_new hnew, Option.some.injEq] at hs
    have hne : n ≠ s.squeue.made := Nat.ne_of_lt hmade
    subst hs
    refine ⟨Nat.lt_succ_of_lt hmade, (Function.update_of_ne hne ..).trans hl.held, hl.out.imp_right ?_⟩
    exact fun hmax => (congrArg Node.freeTime (Function.update_of_ne hne ..)).trans hmax

theorem Lost.not_available (hl : Lost s n) : ¬ Available s n := by
  rintro ⟨times, s', hrun, hheld⟩
  induction times generalizing s with
  | nil =>
    cases hrun
    exact hheld hl.held
  | cons now times ih =>
    obtain ⟨s₁, h₁, h₂⟩ := run_cons_some.mp hrun
    exact ih (hl.get h₁) h₂

theorem Lost.unsound (hl : Lost s n) : ¬ Sound s :=
  fun hs => hl.not_available (hs.kept n hl.made hl.held)

/-- **A node that is freed where the tail has been left, or too late, is lost.** -/
theorem Linked.free_lost (hl : Linked s l) (hheld : (s.held n).isSome)
    (hbad : ¬ Ok s (.free now n)) :
    Lost { squeue := s.squeue.freeNode now n, held := Function.update s.held n none } n where
  made := by
    dsimp only
    rw [made_freeNode]
    by_contra hle
    rw [hl.new n (Nat.not_lt.mp hle)] at hheld
    cases hheld
  held := Function.update_self ..
  out := by
    have hbad' : ¬ ((s.pool.head = none → s.pool.tail = none) ∧ now + 60 ≠ 0xFFFFFFFF) := hbad
    by_cases hnow : now + 60 = 0xFFFFFFFF
    · right
      dsimp only
      rw [freeTime_freeNode, if_pos rfl, hnow]
    · left
      have hstale : s.squeue.pool.head = none ∧ s.squeue.pool.tail ≠ none :=
        Classical.not_imp.mp fun himp => hbad' ⟨himp, hnow⟩
      have hpool := congrArg Queue.head (pool_freeNode s.squeue now n)
      refine hpool.trans ?_
      unfold Queue.push
      rw [if_pos (Option.isSome_iff_ne_none.mpr hstale.2)]
      exact hstale.1

/-! ### The runs -/

theorem linked_step {a : Label} (hi : ∃ l, Linked s l) (hs : s.step a = some s') :
    (Ok s a → ∃ l, Linked s' l) ∧ (¬ Ok s a → ¬ Sound s') := by
  obtain ⟨l, hl⟩ := hi
  cases a with
  | get now =>
    obtain ⟨s₁, l', h₁, hl'⟩ := hl.get now
    rw [h₁, Option.some.injEq] at hs
    subst hs
    exact ⟨fun _ => ⟨l', hl'⟩, fun hn => absurd trivial hn⟩
  | free now n =>
    by_cases hheld : (s.held n).isSome
    · rw [step_free hheld, Option.some.injEq] at hs
      subst hs
      exact ⟨fun hok => ⟨_, hl.free hheld hok.1 hok.2⟩, fun hbad => (hl.free_lost hheld hbad).unsound⟩
    · unfold State.step at hs
      dsimp only at hs
      rw [if_neg hheld] at hs
      cases hs
  | write n a =>
    unfold State.step at hs
    dsimp only at hs
    split_ifs at hs with hheld
    cases hs
    exact ⟨fun _ => ⟨l, hl.write hheld a⟩, fun hn => absurd trivial hn⟩

/-- **Where the pool is sound in all of a run**: where no node is freed into a pool that a get has
emptied. -/
theorem sound_iff {ops : List Label} (h : run State.step {} ops = some s) :
    (∀ ops' s', ops' <+: ops → run State.step {} ops' = some s' → Sound s') ↔
      Along State.step Ok {} ops :=
  along_iff_of_run (I := fun s => ∃ l, Linked s l) (fun _ ⟨_, hl⟩ => hl.sound)
    (fun _ _ _ hi hs => linked_step hi hs) h ⟨[], linked_start⟩

/-- Two nodes are got and freed, and one is got again. -/
theorem sound_iff_two : (∃ s, run State.step {}
      [.get 0, .get 0, .free 0 0, .free 0 1, .get 61, .free 61 0] = some s) ∧
    ∀ ops' s', ops' <+: [.get 0, .get 0, .free 0 0, .free 0 1, .get 61, .free 61 0] →
      run State.step {} ops' = some s' → Sound s' :=
  ⟨⟨_, rfl⟩, (sound_iff rfl).mpr (by decide)⟩

/-- The only node of the pool is got, and the next that is freed is linked to it. -/
theorem not_sound : ∃ s, run State.step {} [.get 0, .free 0 0, .get 61, .get 61, .free 61 1] = some s ∧
    s.squeue.pool.head = none ∧ (s.held 0).isSome = true ∧ (s.squeue.node 0).next = some 1 ∧
    ¬ Sound s := by
  refine ⟨_, rfl, rfl, rfl, rfl, fun hs => ?_⟩
  have hnext := congrArg Node.next (hs.intact 0 {} rfl)
  cases hnext

end ChatShow.Antlib.NodePool
