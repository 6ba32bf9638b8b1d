import ChatShow.Antlib.SqueuePops
import Mathlib.Data.Fintype.Basic

/-! # Runs of the queue

Every interleaving of the steps of the pushes and of the pop. -/

namespace ChatShow.Antlib.SqueueThreads

open ChatShow.Antlib.SharedQueue (Node SQUEUE_NODE_SIZE)
open ChatShow.Lib.Runs

variable {ι : Type*} [DecidableEq ι] {s s' : State ι} {n : ℕ}

omit [DecidableEq ι] in
theorem inv_init (n : ℕ) : Inv (State.init n : State ι) := by
  have hnode : ∀ m, (State.init n : State ι).squeue.node m = {} := fun _ => rfl
  refine ⟨[n], fun _ => [], [], ⟨rfl, rfl, by simp, by simp, ?_, fun _ hm => hm, ?_⟩,
    ⟨fun _ _ => rfl, ?_, ?_, ?_, ?_, ?_, ?_⟩, ⟨?_, ?_, ?_, ?_, ?_, ?_⟩, ?_, ⟨∅, ?_, rfl, rfl, le_rfl, fun hne => absurd rfl hne⟩, rfl⟩
  · intro i a b _ hb
    simp at hb
  · intro _ _ _
    rfl
  · rintro m hm hne
    exact absurd (congrArg some (List.mem_singleton.mp hm).symm) hne
  · rintro m _ i v ⟨⟩
  · rintro m _ i v _ ⟨⟩
  · rintro t v m i ⟨⟩
  · rintro t t' v v' m i ⟨⟩
  · rintro t v m ⟨⟩
  · exact fun t m hl => absurd hl id
  · exact fun m _ hle => absurd hle (by rw [hnode]; decide)
  · exact fun t t' hl => absurd hl id
  · rintro t v m ⟨⟩
  · rintro t m ⟨⟩
  · rintro t ⟨⟩
  · exact fun h _ => ⟨by rw [hnode]; decide, fun i hi => absurd hi (Nat.not_lt_zero i), rfl⟩
  · exact fun t => iff_of_false (Finset.notMem_empty t) id

/-- A step of the pushes, where `get_squeue_node` gives a node that is not in use. -/
theorem Inv.pushTurn {t : ι} {m : ℕ} (h : Inv s) (ht : s.push t ≠ .out) (hok : PushOk s t m) :
    ∃ s', s.step (.pushTurn t m) = some s' ∧ Inv s' := by
  obtain ⟨chain, vals, done, h⟩ := h
  cases hpc : s.push t with
  | out => exact absurd hpc ht
  | read v => exact (h.read hpc m).imp fun s' hs => ⟨hs.1, _, _, _, hs.2⟩
  | add v n =>
    rcases Nat.lt_or_ge (s.squeue.node n).head SQUEUE_NODE_SIZE with hlt | hle
    · exact (h.addPlace hpc hlt m).imp fun s' hs => ⟨hs.1, _, _, _, hs.2⟩
    · exact (h.addFull hpc hle m).imp fun s' hs => ⟨hs.1, _, _, _, hs.2⟩
  | store v n i => exact (h.store hpc m).imp fun s' hs => ⟨hs.1, _, _, _, hs.2⟩
  | get => exact (h.get hpc hok).imp fun s' hs => ⟨hs.1, _, _, _, hs.2⟩
  | link m' => exact (h.link hpc m).imp fun s' hs => ⟨hs.1, _, _, _, hs.2⟩
  | move =>
    obtain ⟨s', m', hs, h'⟩ := h.move hpc m
    exact ⟨s', hs, _, _, _, h'⟩
  | count =>
    unfold PushOk at hok
    rw [hpc] at hok
    exact (h.count hpc hok m).imp fun s' hs => ⟨hs.1, _, _, _, hs.2⟩

theorem Inv.popTurn (h : Inv s) (hs : s.pop ≠ .out) (now : UInt32) :
    ∃ s', s.step (.popTurn now) = some s' ∧ Inv s' := by
  obtain ⟨chain, vals, done, h⟩ := h
  cases hpc : s.pop with
  | out => exact absurd hpc hs
  | add => exact (h.popAdd hpc now).imp fun s' hs => ⟨hs.1, _, _, _, hs.2⟩
  | wait n i => exact (h.popWait hpc now).imp fun s' hs => ⟨hs.1, _, _, _, hs.2⟩
  | leave n v =>
    obtain ⟨s', chain', done', hs', h'⟩ := h.popLeave hpc now
    exact ⟨s', hs', _, _, _, h'⟩
  | free n v => exact (h.popFree hpc now).imp fun s' hs => ⟨hs.1, _, _, _, hs.2⟩
  | count v => exact (h.popCount hpc now).imp fun s' hs => ⟨hs.1, _, _, _, hs.2⟩

/-- **Every step that there is can be taken, and keeps the state of the queue.** -/
theorem Inv.step (h : Inv s) {a : Label ι} (hok : Ok s a) : ∃ s', s.step a = some s' ∧ Inv s' := by
  cases a with
  | push t v =>
    obtain ⟨chain, vals, done, h⟩ := h
    exact (h.push hok v).imp fun s' hs => ⟨hs.1, _, _, _, hs.2⟩
  | pushTurn t m => exact h.pushTurn hok.1 hok.2
  | pop =>
    obtain ⟨chain, vals, done, h⟩ := h
    exact (h.pop hok.1 hok.2).imp fun s' hs => ⟨hs.1, _, _, _, hs.2⟩
  | popTurn now => exact h.popTurn hok now

theorem run_inv_init {l : List (Label ι)} (hok : Along State.step Ok (State.init n) l) :
    ∃ s, run State.step (State.init n) l = some s ∧ Inv s :=
  run_total_along (fun _ _ h hg => h.step hg) hok (inv_init n)

/-! ### The order of the values -/

omit [DecidableEq ι] in
/-- What has been popped are the first of the values that have been given a place. -/
theorem Inv.popped_prefix (h : Inv s) : s.popped <+: s.taken.map Prod.snd := by
  obtain ⟨chain, vals, done, h⟩ := h
  obtain ⟨f, hf⟩ := h.nodes.exists_head
  obtain ⟨l, rfl⟩ := List.head?_eq_some_iff.mp (h.nodes.head.symm.trans hf)
  have htaken : s.taken.map Prod.snd = done ++ (vals f ++ l.flatMap vals) := by
    rw [h.taken, List.flatMap_cons]
  have hfirst : ∀ {u r : List ℕ}, u ++ r = done ++ vals f → u <+: s.taken.map Prod.snd := fun {u r} he =>
    ⟨r ++ l.flatMap vals, by rw [htaken, ← List.append_assoc, he, List.append_assoc]⟩
  have htake : ∀ {u r : List ℕ} k, u ++ r = done ++ (vals f).take k → u <+: s.taken.map Prod.snd :=
    fun {u r} k he => hfirst (r := r ++ (vals f).drop k) (by
      rw [← List.append_assoc, he, List.append_assoc, List.take_append_drop])
  have hp := h.popping f hf
  unfold Popping at hp
  split at hp
  · exact htake (r := []) _ (by rw [List.append_nil]; exact hp.2.2)
  · exact htake (r := []) _ (by rw [List.append_nil]; exact hp.2.2)
  · exact htake (r := []) _ (by rw [List.append_nil]; exact hp.2.2.2.2)
  · exact hfirst hp.2.2.2
  · rw [htaken, ← hp.2.1, List.append_assoc]
    exact List.prefix_append ..
  · exact htake _ hp.2.2

/-- The calls of `push_squeue` in a run. -/
def Label.called : Label ι → List (ι × ℕ)
  | .push t v => [(t, v)]
  | _ => []

/-- The value of a push that has not been given its place. -/
def PushPc.asks : PushPc → List ℕ
  | .read v => [v]
  | .add v _ => [v]
  | _ => []

/-- The values of the thread `t`. -/
def valuesOf (l : List (ι × ℕ)) (t : ι) : List ℕ := (l.filter fun p => p.1 = t).map Prod.snd

theorem valuesOf_append (l l' : List (ι × ℕ)) (t : ι) :
    valuesOf (l ++ l') t = valuesOf l t ++ valuesOf l' t := by
  unfold valuesOf
  rw [List.filter_append, List.map_append]

theorem valuesOf_singleton (t' t : ι) (v : ℕ) : valuesOf [(t', v)] t = if t' = t then [v] else [] := by
  unfold valuesOf
  split_ifs with h <;> simp [h]

omit [DecidableEq ι] in
theorem asks_pushTurn {m : ℕ} {pc : PushPc} {r : Squeue × PushPc} {q : Squeue}
    (h : pushTurn q m pc = some r) (t : ι) :
    pc.asks = (r.2.placed t).map Prod.snd ++ r.2.asks := by
  cases pc <;> simp only [pushTurn, Option.map_eq_some_iff, Option.some.injEq, reduceCtorEq] at h
  case add v n =>
    subst h
    dsimp only
    split_ifs <;> rfl
  case store =>
    subst h
    dsimp only
    split_ifs <;> rfl
  case get => exact h ▸ rfl
  case count => exact h ▸ rfl
  all_goals
    obtain ⟨n, -, rfl⟩ := h
    rfl

omit [DecidableEq ι] in
theorem placed_of (t : ι) (pc : PushPc) : ∀ p ∈ pc.placed t, p.1 = t := by
  unfold PushPc.placed
  split <;> simp

/-- Every value of a call has its place in the order of the calls of its thread, but for that of the last
call where it has not been given one. -/
theorem valuesOf_step {a : Label ι} (h : s.step a = some s') (t : ι) :
    valuesOf s.taken t ++ (s.push t).asks ++ valuesOf a.called t =
      valuesOf s'.taken t ++ (s'.push t).asks := by
  cases a with
  | push t' v =>
    unfold State.step at h
    dsimp only at h
    split_ifs at h with hout
    cases h
    rw [Label.called, valuesOf_singleton]
    rcases eq_or_ne t' t with rfl | hne
    · simp [hout, PushPc.asks]
    · simp [hne, Function.update_of_ne hne.symm]
  | pushTurn t' m =>
    obtain ⟨r, hr, rfl⟩ := Option.map_eq_some_iff.mp h
    have hnil : valuesOf (Label.called (ι := ι) (.pushTurn t' m)) t = [] := rfl
    rw [hnil, List.append_nil]
    show _ = valuesOf (s.taken ++ r.2.placed t') t ++ (Function.update s.push t' r.2 t).asks
    rw [valuesOf_append, List.append_assoc]
    congr 1
    rcases eq_or_ne t' t with rfl | hne
    · rw [asks_pushTurn hr t', Function.update_self]
      congr 2
      exact (List.filter_eq_self.mpr fun p hp => by simpa using placed_of t' r.2 p hp).symm
    · rw [Function.update_of_ne hne.symm]
      have : valuesOf (r.2.placed t') t = [] := by
        unfold valuesOf
        rw [List.map_eq_nil_iff, List.filter_eq_nil_iff]
        intro p hp
        simpa [placed_of t' r.2 p hp] using hne
      rw [this, List.nil_append]
  | pop =>
    unfold State.step at h
    dsimp only at h
    split_ifs at h with hout
    cases h
    simp [Label.called, valuesOf]
  | popTurn now =>
    obtain ⟨r, hr, rfl⟩ := Option.map_eq_some_iff.mp h
    simp [Label.called, valuesOf, State.turnPop]

theorem valuesOf_run {l : List (Label ι)} (h : run State.step s l = some s') (t : ι) :
    valuesOf s.taken t ++ (s.push t).asks ++ valuesOf (l.flatMap Label.called) t =
      valuesOf s'.taken t ++ (s'.push t).asks := by
  induction l generalizing s with
  | nil =>
    cases h
    exact List.append_nil _
  | cons a l ih =>
    obtain ⟨s₁, h₁, h₂⟩ := run_cons_some.mp h
    rw [List.flatMap_cons, valuesOf_append, ← List.append_assoc, valuesOf_step h₁, ih h₂]

instance [Fintype ι] (s : State ι) (t : ι) (m : ℕ) : Decidable (PushOk s t m) := by
  unfold PushOk
  split <;> infer_instance

instance [Fintype ι] (s : State ι) : DecidablePred (Ok s)
  | .push t _ => inferInstanceAs (Decidable (s.push t = .out))
  | .pushTurn t m => inferInstanceAs (Decidable (s.push t ≠ .out ∧ PushOk s t m))
  | .pop => inferInstanceAs (Decidable (s.pop = .out ∧ s.squeue.count > 0))
  | .popTurn _ => inferInstanceAs (Decidable (s.pop ≠ .out))

/-- Two pushes, of which the second is given its place first, and a pop. -/
def twoPushes : List (Label (Fin 2)) :=
  [.push 0 5, .pushTurn 0 1, .push 1 6, .pushTurn 1 1, .pushTurn 1 1, .pushTurn 0 1, .pushTurn 1 1,
    .pushTurn 1 1, .pop, .popTurn 0, .popTurn 0, .popTurn 0]

example : (run State.step (State.init 0) twoPushes).map (fun s => (s.taken, s.popped)) =
    some ([(1, 6), (0, 5)], [6]) := by decide

/-! ### The numbers -/

omit [DecidableEq ι] in
theorem Counts.le_taken {H : Finset ι} (h : Counts s H) :
    0 ≤ s.squeue.count.toInt ∧ s.squeue.count.toInt + s.popped.length ≤ s.taken.length := by
  have := h.count
  have := h.pop.1
  have := h.taken
  omega

omit [DecidableEq ι] in
/-- `_count` is the number of the values that wait, once no push is under way. -/
theorem Inv.count_alone (h : Inv s) (hout : ∀ t, s.push t = .out) :
    s.squeue.count.toInt + s.popped.length = s.taken.length := by
  obtain ⟨chain, vals, done, h⟩ := h
  obtain ⟨H, hH⟩ := h.counts
  have hnil : H = ∅ := by
    refine Finset.eq_empty_of_forall_notMem fun t ht => ?_
    have := (hH.holds t).mp ht
    rw [hout t] at this
    exact this
  rw [hH.count, hH.taken, hnil, Finset.card_empty, Nat.add_zero]

/-- The next turn of the pop is one more of the loop that it is in. -/
def Waits (s : State ι) : Prop := s.pop ≠ .out ∧ ∀ now, popTurn s.squeue now s.pop = some (s.squeue, s.pop)

/-- The next turn of the pop is not. -/
def GoesOn (s : State ι) : Prop := ∀ now r, popTurn s.squeue now s.pop = some r → r.2 ≠ s.pop

omit [DecidableEq ι] in
theorem waits_cases (h : Waits s) : (∃ n i, s.pop = .wait n i ∧ (s.squeue.node n).queue i = none) ∨
    ∃ n v, s.pop = .leave n v ∧ s.squeue.tail = some n := by
  obtain ⟨hout, hstay⟩ := h
  have hstay := hstay 0
  cases hpc : s.pop with
  | out => exact absurd hpc hout
  | add =>
    rw [hpc, popTurn, Option.bind_eq_some_iff] at hstay
    obtain ⟨f, -, hf⟩ := hstay
    dsimp only at hf
    split_ifs at hf
    cases (Prod.mk.inj (Option.some.inj hf)).2
  | wait n i =>
    refine Or.inl ⟨n, i, rfl, ?_⟩
    cases hq : (s.squeue.node n).queue i with
    | none => rfl
    | some v =>
      rw [hpc] at hstay
      simp only [popTurn, hq, Option.some.injEq, Prod.mk.injEq] at hstay
      have := hstay.2
      split_ifs at this
  | leave n v =>
    refine Or.inr ⟨n, v, rfl, ?_⟩
    by_contra hne
    rw [hpc, popTurn, if_neg hne, Option.map_eq_some_iff] at hstay
    obtain ⟨f, -, hf⟩ := hstay
    cases (Prod.mk.inj hf).2
  | free n v =>
    rw [hpc] at hstay
    cases (Prod.mk.inj (Option.some.inj hstay)).2
  | count v =>
    rw [hpc] at hstay
    cases (Prod.mk.inj (Option.some.inj hstay)).2

omit [DecidableEq ι] in
theorem goesOn_wait {i v : ℕ} (hs : s.pop = .wait n i) (hq : (s.squeue.node n).queue i = some v) :
    GoesOn s := by
  intro now r hr
  rw [hs] at hr ⊢
  simp only [popTurn, hq, Option.some.injEq] at hr
  rw [← hr]
  dsimp only
  split_ifs <;> simp

omit [DecidableEq ι] in
theorem goesOn_leave {v : ℕ} (hs : s.pop = .leave n v) (htail : s.squeue.tail ≠ some n) : GoesOn s := by
  intro now r hr
  rw [hs] at hr ⊢
  rw [popTurn, if_neg htail, Option.map_eq_some_iff] at hr
  obtain ⟨f, -, rfl⟩ := hr
  simp

section
variable {chain : List ℕ} {vals : ℕ → List ℕ} {done : List ℕ} {t : ι} {m v : ℕ}

omit [DecidableEq ι] in
/-- The push that the pop waits for. -/
theorem Queued.awaited (h : Queued s chain vals done) (hwaits : Waits s) :
    (∃ t v n i, s.pop = .wait n i ∧ s.push t = .store v n i) ∨
      ∃ t n v, s.pop = .leave n v ∧ s.squeue.tail = some n ∧
        (s.push t = .get ∨ (∃ m, s.push t = .link m) ∨ s.push t = .move) := by
  obtain ⟨f, hf⟩ := h.nodes.exists_head
  have hmem := h.nodes.mem_of_head hf
  have hp := h.popping f hf
  unfold Popping at hp
  rcases waits_cases hwaits with ⟨n, i, hs, hnone⟩ | ⟨n, v, hs, htail⟩
  · rw [hs] at hp
    obtain ⟨rfl, -, hi, -⟩ := hp
    obtain ⟨t, ht⟩ := h.places.awaited n hmem i _ hnone (List.getElem?_eq_getElem hi)
    exact Or.inl ⟨t, _, n, i, hs, ht⟩
  · rw [hs] at hp
    obtain ⟨rfl, hlen, hfilled, -⟩ := hp
    have hmin := h.places.length n hmem
    obtain ⟨t, ht⟩ := h.linking.exists_of_full n htail (by omega)
    refine Or.inr ⟨t, n, v, hs, htail, ?_⟩
    cases hpc : s.push t with
    | store v' n' i =>
      rw [hpc] at ht
      cases (show i = _ from ht)
      cases htail.symm.trans (h.linking.last t v' n' hpc)
      exact absurd rfl (h.places.ne_of_filled hfilled hpc)
    | get => exact Or.inl rfl
    | link m' => exact Or.inr (Or.inl ⟨m', rfl⟩)
    | move => exact Or.inr (Or.inr rfl)
    | _ =>
      rw [hpc] at ht
      exact absurd ht id

theorem Queued.goesOn_move (h : Queued s chain vals done) (hs : s.pop = .leave n v)
    (htail : s.squeue.tail = some n) (ht : s.push t = .move) (m : ℕ) :
    ∃ s', s.step (.pushTurn t m) = some s' ∧ GoesOn s' := by
  obtain ⟨m', hnext, -, hnew, -⟩ := h.linking.move t ht n htail
  refine ⟨_, step_pushTurn (r := ({ s.squeue with tail := some m' }, .count)) ?_, goesOn_leave hs ?_⟩
  · rw [ht]
    simp [pushTurn, htail, hnext]
  · rintro ⟨⟩
    exact hnew (h.nodes.mem_of_tail htail)

theorem Queued.goesOn_link (h : Queued s chain vals done) (hs : s.pop = .leave n v)
    (htail : s.squeue.tail = some n) (ht : s.push t = .link m) (m' : ℕ) :
    ∃ s', run State.step s (List.replicate 2 (.pushTurn t m')) = some s' ∧ GoesOn s' := by
  obtain ⟨s₁, h₁, hq⟩ := h.link ht m'
  have hstep : s.step (.pushTurn t m') = some (s.turnPush t m' (s.squeue.setNext n (some m), .move)) :=
    step_pushTurn (by rw [ht]; simp [pushTurn, htail])
  cases h₁.symm.trans hstep
  obtain ⟨s', h', hgo⟩ := hq.goesOn_move (n := n) (v := v) hs htail
    (show Function.update s.push t .move t = .move from Function.update_self ..) m'
  exact ⟨s', run_cons_eq h₁ (run_cons_eq h' rfl), hgo⟩

theorem Queued.goesOn_get (h : Queued s chain vals done) (hs : s.pop = .leave n v)
    (htail : s.squeue.tail = some n) (ht : s.push t = .get) (hok : PushOk s t m) :
    ∃ s', run State.step s (List.replicate 3 (.pushTurn t m)) = some s' ∧ GoesOn s' := by
  obtain ⟨s₁, h₁, hq⟩ := h.get ht hok
  have hstep : s.step (.pushTurn t m) = some (s.turnPush t m (s.squeue.setNode m {}, .link m)) :=
    step_pushTurn (by rw [ht]; rfl)
  cases h₁.symm.trans hstep
  obtain ⟨s', h', hgo⟩ := hq.goesOn_link (n := n) (v := v) (m := m) hs htail
    (show Function.update s.push t (.link m) t = .link m from Function.update_self ..) m
  exact ⟨s', run_cons_eq h₁ h', hgo⟩

theorem Queued.goesOn_store (ht : s.push t = .store v n i) (hs : s.pop = .wait n i) (m : ℕ) :
    ∃ s', s.step (.pushTurn t m) = some s' ∧ GoesOn s' := by
  refine ⟨_, step_pushTurn (r := (s.squeue.setPlace n i v, _)) (by rw [ht]; rfl), ?_⟩
  refine goesOn_wait (v := v) hs ?_
  show ((s.squeue.setPlace n i v).node n).queue i = some v
  rw [Squeue.setPlace, Squeue.node_setNode_self]
  exact Function.update_self ..

end

/-- The second of two pushes is counted, and the first has not filled its place. -/
def unfilled : List (Label (Fin 2)) :=
  [.push 0 5, .pushTurn 0 1, .pushTurn 0 1, .push 1 6, .pushTurn 1 1, .pushTurn 1 1, .pushTurn 1 1,
    .pushTurn 1 1, .pop, .popTurn 0]

end ChatShow.Antlib.SqueueThreads
