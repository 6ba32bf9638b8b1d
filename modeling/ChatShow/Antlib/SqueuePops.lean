import ChatShow.Antlib.SqueuePushes

/-! # The steps of the pop

The pop leaves all but the first node to the pushes, and that one too once all its places are filled. -/

namespace ChatShow.Antlib.SqueueThreads

open ChatShow.Antlib.SharedQueue (Node SQUEUE_NODE_SIZE)

variable {ι : Type*} {s s' : State ι} {chain : List ℕ} {vals : ℕ → List ℕ} {done : List ℕ} {n i v : ℕ}
  {pc : PopPc} {q : Squeue} {now : UInt32}

/-- The chain and the places are as they were, and the numbers add up to what they did. -/
theorem Queued.framePop (h : Queued s chain vals done) (hpush : s'.push = s.push)
    (htaken : s'.taken = s.taken) (hpushed : s'.pushed = s.pushed)
    (hhead : s'.squeue.head = s.squeue.head) (htail : s'.squeue.tail = s.squeue.tail)
    (hplaces : ∀ n, (s'.squeue.node n).head = (s.squeue.node n).head)
    (hqueue : ∀ n ∈ chain, (s'.squeue.node n).queue = (s.squeue.node n).queue)
    (hnext : ∀ n ∈ chain, (s'.squeue.node n).next = (s.squeue.node n).next)
    (hfresh : ∀ n ∈ chain, s.squeue.head ≠ some n → (s'.squeue.node n).tail = (s.squeue.node n).tail)
    (hused : ∀ n ∈ chain, n ∈ s.used → n ∈ s'.used)
    (hnew : ∀ m ∈ s.used, m ∉ chain → s.squeue.node m = {} → m ∈ s'.used ∧ s'.squeue.node m = {})
    (hcount : s'.squeue.count.toInt + s'.popped.length = s.squeue.count.toInt + s.popped.length)
    (hpop : s'.popped.length ≤ s.pushed ∧ (s'.pop ≠ .out → s'.popped.length < s.pushed))
    (hpopping : ∀ h, s.squeue.head = some h → Popping s' chain vals done h) :
    Queued s' chain vals done where
  nodes := h.nodes.frame hhead htail (fun n hn _ => hnext n hn) hfresh hused
  places := h.places.frame htail (fun n _ => congrArg (min · _) (hplaces n)) hqueue
    (fun t v n i => by rw [hpush]) fun t v n ht => Or.inl (by rw [← hpush, ht])
  linking := h.linking.frame htail (fun n _ => by rw [hplaces])
    (fun n hn => hnext n (h.nodes.mem_of_tail hn)) hnew (fun t => by rw [hpush])
    fun t _ => Or.inl (congrFun hpush t)
  popping f hf := hpopping f (hhead.symm.trans hf)
  counts := by
    obtain ⟨H, hH⟩ := h.counts
    refine ⟨H, fun t => ?_, ?_, ?_, ?_⟩
    · rw [hH.holds t, hpush]
    · rw [htaken, hpushed, hH.taken]
    · rw [hcount, hpushed, hH.count]
    · rw [hpushed]
      exact hpop
  taken := by rw [htaken, h.taken]

theorem Nodes.exists_head (h : Nodes s chain) : ∃ n, s.squeue.head = some n :=
  Option.ne_none_iff_exists'.mp fun hnone => h.ne (List.head?_eq_none_iff.mp (h.head.symm.trans hnone))

/-- A first node that has a place left is the last one. -/
theorem Queued.chain_eq (h : Queued s chain vals done) {f : ℕ} (hf : s.squeue.head = some f)
    (hlt : (vals f).length < SQUEUE_NODE_SIZE) : chain = [f] := by
  have hmem := h.nodes.mem_of_head hf
  have htail : chain.getLast? = some f := by
    rw [← h.nodes.tail]
    by_contra hne
    have := h.places.full f hmem hne
    rw [h.places.length f hmem] at hlt
    omega
  obtain ⟨l, rfl⟩ := List.head?_eq_some_iff.mp (h.nodes.head.symm.trans hf)
  cases l with
  | nil => rfl
  | cons m l =>
    rw [List.getLast?_cons_cons] at htail
    exact absurd (List.mem_of_getLast? htail) (List.nodup_cons.mp h.nodes.nodup).1

/-- A value that has been counted and not popped has its place. -/
theorem Queued.lt_length (h : Queued s chain vals done) {f j : ℕ} (hf : s.squeue.head = some f)
    (hj : j < SQUEUE_NODE_SIZE) (hpopped : s.popped = done ++ (vals f).take j)
    (hlt : s.popped.length < s.pushed) : j < (vals f).length := by
  by_contra hle
  have htake : (vals f).take j = vals f := List.take_of_length_le (by omega)
  have hchain := h.chain_eq hf (by omega)
  have htaken := congrArg List.length h.taken
  rw [hchain, List.flatMap_singleton, ← htake, ← hpopped, List.length_map] at htaken
  obtain ⟨H, hH⟩ := h.counts
  have := hH.taken
  omega

variable [DecidableEq ι]

theorem step_popTurn {r : Squeue × PopPc} (h : popTurn s.squeue now s.pop = some r) :
    s.step (.popTurn now) = some (s.turnPop r) := by
  show (popTurn s.squeue now s.pop).map s.turnPop = _
  rw [h, Option.map_some]

omit [DecidableEq ι] in
/-- A step of the pop that is not one of those that free a node or return. -/
theorem turnPop_of (hfree : s.pop.left s.used = s.used) (hret : s.pop.returns = []) :
    s.turnPop (q, pc) = { s with squeue := q, pop := pc } := by
  unfold State.turnPop
  rw [hfree, hret, List.append_nil]

theorem Queued.pop (h : Queued s chain vals done) (hs : s.pop = .out) (hcount : s.squeue.count > 0) :
    ∃ s', s.step .pop = some s' ∧ Queued s' chain vals done := by
  refine ⟨{ s with pop := .add }, if_pos ⟨hs, hcount⟩, ?_⟩
  refine h.framePop rfl rfl rfl rfl rfl (fun _ => rfl) (fun _ _ => rfl) (fun _ _ => rfl)
    (fun _ _ _ => rfl) (fun _ _ hu => hu) (fun _ hu _ he => ⟨hu, he⟩) rfl ?_ fun f hf => ?_
  · obtain ⟨H, hH⟩ := h.counts
    have hpos : (0 : Int32).toInt < s.squeue.count.toInt := Int32.lt_iff_toInt_lt.mp hcount
    have := hH.count
    rw [Int32.toInt_zero] at hpos
    show s.popped.length ≤ s.pushed ∧ (_ → s.popped.length < s.pushed)
    omega
  · have hp := h.popping f hf
    unfold Popping at hp ⊢
    rw [hs] at hp
    exact hp

/-- `LOCK_ADD` on the `_tail` of the first node: there is a value for the place. -/
theorem Queued.popAdd (h : Queued s chain vals done) (hs : s.pop = .add) (now : UInt32) :
    ∃ s', s.step (.popTurn now) = some s' ∧ Queued s' chain vals done := by
  obtain ⟨f, hf⟩ := h.nodes.exists_head
  obtain ⟨H, hH⟩ := h.counts
  have hlt : s.popped.length < s.pushed := hH.pop.2 (by rw [hs]; nofun)
  have hp := h.popping f hf
  unfold Popping at hp
  rw [hs] at hp
  obtain ⟨hj, hfilled, hpopped⟩ := hp
  refine ⟨_, step_popTurn (r := (s.squeue.addTail f, .wait f (s.squeue.node f).tail)) ?_, ?_⟩
  · rw [hs]
    simp [popTurn, hf, hj]
  rw [turnPop_of (by rw [hs]; rfl) (by rw [hs]; rfl)]
  refine h.framePop rfl rfl rfl rfl rfl (fun n => Squeue.head_addTail s.squeue f n)
    (fun n _ => Squeue.queue_addTail s.squeue f n) (fun n _ => Squeue.next_addTail s.squeue f n)
    (fun n _ hne => ?_) (fun _ _ hu => hu) (fun m hu hm he => ⟨hu, ?_⟩) rfl ⟨hlt.le, fun _ => hlt⟩ fun f' hf' => ?_
  · refine congrArg Node.tail (Squeue.node_setNode_of_ne s.squeue ?_ _)
    rintro rfl
    exact hne hf
  · refine (Squeue.node_setNode_of_ne s.squeue ?_ _).trans he
    rintro rfl
    exact hm (h.nodes.mem_of_head hf)
  · cases hf.symm.trans hf'
    refine ⟨rfl, congrArg Node.tail (Squeue.node_setNode_self ..), h.lt_length hf hj hpopped hlt,
      fun i hi hn => ?_, hpopped⟩
    exact hfilled i hi ((congrFun (Squeue.queue_addTail s.squeue f f) i).symm.trans hn)

/-- A turn of the loop that waits for the place to be filled. -/
theorem Queued.popWait (h : Queued s chain vals done) (hs : s.pop = .wait n i) (now : UInt32) :
    ∃ s', s.step (.popTurn now) = some s' ∧ Queued s' chain vals done := by
  obtain ⟨f, hf⟩ := h.nodes.exists_head
  have hmem := h.nodes.mem_of_head hf
  obtain ⟨H, hH⟩ := h.counts
  have hlt : s.popped.length < s.pushed := hH.pop.2 (by rw [hs]; nofun)
  have hp := h.popping f hf
  unfold Popping at hp
  rw [hs] at hp
  obtain ⟨rfl, hj, hi, hfilled, hpopped⟩ := hp
  have hmin := h.places.length n hmem
  cases hq : (s.squeue.node n).queue i with
  | none =>
    refine ⟨_, step_popTurn (r := (s.squeue, .wait n i)) (by rw [hs]; simp [popTurn, hq]), ?_⟩
    rw [turnPop_of (by rw [hs]; rfl) (by rw [hs]; rfl), ← hs]
    exact h
  | some v =>
    obtain ⟨hi', hv⟩ := List.getElem?_eq_some_iff.mp (h.places.filled n hmem i v hq)
    have hsucc : Filled s n (i + 1) := by
      intro k hk
      rcases Nat.lt_succ_iff_lt_or_eq.mp hk with hk | rfl
      · exact hfilled k hk
      · rw [hq]
        nofun
    have htake : s.popped ++ [v] = done ++ (vals n).take (i + 1) := by
      rw [hpopped, List.append_assoc, List.take_succ_eq_append_getElem hi', hv]
    obtain ⟨pc, hpc⟩ : ∃ pc, (if i = SQUEUE_NODE_SIZE - 1 then PopPc.leave n v else .count v) = pc :=
      ⟨_, rfl⟩
    refine ⟨_, step_popTurn (r := (s.squeue, pc)) (by rw [hs, ← hpc]; simp [popTurn, hq]), ?_⟩
    rw [turnPop_of (by rw [hs]; rfl) (by rw [hs]; rfl)]
    refine h.framePop rfl rfl rfl rfl rfl (fun _ => rfl) (fun _ _ => rfl) (fun _ _ => rfl)
      (fun _ _ _ => rfl) (fun _ _ hu => hu) (fun _ hu _ he => ⟨hu, he⟩) rfl ⟨hlt.le, fun _ => hlt⟩ fun f' hf' => ?_
    cases hf.symm.trans hf'
    split_ifs at hpc with hlast
    · have hlen : (vals n).length = SQUEUE_NODE_SIZE := by omega
      have hsize : i + 1 = SQUEUE_NODE_SIZE := by omega
      rw [← hpc]
      refine ⟨rfl, hlen, hsize ▸ hsucc, ?_⟩
      rw [htake, hsize, ← hlen, List.take_length]
    · rw [← hpc]
      refine ⟨?_, ?_, ?_⟩
      · show (s.squeue.node n).tail < _
        omega
      · show Filled _ n (s.squeue.node n).tail
        rw [hj]
        exact hsucc
      · show s.popped ++ [v] = done ++ (vals n).take (s.squeue.node n).tail
        rw [hj, htake]

omit [DecidableEq ι] in
/-- The place of a push that is to fill it is not in a node all of whose places are filled. -/
theorem Places.ne_of_filled (h : Places s chain vals) {f t} (hfilled : Filled s f SQUEUE_NODE_SIZE)
    (ht : s.push t = .store v n i) : n ≠ f := by
  rintro rfl
  obtain ⟨hn, hv, hq⟩ := h.store t v n i ht
  have hi := (List.getElem?_eq_some_iff.mp hv).1
  rw [h.length n hn] at hi
  exact hfilled i (by omega) hq

section
variable {f m : ℕ} {rest : List ℕ}

omit [DecidableEq ι]

theorem Nodes.leave (h : Nodes s (f :: m :: rest))
    (hsqueue : s'.squeue = { s.squeue with head := some m }) (hused : s'.used = s.used) :
    Nodes s' (m :: rest) := by
  refine ⟨by rw [hsqueue]; rfl, ?_, List.cons_ne_nil _ _, (List.nodup_cons.mp h.nodup).2,
    fun i a b ha hb => ?_, fun n hn => ?_, fun n hn _ => ?_⟩
  · rw [hsqueue]
    exact h.tail.trans List.getLast?_cons_cons
  · rw [hsqueue]
    exact h.links (i + 1) a b ha hb
  · rw [hused]
    exact h.used n (List.mem_cons_of_mem _ hn)
  · rw [hsqueue]
    refine h.fresh n (List.mem_cons_of_mem _ hn) fun hf => ?_
    cases h.head.symm.trans hf
    exact (List.nodup_cons.mp h.nodup).1 hn

theorem Places.leave (h : Places s (f :: rest) vals) {head : Option ℕ}
    (hsqueue : s'.squeue = { s.squeue with head := head }) (hpush : s'.push = s.push)
    (hne : s.squeue.tail ≠ some f) (hfilled : Filled s f SQUEUE_NODE_SIZE) : Places s' rest vals := by
  have hmem : ∀ n ∈ rest, n ∈ f :: rest := fun n hn => List.mem_cons_of_mem _ hn
  refine ⟨fun n hn => ?_, fun n hn hne' => ?_, fun n hn i v hq => ?_, fun n hn i v hq hv => ?_,
    fun t v n i ht => ?_, fun t t' v v' n i ht ht' => ?_, fun t v n ht => ?_⟩
  all_goals rw [hsqueue] at *
  · exact h.length n (hmem n hn)
  · exact h.full n (hmem n hn) hne'
  · exact h.filled n (hmem n hn) i v hq
  · rw [hpush]
    exact h.awaited n (hmem n hn) i v hq hv
  · rw [hpush] at ht
    obtain ⟨hn, hv, hq⟩ := h.store t v n i ht
    exact ⟨(List.mem_cons.mp hn).resolve_left (h.ne_of_filled hfilled ht), hv, hq⟩
  · rw [hpush] at ht ht'
    exact h.apart t t' v v' n i ht ht'
  · rw [hpush] at ht
    rcases h.add t v n ht with hn | hle
    · rcases List.mem_cons.mp hn with rfl | hn
      · exact Or.inr (h.full n List.mem_cons_self hne)
      · exact Or.inl hn
    · exact Or.inr hle

theorem Linking.leave (h : Linking s (f :: rest)) {head : Option ℕ}
    (hsqueue : s'.squeue = { s.squeue with head := head }) (hpush : s'.push = s.push)
    (hused : s'.used = s.used) : Linking s' rest := by
  refine ⟨fun t n => ?_, fun n => ?_, fun t t' => ?_, fun t v n => ?_, fun t m ht => ?_,
    fun t ht n hn => ?_⟩
  all_goals rw [hpush] at *
  all_goals rw [hsqueue] at *
  · exact h.full t n
  · exact h.exists_of_full n
  · exact h.one t t'
  · exact h.last t v n
  · obtain ⟨hu, hm, he⟩ := h.link t m ht
    exact ⟨hused ▸ hu, fun hmem => hm (List.mem_cons_of_mem _ hmem), he⟩
  · obtain ⟨m, hm, hu, hnew, he⟩ := h.move t ht n hn
    exact ⟨m, hm, hused ▸ hu, fun hmem => hnew (List.mem_cons_of_mem _ hmem), he⟩

end

/-- A turn of the loop that waits for the next node, or the head has moved to it. -/
theorem Queued.popLeave (h : Queued s chain vals done) (hs : s.pop = .leave n v) (now : UInt32) :
    ∃ s' chain' done', s.step (.popTurn now) = some s' ∧ Queued s' chain' vals done' := by
  obtain ⟨f, hf⟩ := h.nodes.exists_head
  obtain ⟨H, hH⟩ := h.counts
  have hlt : s.popped.length < s.pushed := hH.pop.2 (by rw [hs]; nofun)
  have hp := h.popping f hf
  unfold Popping at hp
  rw [hs] at hp
  obtain ⟨rfl, hlen, hfilled, hpopped⟩ := hp
  by_cases htail : s.squeue.tail = some n
  · refine ⟨_, chain, done, step_popTurn (r := (s.squeue, .leave n v)) ?_, ?_⟩
    · rw [hs]
      exact if_pos htail
    rw [turnPop_of (by rw [hs]; rfl) (by rw [hs]; rfl), ← hs]
    exact h
  · obtain ⟨l, rfl⟩ := List.head?_eq_some_iff.mp (h.nodes.head.symm.trans hf)
    cases l with
    | nil => exact absurd h.nodes.tail htail
    | cons m rest =>
      have hnext : (s.squeue.node n).next = some m := h.nodes.links 0 n m rfl rfl
      have hnew : n ∉ m :: rest := (List.nodup_cons.mp h.nodes.nodup).1
      have hm : s.squeue.head ≠ some m := by
        rw [hf]
        rintro ⟨⟩
        exact hnew List.mem_cons_self
      refine ⟨_, m :: rest, done ++ vals n,
        step_popTurn (r := ({ s.squeue with head := some m }, .free n v)) ?_, ?_⟩
      · rw [hs]
        simp [popTurn, htail, hf, hnext]
      rw [turnPop_of (by rw [hs]; rfl) (by rw [hs]; rfl)]
      refine ⟨h.nodes.leave rfl rfl, h.places.leave rfl rfl htail hfilled, h.linking.leave rfl rfl rfl,
        fun f' hf' => ?_, ⟨H, hH.holds, hH.taken, hH.count, hlt.le, fun _ => hlt⟩, ?_⟩
      · cases Option.some.inj hf'
        exact ⟨h.nodes.fresh m (by simp) hm, hpopped, hnew, h.nodes.used n List.mem_cons_self,
          h.places.full n List.mem_cons_self htail⟩
      · rw [List.append_assoc]
        exact h.taken

/-- The node that the head has left is in use no more. -/
theorem Queued.popFree (h : Queued s chain vals done) (hs : s.pop = .free n v) (now : UInt32) :
    ∃ s', s.step (.popTurn now) = some s' ∧ Queued s' chain vals done := by
  obtain ⟨f, hf⟩ := h.nodes.exists_head
  have hmem := h.nodes.mem_of_head hf
  obtain ⟨H, hH⟩ := h.counts
  have hlt : s.popped.length < s.pushed := hH.pop.2 (by rw [hs]; nofun)
  have hp := h.popping f hf
  unfold Popping at hp
  rw [hs] at hp
  obtain ⟨hj, hpopped, hnew, hused, hfull⟩ := hp
  obtain ⟨a, ha⟩ : ∃ a, { s.squeue.node n with next := none, freeTime := now + 60 } = a := ⟨_, rfl⟩
  have hsame : ∀ m ∈ chain, (s.squeue.setNode n a).node m = s.squeue.node m := by
    intro m hm
    refine Squeue.node_setNode_of_ne s.squeue ?_ _
    rintro rfl
    exact hnew hm
  have hturn : s.turnPop (s.squeue.setNode n a, .count v) =
      { s with squeue := s.squeue.setNode n a, pop := .count v, used := s.used.erase n } := by
    unfold State.turnPop
    rw [hs]
    simp [PopPc.left, PopPc.returns]
  refine ⟨_, step_popTurn (r := (s.squeue.setNode n a, .count v)) (by rw [hs, ← ha]; rfl), ?_⟩
  rw [hturn]
  refine h.framePop rfl rfl rfl rfl rfl (Squeue.keep_setNode s.squeue Node.head (by rw [← ha]))
    (fun m hm => congrArg Node.queue (hsame m hm)) (fun m hm => congrArg Node.next (hsame m hm))
    (fun m hm _ => congrArg Node.tail (hsame m hm)) (fun m hm hu => ?_) (fun m hu hm he => ?_) rfl
    ⟨hlt.le, fun _ => hlt⟩ fun f' hf' => ?_
  · refine (List.mem_erase_of_ne ?_).mpr hu
    rintro rfl
    exact hnew hm
  · have hne : m ≠ n := by
      rintro rfl
      rw [he] at hfull
      exact absurd hfull (by decide)
    exact ⟨(List.mem_erase_of_ne hne).mpr hu, (Squeue.node_setNode_of_ne s.squeue hne _).trans he⟩
  · cases hf.symm.trans hf'
    have htail : ((s.squeue.setNode n a).node f).tail = 0 := (congrArg Node.tail (hsame f hmem)).trans hj
    refine ⟨?_, ?_, ?_⟩
    · show ((s.squeue.setNode n a).node f).tail < _
      rw [htail]
      decide
    · show Filled _ f ((s.squeue.setNode n a).node f).tail
      rw [htail]
      exact fun i hi => absurd hi (Nat.not_lt_zero i)
    · show s.popped ++ [v] = done ++ (vals f).take ((s.squeue.setNode n a).node f).tail
      rw [htail, hpopped, List.take_zero, List.append_nil]

/-- The value is returned. -/
theorem Queued.popCount (h : Queued s chain vals done) (hs : s.pop = .count v) (now : UInt32) :
    ∃ s', s.step (.popTurn now) = some s' ∧ Queued s' chain vals done := by
  obtain ⟨H, hH⟩ := h.counts
  have hlt : s.popped.length < s.pushed := hH.pop.2 (by rw [hs]; nofun)
  have hsub : (s.squeue.count - 1).toInt = s.squeue.count.toInt - 1 := by
    have := hH.count
    exact SharedQueue.toInt_sub_one (by omega)
  have hturn : s.turnPop ({ s.squeue with count := s.squeue.count - 1 }, .out) =
      { s with
        squeue := { s.squeue with count := s.squeue.count - 1 }
        pop := .out
        popped := s.popped ++ [v] } := by
    unfold State.turnPop
    rw [hs]
    rfl
  refine ⟨_, step_popTurn (r := ({ s.squeue with count := s.squeue.count - 1 }, .out)) ?_, ?_⟩
  · rw [hs]
    rfl
  rw [hturn]
  refine h.framePop rfl rfl rfl rfl rfl (fun _ => rfl) (fun _ _ => rfl) (fun _ _ => rfl)
    (fun _ _ _ => rfl) (fun _ _ hu => hu) (fun _ hu _ he => ⟨hu, he⟩) ?_ ⟨?_, fun hne => absurd rfl hne⟩
    fun f hf => ?_
  · show (s.squeue.count - 1).toInt + ((s.popped ++ [v]).length : ℤ) = _
    rw [hsub, List.length_append, List.length_singleton]
    push_cast
    omega
  · show (s.popped ++ [v]).length ≤ s.pushed
    rw [List.length_append]
    exact hlt
  · have hp := h.popping f hf
    unfold Popping at hp ⊢
    rw [hs] at hp
    exact hp

end ChatShow.Antlib.SqueueThreads
