import ChatShow.Antlib.HandlerQueue
import ChatShow.Antlib.SqueueNodes

/-! # The steps of a push

What each of them does to the chain of the nodes and to the values that have a place. -/

namespace ChatShow.Antlib.SqueueThreads

open ChatShow.Antlib.SharedQueue (Node SQUEUE_NODE_SIZE)

variable {ι : Type*} [DecidableEq ι] {s s' : State ι} {chain : List ℕ} {vals : ℕ → List ℕ} {done : List ℕ}
  {t : ι} {pc : PushPc} {q : Squeue} {v n m i : ℕ}

theorem update_iff {push : ι → PushPc} (P : PushPc → Prop) (h : P pc ↔ P (push t)) (t' : ι) :
    P (Function.update push t pc t') ↔ P (push t') := by
  rcases eq_or_ne t' t with rfl | hne
  · rw [Function.update_self, h]
  · rw [Function.update_of_ne hne]

/-- Only the thread `t` has gone on, to `pc`. -/
structure Turned (s s' : State ι) (t : ι) (pc : PushPc) : Prop where
  self : s'.push t = pc
  other : ∀ t', t' ≠ t → s'.push t' = s.push t'

omit [DecidableEq ι] in
/-- Where a thread is somewhere else than `pc`, it is where it was. -/
theorem Turned.old {x : PushPc} {t' : ι} (h : Turned s s' t pc) (ht : s'.push t' = x) (hne : x ≠ pc) :
    t' ≠ t ∧ s.push t' = x := by
  have hne' : t' ≠ t := by
    rintro rfl
    exact hne (ht.symm.trans h.self)
  exact ⟨hne', (h.other t' hne').symm.trans ht⟩

omit [DecidableEq ι] in
theorem Turned.new {x : PushPc} {t' : ι} (h : Turned s s' t pc) (ht : s.push t' = x)
    (hne : s.push t ≠ x) : s'.push t' = x :=
  (h.other t' (by rintro rfl; exact hne ht)).trans ht

theorem turned_update {s : State ι} (hpush : s'.push = Function.update s.push t pc) :
    Turned s s' t pc where
  self := by rw [hpush, Function.update_self]
  other t' hne := by rw [hpush, Function.update_of_ne hne]

theorem step_pushTurn {r : Squeue × PushPc} (h : pushTurn s.squeue m (s.push t) = some r) :
    s.step (.pushTurn t m) = some (s.turnPush t m r) := by
  show (pushTurn s.squeue m (s.push t)).map (s.turnPush t m) = _
  rw [h, Option.map_some]

/-- A step of a push that is not one of those the numbers are of. -/
theorem turnPush_of (hg : s.push t ≠ .get) (hc : s.push t ≠ .count) (hp : pc.placed t = []) :
    s.turnPush t m (q, pc) = { s with squeue := q, push := Function.update s.push t pc } := by
  have hgot : (s.push t).got s.used m = s.used := by
    unfold PushPc.got
    split
    · exact absurd ‹_› hg
    · rfl
  unfold State.turnPush
  rw [hgot, if_neg hc, hp, List.append_nil]

/-- The thread goes on, with nothing that the others could see. -/
theorem Queued.update (h : Queued s chain vals done) (ht : ¬ (s.push t).Links) (hpc : ¬ pc.Links)
    (hholds : pc.Holds ↔ (s.push t).Holds) (hstore : ∀ v n i, s.push t ≠ .store v n i)
    (hstore' : ∀ v n i, pc ≠ .store v n i) (hadd : ∀ v n, pc = .add v n → n ∈ chain) :
    Queued { s with push := Function.update s.push t pc } chain vals done := by
  refine h.frame ?_ ?_ ?_ ?_ rfl rfl rfl rfl (fun _ _ => rfl) (fun _ _ _ hq => hq)
    fun _ _ hu hle => ⟨hu, hle⟩
  · exact h.nodes.frame rfl rfl (fun _ _ _ => rfl) (fun _ _ _ => rfl) fun _ _ hu => hu
  · refine h.places.frame rfl (fun _ _ => rfl) (fun _ _ => rfl) (fun t' v n i => ?_)
      fun t' v n ht' => ?_
    · exact update_iff (· = .store v n i) (iff_of_false (hstore' v n i) (hstore v n i)) t'
    · rcases eq_or_ne t' t with rfl | hne
      · exact Or.inr (hadd v n (by simpa using ht'))
      · exact Or.inl (by simpa [Function.update_of_ne hne] using ht')
  · refine h.linking.frame rfl (fun _ _ => Iff.rfl) (fun _ _ => rfl) (fun _ hu _ he => ⟨hu, he⟩)
      (update_iff PushPc.Links (iff_of_false hpc ht)) fun t' ht' => ?_
    have hne : t' ≠ t := by
      rintro rfl
      exact ht ht'
    exact Or.inl (Function.update_of_ne hne ..)
  · obtain ⟨H, hH⟩ := h.counts
    exact ⟨H, fun t' => (hH.holds t').trans (update_iff PushPc.Holds hholds t').symm, hH.taken, hH.count, hH.pop⟩

theorem Queued.read (h : Queued s chain vals done) (ht : s.push t = .read v) (m : ℕ) :
    ∃ s', s.step (.pushTurn t m) = some s' ∧ Queued s' chain vals done := by
  obtain ⟨n, hn⟩ := h.nodes.exists_tail
  refine ⟨_, step_pushTurn (r := (s.squeue, .add v n)) (by rw [ht]; simp [pushTurn, hn]), ?_⟩
  rw [turnPush_of (by rw [ht]; nofun) (by rw [ht]; nofun) rfl]
  refine h.update (by rw [ht]; exact id) id (by rw [ht]; exact Iff.rfl) (by rw [ht]; nofun) nofun ?_
  rintro v' n' ⟨⟩
  exact h.nodes.mem_of_tail hn

/-- `LOCK_ADD` on the `_head` of a node that has no place left. -/
theorem Queued.addFull (h : Queued s chain vals done) (ht : s.push t = .add v n)
    (hfull : SQUEUE_NODE_SIZE ≤ (s.squeue.node n).head) (m : ℕ) :
    ∃ s', s.step (.pushTurn t m) = some s' ∧ Queued s' chain vals done := by
  have hle := Squeue.head_le_addHead s.squeue n
  have hmin : ∀ n', min ((s.squeue.addHead n).node n').head SQUEUE_NODE_SIZE =
      min (s.squeue.node n').head SQUEUE_NODE_SIZE := by
    intro n'
    rcases eq_or_ne n' n with rfl | hne
    · have := hle n'
      omega
    · exact congrArg (min · _) (congrArg Node.head (Squeue.node_setNode_of_ne s.squeue hne _))
  refine ⟨_, step_pushTurn (r := (s.squeue.addHead n, .read v)) ?_, ?_⟩
  · rw [ht]
    simp [pushTurn, Nat.not_lt.mpr hfull]
  rw [turnPush_of (by rw [ht]; nofun) (by rw [ht]; nofun) rfl]
  have hq : Queued { s with push := Function.update s.push t (.read v) } chain vals done :=
    h.update (by rw [ht]; exact id) id (by rw [ht]; exact Iff.rfl) (by rw [ht]; nofun) nofun nofun
  refine hq.frame ?_ ?_ ?_ (hq.counts.imp fun _ hH => ⟨hH.holds, hH.taken, hH.count, hH.pop⟩) rfl rfl rfl rfl
    (fun n' _ => Squeue.tail_addHead s.squeue n n')
    (fun n' _ i hn => (congrFun (Squeue.queue_addHead s.squeue n n') i).symm.trans hn)
    fun n' _ hu hle' => ⟨hu, hle'.trans (hle n')⟩
  · exact hq.nodes.frame rfl rfl (fun n' _ _ => Squeue.next_addHead s.squeue n n')
      (fun n' _ _ => Squeue.tail_addHead s.squeue n n') fun _ _ hu => hu
  · exact hq.places.frame rfl (fun n' _ => hmin n') (fun n' _ => Squeue.queue_addHead s.squeue n n')
      (fun _ _ _ _ => Iff.rfl) fun _ _ _ h' => Or.inl h'
  · refine hq.linking.frame rfl (fun n' _ => ?_) (fun n' _ => Squeue.next_addHead s.squeue n n')
      (fun m' hu _ he => ⟨hu, ?_⟩) (fun _ => Iff.rfl) fun _ _ => Or.inl rfl
    · have := hmin n'
      dsimp only
      omega
    · refine (Squeue.node_setNode_of_ne s.squeue (fun heq => ?_) _).trans he
      -- the node has no place left, and the one that is to be linked has all
      rw [← heq, show s.squeue.node m' = {} from he] at hfull
      exact absurd hfull (by decide)

theorem getElem?_update_concat {n' i v' : ℕ} (h : (vals n')[i]? = some v') :
    (Function.update vals n (vals n ++ [v]) n')[i]? = some v' := by
  rcases eq_or_ne n' n with rfl | hne
  · rw [Function.update_self, List.getElem?_append_left (List.getElem?_eq_some_iff.mp h).1, h]
  · rw [Function.update_of_ne hne, h]

theorem getElem?_update_concat_cases {n' i v' : ℕ}
    (h : (Function.update vals n (vals n ++ [v]) n')[i]? = some v') :
    (n' = n ∧ i = (vals n).length ∧ v' = v) ∨ (vals n')[i]? = some v' := by
  rcases eq_or_ne n' n with rfl | hne
  · rw [Function.update_self, List.getElem?_append] at h
    split_ifs at h with hi
    · exact Or.inr h
    · obtain ⟨hlt, he⟩ := List.getElem?_eq_some_iff.mp h
      rw [List.length_singleton] at hlt
      have hi' : i = (vals n').length := by omega
      subst hi'
      simp at he
      exact Or.inl ⟨rfl, rfl, he.symm⟩
  · rw [Function.update_of_ne hne] at h
    exact Or.inr h

omit [DecidableEq ι] in
/-- The next place of the tail is given to the thread `t`. -/
theorem Places.give (h : Places s chain vals) (hsqueue : s'.squeue = s.squeue.addHead n)
    (hturn : Turned s s' t (.store v n (vals n).length)) (ht : s.push t = .add v n) (hmem : n ∈ chain)
    (htail : s.squeue.tail = some n) (hlt : (s.squeue.node n).head < SQUEUE_NODE_SIZE) :
    Places s' chain (Function.update vals n (vals n ++ [v])) := by
  have hlen := h.length n hmem
  have hhead : ∀ n', n' ≠ n → (s'.squeue.node n').head = (s.squeue.node n').head := fun n' hne => by
    rw [hsqueue]
    exact congrArg Node.head (Squeue.node_setNode_of_ne s.squeue hne _)
  have hqueue : ∀ n', (s'.squeue.node n').queue = (s.squeue.node n').queue := fun n' => by
    rw [hsqueue, Squeue.queue_addHead]
  -- no other thread is to fill the place, and it has not been filled
  have hplace : ∀ t' v', s.push t' ≠ .store v' n (vals n).length := fun t' v' ht' =>
    absurd (List.getElem?_eq_some_iff.mp (h.store t' v' n _ ht').2.1).1 (lt_irrefl _)
  have hempty : (s.squeue.node n).queue (vals n).length = none := by
    by_contra hne
    obtain ⟨v', hv'⟩ := Option.ne_none_iff_exists'.mp hne
    exact absurd (List.getElem?_eq_some_iff.mp (h.filled n hmem _ v' hv')).1 (lt_irrefl _)
  refine ⟨fun n' hn' => ?_, fun n' hn' hne => ?_, fun n' hn' i v' hq => ?_, fun n' hn' i v' hq hv => ?_,
    fun t' v' n' i ht' => ?_, fun t₁ t₂ v₁ v₂ n' i h₁ h₂ => ?_, fun t' v' n' ht' => ?_⟩
  · rcases eq_or_ne n' n with rfl | hne
    · rw [Function.update_self, List.length_append, List.length_singleton, hsqueue,
        Squeue.head_addHead_self]
      omega
    · rw [Function.update_of_ne hne, hhead n' hne, h.length n' hn']
  · rw [hsqueue] at hne
    have hne' : n' ≠ n := fun heq => hne (heq ▸ htail)
    rw [hhead n' hne']
    exact h.full n' hn' hne
  · rw [hqueue] at hq
    exact getElem?_update_concat (h.filled n' hn' i v' hq)
  · rw [hqueue] at hq
    rcases getElem?_update_concat_cases hv with ⟨rfl, rfl, rfl⟩ | hold
    · exact ⟨t, hturn.self⟩
    · obtain ⟨t', ht'⟩ := h.awaited n' hn' i v' hq hold
      exact ⟨t', hturn.new ht' (by rw [ht]; nofun)⟩
  · rw [hqueue]
    by_cases heq : PushPc.store v' n' i = .store v n (vals n).length
    · cases heq
      exact ⟨hmem, by rw [Function.update_self, List.getElem?_concat_length], hempty⟩
    · obtain ⟨hn', hv, hq⟩ := h.store t' v' n' i (hturn.old ht' heq).2
      exact ⟨hn', getElem?_update_concat hv, hq⟩
  · by_cases hnew : n' = n ∧ i = (vals n).length
    · obtain ⟨rfl, rfl⟩ := hnew
      have honly : ∀ t' v', s'.push t' = .store v' n' (vals n').length → t' = t := fun t' v' ht' => by
        by_contra hne
        exact hplace t' v' ((hturn.other t' hne).symm.trans ht')
      rw [honly t₁ v₁ h₁, honly t₂ v₂ h₂]
    · have hold : ∀ t' v', s'.push t' = .store v' n' i → s.push t' = .store v' n' i := fun t' v' ht' =>
        (hturn.old ht' (by rintro ⟨⟩; exact hnew ⟨rfl, rfl⟩)).2
      exact h.apart t₁ t₂ v₁ v₂ n' i (hold t₁ v₁ h₁) (hold t₂ v₂ h₂)
  · rcases h.add t' v' n' (hturn.old ht' nofun).2 with hn' | hle
    · exact Or.inl hn'
    · rw [hsqueue]
      exact Or.inr (hle.trans (Squeue.head_le_addHead ..))

omit [DecidableEq ι] in
/-- The thread that gets the last place of the tail is the one that links the next node. -/
theorem Linking.give (h : Linking s chain) (hsqueue : s'.squeue = s.squeue.addHead n)
    (hturn : Turned s s' t (.store v n (s.squeue.node n).head)) (htail : s.squeue.tail = some n)
    (hlt : (s.squeue.node n).head < SQUEUE_NODE_SIZE) : Linking s' chain := by
  have htail' : s'.squeue.tail = some n := by
    rw [hsqueue]
    exact htail
  have honly : ∀ t', (s'.push t').Links → t' = t ∧ (s.squeue.node n).head = SQUEUE_NODE_SIZE - 1 := by
    intro t' hl
    by_cases heq : t' = t
    · subst heq
      rw [hturn.self] at hl
      exact ⟨rfl, hl⟩
    · rw [hturn.other t' heq] at hl
      exact absurd (h.full t' n hl htail) (Nat.not_le.mpr hlt)
  refine ⟨fun t' n' hl hn' => ?_, fun n' hn' hle => ⟨t, ?_⟩, fun t₁ t₂ h₁ h₂ => ?_, fun t' v' n' ht' => ?_,
    fun t' m' ht' => ?_, fun t' ht' => ?_⟩
  · cases htail'.symm.trans hn'
    have := (honly t' hl).2
    rw [hsqueue, Squeue.head_addHead_self]
    omega
  · cases htail'.symm.trans hn'
    rw [hsqueue, Squeue.head_addHead_self] at hle
    rw [hturn.self]
    show (s.squeue.node n).head = SQUEUE_NODE_SIZE - 1
    omega
  · rw [(honly t₁ h₁).1, (honly t₂ h₂).1]
  · obtain ⟨rfl, -⟩ := honly t' (by rw [ht']; exact rfl)
    obtain ⟨-, rfl, -⟩ := PushPc.store.inj (hturn.self.symm.trans ht')
    exact htail'
  · obtain ⟨rfl, -⟩ := honly t' (by rw [ht']; exact trivial)
    cases hturn.self.symm.trans ht'
  · obtain ⟨rfl, -⟩ := honly t' (by rw [ht']; exact trivial)
    cases hturn.self.symm.trans ht'

/-- `LOCK_ADD` on the `_head` of a node that has a place: it is the tail. -/
theorem Queued.addPlace (h : Queued s chain vals done) (ht : s.push t = .add v n)
    (hlt : (s.squeue.node n).head < SQUEUE_NODE_SIZE) (m : ℕ) :
    ∃ s', s.step (.pushTurn t m) = some s' ∧
      Queued s' chain (Function.update vals n (vals n ++ [v])) done := by
  have hmem : n ∈ chain := (h.places.add t v n ht).resolve_right (Nat.not_le.mpr hlt)
  have htail : s.squeue.tail = some n := by
    by_contra hne
    exact absurd (h.places.full n hmem hne) (Nat.not_le.mpr hlt)
  have hlen : (vals n).length = (s.squeue.node n).head := by
    rw [h.places.length n hmem, Nat.min_eq_left hlt.le]
  refine ⟨_, step_pushTurn (r := (s.squeue.addHead n, .store v n (s.squeue.node n).head)) ?_, ?_⟩
  · rw [ht]
    simp [pushTurn, hlt]
  have hturn : s.turnPush t m (s.squeue.addHead n, .store v n (s.squeue.node n).head) =
      { s with
        squeue := s.squeue.addHead n
        push := Function.update s.push t (.store v n (s.squeue.node n).head)
        taken := s.taken ++ [(t, v)] } := by
    unfold State.turnPush
    rw [ht]
    rfl
  rw [hturn]
  refine ⟨?_, ?_, ?_, fun f hf => ?_, ?_, ?_⟩
  · exact h.nodes.frame rfl rfl (fun n' _ _ => Squeue.next_addHead s.squeue n n')
      (fun n' _ _ => Squeue.tail_addHead s.squeue n n') fun _ _ hu => hu
  · exact h.places.give rfl (by rw [hlen]; exact turned_update rfl) ht hmem htail hlt
  · exact h.linking.give rfl (turned_update rfl) htail hlt
  · have hf' := h.nodes.mem_of_head hf
    refine (h.popping f hf).frame rfl rfl (Squeue.tail_addHead ..)
      (fun i hn => (congrFun (Squeue.queue_addHead ..) i).symm.trans hn)
      (fun k hk => h.places.filled_le hf' hk) (fun hl => ?_) ?_
      fun n' hn' hu hle => ⟨hn', hu, hle.trans (Squeue.head_le_addHead ..)⟩
    · have hne : f ≠ n := by
        rintro rfl
        omega
      exact Function.update_of_ne hne ..
    · rcases eq_or_ne f n with rfl | hne
      · rw [Function.update_self]
        exact List.prefix_append ..
      · rw [Function.update_of_ne hne]
  · obtain ⟨H, hH⟩ := h.counts
    have hnew : t ∉ H := by
      rw [hH.holds t, ht]
      exact id
    refine ⟨insert t H, fun t' => ?_, ?_, hH.count, hH.pop⟩
    · rw [Finset.mem_insert, hH.holds t']
      by_cases heq : t' = t
      · subst heq
        simp [PushPc.Holds]
      · simp [heq]
    · rw [Finset.card_insert_of_notMem hnew, List.length_append, List.length_singleton, hH.taken]
      exact Nat.add_assoc ..
  · obtain ⟨l, rfl⟩ := List.getLast?_eq_some_iff.mp (h.nodes.tail.symm.trans htail)
    have hl : n ∉ l := fun hn =>
      (List.nodup_append.mp h.nodes.nodup).2.2 n hn n List.mem_cons_self rfl
    have hsame : l.flatMap (Function.update vals n (vals n ++ [v])) = l.flatMap vals := by
      rw [List.flatMap_def, List.flatMap_def]
      refine congrArg List.flatten (List.map_congr_left fun n' hn' => Function.update_of_ne ?_ ..)
      rintro rfl
      exact hl hn'
    show (s.taken ++ [(t, v)]).map Prod.snd = _
    rw [List.map_append, h.taken, List.flatMap_append, List.flatMap_append, hsame]
    simp

omit [DecidableEq ι] in
/-- The thread `t` fills its place. -/
theorem Places.fill (h : Places s chain vals) (hsqueue : s'.squeue = s.squeue.setPlace n i v)
    (hturn : Turned s s' t pc) (ht : s.push t = .store v n i) (hpc : pc = .count ∨ pc = .get) :
    Places s' chain vals := by
  have hhead : ∀ n', (s'.squeue.node n').head = (s.squeue.node n').head := fun n' => by
    rw [hsqueue, Squeue.head_setPlace]
  have hpc' : ∀ x : PushPc, x ≠ .count → x ≠ .get → x ≠ pc := by
    rintro x hc hg rfl
    exact hpc.elim hc hg
  have hqueue : ∀ n' i', ¬ (n' = n ∧ i' = i) →
      (s'.squeue.node n').queue i' = (s.squeue.node n').queue i' := by
    intro n' i' hne
    rw [hsqueue]
    rcases eq_or_ne n' n with rfl | hn
    · have hi : i' ≠ i := fun hi => hne ⟨rfl, hi⟩
      rw [Squeue.setPlace, Squeue.node_setNode_self]
      exact Function.update_of_ne hi ..
    · rw [Squeue.setPlace, Squeue.node_setNode_of_ne s.squeue hn]
  have hfill : (s'.squeue.node n).queue i = some v := by
    rw [hsqueue, Squeue.setPlace, Squeue.node_setNode_self]
    exact Function.update_self ..
  obtain ⟨hmem, hv, hempty⟩ := h.store t v n i ht
  refine ⟨fun n' hn' => ?_, fun n' hn' hne => ?_, fun n' hn' i' v' hq => ?_, fun n' hn' i' v' hq hv' => ?_,
    fun t' v' n' i' ht' => ?_, fun t₁ t₂ v₁ v₂ n' i' h₁ h₂ => ?_, fun t' v' n' ht' => ?_⟩
  · rw [hhead, h.length n' hn']
  · rw [hsqueue] at hne
    rw [hhead]
    exact h.full n' hn' hne
  · by_cases heq : n' = n ∧ i' = i
    · obtain ⟨rfl, rfl⟩ := heq
      cases hfill.symm.trans hq
      exact hv
    · rw [hqueue n' i' heq] at hq
      exact h.filled n' hn' i' v' hq
  · by_cases heq : n' = n ∧ i' = i
    · obtain ⟨rfl, rfl⟩ := heq
      cases hfill.symm.trans hq
    · rw [hqueue n' i' heq] at hq
      obtain ⟨t', ht'⟩ := h.awaited n' hn' i' v' hq hv'
      refine ⟨t', hturn.new ht' ?_⟩
      rw [ht]
      rintro ⟨⟩
      exact heq ⟨rfl, rfl⟩
  · obtain ⟨hne, hold⟩ := hturn.old ht' (hpc' _ nofun nofun)
    obtain ⟨hn', hv', hq⟩ := h.store t' v' n' i' hold
    refine ⟨hn', hv', (hqueue n' i' ?_).trans hq⟩
    rintro ⟨rfl, rfl⟩
    exact hne (h.apart t' t v' v n' i' hold ht)
  · exact h.apart t₁ t₂ v₁ v₂ n' i' (hturn.old h₁ (hpc' _ nofun nofun)).2
      (hturn.old h₂ (hpc' _ nofun nofun)).2
  · rw [hhead]
    exact h.add t' v' n' (hturn.old ht' (hpc' _ nofun nofun)).2

theorem Queued.store (h : Queued s chain vals done) (ht : s.push t = .store v n i) (m : ℕ) :
    ∃ s', s.step (.pushTurn t m) = some s' ∧ Queued s' chain vals done := by
  have hlt : i < SQUEUE_NODE_SIZE := by
    obtain ⟨hmem, hv, -⟩ := h.places.store t v n i ht
    have hi := (List.getElem?_eq_some_iff.mp hv).1
    rw [h.places.length n hmem] at hi
    exact hi.trans_le (Nat.min_le_right ..)
  obtain ⟨pc, hpc⟩ : ∃ pc, (if i < SQUEUE_NODE_SIZE - 1 then PushPc.count else PushPc.get) = pc :=
    ⟨_, rfl⟩
  have hcases : (pc = .count ∧ i ≠ SQUEUE_NODE_SIZE - 1) ∨ (pc = .get ∧ i = SQUEUE_NODE_SIZE - 1) := by
    rw [← hpc]
    split_ifs with hi
    · exact Or.inl ⟨rfl, hi.ne⟩
    · exact Or.inr ⟨rfl, by omega⟩
  refine ⟨_, step_pushTurn (r := (s.squeue.setPlace n i v, pc)) ?_, ?_⟩
  · rw [ht, ← hpc]
    rfl
  have hplaced : pc.placed t = [] := by
    rcases hcases with ⟨rfl, -⟩ | ⟨rfl, -⟩ <;> rfl
  rw [turnPush_of (by rw [ht]; nofun) (by rw [ht]; nofun) hplaced]
  have hlinks : pc.Links ↔ (s.push t).Links := by
    rw [ht]
    rcases hcases with ⟨rfl, hi⟩ | ⟨rfl, hi⟩
    · exact iff_of_false id hi
    · exact iff_of_true trivial hi
  have hholds : pc.Holds ↔ (s.push t).Holds := by
    rw [ht]
    rcases hcases with ⟨rfl, -⟩ | ⟨rfl, -⟩ <;> exact Iff.rfl
  refine h.frame ?_ ?_ ?_ ?_ rfl rfl rfl rfl (fun n' _ => Squeue.tail_setPlace s.squeue n n' i v)
    (fun n' _ i' hq => ?_) fun n' _ hu hle =>
      ⟨hu, hle.trans (Squeue.head_setPlace s.squeue n n' i v).ge⟩
  · exact h.nodes.frame rfl rfl (fun n' _ _ => Squeue.next_setPlace s.squeue n n' i v)
      (fun n' _ _ => Squeue.tail_setPlace s.squeue n n' i v) fun _ _ hu => hu
  · exact h.places.fill rfl (turned_update rfl) ht (hcases.imp And.left And.left)
  · refine h.linking.frame rfl (fun n' _ => ?_) (fun n' _ => Squeue.next_setPlace s.squeue n n' i v)
      (fun m' hu hc he => ⟨hu, ?_⟩) (update_iff PushPc.Links hlinks) fun t' hl => ?_
    · rw [← Squeue.head_setPlace s.squeue n n' i v]
    · refine (Squeue.node_setNode_of_ne s.squeue (fun heq => hc ?_) _).trans he
      rw [heq]
      exact (h.places.store t v n i ht).1
    · by_cases heq : t' = t
      · subst heq
        refine Or.inr ((Function.update_self ..).trans ?_)
        rcases hcases with ⟨-, hi⟩ | ⟨hget, -⟩
        · rw [ht] at hl
          exact absurd hl hi
        · exact hget
      · exact Or.inl (Function.update_of_ne heq ..)
  · obtain ⟨H, hH⟩ := h.counts
    exact ⟨H, fun t' => (hH.holds t').trans (update_iff PushPc.Holds hholds t').symm, hH.taken, hH.count, hH.pop⟩
  · -- a place that is empty now was empty before
    by_contra hne
    obtain ⟨v', hv'⟩ := Option.ne_none_iff_exists'.mp hne
    have hmem : ((s.squeue.setPlace n i v).node n').queue i' ≠ none := by
      rcases eq_or_ne n' n with rfl | hn
      · rw [Squeue.setPlace, Squeue.node_setNode_self]
        rcases eq_or_ne i' i with rfl | hi
        · exact fun hnone => nomatch (Function.update_self ..).symm.trans hnone
        · exact fun hnone => hne ((Function.update_of_ne hi ..).symm.trans hnone)
      · rw [Squeue.setPlace, Squeue.node_setNode_of_ne s.squeue hn]
        exact hne
    exact hmem hq

omit [DecidableEq ι] in
/-- The thread that links the next node goes on, to where it still does. -/
theorem Linking.turn (h : Linking s chain) (hturn : Turned s s' t pc) (ht : (s.push t).Links)
    (hpc : pc.Links) (hstore : ∀ v n i, pc ≠ .store v n i)
    (htail : s'.squeue.tail = s.squeue.tail)
    (hhead : ∀ n, s.squeue.tail = some n → (s'.squeue.node n).head = (s.squeue.node n).head)
    (hlink : ∀ m, pc = .link m → m ∈ s'.used ∧ m ∉ chain ∧ s'.squeue.node m = {})
    (hmove : pc = .move → ∀ n, s.squeue.tail = some n → ∃ m,
      (s'.squeue.node n).next = some m ∧ m ∈ s'.used ∧ m ∉ chain ∧ s'.squeue.node m = {}) :
    Linking s' chain := by
  have honly : ∀ t', (s'.push t').Links → t' = t := by
    intro t' hl
    by_contra hne
    rw [hturn.other t' hne] at hl
    exact hne (h.one t' t hl ht)
  have hself : ∀ t' x, s'.push t' = x → x.Links → x = pc := by
    intro t' x hx hl
    have heq := honly t' (by rw [hx]; exact hl)
    rw [heq] at hx
    exact hx.symm.trans hturn.self
  refine ⟨fun t' n hl hn => ?_, fun n hn hle => ⟨t, by rw [hturn.self]; exact hpc⟩,
    fun t₁ t₂ h₁ h₂ => (honly t₁ h₁).trans (honly t₂ h₂).symm, fun t' v n ht' => ?_, fun t' m ht' => ?_,
    fun t' ht' n hn => ?_⟩
  · rw [htail] at hn
    rw [hhead n hn]
    exact h.full t n ht hn
  · exact absurd (hself t' _ ht' rfl).symm (hstore v n _)
  · exact hlink m (hself t' _ ht' trivial).symm
  · rw [htail] at hn
    exact hmove (hself t' _ ht' trivial).symm n hn

/-- The thread that links the next node has been given it. -/
theorem Queued.get (h : Queued s chain vals done) (ht : s.push t = .get) (hok : PushOk s t m) :
    ∃ s', s.step (.pushTurn t m) = some s' ∧ Queued s' chain vals done := by
  unfold PushOk at hok
  rw [ht] at hok
  obtain ⟨hnew, hread⟩ := hok
  have hchain : m ∉ chain := fun hm => hnew (h.nodes.used m hm)
  have hsame : ∀ n, n ≠ m → ((s.squeue.setNode m {}).node n) = s.squeue.node n := fun n hne =>
    Squeue.node_setNode_of_ne s.squeue hne _
  have hmem : ∀ n ∈ chain, n ≠ m := fun n hn heq => hchain (heq ▸ hn)
  refine ⟨_, step_pushTurn (r := (s.squeue.setNode m {}, .link m)) (by rw [ht]; rfl), ?_⟩
  have hturn : s.turnPush t m (s.squeue.setNode m {}, .link m) =
      { s with
        squeue := s.squeue.setNode m {}
        push := Function.update s.push t (.link m)
        used := s.used ++ [m] } := by
    unfold State.turnPush
    rw [ht]
    simp [PushPc.got, PushPc.placed]
  rw [hturn]
  have hnext : Turned s { s with push := Function.update s.push t (.link m) } t (.link m) :=
    turned_update rfl
  refine h.frame ?_ ?_ ?_ ?_ rfl rfl rfl rfl (fun n hn => ?_) (fun n hn i hq => ?_)
    fun n _ hu hle => ?_
  · refine h.nodes.frame rfl rfl (fun n hn _ => ?_) (fun n hn _ => ?_) fun n _ hu =>
      List.mem_append_left _ hu
    · exact congrArg Node.next (hsame n (hmem n hn))
    · exact congrArg Node.tail (hsame n (hmem n hn))
  · refine h.places.frame rfl (fun n hn => ?_) (fun n hn => ?_) (fun t' v n i => ?_) fun t' v n ht' => ?_
    · have hne : n ≠ m := by
        rintro rfl
        exact hn.elim hchain fun ⟨t', ht'⟩ => hread t' ht'
      exact congrArg (min · _) (congrArg Node.head (hsame n hne))
    · exact congrArg Node.queue (hsame n (hmem n hn))
    · have hnot : ¬ s.push t = .store v n i := by
        rw [ht]
        nofun
      exact update_iff (· = .store v n i)
        (iff_of_false (show PushPc.link m ≠ .store v n i from nofun) hnot) t'
    · exact Or.inl (hnext.old ht' nofun).2
  · refine h.linking.turn (turned_update rfl) (by rw [ht]; trivial) trivial nofun rfl (fun n hn => ?_)
      (fun m' hm' => ?_) nofun
    · exact congrArg Node.head (hsame n (hmem n (h.nodes.mem_of_tail hn)))
    · cases hm'
      exact ⟨List.mem_append_right _ List.mem_cons_self, hchain, Squeue.node_setNode_self ..⟩
  · obtain ⟨H, hH⟩ := h.counts
    refine ⟨H, fun t' => (hH.holds t').trans (update_iff PushPc.Holds ?_ t').symm, hH.taken, hH.count,
      hH.pop⟩
    rw [ht]
    exact Iff.rfl
  · exact congrArg Node.tail (hsame n (hmem n hn))
  · exact (congrFun (congrArg Node.queue (hsame n (hmem n hn))) i).symm.trans hq
  · have hne : n ≠ m := by
      rintro rfl
      exact hnew hu
    exact ⟨List.mem_append_left _ hu, hle.trans (congrArg Node.head (hsame n hne)).ge⟩

/-- The tail has a next node. -/
theorem Queued.link (h : Queued s chain vals done) (ht : s.push t = .link m) (m' : ℕ) :
    ∃ s', s.step (.pushTurn t m') = some s' ∧ Queued s' chain vals done := by
  obtain ⟨n, hn⟩ := h.nodes.exists_tail
  have hmem := h.nodes.mem_of_tail hn
  obtain ⟨hused, hchain, hnode⟩ := h.linking.link t m ht
  refine ⟨_, step_pushTurn (r := (s.squeue.setNext n (some m), .move)) ?_, ?_⟩
  · rw [ht]
    simp [pushTurn, hn]
  rw [turnPush_of (by rw [ht]; nofun) (by rw [ht]; nofun) rfl]
  have hhead := Squeue.head_setNext s.squeue n
  have htail := Squeue.tail_setNext s.squeue n
  have hqueue := Squeue.queue_setNext s.squeue n
  have hturn : Turned s { s with push := Function.update s.push t .move } t .move := turned_update rfl
  refine h.frame ?_ ?_ ?_ ?_ rfl rfl rfl rfl (fun n' _ => htail n' _)
    (fun n' _ i hq => (congrFun (hqueue n' _) i).symm.trans hq)
    fun n' _ hu hle => ⟨hu, hle.trans (hhead n' _).ge⟩
  · refine h.nodes.frame rfl rfl (fun n' _ hne => ?_) (fun n' _ _ => htail n' _) fun _ _ hu => hu
    have hne' : n' ≠ n := by
      rintro rfl
      exact hne hn
    exact congrArg Node.next (Squeue.node_setNode_of_ne s.squeue hne' _)
  · refine h.places.frame rfl (fun n' _ => congrArg (min · _) (hhead n' _)) (fun n' _ => hqueue n' _)
      (fun t' v n' i => ?_) fun t' v n' ht' => Or.inl (hturn.old ht' nofun).2
    have hnot : ¬ s.push t = .store v n' i := by
      rw [ht]
      nofun
    exact update_iff (· = .store v n' i)
      (iff_of_false (show PushPc.move ≠ .store v n' i from nofun) hnot) t'
  · refine h.linking.turn (turned_update rfl) (by rw [ht]; trivial) trivial nofun rfl
      (fun n' _ => hhead n' _) nofun fun _ n' hn' => ⟨m, ?_, hused, hchain, ?_⟩
    · cases hn.symm.trans hn'
      exact congrArg Node.next (Squeue.node_setNode_self ..)
    · have hne : m ≠ n := fun heq => hchain (heq ▸ hmem)
      exact (Squeue.node_setNode_of_ne s.squeue hne _).trans hnode
  · obtain ⟨H, hH⟩ := h.counts
    refine ⟨H, fun t' => (hH.holds t').trans (update_iff PushPc.Holds ?_ t').symm, hH.taken, hH.count,
      hH.pop⟩
    rw [ht]
    exact Iff.rfl

omit [DecidableEq ι] in
theorem Nodes.move (h : Nodes s chain) (hsqueue : s'.squeue = { s.squeue with tail := some m })
    (hused : s'.used = s.used) (hm : m ∈ s.used) (hnew : m ∉ chain) (hnode : s.squeue.node m = {})
    (hnext : ∀ n, s.squeue.tail = some n → (s.squeue.node n).next = some m) :
    Nodes s' (chain ++ [m]) := by
  refine ⟨?_, ?_, by simp, ?_, fun i a b ha hb => ?_, fun n hn => ?_, fun n hn hne => ?_⟩
  · rw [hsqueue, List.head?_append_of_ne_nil _ h.ne]
    exact h.head
  · rw [hsqueue]
    simp
  · exact List.nodup_append.mpr
      ⟨h.nodup, List.nodup_singleton m, fun n hn m' hm' heq => hnew (by simp_all)⟩
  · rw [hsqueue]
    have hlt : i + 1 < (chain ++ [m]).length := (List.getElem?_eq_some_iff.mp hb).1
    rw [List.length_append, List.length_singleton] at hlt
    rw [List.getElem?_append_left (by omega)] at ha
    rcases Nat.lt_or_ge (i + 1) chain.length with hi | hi
    · rw [List.getElem?_append_left hi] at hb
      exact h.links i a b ha hb
    · have heq : i + 1 = chain.length := by omega
      rw [heq, List.getElem?_concat_length] at hb
      cases hb
      refine hnext a ?_
      rw [h.tail, List.getLast?_eq_getElem?, ← heq]
      exact ha
  · rw [hused]
    rcases List.mem_append.mp hn with hn | hn
    · exact h.used n hn
    · rw [List.mem_singleton.mp hn]
      exact hm
  · rw [hsqueue] at hne ⊢
    rcases List.mem_append.mp hn with hn | hn
    · exact h.fresh n hn hne
    · rw [List.mem_singleton.mp hn]
      exact congrArg Node.tail hnode

omit [DecidableEq ι] in
theorem Places.move (h : Places s chain vals) (hsqueue : s'.squeue = { s.squeue with tail := some m })
    (hturn : Turned s s' t .count) (ht : s.push t = .move) (hnew : m ∉ chain)
    (hnode : s.squeue.node m = {})
    (hfull : ∀ n, s.squeue.tail = some n → SQUEUE_NODE_SIZE ≤ (s.squeue.node n).head) :
    Places s' (chain ++ [m]) (Function.update vals m []) := by
  have hvals : ∀ n ∈ chain, Function.update vals m [] n = vals n := by
    intro n hn
    refine Function.update_of_ne ?_ ..
    rintro rfl
    exact hnew hn
  have hnil : Function.update vals m [] m = [] := Function.update_self ..
  have hcases : ∀ n ∈ chain ++ [m], n ∈ chain ∨ n = m := fun n hn =>
    (List.mem_append.mp hn).imp_right List.mem_singleton.mp
  refine ⟨fun n hn => ?_, fun n hn hne => ?_, fun n hn i v hq => ?_, fun n hn i v hq hv => ?_,
    fun t' v n i ht' => ?_, fun t₁ t₂ v₁ v₂ n i h₁ h₂ => ?_, fun t' v n ht' => ?_⟩
  · rw [hsqueue]
    rcases hcases n hn with hn | rfl
    · rw [hvals n hn]
      exact h.length n hn
    · rw [hnil]
      exact (congrArg (min · SQUEUE_NODE_SIZE) (congrArg Node.head hnode)).symm
  · rw [hsqueue] at hne ⊢
    rcases hcases n hn with hn | rfl
    · by_cases htail : s.squeue.tail = some n
      · exact hfull n htail
      · exact h.full n hn htail
    · exact absurd rfl hne
  · rw [hsqueue] at hq
    rcases hcases n hn with hn | rfl
    · rw [hvals n hn]
      exact h.filled n hn i v hq
    · cases (congrFun (congrArg Node.queue hnode) i).symm.trans hq
  · rw [hsqueue] at hq
    rcases hcases n hn with hn | rfl
    · rw [hvals n hn] at hv
      obtain ⟨t', ht'⟩ := h.awaited n hn i v hq hv
      exact ⟨t', hturn.new ht' (by rw [ht]; nofun)⟩
    · rw [hnil] at hv
      cases hv
  · rw [hsqueue]
    obtain ⟨hn, hv, hq⟩ := h.store t' v n i (hturn.old ht' nofun).2
    exact ⟨List.mem_append_left _ hn, by rw [hvals n hn]; exact hv, hq⟩
  · exact h.apart t₁ t₂ v₁ v₂ n i (hturn.old h₁ nofun).2 (hturn.old h₂ nofun).2
  · rw [hsqueue]
    exact (h.add t' v n (hturn.old ht' nofun).2).imp_left (List.mem_append_left _)

omit [DecidableEq ι] in
/-- No thread links a node behind the new tail. -/
theorem Linking.moved (h : Linking s chain) {chain' : List ℕ} (hturn : Turned s s' t .count)
    (ht : s.push t = .move)
    (hhead : ∀ n, s'.squeue.tail = some n → (s'.squeue.node n).head < SQUEUE_NODE_SIZE) :
    Linking s' chain' := by
  have hnone : ∀ t', ¬ (s'.push t').Links := by
    intro t' hl
    rcases eq_or_ne t' t with rfl | hne
    · rw [hturn.self] at hl
      exact hl
    · rw [hturn.other t' hne] at hl
      exact hne (h.one t' t hl (by rw [ht]; trivial))
  refine ⟨fun t' _ hl => absurd hl (hnone t'), fun n hn hle => ?_, fun t' _ hl => absurd hl (hnone t'),
    fun t' v n ht' => ?_, fun t' m ht' => ?_, fun t' ht' => ?_⟩
  · exact absurd (hhead n hn) (Nat.not_lt.mpr hle)
  · exact absurd (by rw [ht']; exact rfl) (hnone t')
  · exact absurd (by rw [ht']; trivial) (hnone t')
  · exact absurd (by rw [ht']; trivial) (hnone t')

/-- The next node is the tail. -/
theorem Queued.move (h : Queued s chain vals done) (ht : s.push t = .move) (m' : ℕ) :
    ∃ s' m, s.step (.pushTurn t m') = some s' ∧
      Queued s' (chain ++ [m]) (Function.update vals m []) done := by
  obtain ⟨n, hn⟩ := h.nodes.exists_tail
  obtain ⟨m, hnext, hused, hnew, hnode⟩ := h.linking.move t ht n hn
  have hlinks : (s.push t).Links := by
    rw [ht]
    trivial
  refine ⟨_, m, step_pushTurn (r := ({ s.squeue with tail := some m }, .count)) ?_, ?_⟩
  · rw [ht]
    simp [pushTurn, hn, hnext]
  rw [turnPush_of (by rw [ht]; nofun) (by rw [ht]; nofun) rfl]
  refine ⟨?_, ?_, ?_, fun f hf => ?_, ?_, ?_⟩
  · refine h.nodes.move rfl rfl hused hnew hnode fun n' hn' => ?_
    cases hn.symm.trans hn'
    exact hnext
  · exact h.places.move rfl (turned_update rfl) ht hnew hnode fun n' hn' =>
      h.linking.full t n' hlinks hn'
  · refine h.linking.moved (turned_update rfl) ht fun n' hn' => ?_
    cases Option.some.inj hn'
    show (s.squeue.node m).head < _
    rw [hnode]
    decide
  · have hf' := h.nodes.mem_of_head hf
    have hne : f ≠ m := fun heq => hnew (heq ▸ hf')
    have hvals : Function.update vals m [] f = vals f := Function.update_of_ne hne ..
    refine (h.popping f hf).frame rfl rfl rfl (fun _ hq => hq)
      (fun k hk => h.places.filled_le hf' hk) (fun _ => hvals) (by rw [hvals])
      fun n' hn' hu hle => ⟨fun hmem => ?_, hu, hle⟩
    rcases List.mem_append.mp hmem with hmem | hmem
    · exact hn' hmem
    · rw [List.mem_singleton.mp hmem, hnode] at hle
      exact absurd hle (by decide)
  · obtain ⟨H, hH⟩ := h.counts
    refine ⟨H, fun t' => (hH.holds t').trans (update_iff PushPc.Holds ?_ t').symm, hH.taken, hH.count,
      hH.pop⟩
    rw [ht]
    exact Iff.rfl
  · have hsame : chain.flatMap (Function.update vals m []) = chain.flatMap vals := by
      rw [List.flatMap_def, List.flatMap_def]
      refine congrArg List.flatten (List.map_congr_left fun n' hn' => Function.update_of_ne ?_ ..)
      rintro rfl
      exact hnew hn'
    rw [List.flatMap_append, hsame]
    simpa using h.taken

/-- The push is counted. -/
theorem Queued.count (h : Queued s chain vals done) (ht : s.push t = .count)
    (hok : s.squeue.count ≠ 2147483647) (m : ℕ) :
    ∃ s', s.step (.pushTurn t m) = some s' ∧ Queued s' chain vals done := by
  refine ⟨_, step_pushTurn (r := ({ s.squeue with count := s.squeue.count + 1 }, .out)) ?_, ?_⟩
  · rw [ht]
    rfl
  have hturn : s.turnPush t m ({ s.squeue with count := s.squeue.count + 1 }, .out) =
      { s with
        squeue := { s.squeue with count := s.squeue.count + 1 }
        push := Function.update s.push t .out
        pushed := s.pushed + 1 } := by
    unfold State.turnPush
    rw [ht]
    simp [PushPc.got, PushPc.placed]
  rw [hturn]
  have hnext : Turned s { s with push := Function.update s.push t .out } t .out := turned_update rfl
  have hlinks : ¬ (s.push t).Links := by
    rw [ht]
    exact id
  refine h.frame ?_ ?_ ?_ ?_ rfl rfl rfl rfl (fun _ _ => rfl) (fun _ _ _ hq => hq)
    fun _ _ hu hle => ⟨hu, hle⟩
  · exact h.nodes.frame rfl rfl (fun _ _ _ => rfl) (fun _ _ _ => rfl) fun _ _ hu => hu
  · refine h.places.frame rfl (fun _ _ => rfl) (fun _ _ => rfl) (fun t' v n i => ?_)
      fun t' v n ht' => Or.inl (hnext.old ht' nofun).2
    have hnot : ¬ s.push t = .store v n i := by
      rw [ht]
      nofun
    exact update_iff (· = .store v n i)
      (iff_of_false (show PushPc.out ≠ .store v n i from nofun) hnot) t'
  · refine h.linking.frame rfl (fun _ _ => Iff.rfl) (fun _ _ => rfl) (fun _ hu _ he => ⟨hu, he⟩)
      (update_iff PushPc.Links (iff_of_false id hlinks)) fun t' ht' => Or.inl (hnext.other t' ?_)
    rintro rfl
    exact hlinks ht'
  · obtain ⟨H, hH⟩ := h.counts
    have hmem : t ∈ H := by
      rw [hH.holds t, ht]
      trivial
    have hcard := Finset.card_erase_add_one hmem
    refine ⟨H.erase t, fun t' => ?_, ?_, ?_, hH.pop.1.trans (Nat.le_succ _), fun hpop => ?_⟩
    · rw [Finset.mem_erase, hH.holds t']
      rcases eq_or_ne t' t with rfl | hne
      · simp [PushPc.Holds]
      · simp [hne]
    · have := hH.taken
      dsimp only
      omega
    · have := hH.count
      dsimp only
      rw [HandlerQueue.toInt_add_one hok]
      push_cast
      omega
    · exact (hH.pop.2 hpop).trans (Nat.lt_succ_self _)

theorem Queued.push (h : Queued s chain vals done) (ht : s.push t = .out) (v : ℕ) :
    ∃ s', s.step (.push t v) = some s' ∧ Queued s' chain vals done := by
  refine ⟨{ s with push := Function.update s.push t (.read v) }, if_pos ht, ?_⟩
  exact h.update (by rw [ht]; exact id) id (by rw [ht]; exact Iff.rfl) (by rw [ht]; nofun) nofun nofun

end ChatShow.Antlib.SqueueThreads
