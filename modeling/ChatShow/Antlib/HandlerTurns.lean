import ChatShow.Antlib.HandlerThreads

/-! # The steps of the threads of a group

A step is at one handler, and leaves the others as they are. -/

namespace ChatShow.Antlib.HandlerThreads

open ChatShow.Antlib.SqueueThreads (PopPc PushPc)
open ChatShow.Lib.Runs

variable {ι ω : Type*} {g g' : Group ι ω} {i : ℕ} {o pc : WorkerPc} {w : ω}

/-! ### The owner -/

theorem Owner.eq (h : Owner g i o) (hw : (g.worker w).has = some i) : o = g.worker w := by
  rcases h with ⟨w', rfl, -, hone⟩ | ⟨-, hnone⟩
  · rw [hone w hw]
  · exact absurd hw (hnone w)

theorem Owner.frame (h : Owner g i o)
    (hw : ∀ w, (g.worker w).has = some i ∨ (g'.worker w).has = some i → g'.worker w = g.worker w) :
    Owner g' i o := by
  rcases h with ⟨w, rfl, hhas, hone⟩ | ⟨rfl, hnone⟩
  · refine Or.inl ⟨w, hw w (Or.inl hhas), hhas, fun w' hw' => hone w' ?_⟩
    rw [← hw w' (Or.inr hw')]
    exact hw'
  · refine Or.inr ⟨rfl, fun w hw' => hnone w ?_⟩
    rw [← hw w (Or.inr hw')]
    exact hw'

section
variable [DecidableEq ω] (hworker : g'.worker = Function.update g.worker w pc)
include hworker

theorem Owner.keep (h : Owner g i o) (hw : (g.worker w).has = some i) (hpc : pc.has = some i) :
    Owner g' i pc := by
  refine Or.inl ⟨w, by rw [hworker, Function.update_self], hpc, fun w' hw' => ?_⟩
  by_contra hne
  rw [hworker, Function.update_of_ne hne] at hw'
  rcases h with ⟨u, -, -, hone⟩ | ⟨-, hnone⟩
  · exact hne ((hone w' hw').trans (hone w hw).symm)
  · exact hnone w hw

theorem Owner.drop (h : Owner g i o) (hw : (g.worker w).has = some i) (hpc : pc.has ≠ some i) :
    Owner g' i .out := by
  refine Or.inr ⟨rfl, fun w' hw' => ?_⟩
  rw [hworker] at hw'
  rcases eq_or_ne w' w with rfl | hne
  · rw [Function.update_self] at hw'
    exact hpc hw'
  · rw [Function.update_of_ne hne] at hw'
    rcases h with ⟨u, -, -, hone⟩ | ⟨-, hnone⟩
    · exact hne ((hone w' hw').trans (hone w hw).symm)
    · exact hnone w hw

theorem Owner.take (h : Owner g i .out) (hpc : pc.has = some i) : Owner g' i pc := by
  refine Or.inl ⟨w, by rw [hworker, Function.update_self], hpc, fun w' hw' => ?_⟩
  by_contra hne
  rw [hworker, Function.update_of_ne hne] at hw'
  rcases h with ⟨u, hu, hhas, -⟩ | ⟨-, hnone⟩
  · cases hhas
  · exact hnone w' hw'

end

/-- The other handlers are as they were. -/
theorem Served.frame (h : Served g i o) (hlocker : g'.locker i = g.locker i)
    (hqueue : g'.queue i = g.queue i) (hhandled : g'.handled i = g.handled i)
    (hw : ∀ w, (g.worker w).has = some i ∨ (g'.worker w).has = some i → g'.worker w = g.worker w) :
    Served g' i o := by
  have hpopping : g'.popping i o.popPc = g.popping i o.popPc := by
    unfold Group.popping
    rw [hqueue]
  refine ⟨h.owner.frame hw, ?_, h.busy, ?_, ?_, ?_, ?_⟩
  · rw [hlocker, h.locker]
  · rw [hqueue, h.rest]
  · rw [hpopping]
    exact h.queue
  · rw [hqueue]
    exact h.left
  · rw [hhandled, hqueue, h.handled]

/-- What holds of all the handlers. -/
def Good (g : Group ι ω) : Prop := ∀ i, ∃ o, Served g i o

theorem count_nonneg {s : SqueueThreads.State ι} (h : SqueueThreads.Inv s) : 0 ≤ s.squeue.count.toInt := by
  obtain ⟨chain, vals, done, h⟩ := h
  obtain ⟨H, hH⟩ := h.counts
  exact hH.le_taken.1

section
variable [DecidableEq ω]

/-- The thread that has the handler goes on, and still has it. -/
theorem Served.keep (h : Served g i o) (hworker : g'.worker = Function.update g.worker w pc)
    (hw : (g.worker w).has = some i) (hpc : pc.has = some i) (hlocker : g'.locker i = g.locker i)
    (hbusy : ∀ n j count, pc ≠ .pop n i j count .out) (hrest : (g'.queue i).pop = .out)
    (hqueue : SqueueThreads.Inv (g'.popping i pc.popPc))
    (hleft : pc.left ≤ (g'.queue i).squeue.count.toInt)
    (hhandled : g'.handled i ++ pc.holds = (g'.queue i).popped) : Served g' i pc where
  owner := h.owner.keep hworker hw hpc
  locker := by
    refine iff_of_false ?_ ?_
    · rw [hlocker, h.locker, h.owner.eq hw]
      intro hout
      rw [hout] at hw
      cases hw
    · rintro rfl
      cases hpc
  busy := hbusy
  rest := hrest
  queue := hqueue
  left := hleft
  handled := hhandled

/-- A step of the thread `w` that is at the handler `i`. -/
theorem Good.turn (h : Good g) (hworker : g'.worker = Function.update g.worker w pc)
    (hw : ∀ k, (g.worker w).has = some k → k = i) (hpc : ∀ k, pc.has = some k → k = i)
    (hlocker : ∀ k, k ≠ i → g'.locker k = g.locker k) (hqueue : ∀ k, k ≠ i → g'.queue k = g.queue k)
    (hhandled : ∀ k, k ≠ i → g'.handled k = g.handled k)
    (hi : ∀ o, Served g i o → ∃ o', Served g' i o') : Good g' := by
  intro k
  obtain ⟨o, ho⟩ := h k
  by_cases hk : k = i
  · subst hk
    exact hi o ho
  · refine ⟨o, ho.frame (hlocker k hk) (hqueue k hk) (hhandled k hk) fun u hu => ?_⟩
    rw [hworker] at hu ⊢
    rcases eq_or_ne u w with rfl | hne
    · rw [Function.update_self] at hu
      rcases hu with hu | hu
      · exact absurd (hw k hu) hk
      · exact absurd (hpc k hu) hk
    · rw [Function.update_of_ne hne]

/-- A step of a thread that has no handler. -/
theorem Good.free (h : Good g) (hworker : g'.worker = Function.update g.worker w pc)
    (hw : (g.worker w).has = none) (hpc : pc.has = none) (hlocker : g'.locker = g.locker)
    (hqueue : g'.queue = g.queue) (hhandled : g'.handled = g.handled) : Good g' := by
  refine h.turn (i := 0) hworker (by rw [hw]; nofun) (by rw [hpc]; nofun) (fun _ _ => by rw [hlocker])
    (fun _ _ => by rw [hqueue]) (fun _ _ => by rw [hhandled]) fun o ho => ⟨o, ho.frame ?_ ?_ ?_ ?_⟩
  · rw [hlocker]
  · rw [hqueue]
  · rw [hhandled]
  · intro u hu
    rw [hworker] at hu ⊢
    rcases eq_or_ne u w with rfl | hne
    · rw [Function.update_self, hw, hpc] at hu
      exact hu.elim nofun nofun
    · rw [Function.update_of_ne hne]

variable [DecidableEq ι] {n j v : ℕ} {count : Int32} {now : UInt32}

theorem Good.lock (h : Good g) (hw : g.worker w = .lock n i) (now : UInt32) :
    ∃ g', g.turn w now = some g' ∧ Good g' := by
  refine ⟨(g.setLocker i 1).go w (if g.locker i = 0 then .read n i else .turn n), ?_, ?_⟩
  · unfold Group.turn
    rw [hw]
  have hhas : (g.worker w).has = none := by
    rw [hw]
    rfl
  have hother : ∀ k, k ≠ i → Function.update g.locker i 1 k = g.locker k := fun k hk =>
    Function.update_of_ne hk ..
  refine h.turn rfl (by rw [hhas]; nofun) (fun k hk => ?_) hother (fun _ _ => rfl) (fun _ _ => rfl)
    fun o ho => ?_
  · split_ifs at hk
    · exact (Option.some.inj hk).symm
    · cases hk
  · have hone : (Function.update g.locker i 1) i ≠ 0 := by
      rw [Function.update_self]
      decide
    split_ifs with hfree
    · cases ho.locker.mp hfree
      exact ⟨.read n i, ho.owner.take rfl rfl, iff_of_false hone nofun, nofun, ho.rest, ho.queue, ho.left,
        ho.handled⟩
    · refine ⟨o, ho.owner.frame fun u hu => ?_, iff_of_false hone fun hout => hfree (ho.locker.mpr hout),
        ho.busy, ho.rest, ho.queue, ho.left, ho.handled⟩
      rcases eq_or_ne u w with rfl | hne
      · rw [hhas] at hu
        refine hu.elim nofun fun hu => ?_
        have hself : (Group.go (g.setLocker i 1) u (.turn n)).worker u = .turn n := Function.update_self ..
        rw [hself] at hu
        cases hu
      · exact Function.update_of_ne hne ..

theorem Good.read (h : Good g) (hw : g.worker w = .read n i) (now : UInt32) :
    ∃ g', g.turn w now = some g' ∧ Good g' := by
  have hhas : (g.worker w).has = some i := by
    rw [hw]
    rfl
  refine ⟨g.go w (.msgs n i 0 (g.queue i).squeue.count), ?_, ?_⟩
  · unfold Group.turn
    rw [hw]
  refine h.turn rfl (fun k hk => Option.some.inj (hk.symm.trans hhas)) (fun k hk => Option.some.inj hk.symm)
    (fun _ _ => rfl) (fun _ _ => rfl) (fun _ _ => rfl) fun o ho => ?_
  have ho' := ho.owner.eq hhas
  rw [hw] at ho'
  subst ho'
  refine ⟨_, ho.keep rfl hhas rfl rfl nofun ho.rest ho.queue ?_ ho.handled⟩
  show (g.queue i).squeue.count.toInt - 0 ≤ _
  rw [sub_zero]
  exact le_rfl

/-- The `ASSERT` of `handler_pop_squeue` holds: the messages that were read have not been popped by
another thread. -/
theorem Good.msgs (h : Good g) (hw : g.worker w = .msgs n i j count) (now : UInt32) :
    ∃ g', g.turn w now = some g' ∧ Good g' := by
  have hhas : (g.worker w).has = some i := by
    rw [hw]
    rfl
  have hgood : ∀ {g' : Group ι ω} {pc : WorkerPc}, g'.worker = Function.update g.worker w pc →
      pc.has = some i → g'.locker = g.locker → g'.queue = g.queue → g'.handled = g.handled →
      (Served g i (.msgs n i j count) → Served g' i pc) → Good g' := by
    intro g' pc hworker hpc hlocker hqueue hhandled hi
    refine h.turn hworker (fun k hk => Option.some.inj (hk.symm.trans hhas))
      (fun k hk => Option.some.inj (hk.symm.trans hpc)) (fun _ _ => by rw [hlocker])
      (fun _ _ => by rw [hqueue]) (fun _ _ => by rw [hhandled]) fun o ho => ⟨pc, hi ?_⟩
    have ho' := ho.owner.eq hhas
    rw [hw] at ho'
    exact ho' ▸ ho
  unfold Group.turn
  rw [hw]
  dsimp only
  split_ifs with hlt
  · obtain ⟨o, ho⟩ := h i
    have ho' := ho.owner.eq hhas
    rw [hw] at ho'
    subst ho'
    have hleft : count.toInt - j ≤ (g.queue i).squeue.count.toInt := ho.left
    have hpos : (g.queue i).squeue.count > 0 := by
      refine Int32.lt_iff_toInt_lt.mpr ?_
      rw [Int32.toInt_zero]
      omega
    obtain ⟨s, hs, hinv⟩ := ho.queue.step (a := .pop) ⟨rfl, hpos⟩
    have hstep : (g.popping i .out).step .pop = some (g.popping i .add) := if_pos ⟨rfl, hpos⟩
    cases hs.symm.trans hstep
    refine ⟨g.go w (.pop n i j count .add), by rw [hstep]; rfl, ?_⟩
    refine hgood rfl rfl rfl rfl rfl fun hsrv => ?_
    exact hsrv.keep rfl hhas rfl rfl nofun hsrv.rest hinv hsrv.left hsrv.handled
  · refine ⟨g.go w (.unlock n i), rfl, hgood rfl rfl rfl rfl rfl fun hsrv => ?_⟩
    have hpos := count_nonneg hsrv.queue
    exact hsrv.keep rfl hhas rfl rfl nofun hsrv.rest hsrv.queue hpos hsrv.handled

omit [DecidableEq ω] in
/-- What a step of the pop leaves, and what it returns. -/
theorem step_popTurn_out {s s' : SqueueThreads.State ι} (hs : s.pop = .count v)
    (h : s.step (.popTurn now) = some s') : s'.pop = .out ∧ s'.popped = s.popped ++ [v] ∧
      s'.squeue.count = s.squeue.count - 1 := by
  obtain ⟨r, hr, rfl⟩ := Option.map_eq_some_iff.mp h
  rw [hs] at hr
  cases hr
  refine ⟨rfl, ?_, rfl⟩
  show s.popped ++ s.pop.returns = _
  rw [hs]
  rfl

omit [DecidableEq ω] in
theorem step_popTurn_in {s s' : SqueueThreads.State ι} (hs : ∀ v, s.pop ≠ .count v)
    (h : s.step (.popTurn now) = some s') :
    s'.pop ≠ .out ∧ s'.popped = s.popped ∧ s'.squeue.count = s.squeue.count := by
  obtain ⟨r, hr, rfl⟩ := Option.map_eq_some_iff.mp h
  have hret : s.pop.returns = [] := by
    unfold PopPc.returns
    split
    · exact absurd ‹_› (hs _)
    · rfl
  show r.2 ≠ .out ∧ s.popped ++ s.pop.returns = s.popped ∧ r.1.count = s.squeue.count
  rw [hret, List.append_nil]
  cases hpc : s.pop with
  | out => rw [hpc] at hr; cases hr
  | add =>
    rw [hpc, SqueueThreads.popTurn, Option.bind_eq_some_iff] at hr
    obtain ⟨f, -, hf⟩ := hr
    dsimp only at hf
    split_ifs at hf
    cases hf
    exact ⟨by simp, rfl, rfl⟩
  | wait k m =>
    rw [hpc] at hr
    simp only [SqueueThreads.popTurn] at hr
    split at hr
    · cases hr
      exact ⟨by simp, rfl, rfl⟩
    · cases hr
      refine ⟨?_, rfl, rfl⟩
      dsimp only
      split_ifs <;> simp
  | leave k m =>
    rw [hpc] at hr
    simp only [SqueueThreads.popTurn] at hr
    split_ifs at hr
    · cases hr
      exact ⟨by simp, rfl, rfl⟩
    · obtain ⟨f, -, rfl⟩ := Option.map_eq_some_iff.mp hr
      exact ⟨by simp, rfl, rfl⟩
  | free k m =>
    rw [hpc] at hr
    cases hr
    exact ⟨by simp, rfl, rfl⟩
  | count v => exact absurd hpc (hs v)

theorem popped_of_count {n i j : ℕ} {count : Int32} {v : ℕ} {p' : PopPc} :
    WorkerPc.popped n i j count (.count v) p' = .msg n i j count v := rfl

theorem popped_of_ne {p p' : PopPc} (hp : ∀ v, p ≠ .count v) :
    WorkerPc.popped n i j count p p' = .pop n i j count p' := by
  unfold WorkerPc.popped
  split
  · exact absurd rfl (hp _)
  · rfl

/-- A step of `handler_pop_squeue`, of the thread that has the handler. -/
theorem Served.pop {p : PopPc} {s : SqueueThreads.State ι} (h : Served g i (.pop n i j count p))
    (hw : g.worker w = .pop n i j count p) (hs : (g.popping i p).step (.popTurn now) = some s)
    (hinv : SqueueThreads.Inv s) :
    Served ((g.setQueue i { s with pop := .out }).go w (.popped n i j count p s.pop)) i
      (.popped n i j count p s.pop) := by
  have hhas : (g.worker w).has = some i := by
    rw [hw]
    rfl
  have hself : ∀ pc, (((g.setQueue i { s with pop := .out }).go w pc).queue i) = { s with pop := .out } :=
    fun _ => Function.update_self ..
  have hleft : count.toInt - j ≤ (g.queue i).squeue.count.toInt := h.left
  have hhandled : g.handled i ++ [] = (g.queue i).popped := h.handled
  rw [List.append_nil] at hhandled
  by_cases hv : ∃ v, p = .count v
  · obtain ⟨v, rfl⟩ := hv
    obtain ⟨hpop, hpopped, hcount⟩ := step_popTurn_out (s := g.popping i (.count v)) rfl hs
    rw [popped_of_count]
    refine h.keep rfl hhas rfl rfl nofun (by rw [hself]) ?_ ?_ ?_
    · unfold Group.popping
      rw [hself, show WorkerPc.popPc (.msg n i j count v) = s.pop from hpop.symm]
      exact hinv
    · have hpos := count_nonneg h.queue
      have hsub : ((g.queue i).squeue.count - 1).toInt = (g.queue i).squeue.count.toInt - 1 :=
        SharedQueue.toInt_sub_one (lt_of_lt_of_le (by decide) hpos)
      rw [hself]
      show count.toInt - (j + 1) ≤ s.squeue.count.toInt
      rw [hcount]
      show _ ≤ ((g.queue i).squeue.count - 1).toInt
      omega
    · rw [hself]
      show g.handled i ++ [v] = s.popped
      rw [hpopped, hhandled]
      rfl
  · have hp : ∀ v, p ≠ .count v := fun v hv' => hv ⟨v, hv'⟩
    obtain ⟨hpop, hpopped, hcount⟩ := step_popTurn_in (s := g.popping i p) hp hs
    rw [popped_of_ne hp]
    refine h.keep rfl hhas rfl rfl ?_ (by rw [hself]) ?_ ?_ ?_
    · intro _ _ _ heq
      exact hpop (WorkerPc.pop.inj heq).2.2.2.2
    · unfold Group.popping
      rw [hself]
      exact hinv
    · rw [hself]
      show count.toInt - j ≤ s.squeue.count.toInt
      rw [hcount]
      exact hleft
    · rw [hself]
      show g.handled i ++ [] = s.popped
      rw [hpopped, List.append_nil, hhandled]
      rfl

theorem Good.pop {p : PopPc} (h : Good g) (hw : g.worker w = .pop n i j count p) (now : UInt32) :
    ∃ g', g.turn w now = some g' ∧ Good g' := by
  have hhas : (g.worker w).has = some i := by
    rw [hw]
    rfl
  have howner : ∀ o, Served g i o → Served g i (.pop n i j count p) := by
    intro o ho
    have ho' := ho.owner.eq hhas
    rw [hw] at ho'
    exact ho' ▸ ho
  obtain ⟨o, ho⟩ := h i
  have hserved := howner o ho
  have hp : p ≠ .out := by
    rintro rfl
    exact hserved.busy n j count rfl
  obtain ⟨s, hs, hinv⟩ := hserved.queue.step (a := .popTurn now) hp
  have hstep : (g.popping i p).step (.popTurn now) = some s := hs
  refine ⟨(g.setQueue i { s with pop := .out }).go w (.popped n i j count p s.pop), ?_, ?_⟩
  · unfold Group.turn
    rw [hw]
    dsimp only
    rw [hstep]
    rfl
  refine h.turn rfl (fun k hk => Option.some.inj (hk.symm.trans hhas)) (fun k hk => ?_) (fun _ _ => rfl)
    (fun k hk => Function.update_of_ne hk ..) (fun _ _ => rfl) fun o' ho' =>
      ⟨_, (howner o' ho').pop hw hs hinv⟩
  have hpc : (WorkerPc.popped n i j count p s.pop).has = some i := by
    unfold WorkerPc.popped
    split <;> rfl
  exact Option.some.inj (hk.symm.trans hpc)

theorem Good.msg (h : Good g) (hw : g.worker w = .msg n i j count v) (now : UInt32) :
    ∃ g', g.turn w now = some g' ∧ Good g' := by
  have hhas : (g.worker w).has = some i := by
    rw [hw]
    rfl
  refine ⟨(g.doMsg i v).go w (.msgs n i (j + 1) count), ?_, ?_⟩
  · unfold Group.turn
    rw [hw]
  refine h.turn rfl (fun k hk => Option.some.inj (hk.symm.trans hhas)) (fun k hk => Option.some.inj hk.symm)
    (fun _ _ => rfl) (fun _ _ => rfl) (fun k hk => Function.update_of_ne hk ..) fun o ho => ?_
  have ho' := ho.owner.eq hhas
  rw [hw] at ho'
  subst ho'
  refine ⟨_, ho.keep rfl hhas rfl rfl nofun ho.rest ho.queue ?_ ?_⟩
  · have hleft : count.toInt - ((j : ℤ) + 1) ≤ (g.queue i).squeue.count.toInt := ho.left
    show count.toInt - ((j + 1 : ℕ) : ℤ) ≤ (g.queue i).squeue.count.toInt
    push_cast
    exact hleft
  · have hhandled : g.handled i ++ [v] = (g.queue i).popped := ho.handled
    show Function.update g.handled i (g.handled i ++ [v]) i ++ [] = (g.queue i).popped
    rw [Function.update_self, List.append_nil, hhandled]

theorem Good.unlock (h : Good g) (hw : g.worker w = .unlock n i) (now : UInt32) :
    ∃ g', g.turn w now = some g' ∧ Good g' := by
  have hhas : (g.worker w).has = some i := by
    rw [hw]
    rfl
  refine ⟨(g.setLocker i 0).go w (.turn n), ?_, ?_⟩
  · unfold Group.turn
    rw [hw]
  refine h.turn rfl (fun k hk => Option.some.inj (hk.symm.trans hhas)) nofun
    (fun k hk => Function.update_of_ne hk ..) (fun _ _ => rfl) (fun _ _ => rfl) fun o ho => ?_
  have ho' := ho.owner.eq hhas
  rw [hw] at ho'
  subst ho'
  exact ⟨.out, ho.owner.drop rfl hhas nofun, iff_of_true (Function.update_self ..) rfl, nofun, ho.rest, ho.queue,
    ho.left, ho.handled⟩

/-! ### The pushes -/

omit [DecidableEq ω] in
/-- What a step of a push leaves to the pop. -/
theorem step_push {a : SqueueThreads.Label ι} {s s' : SqueueThreads.State ι} (ha : Group.IsPush a)
    (hok : SqueueThreads.Ok s a) (h : s.step a = some s') :
    s'.pop = s.pop ∧ s'.popped = s.popped ∧ s.squeue.count.toInt ≤ s'.squeue.count.toInt := by
  cases a with
  | push t v =>
    unfold SqueueThreads.State.step at h
    dsimp only at h
    split_ifs at h
    cases h
    exact ⟨rfl, rfl, le_rfl⟩
  | pushTurn t m =>
    obtain ⟨r, hr, rfl⟩ := Option.map_eq_some_iff.mp h
    refine ⟨rfl, rfl, ?_⟩
    show _ ≤ r.1.count.toInt
    have hok := hok.2
    unfold SqueueThreads.PushOk at hok
    cases hpc : s.push t <;> rw [hpc] at hr hok <;>
      simp only [SqueueThreads.pushTurn, Option.map_eq_some_iff, Option.some.injEq, reduceCtorEq] at hr
    case count =>
      rw [← hr, HandlerQueue.toInt_add_one hok]
      omega
    case read => obtain ⟨k, -, rfl⟩ := hr; exact le_rfl
    case link => obtain ⟨k, -, rfl⟩ := hr; exact le_rfl
    case move => obtain ⟨k, -, rfl⟩ := hr; exact le_rfl
    all_goals rw [← hr]; exact le_rfl
  | pop => cases ha
  | popTurn now => cases ha

omit [DecidableEq ω] in
theorem step_push_popping {a : SqueueThreads.Label ι} {s s' : SqueueThreads.State ι} (ha : Group.IsPush a)
    (h : s.step a = some s') (p : PopPc) :
    ({ s with pop := p } : SqueueThreads.State ι).step a = some { s' with pop := p } := by
  cases a with
  | push t v =>
    unfold SqueueThreads.State.step at h ⊢
    dsimp only at h ⊢
    split_ifs at h ⊢
    cases h
    rfl
  | pushTurn t m =>
    obtain ⟨r, hr, rfl⟩ := Option.map_eq_some_iff.mp h
    exact SqueueThreads.step_pushTurn hr
  | pop => cases ha
  | popTurn now => cases ha

theorem Good.send {a : SqueueThreads.Label ι} (h : Good g) (ha : Group.IsPush a)
    (hok : SqueueThreads.Ok (g.queue i) a) : ∃ g', g.step (.send i a) = some g' ∧ Good g' := by
  have hokp : ∀ p, SqueueThreads.Ok { g.queue i with pop := p } a := by
    intro p
    cases a with
    | push => exact hok
    | pushTurn => exact hok
    | pop => cases ha
    | popTurn => cases ha
  obtain ⟨o, ho⟩ := h i
  obtain ⟨s', hs', hinv⟩ := ho.queue.step (hokp o.popPc)
  obtain ⟨s, hs⟩ : ∃ s, (g.queue i).step a = some s := by
    have := step_push_popping ha hs' (g.queue i).pop
    exact ⟨_, this⟩
  cases (step_push_popping ha hs o.popPc).symm.trans hs'
  obtain ⟨hpop, hpopped, hcount⟩ := step_push ha hok hs
  refine ⟨g.setQueue i s, congrArg (Option.map (g.setQueue i)) hs, fun k => ?_⟩
  by_cases hk : k = i
  · subst hk
    have hself : (g.setQueue k s).queue k = s := Function.update_self ..
    refine ⟨o, ho.owner.frame fun _ _ => rfl, ho.locker, ho.busy, ?_, ?_, ?_, ?_⟩
    · rw [hself, hpop, ho.rest]
    · unfold Group.popping
      rw [hself]
      exact hinv
    · rw [hself]
      exact ho.left.trans hcount
    · rw [hself, hpopped]
      exact ho.handled
  · obtain ⟨o', ho'⟩ := h k
    exact ⟨o', ho'.frame rfl (Function.update_of_ne hk ..) rfl fun _ _ => rfl⟩

end

end ChatShow.Antlib.HandlerThreads
