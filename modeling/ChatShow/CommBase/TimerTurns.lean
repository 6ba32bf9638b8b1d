import ChatShow.CommBase.TimerClock

/-! # The steps of a tick, on time

A tick takes the timers of its slot, calls those whose rounds are through and attaches them again. Each
step keeps what holds of a timer (`Tracked`): in its turn it is called near its due point, or waits for
the visit a round later (`tracked_turn`), and a timer for several calls waits for the due point after
that one when the tick ends (`tracked_endTick`). -/

namespace ChatShow.CommBase.TimerTurns

open ChatShow.CommBase.TimerWheel ChatShow.CommBase.TimerMgr ChatShow.CommBase.TimerPlaces
open ChatShow.CommBase.TimerMgrPlaces ChatShow.CommBase.TimerVisits
open ChatShow.CommBase.TimerClock ChatShow.Lib.Runs

section

variable {s s' : Clocked} {m m' : TimerManager} {w w' : Wheel} {b b' : Batch} {c o o' : ℕ} {k : UInt32}
  {τ : ℤ} {a : Label}

/-! ### The steps of a tick -/

theorem tracked_onTick (h : Good s.mgr) (ht : Tracked s o) (hb : s.mgr.batch = none) {tick : Int64}
    (ha : s.Allowed (.onTick tick)) :
    Tracked { s with mgr := s.mgr.onTick tick, time := s.time + SLOT_CHANGE_TIME } o := by
  have hrest : rest s.mgr = [] := rest_of_idle hb
  obtain ⟨place, hp⟩ := h.idle hb
  refine ht.congr rfl ht.deleted rfl rfl rfl (fun τ hw => ?_) fun b hb' ho => ?_
  · cases hw with
    | @slot c k hat hno =>
      obtain ⟨hold, hdel⟩ := TimerManager.at_collect.mp (at_of_slots hat)
      have hold' : s.mgr.wheel.At c k o := hold
      have hlt : c < SLOT_COUNT := hp.lt c o ((hp.at_iff c k o).mp hold').1
      have hne : c ≠ s.mgr.wheel.currSlot := by
        rintro rfl
        refine hno (TimerManager.mem_collect.mpr ⟨⟨k, hold⟩, ?_⟩)
        exact Bool.eq_false_iff.mpr fun hd => hdel ⟨rfl, hd⟩
      have hwait : Waits s o (nextVisit s.time s.mgr.wheel.currSlot c) :=
        .slot (slots_of_idle hb ▸ hold') (by rw [hrest]; exact List.not_mem_nil)
      rw [← nextVisit_next s.time h.curr hlt hne] at hwait
      exact hwait
    | rest hb' ho =>
      cases hb'
      obtain ⟨⟨k, hat⟩, -⟩ := TimerManager.mem_collect.mp ho
      have hold : s.mgr.wheel.At s.mgr.wheel.currSlot k o := hat
      have hwait : Waits s o (nextVisit s.time s.mgr.wheel.currSlot s.mgr.wheel.currSlot) :=
        .slot (by rw [slots_of_idle hb]; exact hold) (by rw [hrest]; exact List.not_mem_nil)
      rw [nextVisit_self, ← ha.1] at hwait
      exact hwait
  · cases hb'
    cases ho

/-- What is left of the batch is in the batch. -/
theorem waits_of_turn {s' : Clocked} {w' : Wheel} {rest' : List ℕ} (hb : s.mgr.batch = some b)
    (hb' : s'.mgr = { wheel := w', batch := some b' }) (htime : s'.time = s.time)
    (hcurr : w'.currSlot = s.mgr.wheel.currSlot) (hslot : b'.slot = b.slot) (htick : b'.tick = b.tick)
    (hrest : b.rest = rest' ++ b'.rest) (hno : o ∉ rest')
    (hat : ∀ c k, w'.At c k o → s.mgr.wheel.At c k o)
    (hids : ∀ o' ∈ leaving b, o' ∈ leaving b' ∧ (w'.timer o').id = (s.mgr.wheel.timer o').id)
    (hw : Waits s' o τ) : Waits s o τ := by
  cases hw with
  | @slot c k h hn =>
    rw [htime, hb', hcurr]
    rw [hb'] at h hn
    refine .slot (k := k) ?_ ?_
    · rw [slots_of_batch hb]
      exact at_inSlots hslot (hat c k) hids h
    · rw [rest_of_batch hb, hrest]
      exact fun hm => (List.mem_append.mp hm).elim hno hn
  | @rest b₁ hb₁ ho =>
    rw [hb'] at hb₁
    cases hb₁
    rw [htick]
    exact .rest hb (hrest ▸ List.mem_append_right _ ho)

/-- Another timer has its turn. -/
theorem tracked_turn_ne {l : List ℕ} {called : ℕ → List ℤ} (ht : Tracked s o)
    (hb : s.mgr.batch = some b) (hcalling : b.calling = none) (hrest : b.rest = o' :: l) (hne : o ≠ o')
    (hcalled : called o = s.called o) :
    Tracked { s with mgr := TimerManager.turn s.mgr.wheel b o' l, called := called } o := by
  have hno : o ∉ [o'] := fun hm => hne (List.mem_singleton.mp hm)
  have hleaving {o₁ : ℕ} (ho₁ : o₁ ∈ leaving b) : o₁ ∈ b.timeoutAll := by
    unfold leaving at ho₁
    rwa [hcalling, Option.toList_none, List.append_nil] at ho₁
  have hturned := TimerManager.turned s.mgr.wheel b o' l
  generalize TimerManager.turn s.mgr.wheel b o' l = m' at hturned
  rcases hturned with @⟨t, hsame, -⟩ | @⟨t, hsame⟩ | @⟨t, slot, hsame, hslot, -⟩
  case called =>
    have hcalls : TimerPlaces.calls ((s.mgr.wheel.setTimer o' t).onTimeout o') o =
        TimerPlaces.calls s.mgr.wheel o := by
      refine (calls_append (s.mgr.wheel.setTimer o' t) (.onTimeout o') o).trans ?_
      rw [List.count_eq_zero_of_not_mem (by simpa using hne)]
      rfl
    refine ht.congr (Wheel.setTimer_of_ne hne _) ht.deleted hcalls hcalled rfl (fun τ => ?_)
      fun b' hb' ho => ?_
    · exact waits_of_turn hb rfl rfl rfl rfl rfl hrest hno (fun _ _ => id) fun o₁ ho₁ =>
        ⟨List.mem_append_left _ (hleaving ho₁), (Wheel.same_setTimer hsame o₁).id⟩
    · cases hb'
      refine ⟨b, hb, List.mem_append_left _ ((List.mem_append.mp ho).resolve_right fun hm => ?_), rfl⟩
      exact hno hm
  case stays =>
    refine ht.congr (Wheel.setTimer_of_ne hne _) ht.deleted rfl hcalled rfl (fun τ => ?_)
      fun b' hb' ho => (by cases hb'; exact ⟨b, hb, ho, rfl⟩)
    exact waits_of_turn hb rfl rfl rfl rfl rfl hrest hno (fun _ _ => id) fun o₁ ho₁ =>
        ⟨ho₁, (Wheel.same_setTimer hsame o₁).id⟩
  case moved =>
    refine ht.congr (Wheel.setTimer_of_ne hne _) ht.deleted rfl hcalled rfl (fun τ => ?_)
      fun b' hb' ho => (by cases hb'; exact ⟨b, hb, ho, rfl⟩)
    refine waits_of_turn hb rfl rfl rfl rfl rfl hrest hno (fun c k hat => ?_) fun o₁ ho₁ =>
      ⟨List.mem_append_left _ (List.mem_append_left _ (hleaving ho₁)), (Wheel.same_setTimer hsame o₁).id⟩
    exact (Wheel.at_slotAdd.mp hat).resolve_right fun hh => hne hh.2.2.1

theorem afterTurn_called {called : ℕ → List ℤ} (hb : m.batch = some b) (ho : b.calling = some o) :
    Clocked.afterTurn called m = Function.update called o (called o ++ [b.tick.toInt]) := by
  obtain ⟨_, _, _, _, _, _⟩ := b
  cases ho
  unfold Clocked.afterTurn
  rw [hb]

theorem afterTurn_of_none {called : ℕ → List ℤ} (hb : m.batch = some b) (ho : b.calling = none) :
    Clocked.afterTurn called m = called := by
  obtain ⟨_, _, _, _, _, _⟩ := b
  cases ho
  unfold Clocked.afterTurn
  rw [hb]

/-- A turn of a timer that is pending: it is called or stays, and is not moved. -/
theorem turn_of_pending (h : Pending (w.timer o) b.tick.toInt) (l : List ℕ) :
    TimerManager.turn w b o l =
      if ((w.timer o).onTickEx b.tick).1 = true then
        { wheel := (w.setTimer o ((w.timer o).onTickEx b.tick).2).onTimeout o
          batch := some { b with rest := l, calling := some o } }
      else
        { wheel := w.setTimer o (visit ((w.timer o).onTickEx b.tick).2 b.tick)
          batch := some { b with rest := l } } := by
  cases hdue : ((w.timer o).onTickEx b.tick).1 with
  | true =>
    unfold TimerManager.turn
    dsimp only
    rw [if_pos hdue, if_pos rfl]
  | false =>
    have heq := (h.onTickEx hdue).1
    unfold TimerManager.turn visit
    dsimp only
    rw [hdue, if_neg Bool.false_ne_true, if_neg Bool.false_ne_true, heq]
    split_ifs with hfirst hlate
    · rfl
    · exact absurd ((h.not_isLate hfirst).symm.trans hlate) Bool.false_ne_true
    · rfl

/-- What a turn counts. -/
theorem calls_turn (hcalling : b.calling = none) (l : List ℕ) :
    (w.timer o).Same ((TimerManager.turn w b o l).wheel.timer o) ∧
      ∃ b', (TimerManager.turn w b o l).batch = some b' ∧
        (b'.calling = some o ∧ calls (TimerManager.turn w b o l).wheel o = calls w o + 1 ∨
          b'.calling = none ∧ calls (TimerManager.turn w b o l).wheel o = calls w o) := by
  have hturned := TimerManager.turned w b o l
  generalize TimerManager.turn w b o l = m' at hturned
  rcases hturned with @⟨t, hsame, -⟩ | @⟨t, hsame⟩ | @⟨t, slot, hsame, hslot, -⟩
  case called =>
    have hself : ((w.setTimer o t).onTimeout o).timer o = t := Wheel.setTimer_self w o t
    refine ⟨hself.symm ▸ hsame, _, rfl, Or.inl ⟨rfl, ?_⟩⟩
    refine (calls_append (w.setTimer o t) (.onTimeout o) o).trans ?_
    rw [List.count_singleton_self]
    rfl
  case stays => exact ⟨(Wheel.setTimer_self w o t).symm ▸ hsame, _, rfl, Or.inr ⟨hcalling, rfl⟩⟩
  case moved =>
    have hself : ((w.setTimer o t).slotAdd slot o).timer o = t := Wheel.setTimer_self w o t
    exact ⟨hself.symm ▸ hsame, _, rfl, Or.inr ⟨hcalling, rfl⟩⟩

theorem start_turn (w : Wheel) (b : Batch) (o : ℕ) (l : List ℕ) :
    ((TimerManager.turn w b o l).wheel.timer o).start = (w.timer o).start ∧
      ((TimerManager.turn w b o l).wheel.timer o).interval = (w.timer o).interval := by
  have ht : ((w.timer o).onTickEx b.tick).2.start = (w.timer o).start ∧
      ((w.timer o).onTickEx b.tick).2.interval = (w.timer o).interval := by
    unfold Timer.onTickEx
    split_ifs <;> exact ⟨rfl, rfl⟩
  have hset {w' : Wheel} {t : Timer}
      (h : t.start = (w.timer o).start ∧ t.interval = (w.timer o).interval) :
      ((w'.setTimer o t).timer o).start = (w.timer o).start ∧
        ((w'.setTimer o t).timer o).interval = (w.timer o).interval := by
    rwa [Wheel.setTimer_self]
  unfold TimerManager.turn
  generalize (w.timer o).onTickEx b.tick = r at ht
  obtain ⟨due, t⟩ := r
  dsimp only
  split_ifs with hdue hfirst hlate
  · exact hset ht
  · exact hset ht
  · unfold Wheel.addTimer
    split_ifs <;> exact hset ht
  · exact hset ht

/-- **The timer is called**, near its due point, and waits for nothing. -/
theorem onTime_called {l : List ℕ} {t : Timer} (hon : OnTime s o) (hb : s.mgr.batch = some b)
    (ho : o ∈ b.rest) (hnot : o ∉ l) (ht : t.bePoint = (s.mgr.wheel.timer o).bePoint)
    (hint : t.interval = (s.mgr.wheel.timer o).interval)
    (hdue : ((s.mgr.wheel.timer o).onTickEx b.tick).1 = true)
    (hmgr : s'.mgr = { wheel := (s.mgr.wheel.setTimer o t).onTimeout o
                       batch := some { b with rest := l, calling := some o } })
    (hgood : Good s'.mgr) (hdues : s'.due = s.due)
    (hcalled : s'.called o = s.called o ++ [b.tick.toInt]) :
    OnTime s' o := by
  obtain ⟨hpending, hbe⟩ := hon.waits _ (.rest hb ho)
  have hnear := hpending.near_of_due hdue
  have hself : s'.mgr.wheel.timer o = t := by
    rw [hmgr]
    exact Wheel.setTimer_self s.mgr.wheel o t
  have hb' : s'.mgr.batch = some { b with rest := l, calling := some o } := by rw [hmgr]
  constructor
  case near =>
    intro n τ hn
    rw [hself, hint, hdues]
    rw [hcalled, List.getElem?_append] at hn
    split_ifs at hn with hlt
    · exact hon.near n τ hn
    · obtain ⟨hlt', rfl⟩ := List.getElem?_eq_some_iff.mp hn
      obtain rfl : n = (s.called o).length := by
        rw [List.length_singleton] at hlt'
        omega
      rw [List.getElem_singleton, ← hbe]
      exact hnear
  case waits =>
    intro τ hw
    exfalso
    obtain ⟨place, hin⟩ := hgood.batch _ hb'
    have hout := (hin.places.out_iff o).mp (List.mem_append_right _ (List.mem_singleton_self o))
    cases hw with
    | @slot c k hat _ =>
      rw [slots_of_batch hb'] at hat
      have hplace := ((hin.places.at_iff c k o).mp hat).1
      rw [hout] at hplace
      cases hplace
    | rest hb₁ hm =>
      rw [hb'] at hb₁
      cases hb₁
      exact hnot hm
  case taken =>
    intro b₁ hb₁ _
    rw [hb'] at hb₁
    cases hb₁
    rw [hself, hint, hdues, hcalled, List.length_append, ht, hbe]
    refine ⟨?_, by push_cast; rw [List.length_singleton]; ring⟩
    unfold Near
    rw [ht]
    exact hnear

/-- **The timer is not called yet**, and waits for the visit a round later. -/
theorem onTime_stays {l : List ℕ} (h : Synced s) (hon : OnTime s o) (hb : s.mgr.batch = some b)
    (hrest : b.rest = o :: l) (hdue : ((s.mgr.wheel.timer o).onTickEx b.tick).1 = false)
    (hmgr : s'.mgr =
      { wheel := s.mgr.wheel.setTimer o (visit ((s.mgr.wheel.timer o).onTickEx b.tick).2 b.tick)
        batch := some { b with rest := l } })
    (htime : s'.time = s.time) (hdues : s'.due = s.due) (hcalled : s'.called = s.called) :
    OnTime s' o := by
  have ho : o ∈ b.rest := hrest ▸ List.mem_cons_self
  obtain ⟨hpending, hbe⟩ := hon.waits _ (.rest hb ho)
  obtain ⟨place, hin⟩ := h.good.batch b hb
  have hnot : o ∉ l := (List.nodup_cons.mp (hrest ▸ hin.nodup)).1
  obtain ⟨htick, -, hcurr⟩ := h.tick b hb
  have hself : s'.mgr.wheel.timer o = visit ((s.mgr.wheel.timer o).onTickEx b.tick).2 b.tick := by
    rw [hmgr]
    exact Wheel.setTimer_self s.mgr.wheel o _
  have hb' : s'.mgr.batch = some { b with rest := l } := by rw [hmgr]
  constructor
  case near =>
    rw [hself, interval_visit, hdues, hcalled]
    exact hon.near
  case waits =>
    intro τ hw
    rw [hself, bePoint_visit, interval_visit, hdues, hcalled]
    refine ⟨?_, hbe⟩
    cases hw with
    | @slot c k hat _ =>
      rw [slots_of_batch hb', hmgr] at hat
      have hold : (inSlots s.mgr.wheel b).At c k o := by
        refine at_inSlots rfl ?_ (fun o₁ ho₁ => ⟨ho₁, ?_⟩) hat
        · exact fun hat' => hat'
        · change ((s.mgr.wheel.setTimer o _).timer o₁).id = _
          by_cases heq : o₁ = o
          · subst heq
            rw [Wheel.setTimer_self, id_visit]
          · rw [Wheel.setTimer_of_ne heq]
      have hc := ((hin.places.at_iff c k o).mp hold).1
      rw [hin.rest o ho] at hc
      cases hc
      have htime' : s'.time = b.tick.toInt + SLOT_CHANGE_TIME := by
        rw [htime]
        omega
      have hcurr' : s'.mgr.wheel.currSlot = nextSlot b.slot := by
        rw [hmgr]
        exact hcurr
      rw [htime', hcurr', nextVisit_nextSlot _ hin.lt]
      exact hpending.visit hdue
    | rest hb₁ hm =>
      rw [hb'] at hb₁
      cases hb₁
      exact absurd hm hnot
  case taken =>
    intro b₁ hb₁ hm
    rw [hb'] at hb₁
    cases hb₁
    have hout := (hin.places.out_iff o).mp hm
    rw [hin.rest o ho] at hout
    cases hout

/-- **The timer itself has its turn.** -/
theorem tracked_turn {l : List ℕ} (h : Synced s) (ht : Tracked s o) (hb : s.mgr.batch = some b)
    (hcalling : b.calling = none) (hrest : b.rest = o :: l)
    (h' : Good (TimerManager.turn s.mgr.wheel b o l)) :
    Tracked { s with mgr := TimerManager.turn s.mgr.wheel b o l
                     called := Clocked.afterTurn s.called (TimerManager.turn s.mgr.wheel b o l) } o := by
  have ho : o ∈ b.rest := hrest ▸ List.mem_cons_self
  have hrun := (known_of_waits h.good (.rest hb ho)).2
  obtain ⟨hsame, b', hb', hcount⟩ := calls_turn (w := s.mgr.wheel) (b := b) (o := o) hcalling l
  constructor
  case unvisited =>
    intro hno
    rw [hsame.isRunning, hrun] at hno
    cases hno
  case calls =>
    rcases hcount with ⟨hc, hn⟩ | ⟨hc, hn⟩
    · rw [afterTurn_called hb' hc]
      dsimp only
      rw [Function.update_self, List.length_append, ht.calls]
      exact hn.symm
    · rw [afterTurn_of_none hb' hc, ht.calls]
      exact hn.symm
  case deleted =>
    intro hd
    obtain ⟨htype, hpos⟩ := ht.deleted (hsame.delflag.symm.trans hd)
    refine ⟨hsame.type.trans htype, ?_⟩
    rcases hcount with ⟨-, hn⟩ | ⟨-, hn⟩
    · exact Nat.lt_of_lt_of_eq (Nat.succ_pos _) hn.symm
    · exact Nat.lt_of_lt_of_eq hpos hn.symm
  case onTime =>
    intro hexact
    obtain ⟨hstart, hinterval⟩ := start_turn s.mgr.wheel b o l
    have hon := ht.onTime (hexact.congr hstart hsame.type hinterval)
    obtain ⟨hpending, -⟩ := hon.waits _ (.rest hb ho)
    have heq := turn_of_pending hpending l
    clear hsame hb' hcount hexact hstart hinterval
    cases hdue : ((s.mgr.wheel.timer o).onTickEx b.tick).1 with
    | true =>
      rw [if_pos hdue] at heq
      rw [heq] at h' ⊢
      obtain ⟨place, hin⟩ := h.good.batch b hb
      refine onTime_called hon hb ho (List.nodup_cons.mp (hrest ▸ hin.nodup)).1 ?_ ?_ hdue rfl h' rfl ?_
      · unfold Timer.onTickEx
        split_ifs <;> rfl
      · unfold Timer.onTickEx
        split_ifs <;> rfl
      · dsimp only
        rw [afterTurn_called rfl rfl, Function.update_self]
    | false =>
      rw [if_neg (Bool.eq_false_iff.mp hdue)] at heq
      rw [heq]
      exact onTime_stays h hon hb hrest hdue rfl rfl rfl (afterTurn_of_none rfl hcalling)

theorem afterTurn_ne {called : ℕ → List ℤ} (hcalling : b.calling = none) (hne : o ≠ o') (l : List ℕ) :
    Clocked.afterTurn called (TimerManager.turn w b o' l) o = called o := by
  obtain ⟨-, b', hb', ⟨hc, -⟩ | ⟨hc, -⟩⟩ := calls_turn (w := w) (b := b) (o := o') hcalling l
  · rw [afterTurn_called hb' hc, Function.update_of_ne hne]
  · rw [afterTurn_of_none hb' hc]

/-- A callback has returned. -/
theorem tracked_returned (h : Good s.mgr) (ht : Tracked s o) (hb : s.mgr.batch = some b)
    (hcalling : b.calling = some o') :
    Tracked { s with mgr := TimerManager.returned s.mgr.wheel b o' } o := by
  obtain ⟨place, hin⟩ := h.batch b hb
  have htaken {l : List ℕ} (hl : l = b.timeoutLoop ++ [o'] ∨ l = b.timeoutLoop) {o₁ : ℕ}
      (ho₁ : o₁ ∈ l ++ (none : Option ℕ).toList) : o₁ ∈ taken b := by
    rw [Option.toList_none, List.append_nil] at ho₁
    unfold taken
    rw [hcalling]
    rcases hl with rfl | rfl
    · exact ho₁
    · exact List.mem_append_left _ ho₁
  have hleaving {o₁ : ℕ} (ho₁ : o₁ ∈ leaving b) :
      o₁ ∈ (b.timeoutAll ++ [o']) ++ (none : Option ℕ).toList := by
    unfold leaving at ho₁
    rw [hcalling] at ho₁
    rwa [Option.toList_none, List.append_nil]
  unfold TimerManager.returned
  dsimp only
  split_ifs with htype
  · refine ht.congr rfl ht.deleted rfl rfl rfl (fun τ => ?_) fun b' hb' ho => ?_
    · exact waits_of_turn hb rfl rfl rfl rfl rfl (List.nil_append _).symm List.not_mem_nil
        (fun _ _ => id) fun o₁ ho₁ => ⟨hleaving ho₁, rfl⟩
    · cases hb'
      exact ⟨b, hb, htaken (Or.inl rfl) ho, rfl⟩
  · obtain ⟨d, htimer, hd⟩ : ∃ d, (s.mgr.wheel.setDelete o').timer o =
        { s.mgr.wheel.timer o with delflag := d } ∧ (d = true → Finished s.mgr.wheel o) := by
      by_cases heq : o = o'
      · subst heq
        refine ⟨true, Wheel.setTimer_self .., fun _ => ?_⟩
        have honce : (s.mgr.wheel.timer o).type = .onceTimer := not_not.mp htype
        have hmem : o ∈ b.calling.toList := by
          rw [hcalling]
          exact List.mem_singleton_self o
        rcases (hin.places.done o hmem).2 honce with hdel | hpos
        · exact ht.deleted hdel
        · exact ⟨honce, hpos⟩
      · exact ⟨_, Wheel.setTimer_of_ne heq _, ht.deleted⟩
    refine ht.congr htimer hd (calls_setDelete ..) rfl rfl (fun τ => ?_) fun b' hb' ho => ?_
    · exact waits_of_turn hb rfl rfl rfl rfl rfl (List.nil_append _).symm List.not_mem_nil
        (fun _ _ => id) fun o₁ ho₁ => ⟨hleaving ho₁, id_setDelete _ o' o₁⟩
    · cases hb'
      exact ⟨b, hb, htaken (Or.inr rfl) ho, rfl⟩

/-! ### Timers are attached again -/

theorem at_of_attachAgain {tick next : Int64} (h : (w.attachAgain o tick next).At c k o') :
    w.At c k o' ∨ o' = o ∧ c = w.slotNum ((w.timer o).again tick next).ticks := by
  cases hdel : (w.timer o).delflag with
  | true =>
    rw [Wheel.attachAgain_of_deleted hdel] at h
    exact Or.inl h
  | false =>
    rw [Wheel.attachAgain_eq hdel] at h
    rcases Wheel.at_slotAdd.mp h with hat | ⟨hc, -, ho, -⟩
    · exact Or.inl hat
    · exact Or.inr ⟨ho, hc⟩

section

variable {os : List ℕ}

/-- The timer is not among those that are attached again. -/
theorem foldl_attachAgain_ne (tick : Int64) (next : ℕ → Int64) (ho : o ∉ os) :
    (os.foldl (fun w o => w.attachAgain o tick (next o)) w).timer o = w.timer o ∧
      ∀ c k, (os.foldl (fun w o => w.attachAgain o tick (next o)) w).At c k o → w.At c k o := by
  induction os generalizing w with
  | nil => exact ⟨rfl, fun _ _ => id⟩
  | cons o' os ih =>
    have hne := List.ne_of_not_mem_cons ho
    have hno := List.not_mem_of_not_mem_cons ho
    obtain ⟨htimer, hat⟩ := ih (w := w.attachAgain o' tick (next o')) hno
    refine ⟨htimer.trans ((Wheel.kept_attachAgain w o' tick (next o')).other o hne), fun c k h => ?_⟩
    exact (at_of_attachAgain (hat c k h)).resolve_right fun hh => hne hh.1

/-- The timer is one of them. -/
theorem foldl_attachAgain_mem (tick : Int64) (next : ℕ → Int64) (ho : o ∈ os) (hnodup : os.Nodup)
    (hdel : (w.timer o).delflag = false) :
    (os.foldl (fun w o => w.attachAgain o tick (next o)) w).timer o = (w.timer o).again tick (next o) ∧
      ∀ c k, (os.foldl (fun w o => w.attachAgain o tick (next o)) w).At c k o →
        w.At c k o ∨ c = w.slotNum ((w.timer o).again tick (next o)).ticks := by
  induction os generalizing w with
  | nil => cases ho
  | cons o' os ih =>
    obtain ⟨hno, hnodup⟩ := List.nodup_cons.mp hnodup
    have hkept := Wheel.kept_attachAgain w o' tick (next o')
    by_cases heq : o = o'
    · subst heq
      obtain ⟨htimer, hat⟩ :=
        foldl_attachAgain_ne (w := w.attachAgain o tick (next o)) tick next hno
      refine ⟨htimer.trans ?_, fun c k h => (at_of_attachAgain (hat c k h)).imp id And.right⟩
      rw [Wheel.attachAgain_eq hdel]
      exact Wheel.setTimer_self ..
    · have hmem := (List.mem_cons.mp ho).resolve_left heq
      have hother := hkept.other o heq
      obtain ⟨htimer, hat⟩ := ih (w := w.attachAgain o' tick (next o')) hmem hnodup (hother ▸ hdel)
      rw [hother] at htimer hat
      refine ⟨htimer, fun c k h => ?_⟩
      rcases hat c k h with hold | hc
      · exact Or.inl ((at_of_attachAgain hold).resolve_right fun hh => heq hh.1)
      · refine Or.inr (hc.trans ?_)
        unfold Wheel.slotNum
        rw [Wheel.currSlot_attachAgain]

end

/-- **The end of a tick.** -/
theorem tracked_endTick (h : Synced s) (ht : Tracked s o) (hb : s.mgr.batch = some b)
    (hcalling : b.calling = none) (hrest : b.rest = []) (next : ℕ → Int64) :
    Tracked { s with mgr := TimerManager.endTick s.mgr.wheel b next } o := by
  obtain ⟨place, hin⟩ := h.good.batch b hb
  obtain ⟨htick, hlt, hcurr⟩ := h.tick b hb
  have hcalls : TimerPlaces.calls (TimerManager.endTick s.mgr.wheel b next).wheel o =
      TimerPlaces.calls s.mgr.wheel o :=
    foldl_keep (fun w => TimerPlaces.calls w o) (fun w o' => by
      unfold TimerPlaces.calls
      rw [(Wheel.kept_attachAgain w o' b.tick (next o')).events]) _ _
  have hslots : inSlots s.mgr.wheel b = s.mgr.wheel.slotErase b.slot b.timeoutAll := by
    unfold inSlots leaving
    rw [hcalling, Option.toList_none, List.append_nil]
  have hcurr' : (TimerManager.endTick s.mgr.wheel b next).wheel.currSlot = s.mgr.wheel.currSlot :=
    foldl_keep Wheel.currSlot (fun w o => Wheel.currSlot_attachAgain w o b.tick (next o)) _ _
  have hold {c : ℕ} {k : UInt32} (hat : (s.mgr.wheel.slotErase b.slot b.timeoutAll).At c k o) :
      Waits s o (nextVisit s.time s.mgr.wheel.currSlot c) := by
    refine .slot (k := k) ?_ (by rw [rest_of_batch hb, hrest]; exact List.not_mem_nil)
    rw [slots_of_batch hb, hslots]
    exact hat
  by_cases ho : o ∈ b.timeoutLoop
  · have htaken : o ∈ taken b := List.mem_append_left _ ho
    have htype := (hin.loop o ho).2
    have hdel : (s.mgr.wheel.timer o).delflag = false :=
      Bool.eq_false_iff.mpr fun hd => htype (ht.deleted hd).1
    have hnodup : b.timeoutLoop.Nodup := (List.nodup_append.mp hin.places.nodup).1
    obtain ⟨htimer, hat⟩ := foldl_attachAgain_mem (w := s.mgr.wheel.slotErase b.slot b.timeoutAll)
      b.tick next ho hnodup hdel
    change (TimerManager.endTick s.mgr.wheel b next).wheel.timer o =
      (s.mgr.wheel.timer o).again b.tick (next o) at htimer
    change ∀ c k, _ → _ ∨
      c = s.mgr.wheel.slotNum ((s.mgr.wheel.timer o).again b.tick (next o)).ticks at hat
    have htime : s.time = b.tick.toInt + SLOT_CHANGE_TIME := by omega
    constructor
    case unvisited =>
      rw [htimer]
      intro hno
      cases hno
    case calls => exact ht.calls.trans hcalls.symm
    case deleted =>
      rw [htimer]
      intro hd
      exact absurd (hdel.symm.trans hd) Bool.false_ne_true
    case onTime =>
      rw [htimer]
      intro hexact
      have hloop : (s.mgr.wheel.timer o).type = .loopTimer := (hexact.type.resolve_left htype).1
      have hmonth : (s.mgr.wheel.timer o).type ≠ .monthLoopTimer := by
        rw [hloop]
        decide
      have hinterval : ((s.mgr.wheel.timer o).again b.tick (next o)).interval =
          (s.mgr.wheel.timer o).interval := if_neg hmonth
      have hexact' : Exact (s.mgr.wheel.timer o) := hexact.congr rfl rfl hinterval
      have hon := ht.onTime hexact'
      obtain ⟨hnear, hbe⟩ := hon.taken b hb htaken
      obtain ⟨hbe', hpending⟩ :=
        pending_again hnear hmonth (hexact'.type.resolve_left htype).2 hlt (next o)
      constructor
      case near =>
        rw [htimer, hinterval]
        exact hon.near
      case waits =>
        intro τ hw
        rw [htimer, hinterval, hbe', hbe]
        refine ⟨?_, rfl⟩
        cases hw with
        | @slot c k hat' _ =>
          rcases hat c k hat' with hin' | rfl
          · exfalso
            have hplace := ((hin.places.at_iff c k o).mp (hslots ▸ hin')).1
            rw [(hin.places.out_iff o).mp htaken] at hplace
            cases hplace
          · dsimp only
            rw [hcurr']
            rw [nextVisit_slotNum s.time h.good.curr, htime]
            exact hpending
        | rest hb' => cases hb'
      case taken =>
        intro b' hb'
        cases hb'
  · obtain ⟨htimer, hat⟩ := foldl_attachAgain_ne (w := s.mgr.wheel.slotErase b.slot b.timeoutAll)
      b.tick next ho
    refine ht.congr htimer ht.deleted hcalls rfl rfl (fun τ hw => ?_) fun b' hb' => by cases hb'
    cases hw with
    | @slot c k hat' _ =>
      dsimp only
      rw [hcurr']
      exact hold (hat c k hat')
    | rest hb' => cases hb'

end

end ChatShow.CommBase.TimerTurns
