import ChatShow.CommBase.SingleTimerMgr
import ChatShow.CommBase.TimerPlaces

/-! # The places of timers in the single timer manager

Every step keeps each timer in its place or moves it to one (`good_step`): the timers that are out are
those of `m_timeout` and of the list of a `Tick` in progress. While `OnTick` visits a slot, also those
that it has found due or late are (`Visiting`). -/

namespace ChatShow.CommBase.SingleTimerPlaces

open ChatShow.CommBase.TimerWheel ChatShow.CommBase.SingleTimerMgr ChatShow.CommBase.TimerPlaces
open ChatShow.Lib.Maps ChatShow.Lib.Runs

/-- The timers that are taken out of their slots, and are to be called or attached again. -/
def taken (s : SingleTimerManager) : List ℕ :=
  s.timeout ++ match s.batch with | none => [] | some b => b.rest ++ b.called

def called (s : SingleTimerManager) : List ℕ := match s.batch with | none => [] | some b => b.called

/-- The id of a new timer is that of no other that the manager has. -/
def Fresh (s : SingleTimerManager) : Label → Prop
  | .addTimer _ => FreshID s.wheel s.wheel.nextID ∧ ∀ o ∈ taken s, (s.wheel.timer o).id ≠ s.wheel.nextID
  | _ => True

instance (s : SingleTimerManager) : ∀ a, Decidable (Fresh s a)
  | .addTimer _ => inferInstanceAs (Decidable (FreshID _ _ ∧ ∀ _ ∈ _, _))
  | .newTimer .. | .setDelete _ | .onTick _ | .tick _ | .turn | .endTick _ => .isTrue trivial

/-- What holds while a slot is visited, with the entries `l` to come. -/
structure Visiting (tick : Int64) (slot : ℕ) (out called : List ℕ) (v : Visit)
    (l : List (UInt32 × ℕ)) : Prop where
  places : ∃ place, Places v.wheel (out ++ v.timeout ++ v.reset) called place
  nodup : l.Nodup
  entries : ∀ e ∈ l, v.wheel.At slot e.1 e.2
  late : ∀ o ∈ v.reset, (v.wheel.timer o).isLate tick = true

section

variable {tick : Int64} {slot : ℕ} {out cs : List ℕ} {v : Visit} {k : UInt32} {o : ℕ}
  {l : List (UInt32 × ℕ)} {w : Wheel}

theorem visiting_visit (h : Visiting tick slot out cs v ((k, o) :: l)) :
    Visiting tick slot out cs (SingleTimerManager.visit tick slot v (k, o)) l := by
  obtain ⟨⟨place, hp⟩, hnodup, hent, hlate⟩ := h
  have hat : v.wheel.At slot k o := hent _ List.mem_cons_self
  obtain ⟨ho, hid⟩ := (hp.at_iff slot k o).mp hat
  have hrest := SingleTimerManager.entries_tail hnodup hent
  replace hnodup := (List.nodup_cons.mp hnodup).2
  have hnotout : o ∉ out ++ v.timeout ++ v.reset := fun hmem => by
    rw [(hp.out_iff o).mp hmem] at ho
    cases ho
  have hother {t : Timer} {o' : ℕ} (ho' : o' ∈ v.reset) : (v.wheel.setTimer o t).timer o' = v.wheel.timer o' := by
    refine Wheel.setTimer_of_ne ?_ t
    rintro rfl
    exact hnotout (List.mem_append_right _ ho')
  have hset {t : Timer} (ht : (v.wheel.timer o).Same t) :
      Places (v.wheel.setTimer o t) (out ++ v.timeout ++ v.reset) cs place :=
    hp.setTimer ht.id ht.isRunning ht.type ht.delflag
  have hid' {t : Timer} (ht : (v.wheel.timer o).Same t) : ((v.wheel.setTimer o t).timer o).id = k := by
    rw [Wheel.setTimer_self, ht.id, hid]
  have hvisited := SingleTimerManager.visited tick slot v k o
  generalize SingleTimerManager.visit tick slot v (k, o) = v' at hvisited
  rcases hvisited with hdel | @⟨t, ht⟩ | @⟨t, ht, ht'⟩ | @⟨t, ht⟩
  case deleted =>
    refine ⟨⟨_, hid ▸ hp.drop ho hdel⟩, hnodup, fun e he => Wheel.at_eraseAt.mpr (hrest e he), hlate⟩
  case due =>
    have hperm : (out ++ (v.timeout ++ [o]) ++ v.reset).Perm (o :: (out ++ v.timeout ++ v.reset)) := by
      rw [← List.append_assoc, List.append_assoc]
      exact List.perm_middle
    have htake := (hset ht).take ho hperm
    rw [hid' ht] at htake
    exact ⟨⟨_, htake⟩, hnodup, fun e he => Wheel.at_eraseAt.mpr (hrest e he),
      fun o' ho' => (congrArg (Timer.isLate · tick) (hother ho')).trans (hlate o' ho')⟩
  case late =>
    have hperm : (out ++ v.timeout ++ (v.reset ++ [o])).Perm (o :: (out ++ v.timeout ++ v.reset)) := by
      rw [← List.append_assoc]
      exact List.perm_append_singleton ..
    have htake := (hset ht).take ho hperm
    rw [hid' ht] at htake
    refine ⟨⟨_, htake⟩, hnodup, fun e he => Wheel.at_eraseAt.mpr (hrest e he), fun o' ho' => ?_⟩
    rcases List.mem_append.mp ho' with ho' | ho'
    · exact (congrArg (Timer.isLate · tick) (hother ho')).trans (hlate o' ho')
    · rw [List.mem_singleton.mp ho']
      exact (congrArg (Timer.isLate · tick) (Wheel.setTimer_self v.wheel o t)).trans ht'
  case stays =>
    exact ⟨⟨_, hset ht⟩, hnodup, fun e he => (hrest e he).1,
      fun o' ho' => (congrArg (Timer.isLate · tick) (hother ho')).trans (hlate o' ho')⟩

theorem visiting_foldl (h : Visiting tick slot out cs v l) :
    Visiting tick slot out cs (l.foldl (SingleTimerManager.visit tick slot) v) [] := by
  induction l generalizing v with
  | nil => exact h
  | cons e l ih => exact ih (visiting_visit h)

/-- The timers that are late are put into other slots. -/
theorem places_reset {place : ℕ → Option Place} {reset : List ℕ} (hslot : slot < SLOT_COUNT)
    (h : Places w (out ++ reset) cs place) (hlate : ∀ o ∈ reset, (w.timer o).isLate tick = true) :
    ∃ place', Places (reset.foldl (SingleTimerManager.resetTimer tick slot) w) out cs place' := by
  induction reset generalizing w place with
  | nil => exact ⟨place, by rwa [List.append_nil] at h⟩
  | cons o reset ih =>
    obtain ⟨c, hc, heq⟩ :=
      SingleTimerManager.resetTimer_eq (hlate o List.mem_cons_self) hslot
    have hput := h.put List.perm_middle hc (fun _ => id) (fun _ _ => id) fun _ => id
    have hmoved := hput.setTimer (o := o) (t := (w.timer o).moved) rfl rfl rfl rfl
    rw [List.foldl_cons, heq]
    refine ih hmoved fun o' ho' => ?_
    have hne : o' ≠ o := by
      rintro rfl
      have hnodup := List.nodup_append.mp h.nodup
      exact (List.nodup_cons.mp hnodup.2.1).1 ho'
    rw [Wheel.setTimer_of_ne hne]
    exact hlate o' (List.mem_cons_of_mem o ho')

theorem places_slotOnTick {place : ℕ → Option Place} (hslot : slot < SLOT_COUNT)
    (h : Places w out cs place) (tick : Int64) :
    ∃ place', Places (SingleTimerManager.slotOnTick w slot tick).2
      (out ++ (SingleTimerManager.slotOnTick w slot tick).1) cs place' := by
  have hstart : Visiting tick slot out cs { wheel := w } (w.slots slot).toList :=
    { places := ⟨place, by simpa using h⟩
      nodup := nodup_toList _
      entries := fun e he => Std.TreeMap.mem_toList_iff_getElem?_eq_some.mp he
      late := fun o ho => absurd ho List.not_mem_nil }
  obtain ⟨⟨place', h'⟩, -, -, hlate⟩ := visiting_foldl hstart
  exact places_reset hslot h' hlate

/-- What is attached again at the end of `Tick`. -/
theorem places_attach {place : ℕ → Option Place} {os : List ℕ} (h : Places w (out ++ os) os place)
    (tick : Int64) (next : ℕ → Int64) :
    ∃ place', Places (os.foldl (SingleTimerManager.attach tick next) w) out [] place' := by
  induction os generalizing w place with
  | nil => exact ⟨place, by rwa [List.append_nil] at h⟩
  | cons o os ih =>
    have hsub (o' : ℕ) (ho' : o' ∈ os) : o' ∈ o :: os := List.mem_cons_of_mem o ho'
    have hcalled (o' : ℕ) (hne : o' ≠ o) (ho' : o' ∈ o :: os) : o' ∈ os :=
      (List.mem_cons.mp ho').resolve_left hne
    rw [List.foldl_cons, SingleTimerManager.attach]
    split_ifs with htype
    · obtain ⟨place', h'⟩ := h.attachAgain List.perm_middle htype hsub hcalled tick (next o)
      exact ih h'
    · have htype' : (w.timer o).type = .onceTimer := not_not.mp htype
      have hdone : (w.timer o).delflag = true ∨ Finished w o :=
        ((h.done o List.mem_cons_self).2 htype').imp_right fun hcalls => ⟨htype', hcalls⟩
      exact ih (h.leave List.perm_middle hdone hsub hcalled)

end

structure Good (s : SingleTimerManager) : Prop where
  curr : s.wheel.currSlot < SLOT_COUNT
  places : ∃ place, Places s.wheel (taken s) (called s) place

theorem good_start : Good {} := ⟨by decide, _, places_start⟩

section

variable {s : SingleTimerManager} {o : ℕ}

theorem good_addTimer (h : Good s) (ho : o < s.wheel.made) (hrun : ¬ (s.wheel.timer o).isRunning = true)
    (hfresh : Fresh s (.addTimer o)) :
    Good { s with wheel := SingleTimerManager.addTimer s.wheel o } := by
  obtain ⟨hcurr, place, hp⟩ := h
  unfold SingleTimerManager.addTimer
  split_ifs
  · exact ⟨hcurr, place, hp⟩
  · obtain ⟨place', hp'⟩ := hp.attachNew_idle ho hrun hfresh.1 hfresh.2 ((s.wheel.timer o).start - 100)
    exact ⟨(Wheel.currSlot_attachNew ..).symm ▸ hcurr, place', hp'⟩

/-- What `OnTick` takes out of the slot is behind what is out already. -/
theorem perm_taken_onTick (s : SingleTimerManager) (tick : Int64) : (taken (s.onTick tick)).Perm
    (taken s ++ (SingleTimerManager.slotOnTick s.wheel.advance.2 s.wheel.currSlot tick).1) := by
  change (s.timeout ++ _ ++ _).Perm (s.timeout ++ _ ++ _)
  rw [List.append_assoc, List.append_assoc]
  exact List.perm_append_comm.append_left s.timeout

/-- A turn takes nothing out. -/
theorem perm_taken_turn {b : Batch} {rest : List ℕ} (hb : s.batch = some b) (hrest : b.rest = o :: rest) :
    (taken (s.turn b o rest)).Perm (taken s) := by
  unfold taken SingleTimerManager.turn
  rw [hb]
  dsimp only
  rw [hrest, ← List.append_assoc rest]
  exact (List.perm_append_singleton ..).append_left s.timeout

theorem good_onTick (h : Good s) (tick : Int64) : Good (s.onTick tick) := by
  obtain ⟨hcurr, place, hp⟩ := h
  have hadv : Places s.wheel.advance.2 (taken s) (called s) place := { hp with }
  obtain ⟨place', hp'⟩ := places_slotOnTick hcurr hadv tick
  refine ⟨?_, place', hp'.perm (perm_taken_onTick s tick)⟩
  exact (SingleTimerManager.currSlot_slotOnTick ..).symm ▸ Wheel.currSlot_advance _

theorem good_startTick (h : Good s) (hb : s.batch = none) (tick : Int64) : Good (s.startTick tick) := by
  unfold SingleTimerManager.startTick
  split_ifs
  · exact h
  · obtain ⟨hcurr, place, hp⟩ := h
    unfold taken called at hp
    rw [hb] at hp
    refine ⟨hcurr, place, ?_⟩
    simpa [taken, called] using hp

theorem good_turn {b : Batch} {rest : List ℕ} (h : Good s) (hb : s.batch = some b)
    (hrest : b.rest = o :: rest) : Good (s.turn b o rest) := by
  obtain ⟨hcurr, place, hp⟩ := h
  have hperm := perm_taken_turn hb hrest
  have htaken : taken s = s.timeout ++ (o :: rest ++ b.called) := by
    unfold taken
    rw [hb, ← hrest]
  have hcalled : called s = b.called := by
    unfold called
    rw [hb]
  rw [hcalled] at hp
  have hout : place o = some .out := (hp.out_iff o).mp (by simp [htaken])
  have hknown := hp.known o (by rw [hout]; exact Option.some_ne_none _)
  have hnot : o ∉ b.called := by
    have hnodup := hp.nodup
    rw [htaken] at hnodup
    simp only [List.cons_append, List.nodup_append, List.nodup_cons, List.mem_append, not_or] at hnodup
    exact hnodup.2.1.1.2
  refine ⟨?_, place, ?_⟩
  · unfold SingleTimerManager.turn
    dsimp only
    split_ifs <;> exact hcurr
  · unfold SingleTimerManager.turn
    dsimp only
    split_ifs with hdel
    · refine (hp.perm hperm).setCalled (fun _ _ _ => List.mem_append_left _) fun o' ho' => ?_
      refine (List.mem_append.mp ho').imp_right fun hm => ?_
      rw [List.mem_singleton.mp hm]
      exact ⟨hknown.1, hdel⟩
    · refine (hp.perm hperm).onTimeout hknown fun htype => ?_
      rcases Nat.eq_zero_or_pos (calls s.wheel o) with hzero | hpos
      · exact hzero
      · rcases hp.gone o ⟨htype, hpos⟩ with hnone | hmem
        · rw [hnone] at hout
          cases hout
        · exact absurd hmem hnot

theorem good_endTick {b : Batch} (h : Good s) (hb : s.batch = some b) (hrest : b.rest = [])
    (next : ℕ → Int64) : Good (s.endTick b next) := by
  obtain ⟨hcurr, place, hp⟩ := h
  unfold taken called at hp
  rw [hb] at hp
  dsimp only at hp
  rw [hrest] at hp
  obtain ⟨place', hp'⟩ := places_attach hp b.tick next
  refine ⟨?_, place', ?_⟩
  · exact (foldl_keep Wheel.currSlot (SingleTimerManager.currSlot_attach b.tick next) _ _).symm ▸ hcurr
  · simpa [taken, called, SingleTimerManager.endTick] using hp'

end

theorem good_step (s : SingleTimerManager) (a : Label) (s' : SingleTimerManager) (h : Good s)
    (hfresh : Fresh s a) (hs : s.step a = some s') : Good s' := by
  cases SingleTimerManager.stepped hs with
  | newTimer type interval start bePoint =>
    obtain ⟨hcurr, place, hp⟩ := h
    exact ⟨hcurr, place, hp.newTimer type interval start bePoint⟩
  | addTimer ho hrun => exact good_addTimer h ho hrun hfresh
  | @setDelete o ho =>
    obtain ⟨hcurr, place, hp⟩ := h
    exact ⟨hcurr, place, hp.setDelete o⟩
  | onTick tick => exact good_onTick h tick
  | tick tick hb => exact good_startTick h hb tick
  | turn hb hrest => exact good_turn h hb hrest
  | endTick next hb hrest => exact good_endTick h hb hrest next

end ChatShow.CommBase.SingleTimerPlaces
