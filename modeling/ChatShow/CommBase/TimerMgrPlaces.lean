import ChatShow.CommBase.TimerMgr
import ChatShow.CommBase.TimerPlaces

/-! # The places of timers in the timer manager

Every step keeps each timer in its place or moves it to one (`good_step`). During a tick, the timers of
`lTimeoutTimerAll` and the one that is called are in the slot still, and are erased from it at the end:
they are taken for gone from it before (`inSlots`). -/

namespace ChatShow.CommBase.TimerMgrPlaces

open ChatShow.CommBase.TimerWheel ChatShow.CommBase.TimerMgr ChatShow.CommBase.TimerPlaces
open ChatShow.Lib.Maps ChatShow.Lib.Runs

/-- The timers that are to be erased from the slot. -/
def leaving (b : Batch) : List ℕ := b.timeoutAll ++ b.calling.toList

/-- The timers that are out: they are to be attached again, or are called. -/
def taken (b : Batch) : List ℕ := b.timeoutLoop ++ b.calling.toList

/-- The wheel without the timers that are to be erased. -/
def inSlots (w : Wheel) (b : Batch) : Wheel := w.slotErase b.slot (leaving b)

/-- The id of a new timer is that of no other in the slots. -/
def Fresh (s : TimerManager) : Label → Prop
  | .addTimer _ => FreshID s.wheel s.wheel.nextID
  | _ => True

instance (s : TimerManager) : ∀ a, Decidable (Fresh s a)
  | .addTimer _ => inferInstanceAs (Decidable (FreshID _ _))
  | .newTimer .. | .setDelete _ | .onTick _ | .turn | .returned | .endTick _ => .isTrue trivial

/-! ### The invariant -/

structure InBatch (w : Wheel) (b : Batch) (place : ℕ → Option Place) : Prop where
  places : Places (inSlots w b) (taken b) b.calling.toList place
  lt : b.slot < SLOT_COUNT
  nodup : b.rest.Nodup
  rest : ∀ o ∈ b.rest, place o = some (.slot b.slot)
  leaving : ∀ o ∈ leaving b, w.At b.slot (w.timer o).id o ∧ o < w.made ∧ (w.timer o).isRunning = true
  loop : ∀ o ∈ b.timeoutLoop, o ∈ b.timeoutAll ∧ (w.timer o).type ≠ .onceTimer

structure Good (s : TimerManager) : Prop where
  curr : s.wheel.currSlot < SLOT_COUNT
  idle : s.batch = none → ∃ place, Places s.wheel [] [] place
  batch : ∀ b, s.batch = some b → ∃ place, InBatch s.wheel b place

theorem good_start : Good {} where
  curr := by decide
  idle _ := ⟨_, places_start⟩
  batch b hb := by cases hb

section

variable {s : TimerManager} {w w' : Wheel} {b b' : Batch} {place place' : ℕ → Option Place} {o : ℕ}

/-- What is done during a tick. -/
theorem InBatch.congr (h : InBatch w b place)
    (hp : Places (inSlots w' b) (taken b) b.calling.toList place') (hmade : w.made ≤ w'.made)
    (hat : ∀ c k o, w.At c k o → w'.At c k o)
    (ht : ∀ o < w.made, (w.timer o).isRunning = true → (w'.timer o).id = (w.timer o).id ∧
      (w'.timer o).isRunning = true ∧ (w'.timer o).type = (w.timer o).type)
    (hplace : ∀ o ∈ b.rest, place' o = place o) : InBatch w' b place' where
  places := hp
  lt := h.lt
  nodup := h.nodup
  rest o ho := (hplace o ho).trans (h.rest o ho)
  leaving o ho := by
    obtain ⟨hat', hlt, hrun⟩ := h.leaving o ho
    obtain ⟨hid, hrun', -⟩ := ht o hlt hrun
    rw [hid]
    exact ⟨hat _ _ _ hat', Nat.lt_of_lt_of_le hlt hmade, hrun'⟩
  loop o ho := by
    obtain ⟨hmem, htype⟩ := h.loop o ho
    obtain ⟨-, hlt, hrun⟩ := h.leaving o (List.mem_append_left _ hmem)
    rw [(ht o hlt hrun).2.2]
    exact ⟨hmem, htype⟩

theorem good_newTimer (h : Good s) (type : TimerType) (interval : Int64) (start : UInt32)
    (bePoint : Int64) : Good { s with wheel := s.wheel.newTimer type interval start bePoint } := by
  have hold {o : ℕ} (ho : o < s.wheel.made) :
      (s.wheel.newTimer type interval start bePoint).timer o = s.wheel.timer o :=
    Wheel.setTimer_of_ne (Nat.ne_of_lt ho) _
  refine ⟨h.curr, fun hb => ?_, fun b hb => ?_⟩
  · obtain ⟨place, hp⟩ := h.idle hb
    exact ⟨place, hp.newTimer type interval start bePoint⟩
  · obtain ⟨place, hin⟩ := h.batch b hb
    have hids : ((leaving b).map fun o' => ((s.wheel.newTimer type interval start bePoint).timer o').id) =
        (leaving b).map fun o' => (s.wheel.timer o').id :=
      List.map_congr_left fun o' ho' => congrArg Timer.id (hold (hin.leaving o' ho').2.1)
    have heq : inSlots (s.wheel.newTimer type interval start bePoint) b =
        (inSlots s.wheel b).newTimer type interval start bePoint := by
      unfold inSlots Wheel.slotErase
      rw [hids]
      rfl
    refine ⟨place, hin.congr ?_ (Nat.le_succ _) (fun _ _ _ => id) (fun o ho hrun => ?_) fun _ _ => rfl⟩
    · rw [heq]
      exact hin.places.newTimer type interval start bePoint
    · change ((s.wheel.newTimer type interval start bePoint).timer o).id = _ ∧ _
      rw [hold ho]
      exact ⟨rfl, hrun, rfl⟩

theorem good_addTimer (h : Good s) (ho : o < s.wheel.made) (hrun : ¬ (s.wheel.timer o).isRunning = true)
    (hfresh : Fresh s (.addTimer o)) : Good { s with wheel := TimerManager.addTimer s.wheel o } := by
  unfold TimerManager.addTimer
  split_ifs
  · exact h
  generalize (s.wheel.timer o).start = start
  refine ⟨(Wheel.currSlot_attachNew ..).symm ▸ h.curr, fun hb => ?_, fun b hb => ?_⟩
  · obtain ⟨place, hp⟩ := h.idle hb
    exact hp.attachNew_idle ho hrun hfresh (fun o' ho' => absurd ho' List.not_mem_nil) start
  · obtain ⟨place, hin⟩ := h.batch b hb
    have hkept := Wheel.kept_attachNew s.wheel o start
    have hne {o' : ℕ} (hrun' : (s.wheel.timer o').isRunning = true) : o' ≠ o := by
      rintro rfl
      exact hrun hrun'
    have hids (o' : ℕ) (ho' : o' ∈ taken b) : (s.wheel.timer o').id ≠ s.wheel.nextID := fun heq => by
      have hmem : o' ∈ leaving b := by
        refine (List.mem_append.mp ho').elim (fun hm => ?_) fun hm => List.mem_append_right _ hm
        exact List.mem_append_left _ (hin.loop o' hm).1
      have hat := (hin.leaving o' hmem).1
      unfold Wheel.At at hat
      rw [heq, hfresh b.slot hin.lt] at hat
      cases hat
    obtain ⟨place', hp', hplace⟩ := hin.places.attachNew hin.lt
      (fun o' ho' => ⟨(hin.leaving o' ho').1, (hin.leaving o' ho').2.2⟩) ho hrun hfresh hids start
    refine ⟨place', hin.congr hp' (Nat.le_of_eq hkept.made.symm)
      (fun c k o' hat => Wheel.at_attachNew hat start) (fun o' _ hrun' => ?_) fun o' ho' => hplace o' ?_⟩
    · rw [hkept.other o' (hne hrun')]
      exact ⟨rfl, hrun', rfl⟩
    · have hknown := hin.places.known o' (by rw [hin.rest o' ho']; exact Option.some_ne_none _)
      exact hne hknown.2

theorem good_setDelete (h : Good s) (o : ℕ) : Good { s with wheel := s.wheel.setDelete o } := by
  refine ⟨h.curr, fun hb => ?_, fun b hb => ?_⟩
  · obtain ⟨place, hp⟩ := h.idle hb
    exact ⟨place, hp.setDelete o⟩
  · obtain ⟨place, hin⟩ := h.batch b hb
    have heq : inSlots (s.wheel.setDelete o) b = (inSlots s.wheel b).setDelete o :=
      Wheel.slotErase_setDelete ..
    refine ⟨place, hin.congr ?_ (Nat.le_refl _) (fun _ _ _ => id) (fun o' _ hrun => ?_) fun _ _ => rfl⟩
    · rw [heq]
      exact hin.places.setDelete o
    · have hother (hne : o' ≠ o) : (s.wheel.setDelete o).timer o' = s.wheel.timer o' :=
        Wheel.setTimer_of_ne hne _
      by_cases hne : o' = o
      · subst hne
        have hself : (s.wheel.setDelete o').timer o' = { s.wheel.timer o' with delflag := true } :=
          Wheel.setTimer_self ..
        change ((s.wheel.setDelete o').timer o').id = _ ∧ _
        rw [hself]
        exact ⟨rfl, hrun, rfl⟩
      · change ((s.wheel.setDelete o).timer o').id = _ ∧ _
        rw [hother hne]
        exact ⟨rfl, hrun, rfl⟩

/-- The timers of the slot are taken. -/
theorem good_onTick (h : Good s) (hb : s.batch = none) (tick : Int64) : Good (s.onTick tick) := by
  obtain ⟨place, hp⟩ := h.idle hb
  have hadv : Places s.wheel.advance.2 [] [] place := { hp with }
  refine ⟨Wheel.currSlot_advance _, fun hb' => (by cases hb'), fun b hb' => ?_⟩
  cases hb'
  let c := s.wheel.advance.1
  refine ⟨fun o => if place o = some (.slot c) ∧ (s.wheel.timer o).delflag = true then none else place o, ?_⟩
  constructor
  case places =>
    change Places ((s.onTick tick).wheel.slotErase c []) [] [] _
    rw [Wheel.slotErase_nil]
    refine hadv.filter (fun o ho => ⟨ho.2, by rw [ho.1]; simp⟩) (fun c' k o => ?_) rfl rfl rfl
    refine TimerManager.at_collect.trans ?_
    refine and_congr_right fun hat => not_congr (and_congr_left fun _ => ?_)
    rw [((hadv.at_iff c' k o).mp hat).1, Option.some.injEq, Place.slot.injEq]
    exact Iff.rfl
  case lt => exact h.curr
  case nodup => exact hadv.keyed.nodup_timersOf _ _
  case rest =>
    intro o ho
    obtain ⟨⟨k, hat⟩, hdel⟩ := TimerManager.mem_collect.mp ho
    refine (if_neg fun hh => ?_).trans ((hadv.at_iff c k o).mp hat).1
    exact Bool.false_ne_true (hdel.symm.trans hh.2)
  case leaving => exact fun o ho => absurd ho List.not_mem_nil
  case loop => exact fun o ho => absurd ho List.not_mem_nil

/-- The batch after the turn of its first timer. -/
theorem inBatch_turned {rest : List ℕ} {t : Timer} (h : InBatch w b place) (hrest : b.rest = o :: rest)
    (ht : (w.timer o).Same t) (hp : Places (inSlots w' b') (taken b') b'.calling.toList place')
    (hslot : b'.slot = b.slot) (hrest' : b'.rest = rest) (hloop : b'.timeoutLoop = b.timeoutLoop)
    (hall : ∀ o' ∈ b.timeoutAll, o' ∈ b'.timeoutAll)
    (hleaving : ∀ o' ∈ leaving b', o' ∈ leaving b ∨ o' = o) (hmade : w'.made = w.made)
    (htimer : w'.timer = (w.setTimer o t).timer) (hat : ∀ c k o', w.At c k o' → w'.At c k o')
    (hplace : ∀ o', o' ≠ o → place' o' = place o') : InBatch w' b' place' := by
  have hnodup := h.nodup
  rw [hrest, ← hrest', List.nodup_cons] at hnodup
  have hsame (o' : ℕ) : (w.timer o').Same (w'.timer o') := by
    rw [htimer]
    exact Wheel.same_setTimer ht o'
  constructor
  case places => exact hp
  case lt => rw [hslot]; exact h.lt
  case nodup => exact hnodup.2
  case rest =>
    intro o' ho'
    have hne : o' ≠ o := by
      rintro rfl
      exact hnodup.1 ho'
    rw [hplace o' hne, hslot]
    exact h.rest o' (hrest ▸ hrest' ▸ List.mem_cons_of_mem o ho')
  case leaving =>
    intro o' ho'
    have hold : w.At b.slot (w.timer o').id o' ∧ o' < w.made ∧ (w.timer o').isRunning = true := by
      rcases hleaving o' ho' with hmem | rfl
      · exact h.leaving o' hmem
      · have ho : place o' = some (.slot b.slot) := h.rest o' (hrest ▸ List.mem_cons_self)
        have hknown := h.places.known o' (by rw [ho]; exact Option.some_ne_none _)
        have hat' := (h.places.at_iff b.slot _ o').mpr ⟨ho, rfl⟩
        exact ⟨(Wheel.at_slotErase.mp hat').1, hknown⟩
    rw [hslot, hmade, (hsame o').id, (hsame o').isRunning]
    exact ⟨hat _ _ _ hold.1, hold.2⟩
  case loop =>
    intro o' ho'
    rw [hloop] at ho'
    rw [(hsame o').type]
    exact ⟨hall o' (h.loop o' ho').1, (h.loop o' ho').2⟩

theorem good_turn {rest : List ℕ} (h : Good s) (hb : s.batch = some b) (hcalling : b.calling = none)
    (hrest : b.rest = o :: rest) : Good (TimerManager.turn s.wheel b o rest) := by
  obtain ⟨place, hin⟩ := h.batch b hb
  have ho : place o = some (.slot b.slot) := hin.rest o (hrest ▸ List.mem_cons_self)
  have hknown := hin.places.known o (by rw [ho]; exact Option.some_ne_none _)
  have hp := hin.places
  unfold inSlots leaving taken at hp
  rw [hcalling] at hp
  simp only [Option.toList_none, List.append_nil] at hp
  have htake {t : Timer} (ht : (s.wheel.timer o).Same t) {out : List ℕ}
      (hout : out.Perm (o :: b.timeoutLoop)) :
      Places ((s.wheel.setTimer o t).slotErase b.slot (b.timeoutAll ++ [o])) out []
        (Function.update place o (some .out)) := by
    rw [Wheel.slotErase_setTimer ht.id, Wheel.slotErase_append]
    exact (hp.take ho hout).setTimer ht.id ht.isRunning ht.type ht.delflag
  have hmem (o' : ℕ) (ho' : o' ∈ b.timeoutAll ++ [o]) : o' ∈ leaving b ∨ o' = o :=
    (List.mem_append.mp ho').imp (List.mem_append_left _) List.mem_singleton.mp
  have hfirst (honce : (s.wheel.timer o).type = .onceTimer) : calls s.wheel o = 0 := by
    rcases Nat.eq_zero_or_pos (calls s.wheel o) with hzero | hpos
    · exact hzero
    · have hnone := (hp.gone o ⟨honce, hpos⟩).resolve_right List.not_mem_nil
      rw [ho] at hnone
      cases hnone
  have hturned := TimerManager.turned s.wheel b o rest
  generalize TimerManager.turn s.wheel b o rest = s' at hturned
  rcases hturned with @⟨t, ht, -⟩ | @⟨t, ht⟩ | @⟨t, slot, ht, hslot, hne⟩
  case called =>
    refine ⟨h.curr, fun hb' => (by cases hb'), fun b' hb' => ?_⟩
    cases hb'
    have hself := Wheel.setTimer_self s.wheel o t
    have hrun := (congrArg Timer.isRunning hself).trans (ht.isRunning.trans hknown.2)
    have hcall := (htake ht (List.perm_append_singleton o b.timeoutLoop)).onTimeout ⟨hknown.1, hrun⟩
      fun honce => hfirst ((ht.type.symm.trans (congrArg Timer.type hself).symm).trans honce)
    exact ⟨_, inBatch_turned hin hrest ht hcall rfl rfl rfl (fun _ => id) hmem rfl rfl
      (fun _ _ _ => id) fun o' hne => Function.update_of_ne hne ..⟩
  case stays =>
    refine ⟨h.curr, fun hb' => (by cases hb'), fun b' hb' => ?_⟩
    cases hb'
    have hset : Places (inSlots (s.wheel.setTimer o t) b) (taken b) b.calling.toList place := by
      unfold inSlots
      rw [Wheel.slotErase_setTimer ht.id]
      exact hin.places.setTimer ht.id ht.isRunning ht.type ht.delflag
    exact ⟨place, inBatch_turned hin hrest ht hset rfl rfl rfl (fun _ => id) (fun _ => Or.inl) rfl rfl
      (fun _ _ _ => id) fun _ _ => rfl⟩
  case moved =>
    refine ⟨h.curr, fun hb' => (by cases hb'), fun b' hb' => ?_⟩
    cases hb'
    have hput := (htake ht (List.Perm.refl _)).put (List.Perm.refl _) hslot (fun _ => id)
      (fun _ _ => id) fun _ => id
    rw [← Wheel.slotErase_slotAdd _ (hne hin.lt)] at hput
    refine ⟨Function.update (Function.update place o (some .out)) o (some (.slot slot)), ?_⟩
    refine inBatch_turned hin hrest ht ?_ rfl rfl rfl (fun _ => List.mem_append_left _) (fun o' ho' => ?_)
      rfl rfl (fun c k o' hat => Wheel.at_slotAdd.mpr (Or.inl hat)) fun o' hne => ?_
    · unfold inSlots leaving taken
      rw [hcalling]
      simpa only [Option.toList_none, List.append_nil] using hput
    · refine hmem o' ?_
      unfold leaving at ho'
      rwa [hcalling, Option.toList_none, List.append_nil] at ho'
    · rw [Function.update_idem]
      exact Function.update_of_ne hne ..

/-- The timer that has been called leaves the batch, to be attached again at its end. -/
theorem InBatch.loopTimer (h : InBatch w b place) (hcalling : b.calling = some o)
    (htype : (w.timer o).type ≠ .onceTimer) :
    InBatch w { b with calling := none, timeoutAll := b.timeoutAll ++ [o]
                       timeoutLoop := b.timeoutLoop ++ [o] } place := by
  have hp := h.places
  have hleaving := h.leaving
  unfold inSlots TimerMgrPlaces.leaving taken at hp
  unfold TimerMgrPlaces.leaving at hleaving
  rw [hcalling] at hp hleaving
  constructor
  case places =>
    unfold inSlots TimerMgrPlaces.leaving taken
    simp only [Option.toList_none, List.append_nil]
    refine hp.setCalled (fun o' hfin _ hmem => ?_) fun o' ho' => absurd ho' List.not_mem_nil
    rw [List.mem_singleton.mp hmem] at hfin
    exact absurd hfin.1 htype
  case lt => exact h.lt
  case nodup => exact h.nodup
  case rest => exact h.rest
  case leaving =>
    unfold TimerMgrPlaces.leaving
    rwa [Option.toList_none, List.append_nil]
  case loop =>
    intro o' ho'
    rcases List.mem_append.mp ho' with ho' | ho'
    · exact ⟨List.mem_append_left _ (h.loop o' ho').1, (h.loop o' ho').2⟩
    · rw [List.mem_singleton.mp ho']
      exact ⟨List.mem_append_right _ List.mem_cons_self, htype⟩

/-- The timer that has been called leaves the batch for good. -/
theorem InBatch.onceTimer (h : InBatch w b place) (hcalling : b.calling = some o)
    (hdel : (w.timer o).delflag = true) :
    InBatch w { b with calling := none, timeoutAll := b.timeoutAll ++ [o] }
      (Function.update place o none) := by
  have hp := h.places
  have hleaving := h.leaving
  unfold inSlots TimerMgrPlaces.leaving taken at hp
  unfold TimerMgrPlaces.leaving at hleaving
  rw [hcalling] at hp hleaving
  have hout : place o = some .out :=
    (hp.out_iff o).mp (List.mem_append_right _ List.mem_cons_self)
  constructor
  case places =>
    unfold inSlots TimerMgrPlaces.leaving taken
    simp only [Option.toList_none, List.append_nil]
    exact hp.leave (List.perm_append_singleton o b.timeoutLoop) (Or.inl hdel)
      (fun o' ho' => absurd ho' List.not_mem_nil) fun o' hne ho' => absurd (List.mem_singleton.mp ho') hne
  case lt => exact h.lt
  case nodup => exact h.nodup
  case rest =>
    intro o' ho'
    have hplace := h.rest o' ho'
    have hne : o' ≠ o := by
      rintro rfl
      rw [hout] at hplace
      cases hplace
    exact (Function.update_of_ne hne ..).trans hplace
  case leaving =>
    unfold TimerMgrPlaces.leaving
    rwa [Option.toList_none, List.append_nil]
  case loop => exact fun o' ho' => ⟨List.mem_append_left _ (h.loop o' ho').1, (h.loop o' ho').2⟩

theorem good_returned (h : Good s) (hb : s.batch = some b) (hcalling : b.calling = some o) :
    Good (TimerManager.returned s.wheel b o) := by
  unfold TimerManager.returned
  dsimp only
  split_ifs with htype
  · obtain ⟨place, hin⟩ := h.batch b hb
    refine ⟨h.curr, fun hb' => (by cases hb'), fun b' hb' => ?_⟩
    cases hb'
    exact ⟨place, hin.loopTimer hcalling htype⟩
  · obtain ⟨place, hin⟩ := (good_setDelete h o).batch b hb
    refine ⟨h.curr, fun hb' => (by cases hb'), fun b' hb' => ?_⟩
    cases hb'
    exact ⟨_, hin.onceTimer hcalling (congrArg Timer.delflag (Wheel.setTimer_self ..))⟩

theorem places_attachAgain {os : List ℕ} (h : Places w os [] place)
    (hos : ∀ o ∈ os, (w.timer o).type ≠ .onceTimer) (tick : Int64) (next : ℕ → Int64) :
    ∃ place', Places (os.foldl (fun w o => w.attachAgain o tick (next o)) w) [] [] place' := by
  induction os generalizing w place with
  | nil => exact ⟨place, h⟩
  | cons o os ih =>
    obtain ⟨place', h'⟩ := h.attachAgain (List.Perm.refl _) (hos o List.mem_cons_self) (fun _ => id)
      (fun _ _ => id) tick (next o)
    have hnot := (List.nodup_cons.mp h.nodup).1
    refine ih h' fun o' ho' => ?_
    have hne : o' ≠ o := by
      rintro rfl
      exact hnot ho'
    rw [(Wheel.kept_attachAgain w o tick (next o)).other o' hne]
    exact hos o' (List.mem_cons_of_mem o ho')

theorem good_endTick (h : Good s) (hb : s.batch = some b) (hcalling : b.calling = none)
    (next : ℕ → Int64) : Good (TimerManager.endTick s.wheel b next) := by
  obtain ⟨place, hin⟩ := h.batch b hb
  have hp := hin.places
  unfold inSlots leaving taken at hp
  rw [hcalling] at hp
  simp only [Option.toList_none, List.append_nil] at hp
  obtain ⟨place', hp'⟩ := places_attachAgain hp (fun o ho => (hin.loop o ho).2) b.tick next
  refine ⟨?_, fun _ => ⟨place', hp'⟩, fun b' hb' => (by cases hb')⟩
  exact (foldl_keep Wheel.currSlot (fun w o => Wheel.currSlot_attachAgain w o b.tick (next o)) _ _).symm ▸ h.curr

end

theorem good_step (s : TimerManager) (a : Label) (s' : TimerManager) (h : Good s) (hfresh : Fresh s a)
    (hs : s.step a = some s') : Good s' := by
  cases TimerManager.stepped hs with
  | newTimer type interval start bePoint => exact good_newTimer h type interval start bePoint
  | addTimer ho hrun => exact good_addTimer h ho hrun hfresh
  | setDelete ho => exact good_setDelete h _
  | onTick tick hb => exact good_onTick h hb tick
  | turn hb hcalling hrest => exact good_turn h hb hcalling hrest
  | returned hb hcalling => exact good_returned h hb hcalling
  | endTick next hb hcalling => exact good_endTick h hb hcalling next

end ChatShow.CommBase.TimerMgrPlaces
