import ChatShow.CommBase.RoundCount
import ChatShow.CommBase.SingleTimerPlaces

/-! # The rounds of timers in the single timer manager

As in the timer manager, every step of a run that attaches timers for less than `maxDistance` keeps those
of the slots counted (`good_step`), here through the visits of a slot (`Visiting`), and each visit
computes in range (`safe_of_good`). -/

namespace ChatShow.CommBase.SingleTimerRounds

open ChatShow.CommBase.TimerWheel ChatShow.CommBase.SingleTimerMgr ChatShow.CommBase.TimerPlaces
open ChatShow.CommBase.SingleTimerPlaces (taken perm_taken_onTick perm_taken_turn)
open ChatShow.CommBase.RoundCount ChatShow.Lib.Maps

/-- The clock is not negative, and timers are attached for less than `maxDistance`. -/
def Ok (s : SingleTimerManager) : Label → Prop
  | .addTimer o => (s.wheel.timer o).delflag = false → 0 < (s.wheel.timer o).start →
      ((s.wheel.timer o).start - 100).toNat < maxDistance
  | .onTick tick => 0 ≤ tick
  | .endTick next => ∀ b ∈ s.batch, ∀ o ∈ b.called, (s.wheel.timer o).type ≠ .onceTimer →
      (s.wheel.timer o).delflag = false → (left (s.wheel.timer o) b.tick (next o)).toInt < maxDistance
  | _ => True

instance (s : SingleTimerManager) : ∀ a, Decidable (Ok s a)
  | .addTimer _ => inferInstanceAs (Decidable (_ → _ → _))
  | .onTick _ => inferInstanceAs (Decidable (_ ≤ _))
  | .endTick _ => inferInstanceAs (Decidable (∀ b ∈ s.batch, ∀ o ∈ b.called, _ → _ → _))
  | .newTimer .. | .setDelete _ | .tick _ | .turn => .isTrue trivial

/-- Each visit of a tick computes in range, whatever the visits before it have done. -/
def Safe (s : SingleTimerManager) : Label → Prop
  | .onTick tick => ∀ l k o l', (s.wheel.slots s.wheel.currSlot).toList = l ++ (k, o) :: l' →
      let v := l.foldl (SingleTimerManager.visit tick s.wheel.currSlot) { wheel := s.wheel.advance.2 }
      (v.wheel.timer o).delflag = false → Fits (v.wheel.timer o) tick
  | _ => True

/-! ### The visits of a slot -/

/-- What holds while a slot is visited, with the entries `l` to come. -/
structure Visiting (slot : ℕ) (out : List ℕ) (v : Visit) (l : List (UInt32 × ℕ)) : Prop where
  keyed : v.wheel.Keyed
  held : ∃ place, Held v.wheel (Has v.wheel) (out ++ v.timeout ++ v.reset) place
  nodup : l.Nodup
  entries : ∀ e ∈ l, v.wheel.At slot e.1 e.2
  reset : ∀ o ∈ v.reset, Counted (v.wheel.timer o).moved

section

variable {tick : Int64} {slot : ℕ} {out : List ℕ} {v : Visit} {k : UInt32} {o : ℕ}
  {l : List (UInt32 × ℕ)} {w : Wheel}

theorem visit_of_deleted (hdel : (v.wheel.timer o).delflag = true) :
    SingleTimerManager.visit tick slot v (k, o) = { v with wheel := v.wheel.eraseAt slot k } :=
  if_pos hdel

theorem visit_of_due (hdel : (v.wheel.timer o).delflag = false)
    (hdue : ((v.wheel.timer o).onTickEx tick).1 = true) :
    SingleTimerManager.visit tick slot v (k, o) =
      { v with
        wheel := (v.wheel.setTimer o ((v.wheel.timer o).onTickEx tick).2).eraseAt slot k
        timeout := v.timeout ++ [o] } := by
  unfold SingleTimerManager.visit
  dsimp only
  rw [hdel, if_neg Bool.false_ne_true, if_pos hdue]

/-- A timer that is not due stays, or is taken as late, and is counted. -/
theorem visit_of_waiting (slot : ℕ) (k : UInt32) (h : Counted (v.wheel.timer o)) (hdel : (v.wheel.timer o).delflag = false)
    (hdue : ((v.wheel.timer o).onTickEx tick).1 = false) :
    (∃ t, (v.wheel.timer o).Same t ∧ Counted t ∧
      SingleTimerManager.visit tick slot v (k, o) = { v with wheel := v.wheel.setTimer o t }) ∨
    ∃ t, (v.wheel.timer o).Same t ∧ Counted t.moved ∧ SingleTimerManager.visit tick slot v (k, o) =
      { v with wheel := (v.wheel.setTimer o t).eraseAt slot k, reset := v.reset ++ [o] } := by
  have hsame := Timer.same_onTickEx (v.wheel.timer o) tick
  unfold SingleTimerManager.visit
  dsimp only
  rw [hdel, if_neg Bool.false_ne_true, hdue, if_neg Bool.false_ne_true]
  split_ifs
  · rw [Wheel.setTimer_setTimer]
    have hfirst : (v.wheel.timer o).Same (((v.wheel.timer o).onTickEx tick).2.firstVisit tick) :=
      hsame.trans ⟨rfl, rfl, rfl, rfl⟩
    exact Or.inl ⟨_, hfirst, h.visit hdue rfl (Or.inl rfl), rfl⟩
  · exact Or.inr ⟨_, hsame, h.visit hdue rfl (Or.inl rfl), rfl⟩
  · rw [Wheel.setTimer_setTimer]
    have hnext : (v.wheel.timer o).Same ((v.wheel.timer o).onTickEx tick).2.nextRound :=
      hsame.trans ⟨rfl, rfl, rfl, rfl⟩
    exact Or.inl ⟨_, hnext, h.visit hdue rfl (Or.inr rfl), rfl⟩

theorem has_of_eraseAt {c c' o' : ℕ} (h : Has (w.eraseAt c k) c' o') : Has w c' o' := by
  obtain ⟨k', hat⟩ := h
  exact ⟨k', (Wheel.at_eraseAt.mp hat).1⟩

theorem keyed_eraseAt (h : w.Keyed) (c : ℕ) (k : UInt32) : (w.eraseAt c k).Keyed :=
  h.mono (fun hat => (Wheel.at_eraseAt.mp hat).1) rfl rfl

theorem visiting_visit (h : Visiting slot out v ((k, o) :: l)) :
    Visiting slot out (SingleTimerManager.visit tick slot v (k, o)) l := by
  obtain ⟨hkeyed, ⟨place, hheld⟩, hnodup, hent, hreset⟩ := h
  have hat : v.wheel.At slot k o := hent _ List.mem_cons_self
  have hplace : place o = some (.slot slot) := hheld.slot slot o ⟨k, hat⟩
  have hrest := SingleTimerManager.entries_tail hnodup hent
  replace hnodup := (List.nodup_cons.mp hnodup).2
  have hother {t : Timer} (o' : ℕ) (ho' : o' ∈ v.reset) :
      (v.wheel.setTimer o t).timer o' = v.wheel.timer o' := by
    refine Wheel.setTimer_of_ne ?_ t
    rintro rfl
    cases (hheld.taken o' (List.mem_append_right _ ho')).symm.trans hplace
  have hset {t : Timer} (ht : (v.wheel.timer o).Same t) : (v.wheel.setTimer o t).Keyed :=
    hkeyed.setTimer ht.id ht.isRunning.trans
  cases hdel : (v.wheel.timer o).delflag with
  | true =>
    rw [visit_of_deleted hdel]
    refine ⟨keyed_eraseAt hkeyed slot k, ⟨place, ?_⟩, hnodup,
      fun e he => Wheel.at_eraseAt.mpr (hrest e he), hreset⟩
    exact hheld.mono rfl (Nat.le_refl _) (fun _ _ => has_of_eraseAt) (fun _ => id) hheld.nodup
  | false =>
    cases hdue : ((v.wheel.timer o).onTickEx tick).1 with
    | true =>
      rw [visit_of_due hdel hdue]
      have hsame := Timer.same_onTickEx (v.wheel.timer o) tick
      have hperm : (out ++ (v.timeout ++ [o]) ++ v.reset).Perm (o :: (out ++ v.timeout ++ v.reset)) := by
        rw [← List.append_assoc, List.append_assoc]
        exact List.perm_middle
      refine ⟨keyed_eraseAt (hset hsame) slot k, ⟨_, hheld.take hkeyed hat hsame hperm⟩, hnodup,
        fun e he => Wheel.at_eraseAt.mpr (hrest e he), fun o' ho' => ?_⟩
      rw [Wheel.timer_eraseAt, hother o' ho']
      exact hreset o' ho'
    | false =>
      rcases visit_of_waiting slot k (hheld.counted slot o hplace) hdel hdue with
        ⟨t, hsame, hcounted, heq⟩ | ⟨t, hsame, hmoved, heq⟩
      · rw [heq]
        refine ⟨hset hsame, ⟨place, hheld.setTimer (fun _ => ?_) (fun _ _ => hcounted) fun hno => ?_⟩,
          hnodup, fun e he => (hrest e he).1, fun o' ho' => ?_⟩
        · exact hsame.isRunning.trans (hkeyed.isRunning hat)
        · rw [hsame.isRunning, hkeyed.isRunning hat] at hno
          cases hno
        · rw [hother o' ho']
          exact hreset o' ho'
      · rw [heq]
        have hperm : (out ++ v.timeout ++ (v.reset ++ [o])).Perm (o :: (out ++ v.timeout ++ v.reset)) := by
          rw [← List.append_assoc]
          exact List.perm_append_singleton ..
        refine ⟨keyed_eraseAt (hset hsame) slot k, ⟨_, hheld.take hkeyed hat hsame hperm⟩, hnodup,
          fun e he => Wheel.at_eraseAt.mpr (hrest e he), fun o' ho' => ?_⟩
        rw [Wheel.timer_eraseAt]
        rcases List.mem_append.mp ho' with hold | hnew
        · rw [hother o' hold]
          exact hreset o' hold
        · rw [List.mem_singleton.mp hnew, Wheel.setTimer_self]
          exact hmoved

theorem visiting_foldl (tick : Int64) {l' : List (UInt32 × ℕ)} (h : Visiting slot out v (l ++ l')) :
    Visiting slot out (l.foldl (SingleTimerManager.visit tick slot) v) l' := by
  induction l generalizing v with
  | nil => exact h
  | cons e l ih => exact ih (visiting_visit h)

/-! ### The timers that are late -/

theorem held_reset (tick : Int64) (slot : ℕ) {place : ℕ → Option Place} {reset : List ℕ} (hkeyed : w.Keyed)
    (h : Held w (Has w) (out ++ reset) place) (hmoved : ∀ o ∈ reset, Counted (w.timer o).moved) :
    (reset.foldl (SingleTimerManager.resetTimer tick slot) w).Keyed ∧ ∃ place',
      Held (reset.foldl (SingleTimerManager.resetTimer tick slot) w)
        (Has (reset.foldl (SingleTimerManager.resetTimer tick slot) w)) out place' := by
  induction reset generalizing w place with
  | nil => exact ⟨hkeyed, place, by rwa [List.append_nil] at h⟩
  | cons o reset ih =>
    have hmem : o ∈ out ++ o :: reset := List.mem_append_right _ List.mem_cons_self
    have hknown := h.known o (by rw [h.taken o hmem]; exact Option.some_ne_none _)
    have hnodup := List.nodup_append.mp h.nodup
    have hother {t : Timer} {w' : Wheel} (htimer : w'.timer = w.timer) (o' : ℕ) (ho' : o' ∈ reset) :
        Counted ((w'.setTimer o t).timer o').moved := by
      rw [Wheel.setTimer_of_ne (ne_of_mem_of_not_mem ho' (List.nodup_cons.mp hnodup.2.1).1), htimer]
      exact hmoved o' (List.mem_cons_of_mem o ho')
    rw [List.foldl_cons]
    unfold SingleTimerManager.resetTimer Wheel.addTimer
    dsimp only
    split_ifs
    · have hset : (w.setTimer o (w.timer o).nextRound).Keyed := hkeyed.setTimer rfl id
      have hheld := h.setTimer (o := o) (t := (w.timer o).nextRound) (fun _ => hknown.2)
        (fun c hp => by rw [h.taken o hmem] at hp; cases hp) fun hno => by
          rw [show (w.timer o).nextRound.isRunning = true from hknown.2] at hno
          cases hno
      refine ih hset (hheld.mono rfl (Nat.le_refl _) (fun _ _ => id) (fun o' ho' => ?_) ?_) (hother rfl)
      · exact (List.mem_append.mp ho').elim (List.mem_append_left _) fun hm =>
          List.mem_append_right _ (List.mem_cons_of_mem o hm)
      · exact (List.nodup_cons.mp (List.perm_middle.nodup_iff.mp h.nodup)).2
    · have hadd := hkeyed.slotAdd (c := ((w.timer o).curslot tick slot).toNat) hknown.1 hknown.2
      have hset := hadd.setTimer (o := o) (t := (w.timer o).moved) rfl id
      exact ih hset (h.put List.perm_middle ⟨rfl, rfl, rfl, rfl⟩ (hmoved o List.mem_cons_self)) (hother rfl)

end

/-! ### Steps -/

structure Good (s : SingleTimerManager) : Prop where
  keyed : s.wheel.Keyed
  held : ∃ place, Held s.wheel (Has s.wheel) (taken s) place

theorem good_start : Good {} where
  keyed := Wheel.keyed_start
  held := ⟨_, held_start.mono rfl (Nat.le_refl _) (fun _ _ h => by cases h.choose_spec) (fun _ => id)
    List.nodup_nil⟩

section

variable {s : SingleTimerManager} {o : ℕ}

theorem visiting_start (h : Good s) : Visiting s.wheel.currSlot (taken s) { wheel := s.wheel.advance.2 }
    (s.wheel.slots s.wheel.currSlot).toList := by
  obtain ⟨place, hheld⟩ := h.held
  have hadv : Held s.wheel.advance.2 (Has s.wheel.advance.2) (taken s) place :=
    hheld.mono rfl (Nat.le_refl _) (fun _ _ => id) (fun _ => id) hheld.nodup
  exact
    { keyed := h.keyed.mono (fun hat => hat) rfl rfl
      held := ⟨place, by simpa using hadv⟩
      nodup := nodup_toList _
      entries := fun e he => Std.TreeMap.mem_toList_iff_getElem?_eq_some.mp he
      reset := fun o ho => absurd ho List.not_mem_nil }

/-- **Each visit of a tick computes in range.** -/
theorem safe_of_good (h : Good s) {a : Label} (hok : Ok s a) : Safe s a := by
  cases a with
  | onTick tick =>
    intro l k o l' heq v _
    have hstart := visiting_start h
    rw [heq] at hstart
    obtain ⟨-, ⟨place, hheld⟩, -, hent, -⟩ := visiting_foldl tick hstart
    exact (hheld.counted _ o (hheld.slot _ o ⟨k, hent _ List.mem_cons_self⟩)).fits hok
  | _ => trivial

theorem good_addTimer (h : Good s) (ho : o < s.wheel.made) (hrun : ¬ (s.wheel.timer o).isRunning = true)
    (hok : Ok s (.addTimer o)) : Good { s with wheel := SingleTimerManager.addTimer s.wheel o } := by
  have hrun' : (s.wheel.timer o).isRunning = false := Bool.eq_false_iff.mpr hrun
  unfold SingleTimerManager.addTimer
  split_ifs with hstart
  · exact h
  cases hdel : (s.wheel.timer o).delflag with
  | true =>
    rw [Wheel.attachNew_of_deleted hdel]
    exact h
  | false =>
    obtain ⟨place, hheld⟩ := h.held
    have hpos : 0 < (s.wheel.timer o).start := UInt32.not_le.mp hstart
    exact ⟨h.keyed.attachNew ho hrun' _, _,
      hheld.attachNew ho hrun' hdel (hok hdel hpos) fun c o' hhas => has_attachNew hdel hhas⟩

theorem good_onTick (h : Good s) (tick : Int64) : Good (s.onTick tick) := by
  have hstart := visiting_start h
  rw [← List.append_nil (s.wheel.slots s.wheel.currSlot).toList] at hstart
  obtain ⟨hkeyed, ⟨place, hheld⟩, -, -, hreset⟩ := visiting_foldl tick hstart
  obtain ⟨hkeyed', place', hheld'⟩ :=
    held_reset tick s.wheel.currSlot hkeyed hheld hreset
  have hperm := perm_taken_onTick s tick
  exact ⟨hkeyed', place', hheld'.mono rfl (Nat.le_refl _) (fun _ _ => id) (fun o ho => hperm.mem_iff.mp ho)
    (hperm.nodup_iff.mpr hheld'.nodup)⟩

theorem good_startTick (h : Good s) (hb : s.batch = none) (tick : Int64) : Good (s.startTick tick) := by
  unfold SingleTimerManager.startTick
  split_ifs
  · exact h
  · obtain ⟨place, hheld⟩ := h.held
    unfold taken at hheld
    rw [hb] at hheld
    refine ⟨h.keyed, place, ?_⟩
    simpa [taken] using hheld

theorem good_turn {b : Batch} {rest : List ℕ} (h : Good s) (hb : s.batch = some b)
    (hrest : b.rest = o :: rest) : Good (s.turn b o rest) := by
  obtain ⟨place, hheld⟩ := h.held
  have hperm := perm_taken_turn hb hrest
  have hkeyed : (s.turn b o rest).wheel.Keyed := by
    unfold SingleTimerManager.turn
    dsimp only
    split_ifs
    · exact h.keyed
    · exact h.keyed.mono (fun hat => hat) rfl rfl
  have hsame : (s.turn b o rest).wheel.timer = s.wheel.timer ∧
      (s.turn b o rest).wheel.made = s.wheel.made ∧ (s.turn b o rest).wheel.slots = s.wheel.slots := by
    unfold SingleTimerManager.turn
    dsimp only
    split_ifs <;> exact ⟨rfl, rfl, rfl⟩
  refine ⟨hkeyed, place, hheld.mono hsame.1 (Nat.le_of_eq hsame.2.1.symm) (fun c o' hs => ?_)
    (fun o' ho' => hperm.mem_iff.mp ho') (hperm.nodup_iff.mpr hheld.nodup)⟩
  unfold Has Wheel.At at hs ⊢
  rwa [hsame.2.2] at hs

/-- The timers of a list are attached again. -/
theorem good_attach {w : Wheel} {out os : List ℕ} {place : ℕ → Option Place} {tick : Int64}
    {next : ℕ → Int64} (hkeyed : w.Keyed) (h : Held w (Has w) (os ++ out) place)
    (hleft : ∀ o ∈ os, (w.timer o).type ≠ .onceTimer → (w.timer o).delflag = false →
      (left (w.timer o) tick (next o)).toInt < maxDistance) :
    (os.foldl (SingleTimerManager.attach tick next) w).Keyed ∧ ∃ place',
      Held (os.foldl (SingleTimerManager.attach tick next) w)
        (Has (os.foldl (SingleTimerManager.attach tick next) w)) out place' := by
  induction os generalizing w place with
  | nil => exact ⟨hkeyed, place, h⟩
  | cons o os ih =>
    have hknown := h.known o (by rw [h.taken o List.mem_cons_self]; exact Option.some_ne_none _)
    obtain ⟨hnot, hnodup⟩ := List.nodup_cons.mp h.nodup
    rw [List.foldl_cons]
    unfold SingleTimerManager.attach
    split_ifs with htype
    · have hkept := Wheel.kept_attachAgain w o tick (next o)
      obtain ⟨place', h'⟩ := h.attachAgain (hleft o List.mem_cons_self htype)
      refine ih (hkeyed.attachAgain hknown.1 tick (next o)) h' fun o' ho' => ?_
      rw [hkept.other o' (ne_of_mem_of_not_mem (List.mem_append_left _ ho') hnot)]
      exact hleft o' (List.mem_cons_of_mem o ho')
    · refine ih hkeyed (h.mono rfl (Nat.le_refl _) (fun _ _ => id) (fun _ => List.mem_cons_of_mem o) hnodup)
        fun o' ho' => hleft o' (List.mem_cons_of_mem o ho')

theorem good_endTick {b : Batch} {next : ℕ → Int64} (h : Good s) (hb : s.batch = some b)
    (hrest : b.rest = []) (hok : Ok s (.endTick next)) : Good (s.endTick b next) := by
  obtain ⟨place, hheld⟩ := h.held
  unfold taken at hheld
  rw [hb] at hheld
  dsimp only at hheld
  rw [hrest, List.nil_append] at hheld
  have hperm : (s.timeout ++ b.called).Perm (b.called ++ s.timeout) := List.perm_append_comm
  have hheld' : Held s.wheel (Has s.wheel) (b.called ++ s.timeout) place :=
    hheld.mono rfl (Nat.le_refl _) (fun _ _ => id) (fun o ho => hperm.mem_iff.mpr ho)
      (hperm.nodup_iff.mp hheld.nodup)
  obtain ⟨hkeyed, place', h'⟩ := good_attach h.keyed hheld' fun o ho => hok b hb o ho
  refine ⟨hkeyed, place', ?_⟩
  simpa [taken, SingleTimerManager.endTick] using h'

end

theorem good_step (s : SingleTimerManager) (a : Label) (s' : SingleTimerManager) (h : Good s)
    (hok : Ok s a) (hs : s.step a = some s') : Good s' := by
  cases SingleTimerManager.stepped hs with
  | newTimer type interval start bePoint =>
    obtain ⟨place, hheld⟩ := h.held
    exact ⟨h.keyed.newTimer type interval start bePoint, place,
      hheld.newTimer type interval start bePoint⟩
  | addTimer ho hrun => exact good_addTimer h ho hrun hok
  | @setDelete o ho =>
    obtain ⟨place, hheld⟩ := h.held
    exact ⟨keyed_setDelete h.keyed o, place, hheld.setDelete o⟩
  | onTick tick => exact good_onTick h tick
  | tick tick hb => exact good_startTick h hb tick
  | turn hb hrest => exact good_turn h hb hrest
  | endTick next hb hrest => exact good_endTick h hb hrest hok

end ChatShow.CommBase.SingleTimerRounds
