import ChatShow.CommBase.TimerMgrPlaces
import ChatShow.CommBase.RoundCount

/-! # The rounds of timers in the timer manager

Every step of a run that attaches timers for less than `maxDistance` keeps those of the slots counted
(`good_step`), so that each turn computes in range (`safe_of_good`). Timers with the id of another are
not put into a slot, and do not matter here. -/

namespace ChatShow.CommBase.TimerMgrRounds

open ChatShow.CommBase.TimerWheel ChatShow.CommBase.TimerMgr ChatShow.CommBase.TimerPlaces
open ChatShow.CommBase.TimerMgrPlaces (leaving taken)
open ChatShow.CommBase.RoundCount

/-- The clock is not negative, and timers are attached for less than `maxDistance`. -/
def Ok (s : TimerManager) : Label → Prop
  | .addTimer o => (s.wheel.timer o).delflag = false → (s.wheel.timer o).start.toNat < maxDistance
  | .onTick tick => 0 ≤ tick
  | .endTick next => ∀ b ∈ s.batch, ∀ o ∈ b.timeoutLoop, (s.wheel.timer o).delflag = false →
      (left (s.wheel.timer o) b.tick (next o)).toInt < maxDistance
  | _ => True

instance (s : TimerManager) : ∀ a, Decidable (Ok s a)
  | .addTimer _ => inferInstanceAs (Decidable (_ → _))
  | .onTick _ => inferInstanceAs (Decidable (_ ≤ _))
  | .endTick _ => inferInstanceAs (Decidable (∀ b ∈ s.batch, ∀ o ∈ b.timeoutLoop, _ → _))
  | .newTimer .. | .setDelete _ | .turn | .returned => .isTrue trivial

/-- A turn computes in range. -/
def Safe (s : TimerManager) : Label → Prop
  | .turn => ∀ b ∈ s.batch, ∀ o ∈ b.rest.head?, b.calling = none → Fits (s.wheel.timer o) b.tick
  | _ => True

/-! ### The invariant -/

/-- The timer is in the slot, and is not to be erased from it. -/
def Sits (s : TimerManager) (c o : ℕ) : Prop :=
  Has s.wheel c o ∧ ∀ b ∈ s.batch, c = b.slot → o ∉ leaving b

def out (s : TimerManager) : List ℕ :=
  match s.batch with
  | some b => taken b
  | none => []

/-- What holds of the turns to come. -/
structure Turns (b : Batch) (place : ℕ → Option Place) : Prop where
  tick : 0 ≤ b.tick
  nodup : b.rest.Nodup
  rest : ∀ o ∈ b.rest, place o = some (.slot b.slot)

structure Good (s : TimerManager) : Prop where
  keyed : s.wheel.Keyed
  held : ∃ place, Held s.wheel (Sits s) (out s) place ∧ ∀ b ∈ s.batch, Turns b place

theorem good_start : Good {} where
  keyed := Wheel.keyed_start
  held := ⟨_, held_start.mono rfl (Nat.le_refl _) (fun _ _ h => by cases h.1.choose_spec)
    (fun _ => id) List.nodup_nil, fun b hb => by cases hb⟩

section

variable {s : TimerManager} {w : Wheel} {b : Batch} {o : ℕ} {place : ℕ → Option Place}

theorem Turns.update (h : Turns b place) (ho : o ∉ b.rest) (p : Option Place) :
    Turns b (Function.update place o p) where
  tick := h.tick
  nodup := h.nodup
  rest o' ho' := by
    rw [Function.update_of_ne (ne_of_mem_of_not_mem ho' ho)]
    exact h.rest o' ho'

/-- **A turn computes in range.** -/
theorem safe_of_good (h : Good s) (a : Label) : Safe s a := by
  cases a with
  | turn =>
    intro b hb o ho _
    obtain ⟨place, hheld, hturns⟩ := h.held
    have hmem : o ∈ b.rest := List.mem_of_mem_head? ho
    exact (hheld.counted _ o ((hturns b hb).rest o hmem)).fits (hturns b hb).tick
  | _ => trivial

/-! ### Steps -/

theorem good_newTimer (h : Good s) (type : TimerType) (interval : Int64) (start : UInt32)
    (bePoint : Int64) : Good { s with wheel := s.wheel.newTimer type interval start bePoint } := by
  obtain ⟨place, hheld, hturns⟩ := h.held
  exact ⟨h.keyed.newTimer type interval start bePoint, place,
    hheld.newTimer type interval start bePoint, hturns⟩

theorem good_addTimer (h : Good s) (ho : o < s.wheel.made) (hrun : ¬ (s.wheel.timer o).isRunning = true)
    (hok : Ok s (.addTimer o)) : Good { s with wheel := TimerManager.addTimer s.wheel o } := by
  have hrun' : (s.wheel.timer o).isRunning = false := Bool.eq_false_iff.mpr hrun
  unfold TimerManager.addTimer
  split_ifs
  · exact h
  cases hdel : (s.wheel.timer o).delflag with
  | true =>
    rw [Wheel.attachNew_of_deleted hdel]
    exact h
  | false =>
    obtain ⟨place, hheld, hturns⟩ := h.held
    refine ⟨h.keyed.attachNew ho hrun' _, _, hheld.attachNew ho hrun' hdel (hok hdel) ?_, fun b hb => ?_⟩
    · rintro c o' ⟨hhas, hno⟩
      exact (has_attachNew hdel hhas).imp_left fun hold => ⟨hold, hno⟩
    · refine (hturns b hb).update (fun hmem => hrun ?_) _
      have hplace := (hturns b hb).rest o hmem
      exact (hheld.known o (by rw [hplace]; exact Option.some_ne_none _)).2

theorem good_setDelete (h : Good s) (o : ℕ) : Good { s with wheel := s.wheel.setDelete o } := by
  obtain ⟨place, hheld, hturns⟩ := h.held
  exact ⟨keyed_setDelete h.keyed o, place, hheld.setDelete o, hturns⟩

theorem good_onTick (h : Good s) (hb : s.batch = none) {tick : Int64} (htick : 0 ≤ tick) :
    Good (s.onTick tick) := by
  obtain ⟨place, hheld, -⟩ := h.held
  have hadv : s.wheel.advance.2.Keyed := h.keyed.mono (fun hat => hat) rfl rfl
  have hsits {c o : ℕ} (hhas : Has s.wheel c o) : Sits s c o :=
    ⟨hhas, fun b hb' => by rw [hb] at hb'; cases hb'⟩
  constructor
  case keyed => exact hadv.mono (fun hat => (TimerManager.at_collect.mp hat).1) rfl rfl
  case held =>
    refine ⟨place, hheld.mono rfl (Nat.le_refl _) (fun c o hs => ?_) (fun o ho => by cases ho)
      List.nodup_nil, fun b hb' => ?_⟩
    · obtain ⟨⟨k, hat⟩, -⟩ := hs
      exact hsits ⟨k, (TimerManager.at_collect.mp hat).1⟩
    · cases hb'
      refine ⟨htick, hadv.nodup_timersOf _ _, fun o ho => ?_⟩
      obtain ⟨⟨k, hat⟩, -⟩ := TimerManager.mem_collect.mp ho
      exact hheld.slot _ o (hsits ⟨k, hat⟩)

theorem turn_of_due (rest : List ℕ) (hdue : ((w.timer o).onTickEx b.tick).1 = true) :
    TimerManager.turn w b o rest =
      { wheel := (w.setTimer o ((w.timer o).onTickEx b.tick).2).onTimeout o
        batch := some { b with rest := rest, calling := some o } } := by
  unfold TimerManager.turn
  dsimp only
  rw [if_pos hdue]

/-- A timer that is not due stays counted in its turn. -/
theorem counted_turn (h : Counted (w.timer o)) (hdue : ((w.timer o).onTickEx b.tick).1 = false)
    (rest : List ℕ) : Counted ((TimerManager.turn w b o rest).wheel.timer o) := by
  unfold TimerManager.turn
  dsimp only
  rw [hdue, if_neg Bool.false_ne_true]
  split_ifs
  · exact (Wheel.setTimer_self ..).symm ▸ h.visit hdue rfl (Or.inl rfl)
  · unfold Wheel.addTimer
    split_ifs
    · exact (Wheel.setTimer_self ..).symm ▸ h.visit hdue rfl (Or.inr rfl)
    · exact (Wheel.setTimer_self ..).symm ▸ h.visit hdue rfl (Or.inl rfl)
  · exact (Wheel.setTimer_self ..).symm ▸ h.visit hdue rfl (Or.inr rfl)

section

variable {rest : List ℕ}

theorem out_of_batch (hb : s.batch = some b) (hcalling : b.calling = none) : out s = b.timeoutLoop := by
  unfold out taken
  rw [hb]
  dsimp only
  rw [hcalling, Option.toList_none, List.append_nil]

theorem leaving_of_none (hcalling : b.calling = none) : leaving b = b.timeoutAll := by
  unfold leaving
  rw [hcalling, Option.toList_none, List.append_nil]

/-- The timer of a turn is in its slot only: those that are in another, or are not to be erased after the
turn, are other timers. -/
theorem sits_of_turn (hheld : Held s.wheel (Sits s) (out s) place) (hb : s.batch = some b)
    (hcalling : b.calling = none) (hplace : place o = some (.slot b.slot)) {c o' : ℕ}
    (hhas : Has s.wheel c o') (hno : c = b.slot → o' ∉ b.timeoutAll ++ [o]) : o' ≠ o ∧ Sits s c o' := by
  have hold : Sits s c o' := by
    refine ⟨hhas, fun b' hb' hc hmem => ?_⟩
    cases hb.symm.trans hb'
    exact hno hc (List.mem_append_left _ (leaving_of_none hcalling ▸ hmem))
  refine ⟨?_, hold⟩
  rintro rfl
  cases (hheld.slot c o' hold).symm.trans hplace
  exact hno rfl (List.mem_append_right _ (List.mem_singleton_self o'))

theorem Turns.tail (h : Turns b place) (hrest : b.rest = o :: rest) {b' : Batch} (hslot : b'.slot = b.slot)
    (htick : b'.tick = b.tick) (hrest' : b'.rest = rest) : Turns b' place where
  tick := htick ▸ h.tick
  nodup := hrest' ▸ (List.nodup_cons.mp (hrest ▸ h.nodup)).2
  rest o' ho' := by
    rw [hslot]
    exact h.rest o' (hrest ▸ List.mem_cons_of_mem o (hrest' ▸ ho'))

theorem Turns.not_mem (h : Turns b place) (hrest : b.rest = o :: rest) : o ∉ rest :=
  (List.nodup_cons.mp (hrest ▸ h.nodup)).1

/-- The timer of a turn is taken out of its slot. -/
theorem good_called {t : Timer} (h : Good s) (hb : s.batch = some b) (hcalling : b.calling = none)
    (hrest : b.rest = o :: rest) (hsame : (s.wheel.timer o).Same t) :
    Good { wheel := (s.wheel.setTimer o t).onTimeout o
           batch := some { b with rest := rest, calling := some o } } := by
  obtain ⟨place, hheld, hturns⟩ := h.held
  have hplace : place o = some (.slot b.slot) := (hturns b hb).rest o (hrest ▸ List.mem_cons_self)
  obtain ⟨hlt, hrun⟩ := hheld.known o (by rw [hplace]; exact Option.some_ne_none _)
  have hout := out_of_batch hb hcalling
  have hnot : o ∉ b.timeoutLoop := fun hmem => by
    cases (hheld.taken o (hout ▸ hmem)).symm.trans hplace
  have hrun' : ((s.wheel.setTimer o t).timer o).isRunning = true := by
    rw [Wheel.setTimer_self, hsame.isRunning, hrun]
  have hset : (s.wheel.setTimer o t).Keyed := h.keyed.setTimer hsame.id hsame.isRunning.trans
  refine ⟨hset.mono (fun hat => hat) rfl rfl, _, hheld.move (o := o) (p := some .out) (Nat.le_refl _)
    (fun o' hne => Wheel.setTimer_of_ne hne _) (fun c o' hs => Or.inl ?_) (fun o' ho' => ?_) ?_
    (fun _ => ⟨hlt, hrun'⟩) (fun c hp => by cases hp) (fun hno => ?_), fun b' hb' => ?_⟩
  · exact sits_of_turn hheld hb hcalling hplace hs.1 (hs.2 _ rfl)
  · rcases List.mem_append.mp ho' with hloop | hmem
    · exact Or.inl ⟨ne_of_mem_of_not_mem hloop hnot, hout ▸ hloop⟩
    · exact Or.inr ⟨List.mem_singleton.mp hmem, rfl⟩
  · refine List.nodup_append.mpr ⟨hout ▸ hheld.nodup, List.nodup_singleton o, fun o' ho' o'' ho'' => ?_⟩
    rw [List.mem_singleton.mp ho'']
    exact ne_of_mem_of_not_mem ho' hnot
  · exact absurd (hrun'.symm.trans hno) (by decide)
  · cases hb'
    refine Turns.update ?_ ((hturns b hb).not_mem hrest) _
    exact (hturns b hb).tail hrest rfl rfl rfl

/-- The timer of a turn stays. -/
theorem good_stays {t : Timer} (h : Good s) (hb : s.batch = some b) (hrest : b.rest = o :: rest)
    (hsame : (s.wheel.timer o).Same t) (hcounted : Counted t) :
    Good { wheel := s.wheel.setTimer o t, batch := some { b with rest := rest } } := by
  obtain ⟨place, hheld, hturns⟩ := h.held
  have hplace : place o = some (.slot b.slot) := (hturns b hb).rest o (hrest ▸ List.mem_cons_self)
  obtain ⟨-, hrun⟩ := hheld.known o (by rw [hplace]; exact Option.some_ne_none _)
  have hrun' : t.isRunning = true := hsame.isRunning.trans hrun
  have hset := hheld.setTimer (o := o) (fun _ => hrun') (fun _ _ => hcounted) fun hno =>
    absurd (hrun'.symm.trans hno) (by decide)
  have hout : out s = taken b := by
    unfold out
    rw [hb]
  have hnodup : (taken b).Nodup := hout ▸ hheld.nodup
  refine ⟨h.keyed.setTimer hsame.id hsame.isRunning.trans, place,
    hset.mono rfl (Nat.le_refl _) (fun c o' hs => ⟨hs.1, fun b' hb' => ?_⟩) (fun o' ho' => hout ▸ ho')
      hnodup, fun b' hb' => ?_⟩
  · cases hb.symm.trans hb'
    exact hs.2 { b with rest := rest } rfl
  · cases hb'
    exact (hturns b hb).tail hrest rfl rfl rfl

/-- The timer of a turn is moved to a slot, and is to be erased from its own. -/
theorem good_moved {t : Timer} {slot : ℕ} (h : Good s) (hb : s.batch = some b) (hcalling : b.calling = none)
    (hrest : b.rest = o :: rest) (hsame : (s.wheel.timer o).Same t) (hcounted : Counted t) :
    Good { wheel := (s.wheel.setTimer o t).slotAdd slot o
           batch := some { b with rest := rest, timeoutAll := b.timeoutAll ++ [o] } } := by
  obtain ⟨place, hheld, hturns⟩ := h.held
  have hplace : place o = some (.slot b.slot) := (hturns b hb).rest o (hrest ▸ List.mem_cons_self)
  obtain ⟨hlt, hrun⟩ := hheld.known o (by rw [hplace]; exact Option.some_ne_none _)
  have hself : ((s.wheel.setTimer o t).slotAdd slot o).timer o = t := Wheel.setTimer_self s.wheel o t
  have hrun' : t.isRunning = true := hsame.isRunning.trans hrun
  have hset : (s.wheel.setTimer o t).Keyed := h.keyed.setTimer hsame.id hsame.isRunning.trans
  have hout : out s = taken b := by
    unfold out
    rw [hb]
  have hnodup : (taken b).Nodup := hout ▸ hheld.nodup
  refine ⟨hset.slotAdd hlt ((congrArg Timer.isRunning hself).trans hrun'), _,
    hheld.move (o := o) (p := some (.slot slot)) (Nat.le_refl _)
      (fun o' hne => Wheel.setTimer_of_ne hne _) (fun c o' hs => ?_) (fun o' ho' => Or.inl ?_)
      hnodup (fun _ => ⟨hlt, (congrArg Timer.isRunning hself).trans hrun'⟩) (fun _ _ => ?_)
      (fun hno => ?_), fun b' hb' => ?_⟩
  · rcases has_slotAdd hs.1 with hold | ⟨ho', hc⟩
    · exact Or.inl (sits_of_turn hheld hb hcalling hplace hold fun hc hmem =>
        hs.2 _ rfl hc (List.mem_append_left _ hmem))
    · exact Or.inr ⟨ho', by rw [hc]⟩
  · have hold : o' ∈ out s := hout ▸ ho'
    refine ⟨?_, hold⟩
    rintro rfl
    cases (hheld.taken o' hold).symm.trans hplace
  · rw [hself]
    exact hcounted
  · rw [hself, hrun'] at hno
    cases hno
  · cases hb'
    refine Turns.update ?_ ((hturns b hb).not_mem hrest) _
    exact (hturns b hb).tail hrest rfl rfl rfl

theorem good_turn (h : Good s) (hb : s.batch = some b) (hcalling : b.calling = none)
    (hrest : b.rest = o :: rest) : Good (TimerManager.turn s.wheel b o rest) := by
  cases hdue : ((s.wheel.timer o).onTickEx b.tick).1 with
  | true =>
    rw [turn_of_due rest hdue]
    exact good_called h hb hcalling hrest (Timer.same_onTickEx _ b.tick)
  | false =>
    obtain ⟨place, hheld, hturns⟩ := h.held
    have hplace := (hturns b hb).rest o (hrest ▸ List.mem_cons_self)
    have hcounted := counted_turn (hheld.counted _ o hplace) hdue rest
    have hturned := TimerManager.turned s.wheel b o rest
    generalize TimerManager.turn s.wheel b o rest = s' at hcounted hturned
    rcases hturned with @⟨t, hsame, hdue'⟩ | @⟨t, hsame⟩ | @⟨t, slot, hsame, -, -⟩
    case called => exact absurd (hdue.symm.trans hdue') Bool.false_ne_true
    case stays => exact good_stays h hb hrest hsame (Wheel.setTimer_self s.wheel o t ▸ hcounted)
    case moved => exact good_moved h hb hcalling hrest hsame (Wheel.setTimer_self s.wheel o t ▸ hcounted)

end

/-- A callback has returned. -/
theorem good_returned (h : Good s) (hb : s.batch = some b) (hcalling : b.calling = some o) :
    Good (TimerManager.returned s.wheel b o) := by
  obtain ⟨place, hheld, hturns⟩ := h.held
  have hturn := hturns b hb
  have hout : out s = b.timeoutLoop ++ [o] := by
    unfold out taken
    rw [hb]
    dsimp only
    rw [hcalling]
    rfl
  have hleaving : leaving b = b.timeoutAll ++ [o] := by
    unfold leaving
    rw [hcalling]
    rfl
  have hsits {c o' : ℕ} (hhas : Has s.wheel c o')
      (hno : c = b.slot → o' ∉ (b.timeoutAll ++ [o]) ++ (none : Option ℕ).toList) : Sits s c o' := by
    refine ⟨hhas, fun b' hb' hc hmem => ?_⟩
    cases hb.symm.trans hb'
    exact hno hc (List.mem_append_left _ (hleaving ▸ hmem))
  unfold TimerManager.returned
  dsimp only
  split_ifs
  · refine ⟨h.keyed, place, hheld.mono rfl (Nat.le_refl _)
      (fun c o' hs => hsits hs.1 fun hc => hs.2 _ rfl hc) (fun o' ho' => ?_) ?_, fun b' hb' => ?_⟩
    · change o' ∈ (b.timeoutLoop ++ [o]) ++ (none : Option ℕ).toList at ho'
      rwa [Option.toList_none, List.append_nil, ← hout] at ho'
    · change ((b.timeoutLoop ++ [o]) ++ (none : Option ℕ).toList).Nodup
      rw [Option.toList_none, List.append_nil, ← hout]
      exact hheld.nodup
    · cases hb'
      exact ⟨hturn.tick, hturn.nodup, hturn.rest⟩
  · refine ⟨keyed_setDelete h.keyed o, place, (hheld.setDelete o).mono rfl (Nat.le_refl _)
      (fun c o' hs => hsits hs.1 fun hc => hs.2 _ rfl hc) (fun o' ho' => ?_) ?_, fun b' hb' => ?_⟩
    · change o' ∈ b.timeoutLoop ++ (none : Option ℕ).toList at ho'
      rw [Option.toList_none, List.append_nil] at ho'
      rw [hout]
      exact List.mem_append_left _ ho'
    · change (b.timeoutLoop ++ (none : Option ℕ).toList).Nodup
      rw [Option.toList_none, List.append_nil]
      exact (List.nodup_append.mp (hout ▸ hheld.nodup)).1
    · cases hb'
      exact ⟨hturn.tick, hturn.nodup, hturn.rest⟩

/-- The timers of a list are attached again. -/
theorem good_attachAgain {os : List ℕ} {tick : Int64} {next : ℕ → Int64} (hkeyed : w.Keyed)
    (h : Held w (Has w) os place)
    (hleft : ∀ o ∈ os, (w.timer o).delflag = false → (left (w.timer o) tick (next o)).toInt < maxDistance) :
    Good { wheel := os.foldl (fun w o => w.attachAgain o tick (next o)) w } := by
  induction os generalizing w place with
  | nil =>
    exact ⟨hkeyed, place, h.mono rfl (Nat.le_refl _) (fun _ _ hs => hs.1) (fun _ => id) List.nodup_nil,
      fun b hb => by cases hb⟩
  | cons o os ih =>
    have hknown := h.known o (by rw [h.taken o List.mem_cons_self]; exact Option.some_ne_none _)
    have hkept := Wheel.kept_attachAgain w o tick (next o)
    obtain ⟨place', h'⟩ := h.attachAgain (hleft o List.mem_cons_self)
    refine ih (hkeyed.attachAgain hknown.1 tick (next o)) h' fun o' ho' => ?_
    rw [hkept.other o' (ne_of_mem_of_not_mem ho' (List.nodup_cons.mp h.nodup).1)]
    exact hleft o' (List.mem_cons_of_mem o ho')

theorem good_endTick {next : ℕ → Int64} (h : Good s) (hb : s.batch = some b) (hcalling : b.calling = none)
    (hok : Ok s (.endTick next)) : Good (TimerManager.endTick s.wheel b next) := by
  obtain ⟨place, hheld, -⟩ := h.held
  have hout := out_of_batch hb hcalling
  refine @good_attachAgain _ place _ _ _ (h.keyed.mono (fun hat => (Wheel.at_slotErase.mp hat).1) rfl rfl)
    ?_ fun o ho => hok b hb o ho
  rw [← hout]
  refine hheld.mono rfl (Nat.le_refl _) (fun c o hs => ?_) (fun _ => id) hheld.nodup
  obtain ⟨k, hat⟩ := hs
  obtain ⟨hold, hno⟩ := Wheel.at_slotErase.mp hat
  refine ⟨⟨k, hold⟩, fun b' hb' hc hmem => hno ⟨?_, ?_⟩⟩
  · cases hb.symm.trans hb'
    exact hc
  · cases hb.symm.trans hb'
    unfold leaving at hmem
    rw [hcalling, Option.toList_none, List.append_nil] at hmem
    exact h.keyed.id hold ▸ List.mem_map_of_mem hmem

end

theorem good_step (s : TimerManager) (a : Label) (s' : TimerManager) (h : Good s) (hok : Ok s a)
    (hs : s.step a = some s') : Good s' := by
  cases TimerManager.stepped hs with
  | newTimer type interval start bePoint => exact good_newTimer h type interval start bePoint
  | addTimer ho hrun => exact good_addTimer h ho hrun hok
  | @setDelete o ho => exact good_setDelete h o
  | onTick tick hb => exact good_onTick h hb hok
  | turn hb hcalling hrest => exact good_turn h hb hcalling hrest
  | returned hb hcalling => exact good_returned h hb hcalling
  | endTick next hb hcalling hrest => exact good_endTick h hb hcalling hok

end ChatShow.CommBase.TimerMgrRounds
