import ChatShow.CommBase.TimerPlaces
import ChatShow.CommBase.TimerVisits

/-! # The rounds that a timer counts

`m_elapseRound * SLOT_CHANGE_TIME * SLOT_COUNT`, the time of the rounds since the first visit of a timer,
is an `int`: of 7158 rounds it is one still. A timer has as many visits as rounds, and the product is
taken in all but the first and the last, so that it is in range in all of them for a timer that has at
most `maxRound` of them, one that is due in less than `maxDistance` (`Counted.fits`).

The timers that are in slots are `Held`: each is in one slot and counts its rounds so. -/

namespace ChatShow.CommBase.RoundCount

open ChatShow.CommBase.TimerWheel ChatShow.CommBase.TimerPlaces ChatShow.CommBase.TimerVisits

/-- The time of the rounds that have passed, as a number. -/
def passed (t : Timer) : ℤ := t.elapseRound.toNat * SLOT_CHANGE_TIME * SLOT_COUNT

/-- Whether the timer is late, and where it is moved from then, is computed in range. -/
structure InRange (t : Timer) (tick : Int64) : Prop where
  product : passed t < 2 ^ 31
  elapseRound : t.elapseRound.toNat + 1 < 2 ^ 16
  distance : (tick - t.tickPoint).toInt = tick.toInt - t.tickPoint.toInt
  late : t.isLate tick = true ↔ passed t < tick.toInt - t.tickPoint.toInt ∧
    SLOT_CHANGE_TIME ≤ (tick.toInt - t.tickPoint.toInt) % wheelTime
  moved : t.isLate tick = true → t.moved.tickPoint.toInt = t.tickPoint.toInt + passed t

/-- What is computed in a visit of the timer is in range, and it is taken as due at its due point or in
its last round only. -/
structure Fits (t : Timer) (tick : Int64) : Prop where
  round : -2 ^ 31 < t.round.toInt
  due : (t.onTickEx tick).1 = true → 0 ≤ tick - t.bePoint ∨ t.round.toInt = 1
  late : (t.onTickEx tick).1 = false → 0 < (t.onTickEx tick).2.tickPoint →
    InRange (t.onTickEx tick).2 tick

/-- What is left of the interval, `tSec` of `AttachTimer`. -/
def left (t : Timer) (tick next : Int64) : Int64 :=
  (if t.type = .monthLoopTimer then next else t.interval) - tick + t.bePoint

/-- As many rounds as there may be. -/
def maxRound : ℕ := 7160

/-- The time of so many rounds. -/
def maxDistance : ℕ := maxRound * (SLOT_CHANGE_TIME * SLOT_COUNT)

/-- The timer has rounds left, and with those that have passed they are not too many. -/
structure Counted (t : Timer) : Prop where
  round : 0 < t.round.toInt
  le : t.elapseRound.toNat + t.round.toInt ≤ maxRound

section

variable {t t' : Timer} {tick next : Int64}

/-! ### A timer in a visit -/

theorem toInt_elapsed (h : t.elapseRound.toNat ≤ 7158) : t.elapsed.toInt = passed t := by
  unfold Timer.elapsed passed SLOT_CHANGE_TIME SLOT_COUNT
  have he : (Int32.ofNat t.elapseRound.toNat).toInt = t.elapseRound.toNat :=
    Int32.toInt_ofNat_of_lt (by omega)
  have hmul : (Int32.ofNat t.elapseRound.toNat * Int32.ofNat 100).toInt = t.elapseRound.toNat * 100 := by
    rw [Int32.toInt_mul, he, show (Int32.ofNat 100).toInt = 100 by decide]
    exact Int.bmod_eq_of_le (by omega) (by omega)
  rw [Int32.toInt_toInt64, Int32.toInt_mul, hmul, show (Int32.ofNat 3000).toInt = 3000 by decide]
  push_cast
  exact Int.bmod_eq_of_le (by omega) (by omega)

/-- **So many rounds are computed in range.** -/
theorem inRange_of_le (h : t.elapseRound.toNat ≤ 7158) (hpoint : 0 < t.tickPoint) (htick : 0 ≤ tick) :
    InRange t tick := by
  have helapsed := toInt_elapsed h
  have hpassed : passed t = t.elapseRound.toNat * 300000 := by
    unfold passed SLOT_CHANGE_TIME SLOT_COUNT
    push_cast
    ring
  have hpos : 0 < t.tickPoint.toInt := Int64.lt_iff_toInt_lt.mp hpoint
  have hpos' : 0 ≤ tick.toInt := Int64.le_iff_toInt_le.mp htick
  have hlt : t.tickPoint.toInt < 2 ^ 63 := t.tickPoint.toInt_lt
  have hlt' : tick.toInt < 2 ^ 63 := tick.toInt_lt
  have hsub : (tick - t.tickPoint).toInt = tick.toInt - t.tickPoint.toInt := by
    rw [Int64.toInt_sub]
    exact Int.bmod_eq_of_le (by omega) (by omega)
  have hlate : t.isLate tick = true ↔ passed t < tick.toInt - t.tickPoint.toInt ∧
      SLOT_CHANGE_TIME ≤ (tick.toInt - t.tickPoint.toInt) % wheelTime := by
    unfold Timer.isLate Timer.late
    rw [decide_eq_true_eq]
    refine (and_congr Int64.lt_iff_toInt_lt Int64.le_iff_toInt_le).trans ?_
    rw [helapsed, hsub, Int64.toInt_mod, hsub]
    refine and_congr_right fun hlt => ?_
    -- the distance is not negative, and the remainders are the same
    rw [Int.tmod_eq_emod_of_nonneg (by omega)]
    rfl
  refine ⟨by omega, by omega, hsub, hlate, fun hh => ?_⟩
  have hdist := (hlate.mp hh).1
  unfold Timer.moved
  dsimp only
  rw [Int64.toInt_add, helapsed]
  exact Int.bmod_eq_of_le (by omega) (by omega)

/-- A timer that is not due has a round less, and another to go. -/
theorem Counted.onTickEx (h : Counted t) (hdue : (t.onTickEx tick).1 = false) :
    (t.onTickEx tick).2 = { t with round := t.round - 1 } ∧
      (t.round - 1).toInt = t.round.toInt - 1 ∧ 1 < t.round.toInt := by
  have hround := h.round
  have hle : t.round.toInt < 2 ^ 31 := t.round.toInt_lt
  have hsub : (t.round - 1).toInt = t.round.toInt - 1 := by
    rw [Int32.toInt_sub]
    exact Int.bmod_eq_of_le (by rw [Int32.toInt_one]; omega) (by rw [Int32.toInt_one]; omega)
  unfold Timer.onTickEx at hdue ⊢
  split_ifs at hdue with hpoint
  rw [if_neg hpoint]
  refine ⟨rfl, hsub, ?_⟩
  have hzero : ¬ (t.round - 1).toInt ≤ 0 := fun hz =>
    of_decide_eq_false hdue (Int32.le_iff_toInt_le.mpr hz)
  omega

/-- **What a visit computes is in range.** -/
theorem Counted.fits (h : Counted t) (htick : 0 ≤ tick) : Fits t tick := by
  have hround := h.round
  have hle := h.le
  unfold maxRound at hle
  constructor
  case round => omega
  case due =>
    intro hdue
    by_contra hno
    obtain ⟨hpoint, hone⟩ := not_or.mp hno
    have hlt : t.round.toInt < 2 ^ 31 := t.round.toInt_lt
    unfold Timer.onTickEx at hdue
    rw [if_neg hpoint] at hdue
    have hzero : (t.round - 1).toInt ≤ 0 := Int32.le_iff_toInt_le.mp (of_decide_eq_true hdue)
    rw [Int32.toInt_sub, Int32.toInt_one, Int.bmod_eq_of_le (by omega) (by omega)] at hzero
    omega
  case late =>
    intro hdue hpoint
    obtain ⟨heq, -, hlast⟩ := h.onTickEx hdue
    rw [heq] at hpoint ⊢
    exact inRange_of_le (by dsimp only; omega) hpoint htick

/-- A timer that is not due counts the round, or starts to count. -/
theorem Counted.visit (h : Counted t) (hdue : (t.onTickEx tick).1 = false)
    (hround : t'.round = (t.onTickEx tick).2.round)
    (helapse : t'.elapseRound = 1 ∨ t'.elapseRound = (t.onTickEx tick).2.elapseRound + 1) :
    Counted t' := by
  obtain ⟨heq, hsub, hlast⟩ := h.onTickEx hdue
  have hle := h.le
  rw [heq] at hround helapse
  dsimp only at hround helapse
  refine ⟨by rw [hround]; omega, ?_⟩
  rw [hround, hsub]
  rcases helapse with hone | hnext
  · have h1 : t'.elapseRound.toNat = 1 := by
      rw [hone]
      rfl
    omega
  · have hadd : t'.elapseRound.toNat ≤ t.elapseRound.toNat + 1 := by
      rw [hnext, UInt16.toNat_add]
      exact Nat.mod_le _ _
    omega

/-! ### A timer that is attached -/

theorem counted_of_ticks {ticks : UInt32} (hround : t.round = (ticks / UInt32.ofNat SLOT_COUNT + 1).toInt32)
    (helapse : t.elapseRound = 0) (hticks : ticks.toNat < maxRound * SLOT_COUNT) : Counted t := by
  have hzero : t.elapseRound.toNat = 0 := by
    rw [helapse]
    rfl
  unfold maxRound SLOT_COUNT at hticks
  constructor
  · rw [hround, toInt_rounds]
    unfold SLOT_COUNT
    omega
  · rw [hround, toInt_rounds, hzero]
    unfold maxRound SLOT_COUNT
    omega

theorem counted_begin (id : UInt32) {start : UInt32} (helapse : t.elapseRound = 0)
    (hstart : start.toNat < maxDistance) : Counted (t.begin id start) := by
  refine @counted_of_ticks _ (start / UInt32.ofNat SLOT_CHANGE_TIME) rfl helapse ?_
  rw [UInt32.toNat_div]
  change start.toNat / 100 < _
  unfold maxDistance maxRound SLOT_CHANGE_TIME SLOT_COUNT at *
  omega

theorem counted_again (hleft : (left t tick next).toInt < maxDistance) : Counted (t.again tick next) := by
  have hagain : (t.again tick next).ticks =
      ((if left t tick next < 0 then 0 else left t tick next) /
        Int64.ofNat SLOT_CHANGE_TIME).toUInt64.toUInt32 := rfl
  refine @counted_of_ticks _ (t.again tick next).ticks rfl rfl ?_
  rw [hagain]
  have hx : ∃ x : Int64, (if left t tick next < 0 then 0 else left t tick next) = x ∧ 0 ≤ x.toInt ∧
      x.toInt < maxDistance := by
    refine ⟨_, rfl, ?_⟩
    split_ifs with hneg
    · exact ⟨by decide, by decide⟩
    · exact ⟨Int.not_lt.mp fun hlt => hneg (Int64.lt_iff_toInt_lt.mpr hlt), hleft⟩
  obtain ⟨x, hx, hpos, hlt⟩ := hx
  have hdiv : (x / Int64.ofNat SLOT_CHANGE_TIME).toInt = x.toInt / 100 := by
    rw [Int64.toInt_div, show (Int64.ofNat SLOT_CHANGE_TIME).toInt = 100 by decide,
      Int.tdiv_eq_ediv_of_nonneg hpos]
    unfold maxDistance maxRound SLOT_CHANGE_TIME SLOT_COUNT at hlt
    exact Int.bmod_eq_of_le (by omega) (by omega)
  rw [hx]
  generalize x / Int64.ofNat SLOT_CHANGE_TIME = y at hdiv
  have hy : 0 ≤ y.toInt := by omega
  rw [UInt64.toNat_toUInt32, Int64.toNat_toUInt64_of_le (Int64.le_iff_toInt_le.mpr hy)]
  change y.toInt.toNat % 2 ^ 32 < _
  unfold maxDistance maxRound SLOT_CHANGE_TIME SLOT_COUNT at *
  omega

end

/-! ### The timers of slots -/

/-- Each timer is in one place, where `sits` says in which slots it is and `out` has those that are taken
out of them. Those of slots count their rounds. -/
structure Held (w : Wheel) (sits : ℕ → ℕ → Prop) (out : List ℕ) (place : ℕ → Option Place) : Prop where
  slot : ∀ c o, sits c o → place o = some (.slot c)
  taken : ∀ o ∈ out, place o = some .out
  nodup : out.Nodup
  known : ∀ o, place o ≠ none → o < w.made ∧ (w.timer o).isRunning = true
  counted : ∀ c o, place o = some (.slot c) → Counted (w.timer o)
  unvisited : ∀ o, (w.timer o).isRunning = false → (w.timer o).elapseRound = 0

theorem held_start : Held {} (fun _ _ => False) [] fun _ => none where
  slot _ _ h := h.elim
  taken o h := absurd h List.not_mem_nil
  nodup := List.nodup_nil
  known o h := absurd rfl h
  counted c o h := by cases h
  unvisited _ _ := rfl

section

variable {w w' : Wheel} {sits sits' : ℕ → ℕ → Prop} {out out' : List ℕ} {place : ℕ → Option Place}
  {o : ℕ}

/-- Fewer timers are held as well, where the timers are the same. -/
theorem Held.mono (h : Held w sits out place) (htimer : w'.timer = w.timer) (hmade : w.made ≤ w'.made)
    (hsits : ∀ c o, sits' c o → sits c o) (hout : ∀ o ∈ out', o ∈ out) (hnodup : out'.Nodup) :
    Held w' sits' out' place where
  slot c o hs := h.slot c o (hsits c o hs)
  taken o ho := h.taken o (hout o ho)
  nodup := hnodup
  known o hp := by
    rw [htimer]
    exact ⟨Nat.lt_of_lt_of_le (h.known o hp).1 hmade, (h.known o hp).2⟩
  counted c o hp := by
    rw [htimer]
    exact h.counted c o hp
  unvisited o := by
    rw [htimer]
    exact h.unvisited o

/-- **The timer `o` changes and goes to the place `p`.** -/
theorem Held.move {p : Option Place} (h : Held w sits out place) (hmade : w.made ≤ w'.made)
    (hother : ∀ o', o' ≠ o → w'.timer o' = w.timer o')
    (hsits : ∀ c o', sits' c o' → (o' ≠ o ∧ sits c o') ∨ (o' = o ∧ p = some (.slot c)))
    (hout : ∀ o' ∈ out', (o' ≠ o ∧ o' ∈ out) ∨ (o' = o ∧ p = some .out)) (hnodup : out'.Nodup)
    (hknown : p ≠ none → o < w'.made ∧ (w'.timer o).isRunning = true)
    (hcounted : ∀ c, p = some (.slot c) → Counted (w'.timer o))
    (hunvisited : (w'.timer o).isRunning = false → (w'.timer o).elapseRound = 0) :
    Held w' sits' out' (Function.update place o p) := by
  have hself : Function.update place o p o = p := Function.update_self ..
  have hne {o' : ℕ} (ho : o' ≠ o) : Function.update place o p o' = place o' :=
    Function.update_of_ne ho ..
  constructor
  case slot =>
    intro c o' hs
    rcases hsits c o' hs with ⟨ho, hold⟩ | ⟨rfl, hp⟩
    · exact (hne ho).trans (h.slot c o' hold)
    · exact hself.trans hp
  case taken =>
    intro o' ho'
    rcases hout o' ho' with ⟨ho, hold⟩ | ⟨rfl, hp⟩
    · exact (hne ho).trans (h.taken o' hold)
    · exact hself.trans hp
  case nodup => exact hnodup
  case known =>
    intro o' hp
    by_cases ho : o' = o
    · subst ho
      exact hknown (hself ▸ hp)
    · rw [hne ho] at hp
      rw [hother o' ho]
      exact ⟨Nat.lt_of_lt_of_le (h.known o' hp).1 hmade, (h.known o' hp).2⟩
  case counted =>
    intro c o' hp
    by_cases ho : o' = o
    · subst ho
      exact hcounted c (hself ▸ hp)
    · rw [hother o' ho]
      exact h.counted c o' (hne ho ▸ hp)
  case unvisited =>
    intro o'
    by_cases ho : o' = o
    · subst ho
      exact hunvisited
    · rw [hother o' ho]
      exact h.unvisited o'

/-- The timer `o` changes, and stays. -/
theorem Held.setTimer {t : Timer} (h : Held w sits out place) (hrun : place o ≠ none → t.isRunning = true)
    (hcounted : ∀ c, place o = some (.slot c) → Counted t)
    (hunvisited : t.isRunning = false → t.elapseRound = 0) : Held (w.setTimer o t) sits out place := by
  have hself := Wheel.setTimer_self w o t
  rw [← Function.update_eq_self o place]
  refine h.move (Nat.le_refl _) (fun o' hne => Wheel.setTimer_of_ne hne t) (fun c o' hs => ?_)
    (fun o' ho' => ?_) h.nodup (fun hp => ?_) (fun c hp => ?_) ?_
  · by_cases ho : o' = o
    · subst ho
      exact Or.inr ⟨rfl, h.slot c o' hs⟩
    · exact Or.inl ⟨ho, hs⟩
  · by_cases ho : o' = o
    · subst ho
      exact Or.inr ⟨rfl, h.taken o' ho'⟩
    · exact Or.inl ⟨ho, ho'⟩
  · rw [hself]
    exact ⟨(h.known o hp).1, hrun hp⟩
  · rw [hself]
    exact hcounted c hp
  · rw [hself]
    exact hunvisited

theorem Held.newTimer (h : Held w sits out place) (type : TimerType) (interval : Int64) (start : UInt32)
    (bePoint : Int64) : Held (w.newTimer type interval start bePoint) sits out place := by
  have hfree : place w.made = none := by
    by_contra hp
    exact Nat.lt_irrefl _ (h.known _ hp).1
  have hset := h.setTimer (o := w.made) (t := { type, interval, start, bePoint })
    (fun hp => absurd hfree hp) (fun c hp => by rw [hfree] at hp; cases hp) fun _ => rfl
  exact hset.mono rfl (Nat.le_succ _) (fun _ _ => id) (fun _ => id) h.nodup

theorem Held.setDelete (h : Held w sits out place) (o : ℕ) : Held (w.setDelete o) sits out place := by
  have hset := h.setTimer (o := o) (t := { w.timer o with delflag := true }) (fun hp => (h.known o hp).2)
    (fun c hp => ⟨(h.counted c o hp).round, (h.counted c o hp).le⟩) (h.unvisited o)
  exact hset.mono rfl (Nat.le_refl _) (fun _ _ => id) (fun _ => id) h.nodup

theorem keyed_setDelete (h : w.Keyed) (o : ℕ) : (w.setDelete o).Keyed := by
  have hset : (w.setTimer o { w.timer o with delflag := true }).Keyed := h.setTimer rfl id
  exact hset.mono (fun hat => hat) rfl rfl

/-- A new timer goes into a slot. -/
theorem Held.attachNew (h : Held w sits out place) (ho : o < w.made)
    (hrun : (w.timer o).isRunning = false) {start : UInt32} (hdel : (w.timer o).delflag = false)
    (hstart : start.toNat < maxDistance)
    (hsits : ∀ c o', sits' c o' → sits c o' ∨
      o' = o ∧ c = w.slotNum ((w.timer o).begin w.nextID start).ticks) :
    Held (w.attachNew o start) sits' out
      (Function.update place o (some (.slot (w.slotNum ((w.timer o).begin w.nextID start).ticks)))) := by
  have hkept := Wheel.kept_attachNew w o start
  have hself : (w.attachNew o start).timer o = (w.timer o).begin w.nextID start := by
    rw [Wheel.attachNew_eq hdel]
    exact Wheel.setTimer_self ..
  have hfree : place o = none := by
    by_contra hp
    exact absurd ((h.known o hp).2.symm.trans hrun) (by decide)
  refine h.move (Nat.le_of_eq hkept.made.symm) hkept.other (fun c o' hs => ?_) (fun o' ho' => ?_) h.nodup
    (fun _ => ?_) (fun c _ => ?_) ?_
  · refine (hsits c o' hs).imp (fun hold => ⟨?_, hold⟩) fun hnew => ⟨hnew.1, by rw [hnew.2]⟩
    rintro rfl
    rw [h.slot c o' hold] at hfree
    cases hfree
  · refine Or.inl ⟨?_, ho'⟩
    rintro rfl
    rw [h.taken o' ho'] at hfree
    cases hfree
  · rw [hself, hkept.made]
    exact ⟨ho, rfl⟩
  · rw [hself]
    exact counted_begin _ (h.unvisited o hrun) hstart
  · rw [hself]
    intro hno
    cases hno

/-- The slots have the timer. -/
def Has (w : Wheel) (c o : ℕ) : Prop := ∃ k, w.At c k o

theorem has_slotAdd {c c' o' : ℕ} (h : Has (w.slotAdd c o) c' o') : Has w c' o' ∨ o' = o ∧ c' = c := by
  obtain ⟨k, hat⟩ := h
  rcases Wheel.at_slotAdd.mp hat with hold | ⟨hc, -, ho, -⟩
  · exact Or.inl ⟨k, hold⟩
  · exact Or.inr ⟨ho, hc⟩

theorem has_attachNew {start : UInt32} {c o' : ℕ} (hdel : (w.timer o).delflag = false)
    (h : Has (w.attachNew o start) c o') :
    Has w c o' ∨ o' = o ∧ c = w.slotNum ((w.timer o).begin w.nextID start).ticks := by
  rw [Wheel.attachNew_eq hdel] at h
  have hadd := has_slotAdd h
  exact hadd

/-- A timer is taken out of its slot. -/
theorem Held.take {c : ℕ} {k : UInt32} {t : Timer} (h : Held w (Has w) out place) (hkeyed : w.Keyed)
    (hat : w.At c k o) (hsame : (w.timer o).Same t) (hperm : out'.Perm (o :: out)) :
    Held ((w.setTimer o t).eraseAt c k) (Has ((w.setTimer o t).eraseAt c k)) out'
      (Function.update place o (some .out)) := by
  have hplace : place o = some (.slot c) := h.slot c o ⟨k, hat⟩
  have hnot : o ∉ out := fun hmem => by
    cases (h.taken o hmem).symm.trans hplace
  have hrun : t.isRunning = true := hsame.isRunning.trans (hkeyed.isRunning hat)
  have hself : ((w.setTimer o t).eraseAt c k).timer o = t := Wheel.setTimer_self w o t
  refine h.move (Nat.le_refl _) (fun o' hne => Wheel.setTimer_of_ne hne t) (fun c' o' hs => Or.inl ?_)
    (fun o' ho' => ?_) (hperm.nodup_iff.mpr (List.nodup_cons.mpr ⟨hnot, h.nodup⟩)) (fun _ => ?_)
    (fun c hp => by cases hp) fun hno => ?_
  · obtain ⟨k', hat'⟩ := hs
    obtain ⟨hold, hno⟩ := Wheel.at_eraseAt.mp hat'
    have hold' : w.At c' k' o' := hold
    refine ⟨?_, k', hold'⟩
    rintro rfl
    cases (h.slot c' o' ⟨k', hold'⟩).symm.trans hplace
    exact hno ⟨rfl, (hkeyed.id hold').symm.trans (hkeyed.id hat)⟩
  · rcases List.mem_cons.mp (hperm.mem_iff.mp ho') with rfl | hmem
    · exact Or.inr ⟨rfl, rfl⟩
    · exact Or.inl ⟨ne_of_mem_of_not_mem hmem hnot, hmem⟩
  · rw [hself]
    exact ⟨hkeyed.made hat, hrun⟩
  · rw [hself, hrun] at hno
    cases hno

/-- A timer that has been taken out is put into a slot. -/
theorem Held.put {c : ℕ} {t : Timer} (h : Held w (Has w) out place) (hperm : out.Perm (o :: out'))
    (hsame : (w.timer o).Same t) (hcounted : Counted t) :
    Held ((w.slotAdd c o).setTimer o t) (Has ((w.slotAdd c o).setTimer o t)) out'
      (Function.update place o (some (.slot c))) := by
  obtain ⟨hnot, hnodup⟩ := List.nodup_cons.mp (hperm.nodup_iff.mp h.nodup)
  have hplace : place o = some .out := h.taken o (hperm.mem_iff.mpr List.mem_cons_self)
  have hknown := h.known o (by rw [hplace]; exact Option.some_ne_none _)
  have hrun : t.isRunning = true := hsame.isRunning.trans hknown.2
  have hself : ((w.slotAdd c o).setTimer o t).timer o = t := Wheel.setTimer_self (w.slotAdd c o) o t
  refine h.move (Nat.le_refl _) (fun o' hne => Wheel.setTimer_of_ne hne t) (fun c' o' hs => ?_)
    (fun o' ho' => Or.inl ?_) hnodup (fun _ => ?_) (fun _ _ => ?_) fun hno => ?_
  · have hs' : Has (w.slotAdd c o) c' o' := hs
    refine (has_slotAdd hs').imp (fun hold => ⟨?_, hold⟩) fun hnew => ⟨hnew.1, by rw [hnew.2]⟩
    rintro rfl
    cases (h.slot c' o' hold).symm.trans hplace
  · exact ⟨ne_of_mem_of_not_mem ho' hnot, hperm.mem_iff.mpr (List.mem_cons_of_mem o ho')⟩
  · rw [hself]
    exact ⟨hknown.1, hrun⟩
  · rw [hself]
    exact hcounted
  · rw [hself, hrun] at hno
    cases hno

/-- A timer that has been called goes into a slot again, or is gone. -/
theorem Held.attachAgain (h : Held w (Has w) (o :: out) place) {tick next : Int64}
    (hleft : (w.timer o).delflag = false → (left (w.timer o) tick next).toInt < maxDistance) :
    ∃ place', Held (w.attachAgain o tick next) (Has (w.attachAgain o tick next)) out place' := by
  obtain ⟨hno, hnodup⟩ := List.nodup_cons.mp h.nodup
  cases hdel : (w.timer o).delflag with
  | true =>
    rw [Wheel.attachAgain_of_deleted hdel]
    exact ⟨place, h.mono rfl (Nat.le_refl _) (fun _ _ => id) (fun _ => List.mem_cons_of_mem o) hnodup⟩
  | false =>
    have hout : place o = some .out := h.taken o List.mem_cons_self
    have hknown := h.known o (by rw [hout]; exact Option.some_ne_none _)
    have hkept := Wheel.kept_attachAgain w o tick next
    have hself : (w.attachAgain o tick next).timer o = (w.timer o).again tick next := by
      rw [Wheel.attachAgain_eq hdel]
      exact Wheel.setTimer_self ..
    refine ⟨_, h.move (p := some (.slot (w.slotNum ((w.timer o).again tick next).ticks)))
      (Nat.le_of_eq hkept.made.symm) hkept.other (fun c o' hs => ?_) (fun o' ho' => ?_) hnodup (fun _ => ?_)
      (fun c _ => ?_) ?_⟩
    · rw [Wheel.attachAgain_eq hdel] at hs
      refine (has_slotAdd hs).imp (fun hold => ⟨?_, hold⟩) fun hnew => ⟨hnew.1, by rw [hnew.2]⟩
      rintro rfl
      rw [h.slot c o' hold] at hout
      cases hout
    · refine Or.inl ⟨?_, List.mem_cons_of_mem o ho'⟩
      rintro rfl
      exact hno ho'
    · rw [hself, hkept.made]
      exact ⟨hknown.1, rfl⟩
    · rw [hself]
      exact counted_again (hleft hdel)
    · rw [hself]
      intro hrun
      cases hrun

end

end ChatShow.CommBase.RoundCount
