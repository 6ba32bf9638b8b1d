import ChatShow.CommBase.TimerWheel
import Mathlib.Data.List.Perm.Basic

/-! # The places of timers

A timer that has been attached is in a slot of the wheel, or has been taken out of it and is to be put
back; `place` says where, so that it is in one place only. What the managers do is one of a few moves:
a timer is attached, taken out (`Places.take`), put back (`Places.put`, `Places.attachAgain`), or goes
for good (`Places.drop`, `Places.leave`). -/

namespace ChatShow.CommBase.TimerPlaces

open ChatShow.CommBase.TimerWheel ChatShow.Lib.Maps

inductive Place
  | slot (c : ℕ)
  | out
deriving DecidableEq

/-- How often the timer has been called. -/
def calls (w : Wheel) (o : ℕ) : ℕ := w.events.count (.onTimeout o)

/-- The timer is for one call, and has been called. -/
def Finished (w : Wheel) (o : ℕ) : Prop := (w.timer o).type = .onceTimer ∧ 0 < calls w o

instance (w : Wheel) (o : ℕ) : Decidable (Finished w o) := inferInstanceAs (Decidable (_ ∧ _))

/-- Timers are where `place` says, in the slots or in the list `out`. A timer that is finished has no
place any more, or is in the list `called`. -/
structure Places (w : Wheel) (out called : List ℕ) (place : ℕ → Option Place) : Prop where
  at_iff : ∀ c k o, w.At c k o ↔ place o = some (.slot c) ∧ (w.timer o).id = k
  out_iff : ∀ o, o ∈ out ↔ place o = some .out
  nodup : out.Nodup
  lt : ∀ c o, place o = some (.slot c) → c < SLOT_COUNT
  known : ∀ o, place o ≠ none → o < w.made ∧ (w.timer o).isRunning = true
  id_inj : ∀ o o', place o ≠ none → place o' ≠ none → (w.timer o).id = (w.timer o').id → o = o'
  placed : ∀ o, (w.timer o).isRunning = true → (w.timer o).delflag = false → ¬ Finished w o →
    place o ≠ none
  calls_le : ∀ o, (w.timer o).type = .onceTimer → calls w o ≤ 1
  gone : ∀ o, Finished w o → place o = none ∨ o ∈ called
  ran : ∀ o, 0 < calls w o → o < w.made ∧ (w.timer o).isRunning = true
  done : ∀ o ∈ called, o < w.made ∧
    ((w.timer o).type = .onceTimer → (w.timer o).delflag = true ∨ 0 < calls w o)

theorem places_start : Places {} [] [] fun _ => none where
  at_iff c k o := iff_of_false (fun h => by cases h) (fun h => by cases h.1)
  out_iff o := iff_of_false List.not_mem_nil (fun h => by cases h)
  nodup := List.nodup_nil
  lt c o h := by cases h
  known o h := absurd rfl h
  id_inj o _ h := absurd rfl h
  placed o h := by cases h
  calls_le o _ := Nat.zero_le 1
  gone o h := absurd h.2 (Nat.lt_irrefl 0)
  ran o h := absurd h (Nat.lt_irrefl 0)
  done o h := absurd h List.not_mem_nil

/-- A wheel that differs in one timer and the slots, with the same calls. -/
structure Change (o : ℕ) (w w' : Wheel) : Prop where
  made : w.made ≤ w'.made
  calls : ∀ o', calls w' o' = calls w o'
  other : ∀ o', o' ≠ o → w'.timer o' = w.timer o'
  type : o < w.made → (w'.timer o).type = (w.timer o).type
  isRunning : o < w.made → (w.timer o).isRunning = true → (w'.timer o).isRunning = true
  delflag : o < w.made → (w.timer o).delflag = true → (w'.timer o).delflag = true

section

variable {w w' : Wheel} {out out' called called' : List ℕ} {place : ℕ → Option Place}
  {c o : ℕ} {k : UInt32}

theorem Change.type_eq (h : Change o w w') {o' : ℕ} (ho' : o' < w.made) :
    (w'.timer o').type = (w.timer o').type := by
  by_cases heq : o' = o
  · subst heq
    exact h.type ho'
  · rw [h.other o' heq]

theorem Change.finished (h : Change o w w') (hp : Places w out called place) {o' : ℕ} :
    Finished w' o' ↔ Finished w o' := by
  unfold Finished
  rw [h.calls o']
  exact and_congr_left fun hcalls => by rw [h.type_eq (hp.ran o' hcalls).1]

theorem Change.calls_le (h : Change o w w') (hp : Places w out called place) (o' : ℕ)
    (ho' : (w'.timer o').type = .onceTimer) : TimerPlaces.calls w' o' ≤ 1 := by
  rw [h.calls o']
  rcases Nat.eq_zero_or_pos (TimerPlaces.calls w o') with hzero | hpos
  · omega
  · exact hp.calls_le o' (h.type_eq (hp.ran o' hpos).1 ▸ ho')

theorem Change.ran (h : Change o w w') (hp : Places w out called place) (o' : ℕ)
    (ho' : 0 < TimerPlaces.calls w' o') : o' < w'.made ∧ (w'.timer o').isRunning = true := by
  rw [h.calls o'] at ho'
  obtain ⟨hlt, hrun⟩ := hp.ran o' ho'
  refine ⟨Nat.lt_of_lt_of_le hlt h.made, ?_⟩
  by_cases heq : o' = o
  · subst heq
    exact h.isRunning hlt hrun
  · rwa [h.other o' heq]

theorem Change.done (h : Change o w w') (hp : Places w out called place) {o' : ℕ} (ho' : o' ∈ called) :
    o' < w'.made ∧
      ((w'.timer o').type = .onceTimer → (w'.timer o').delflag = true ∨ 0 < TimerPlaces.calls w' o') := by
  obtain ⟨hlt, hdone⟩ := hp.done o' ho'
  refine ⟨Nat.lt_of_lt_of_le hlt h.made, fun htype => ?_⟩
  rw [h.type_eq hlt] at htype
  rw [h.calls o']
  refine (hdone htype).imp_left fun hdel => ?_
  by_cases heq : o' = o
  · subst heq
    exact h.delflag hlt hdel
  · rwa [h.other o' heq]

/-- **The timer `o` goes from its place to the place `p`.** -/
theorem Places.move {p : Option Place} (h : Places w out called place) (hch : Change o w w')
    (hat : ∀ c k o', w'.At c k o' ↔
      (o' ≠ o ∧ w.At c k o') ∨ (o' = o ∧ p = some (.slot c) ∧ (w'.timer o).id = k))
    (hout : ∀ o', o' ∈ out' ↔ (o' ≠ o ∧ o' ∈ out) ∨ (o' = o ∧ p = some .out)) (hnodup : out'.Nodup)
    (hlt : ∀ c, p = some (.slot c) → c < SLOT_COUNT)
    (hknown : p ≠ none → o < w'.made ∧ (w'.timer o).isRunning = true)
    (hid : p ≠ none → ∀ o', o' ≠ o → place o' ≠ none → (w.timer o').id ≠ (w'.timer o).id)
    (hplaced : (w'.timer o).isRunning = true → (w'.timer o).delflag = false → ¬ Finished w' o → p ≠ none)
    (hsub : ∀ o' ∈ called', o' ∈ called) (hcalled : ∀ o', o' ≠ o → o' ∈ called → o' ∈ called')
    (hgone : Finished w' o → p = none ∨ o ∈ called') :
    Places w' out' called' (Function.update place o p) := by
  have hself : Function.update place o p o = p := Function.update_self ..
  have hne {o' : ℕ} (ho : o' ≠ o) : Function.update place o p o' = place o' := Function.update_of_ne ho ..
  constructor
  case at_iff =>
    intro c k o'
    rw [hat]
    by_cases ho : o' = o
    · subst ho
      rw [hself]
      simp
    · rw [hne ho, hch.other o' ho, ← h.at_iff]
      simp [ho]
  case out_iff =>
    intro o'
    rw [hout]
    by_cases ho : o' = o
    · subst ho
      rw [hself]
      simp
    · rw [hne ho, ← h.out_iff]
      simp [ho]
  case nodup => exact hnodup
  case lt =>
    intro c o' ho'
    by_cases ho : o' = o
    · subst ho
      exact hlt c (hself ▸ ho')
    · exact h.lt c o' (hne ho ▸ ho')
  case known =>
    intro o' ho'
    by_cases ho : o' = o
    · subst ho
      exact hknown (hself ▸ ho')
    · rw [hne ho] at ho'
      rw [hch.other o' ho]
      exact ⟨Nat.lt_of_lt_of_le (h.known o' ho').1 hch.made, (h.known o' ho').2⟩
  case id_inj =>
    intro o₁ o₂ h₁ h₂ heq
    by_cases ho₁ : o₁ = o
    · subst ho₁
      by_contra hno
      rw [hne (Ne.symm hno)] at h₂
      rw [hch.other o₂ (Ne.symm hno)] at heq
      exact hid (hself ▸ h₁) o₂ (Ne.symm hno) h₂ heq.symm
    · rw [hne ho₁] at h₁
      rw [hch.other o₁ ho₁] at heq
      by_cases ho₂ : o₂ = o
      · subst ho₂
        exact absurd heq (hid (hself ▸ h₂) o₁ ho₁ h₁)
      · rw [hne ho₂] at h₂
        rw [hch.other o₂ ho₂] at heq
        exact h.id_inj o₁ o₂ h₁ h₂ heq
  case placed =>
    intro o'
    by_cases ho : o' = o
    · subst ho
      rw [hself]
      exact hplaced
    · rw [hne ho, hch.other o' ho, hch.finished h]
      exact h.placed o'
  case calls_le => exact hch.calls_le h
  case gone =>
    intro o' hfin
    by_cases ho : o' = o
    · subst ho
      rw [hself]
      exact hgone hfin
    · rw [hne ho]
      exact (h.gone o' ((hch.finished h).mp hfin)).imp id (hcalled o' ho)
  case ran => exact hch.ran h
  case done => exact fun o' ho' => hch.done h (hsub o' ho')

/-! ### Timers that stay -/

/-- The timer `o` changes, and stays. -/
theorem Places.same (h : Places w out called place) (hch : Change o w w') (hslots : w'.slots = w.slots)
    (hid : place o ≠ none → (w'.timer o).id = (w.timer o).id ∧ (w'.timer o).isRunning = true)
    (hplaced : (w'.timer o).isRunning = true → (w'.timer o).delflag = false → ¬ Finished w o →
      place o ≠ none) : Places w' out called place := by
  have hat (c : ℕ) (k : UInt32) (o' : ℕ) : w'.At c k o' ↔ w.At c k o' := by
    unfold Wheel.At
    rw [hslots]
  rw [← Function.update_eq_self o place]
  refine h.move hch (fun c k o' => ?_) (fun o' => ?_) h.nodup (fun c => h.lt c o) (fun hp => ?_)
    (fun hp o' hne ho' => ?_) (fun hrun hdel hfin => ?_) (fun _ => id) (fun _ _ => id)
    (fun hfin => ?_)
  · rw [hat]
    by_cases ho : o' = o
    · subst ho
      rw [h.at_iff]
      have hiff (hp : place o' = some (.slot c)) : (w'.timer o').id = (w.timer o').id :=
        (hid (by rw [hp]; exact Option.some_ne_none _)).1
      constructor
      · rintro ⟨hp, rfl⟩
        exact Or.inr ⟨rfl, hp, hiff hp⟩
      · rintro (⟨hne, -⟩ | ⟨-, hp, rfl⟩)
        · exact absurd rfl hne
        · exact ⟨hp, (hiff hp).symm⟩
    · simp [ho]
  · by_cases ho : o' = o
    · subst ho
      simp [h.out_iff]
    · simp [ho]
  · exact ⟨Nat.lt_of_lt_of_le (h.known o hp).1 hch.made, (hid hp).2⟩
  · rw [(hid hp).1]
    exact fun heq => hne (h.id_inj o' o ho' hp heq)
  · exact hplaced hrun hdel fun hf => hfin ((hch.finished h).mpr hf)
  · exact h.gone o ((hch.finished h).mp hfin)

theorem change_setTimer {t : Timer} (ht : t.type = (w.timer o).type)
    (hrun : t.isRunning = (w.timer o).isRunning)
    (hdel : (w.timer o).delflag = true → t.delflag = true) : Change o w (w.setTimer o t) where
  made := Nat.le_refl _
  calls _ := rfl
  other _ hne := Wheel.setTimer_of_ne hne t
  type _ := (congrArg Timer.type (Wheel.setTimer_self w o t)).trans ht
  isRunning _ hr := (congrArg Timer.isRunning (Wheel.setTimer_self w o t)).trans (hrun.trans hr)
  delflag _ hd := (congrArg Timer.delflag (Wheel.setTimer_self w o t)).trans (hdel hd)

theorem Places.setTimer {t : Timer} (h : Places w out called place) (hid : t.id = (w.timer o).id)
    (hrun : t.isRunning = (w.timer o).isRunning) (htype : t.type = (w.timer o).type)
    (hdel : t.delflag = (w.timer o).delflag) : Places (w.setTimer o t) out called place := by
  have hself := Wheel.setTimer_self w o t
  refine h.same (change_setTimer htype hrun hdel.trans) rfl (fun hp => ?_) fun hrun' hdel' => ?_
  · rw [hself]
    exact ⟨hid, hrun.trans (h.known o hp).2⟩
  · rw [hself] at hrun' hdel'
    exact h.placed o (hrun ▸ hrun') (hdel ▸ hdel')

theorem calls_append (w : Wheel) (e : Event) (o : ℕ) :
    calls { w with events := w.events ++ [e] } o = calls w o + [e].count (.onTimeout o) := by
  unfold calls
  exact List.count_append

theorem Places.setDelete (h : Places w out called place) (o : ℕ) :
    Places (w.setDelete o) out called place := by
  have hself : (w.setDelete o).timer o = { w.timer o with delflag := true } := Wheel.setTimer_self ..
  have hch : Change o w (w.setDelete o) :=
    { made := Nat.le_refl _
      calls := fun o' => (calls_append (w.setTimer o _) (.setDelete o) o').trans (by simp [calls, Wheel.setTimer])
      other := fun o' hne => Wheel.setTimer_of_ne hne _
      type := fun _ => by rw [hself]
      isRunning := fun _ hr => by rw [hself]; exact hr
      delflag := fun _ _ => by rw [hself] }
  refine h.same hch rfl (fun hp => ?_) fun _ hdel => ?_
  · rw [hself]
    exact ⟨rfl, (h.known o hp).2⟩
  · rw [hself] at hdel
    cases hdel

theorem Places.newTimer (h : Places w out called place) (type : TimerType) (interval : Int64)
    (start : UInt32) (bePoint : Int64) :
    Places (w.newTimer type interval start bePoint) out called place := by
  have hfree : place w.made = none := by
    by_contra hp
    exact Nat.lt_irrefl _ (h.known _ hp).1
  have hself : (w.newTimer type interval start bePoint).timer w.made =
      { type, interval, start, bePoint } := Wheel.setTimer_self ..
  have hch : Change w.made w (w.newTimer type interval start bePoint) :=
    { made := Nat.le_succ _
      calls := fun _ => rfl
      other := fun o' hne => Wheel.setTimer_of_ne hne _
      type := fun hlt => absurd hlt (Nat.lt_irrefl _)
      isRunning := fun hlt => absurd hlt (Nat.lt_irrefl _)
      delflag := fun hlt => absurd hlt (Nat.lt_irrefl _) }
  refine h.same hch rfl (fun hp => absurd hfree hp) fun hrun => ?_
  rw [hself] at hrun
  cases hrun

/-- A timer is called, for the first time if it is for one call. -/
theorem Places.onTimeout (h : Places w out called place)
    (ho : o < w.made ∧ (w.timer o).isRunning = true)
    (hfirst : (w.timer o).type = .onceTimer → calls w o = 0) :
    Places (w.onTimeout o) out (called ++ [o]) place := by
  have hself : calls (w.onTimeout o) o = calls w o + 1 := by
    refine (calls_append w (.onTimeout o) o).trans ?_
    rw [List.count_singleton_self]
  have hother {o' : ℕ} (hne : o' ≠ o) : calls (w.onTimeout o) o' = calls w o' := by
    refine (calls_append w (.onTimeout o) o').trans ?_
    rw [List.count_eq_zero_of_not_mem, Nat.add_zero]
    simpa using hne
  constructor
  case at_iff => exact h.at_iff
  case out_iff => exact h.out_iff
  case nodup => exact h.nodup
  case lt => exact h.lt
  case known => exact h.known
  case id_inj => exact h.id_inj
  case placed =>
    intro o' hrun hdel hfin
    refine h.placed o' hrun hdel fun hf => hfin ⟨hf.1, ?_⟩
    have hpos := hf.2
    by_cases heq : o' = o
    · subst heq
      omega
    · rwa [hother heq]
  case calls_le =>
    intro o' ho'
    by_cases heq : o' = o
    · subst heq
      exact Nat.le_of_eq (hself.trans (congrArg (· + 1) (hfirst ho')))
    · rw [hother heq]
      exact h.calls_le o' ho'
  case gone =>
    rintro o' ⟨htype, hpos⟩
    by_cases heq : o' = o
    · exact Or.inr (List.mem_append_right _ (List.mem_singleton.mpr heq))
    · rw [hother heq] at hpos
      exact (h.gone o' ⟨htype, hpos⟩).imp_right (List.mem_append_left _)
  case ran =>
    intro o' hpos
    by_cases heq : o' = o
    · exact heq ▸ ho
    · rw [hother heq] at hpos
      exact h.ran o' hpos
  case done =>
    intro o' ho'
    by_cases heq : o' = o
    · subst heq
      exact ⟨ho.1, fun _ => Or.inr (hself ▸ Nat.succ_pos _)⟩
    · rw [hother heq]
      refine h.done o' ((List.mem_append.mp ho').resolve_right fun hm => heq (List.mem_singleton.mp hm))

/-- The list `called` is another. -/
theorem Places.setCalled (h : Places w out called place)
    (hgone : ∀ o, Finished w o → place o ≠ none → o ∈ called → o ∈ called')
    (hdone : ∀ o ∈ called', o ∈ called ∨ o < w.made ∧ (w.timer o).delflag = true) :
    Places w out called' place :=
  { h with
    gone := fun o hfin => or_iff_not_imp_left.mpr fun hp => hgone o hfin hp ((h.gone o hfin).resolve_left hp)
    done := fun o ho => by
      rcases hdone o ho with hmem | ⟨hlt, hdel⟩
      · exact h.done o hmem
      · exact ⟨hlt, fun _ => Or.inl hdel⟩ }

theorem Places.perm (h : Places w out called place) (hout : out'.Perm out) :
    Places w out' called place :=
  { h with
    out_iff := fun o => hout.mem_iff.trans (h.out_iff o)
    nodup := hout.nodup_iff.mpr h.nodup }

/-! ### Timers that move -/

/-- A slot from which the timer has been erased. -/
theorem Places.at_eraseAt (h : Places w out called place) (ho : place o = some (.slot c)) {c' o' : ℕ} :
    (w.eraseAt c (w.timer o).id).At c' k o' ↔ o' ≠ o ∧ w.At c' k o' := by
  rw [Wheel.at_eraseAt, and_comm]
  refine and_congr_left fun hat => not_congr ⟨?_, ?_⟩
  · rintro ⟨rfl, rfl⟩
    obtain ⟨hplace, hid⟩ := (h.at_iff _ _ o').mp hat
    exact h.id_inj o' o (by rw [hplace]; exact Option.some_ne_none _)
      (by rw [ho]; exact Option.some_ne_none _) hid
  · rintro rfl
    obtain ⟨hplace, hid⟩ := (h.at_iff _ _ o').mp hat
    rw [ho] at hplace
    cases hplace
    exact ⟨rfl, hid.symm⟩

/-- The slot has nothing else under the id of a timer that is out of it. -/
theorem Places.free (h : Places w out called place) (ho : place o = some .out) (c : ℕ) :
    (w.slots c)[(w.timer o).id]? = none := by
  by_contra hsome
  obtain ⟨o', hat⟩ := Option.ne_none_iff_exists'.mp hsome
  obtain ⟨hplace, hid⟩ := (h.at_iff c _ o').mp hat
  have heq := h.id_inj o' o (by rw [hplace]; exact Option.some_ne_none _)
    (by rw [ho]; exact Option.some_ne_none _) hid
  rw [heq, ho] at hplace
  cases hplace

theorem change_of_slots (htimer : w'.timer = w.timer) (hmade : w'.made = w.made)
    (hevents : w'.events = w.events) : Change o w w' where
  made := Nat.le_of_eq hmade.symm
  calls o' := by unfold calls; rw [hevents]
  other o' _ := by rw [htimer]
  type _ := by rw [htimer]
  isRunning _ hr := by rw [htimer]; exact hr
  delflag _ hd := by rw [htimer]; exact hd

/-- A timer is taken out of its slot. -/
theorem Places.take (h : Places w out called place) (ho : place o = some (.slot c))
    (hout : out'.Perm (o :: out)) : Places (w.eraseAt c (w.timer o).id) out' called
      (Function.update place o (some .out)) := by
  have hnot : o ∉ out := fun hmem => by
    rw [(h.out_iff o).mp hmem] at ho
    cases ho
  have hp : place o ≠ none := by rw [ho]; exact Option.some_ne_none _
  refine h.move (change_of_slots rfl rfl rfl) (fun c' k o' => ?_) (fun o' => ?_) ?_ (fun _ hc => (by cases hc))
    (fun _ => h.known o hp) (fun _ o' hne ho' heq => hne (h.id_inj o' o ho' hp heq))
    (fun _ _ _ => Option.some_ne_none _) (fun _ => id) (fun _ _ => id) (fun hfin => ?_)
  · rw [h.at_eraseAt ho]
    simp
  · rw [hout.mem_iff, List.mem_cons]
    by_cases heq : o' = o <;> simp [heq]
  · exact hout.nodup_iff.mpr (List.nodup_cons.mpr ⟨hnot, h.nodup⟩)
  · exact Or.inr ((h.gone o hfin).resolve_left hp)

/-- A timer that is deleted goes from its slot. -/
theorem Places.drop (h : Places w out called place) (ho : place o = some (.slot c))
    (hdel : (w.timer o).delflag = true) :
    Places (w.eraseAt c (w.timer o).id) out called (Function.update place o none) := by
  refine h.move (change_of_slots rfl rfl rfl) (fun c' k o' => ?_) (fun o' => ?_) h.nodup
    (fun _ hc => (by cases hc)) (fun hn => absurd rfl hn) (fun hn => absurd rfl hn)
    (fun _ hno => ?_) (fun _ => id) (fun _ _ => id) (fun _ => Or.inl rfl)
  · rw [h.at_eraseAt ho]
    simp
  · by_cases heq : o' = o
    · subst heq
      simp [h.out_iff, ho]
    · simp [heq]
  · rw [Wheel.timer_eraseAt, hdel] at hno
    cases hno

/-- Timers that are deleted go from their slots. -/
theorem Places.filter {q : ℕ → Prop} [DecidablePred q] (h : Places w out called place)
    (hq : ∀ o, q o → (w.timer o).delflag = true ∧ place o ≠ some .out)
    (hat : ∀ c k o, w'.At c k o ↔ w.At c k o ∧ ¬ q o) (htimer : w'.timer = w.timer)
    (hmade : w'.made = w.made) (hevents : w'.events = w.events) :
    Places w' out called fun o => if q o then none else place o := by
  have hch : Change 0 w w' := change_of_slots htimer hmade hevents
  have hkeep {o : ℕ} (ho : (if q o then none else place o) ≠ none) : place o ≠ none := by
    split_ifs at ho
    · exact absurd rfl ho
    · exact ho
  constructor
  case at_iff =>
    intro c k o
    rw [hat, h.at_iff, htimer]
    split_ifs with ho <;> simp [ho]
  case out_iff =>
    intro o
    rw [h.out_iff]
    split_ifs with ho
    · simp [(hq o ho).2]
    · rfl
  case nodup => exact h.nodup
  case lt =>
    intro c o ho
    split_ifs at ho
    exact h.lt c o ho
  case known =>
    intro o ho
    rw [htimer, hmade]
    exact h.known o (hkeep ho)
  case id_inj =>
    intro o o' ho ho'
    rw [htimer]
    exact h.id_inj o o' (hkeep ho) (hkeep ho')
  case placed =>
    intro o hrun hdel hfin
    rw [hch.finished h] at hfin
    rw [htimer] at hrun hdel
    have hno : ¬ q o := fun ho => by
      rw [(hq o ho).1] at hdel
      cases hdel
    rw [if_neg hno]
    exact h.placed o hrun hdel hfin
  case calls_le => exact hch.calls_le h
  case gone =>
    intro o hfin
    rcases h.gone o ((hch.finished h).mp hfin) with hnone | hmem
    · rw [hnone, ite_self]
      exact Or.inl rfl
    · exact Or.inr hmem
  case ran => exact hch.ran h
  case done => exact fun o ho => hch.done h ho

/-- A timer that is out goes for good. -/
theorem Places.leave (h : Places w out called place) (hout : out.Perm (o :: out'))
    (hdone : (w.timer o).delflag = true ∨ Finished w o) (hsub : ∀ o' ∈ called', o' ∈ called)
    (hcalled : ∀ o', o' ≠ o → o' ∈ called → o' ∈ called') :
    Places w out' called' (Function.update place o none) := by
  have ho : place o = some .out := (h.out_iff o).mp (hout.mem_iff.mpr List.mem_cons_self)
  obtain ⟨hnot, hnodup⟩ := List.nodup_cons.mp (hout.nodup_iff.mp h.nodup)
  refine h.move (change_of_slots rfl rfl rfl) (fun c' k o' => ?_) (fun o' => ?_) hnodup
    (fun _ hc => (by cases hc)) (fun hn => absurd rfl hn) (fun hn => absurd rfl hn)
    (fun _ hno hfin => ?_) hsub hcalled (fun _ => Or.inl rfl)
  · by_cases heq : o' = o
    · subst heq
      simp [h.at_iff, ho]
    · simp [heq]
  · rw [hout.mem_iff, List.mem_cons]
    by_cases heq : o' = o
    · subst heq
      simpa using hnot
    · simp [heq]
  · rcases hdone with hdel | hf
    · rw [hdel] at hno
      cases hno
    · exact absurd hf hfin

/-- A timer that is out is put into a slot. -/
theorem Places.put (h : Places w out called place) (hout : out.Perm (o :: out')) (hc : c < SLOT_COUNT)
    (hsub : ∀ o' ∈ called', o' ∈ called) (hcalled : ∀ o', o' ≠ o → o' ∈ called → o' ∈ called')
    (hgone : Finished w o → o ∈ called → o ∈ called') :
    Places (w.slotAdd c o) out' called' (Function.update place o (some (.slot c))) := by
  have ho : place o = some .out := (h.out_iff o).mp (hout.mem_iff.mpr List.mem_cons_self)
  have hp : place o ≠ none := by rw [ho]; exact Option.some_ne_none _
  obtain ⟨hnot, hnodup⟩ := List.nodup_cons.mp (hout.nodup_iff.mp h.nodup)
  refine h.move (change_of_slots rfl rfl rfl) (fun c' k o' => ?_) (fun o' => ?_) hnodup
    (fun c' heq => (by cases heq; exact hc)) (fun _ => h.known o hp)
    (fun _ o' hne ho' heq => hne (h.id_inj o' o ho' hp heq)) (fun _ _ _ => Option.some_ne_none _)
    hsub hcalled (fun hf => Or.inr (hgone hf ((h.gone o hf).resolve_left hp)))
  · rw [Wheel.at_slotAdd, h.free ho, Option.some.injEq, Place.slot.injEq]
    by_cases heq : o' = o
    · subst heq
      simp [h.at_iff, ho, eq_comm]
    · simp [heq]
  · rw [hout.mem_iff, List.mem_cons]
    by_cases heq : o' = o
    · subst heq
      simpa using hnot
    · simp [heq]

/-- A new timer is put into a slot, with an id that no other has. -/
theorem Places.attach (h : Places w out called place) (hch : Change o w w') (ho : place o = none)
    (hmade : o < w'.made) (hrun : (w'.timer o).isRunning = true) (hc : c < SLOT_COUNT)
    (hat : ∀ c' k o', w'.At c' k o' ↔ w.At c' k o' ∨ c' = c ∧ k = (w'.timer o).id ∧ o' = o)
    (hid : ∀ o', place o' ≠ none → (w.timer o').id ≠ (w'.timer o).id) (hfirst : ¬ Finished w o) :
    Places w' out called (Function.update place o (some (.slot c))) := by
  refine h.move hch (fun c' k o' => ?_) (fun o' => ?_) h.nodup (fun c' heq => (by cases heq; exact hc))
    (fun _ => ⟨hmade, hrun⟩) (fun _ o' _ => hid o') (fun _ _ _ => Option.some_ne_none _) (fun _ => id)
    (fun _ _ => id) (fun hf => absurd ((hch.finished h).mp hf) hfirst)
  · rw [hat, Option.some.injEq, Place.slot.injEq]
    by_cases heq : o' = o
    · subst heq
      simp [h.at_iff, ho, eq_comm]
    · simp [heq]
  · by_cases heq : o' = o
    · subst heq
      simp [h.out_iff, ho]
    · simp [heq]

theorem slotNum_lt (w : Wheel) (ticks : UInt32) : w.slotNum ticks < SLOT_COUNT :=
  Nat.mod_lt _ (by decide)

/-- A timer for several calls, which has been called, is attached again. -/
theorem Places.attachAgain (h : Places w out called place) (hout : out.Perm (o :: out'))
    (htype : (w.timer o).type ≠ .onceTimer) (hsub : ∀ o' ∈ called', o' ∈ called)
    (hcalled : ∀ o', o' ≠ o → o' ∈ called → o' ∈ called') (tick next : Int64) : ∃ place', Places (w.attachAgain o tick next) out' called' place' := by
  have ho : place o = some .out := (h.out_iff o).mp (hout.mem_iff.mpr List.mem_cons_self)
  have hrun := (h.known o (by rw [ho]; exact Option.some_ne_none _)).2
  cases hdel : (w.timer o).delflag with
  | true =>
    rw [Wheel.attachAgain_of_deleted hdel]
    exact ⟨_, h.leave hout (Or.inl hdel) hsub hcalled⟩
  | false =>
    rw [Wheel.attachAgain_eq hdel]
    have hset : Places (w.setTimer o ((w.timer o).again tick next)) out called place :=
      h.setTimer rfl hrun.symm rfl rfl
    refine ⟨_, hset.put hout (slotNum_lt w _) hsub hcalled fun hf => absurd ?_ htype⟩
    have htype' := hf.1
    rwa [Wheel.setTimer_self] at htype'

/-- No timer of a slot has the id. -/
def FreshID (w : Wheel) (k : UInt32) : Prop := ∀ c < SLOT_COUNT, (w.slots c)[k]? = none

/-- The slots are looked at one after the other, so that they can be in the kernel. -/
instance (w : Wheel) (k : UInt32) : Decidable (FreshID w k) :=
  decidable_of_iff ((List.range SLOT_COUNT).all fun c => (w.slots c)[k]?.isNone) <| by
    simp only [List.all_eq_true, List.mem_range, Option.isNone_iff_eq_none, FreshID]

/-- The timer is new, and may be attached. -/
theorem Places.unplaced (h : Places w out called place) (hrun : ¬ (w.timer o).isRunning = true) :
    place o = none := by
  by_contra hp
  exact hrun (h.known o hp).2

/-- A new timer is attached, while the timers `os` are still in the slot `c`. -/
theorem Places.attachNew {os : List ℕ} (h : Places (w.slotErase c os) out called place)
    (hc : c < SLOT_COUNT) (hos : ∀ o' ∈ os, w.At c (w.timer o').id o' ∧ (w.timer o').isRunning = true)
    (ho : o < w.made) (hrun : ¬ (w.timer o).isRunning = true) (hfresh : FreshID w w.nextID)
    (hout : ∀ o' ∈ out, (w.timer o').id ≠ w.nextID) (start : UInt32) :
    ∃ place', Places ((w.attachNew o start).slotErase c os) out called place' ∧
      ∀ o', o' ≠ o → place' o' = place o' := by
  cases hdel : (w.timer o).delflag with
  | true =>
    rw [Wheel.attachNew_of_deleted hdel]
    exact ⟨place, h, fun _ _ => rfl⟩
  | false =>
    have hself : (w.setNew o start).timer o = (w.timer o).begin w.nextID start :=
      Wheel.setTimer_self ..
    have hother {o' : ℕ} (hne : o' ≠ o) : (w.setNew o start).timer o' = w.timer o' :=
      Wheel.setTimer_of_ne hne _
    have hnotin {c' o' : ℕ} (hc' : c' < SLOT_COUNT) (hat : w.At c' (w.timer o').id o') :
        (w.timer o').id ≠ w.nextID := fun heq => by
      unfold Wheel.At at hat
      rw [heq, hfresh c' hc'] at hat
      cases hat
    have hids : (os.map fun o' => ((w.setNew o start).timer o').id) = os.map fun o' => (w.timer o').id := by
      refine List.map_congr_left fun o' ho' => ?_
      rw [hother]
      rintro rfl
      exact hrun (hos o' ho').2
    have hnew : ((w.setNew o start).timer o).id = w.nextID := congrArg Timer.id hself
    rw [Wheel.attachNew_eq hdel]
    generalize hd : w.slotNum ((w.timer o).begin w.nextID start).ticks = d
    have hd' : d < SLOT_COUNT := hd ▸ slotNum_lt w _
    refine ⟨Function.update place o (some (.slot d)), ?_, fun o' hne => Function.update_of_ne hne ..⟩
    refine h.attach ?_ (h.unplaced hrun) ho (congrArg Timer.isRunning hself) hd' ?_ ?_ ?_
    · exact
        { made := Nat.le_refl _
          calls := fun _ => rfl
          other := fun o' hne => hother hne
          type := fun _ => (congrArg Timer.type hself).trans rfl
          isRunning := fun _ _ => (congrArg Timer.isRunning hself).trans rfl
          delflag := fun _ hd => (congrArg Timer.delflag hself).trans hd }
    · intro c' k o'
      change _ ↔ (w.slotErase c os).At c' k o' ∨ c' = d ∧ k = ((w.setNew o start).timer o).id ∧ o' = o
      rw [Wheel.at_slotErase, Wheel.at_slotErase, Wheel.at_slotAdd, Wheel.timer_slotAdd, hids, hnew,
        or_and_right]
      refine or_congr Iff.rfl ⟨fun hh => ⟨hh.1.1, hh.1.2.1, hh.1.2.2.1⟩, ?_⟩
      rintro ⟨rfl, rfl, rfl⟩
      refine ⟨⟨rfl, rfl, rfl, hfresh c' hd'⟩, fun hh => ?_⟩
      obtain ⟨o₁, ho₁, hid⟩ := List.mem_map.mp hh.2
      exact hnotin hc (hos o₁ ho₁).1 hid
    · intro o' hp
      change (w.timer o').id ≠ ((w.setNew o start).timer o).id
      rw [hnew]
      obtain ⟨p, hp⟩ := Option.ne_none_iff_exists'.mp hp
      cases p with
      | slot c' => exact hnotin (h.lt c' o' hp) (Wheel.at_slotErase.mp ((h.at_iff c' _ o').mpr ⟨hp, rfl⟩)).1
      | out => exact hout o' ((h.out_iff o').mpr hp)
    · exact fun hf => hrun (h.ran o hf.2).2

theorem Places.attachNew_idle (h : Places w out called place) (ho : o < w.made)
    (hrun : ¬ (w.timer o).isRunning = true) (hfresh : FreshID w w.nextID)
    (hout : ∀ o' ∈ out, (w.timer o').id ≠ w.nextID) (start : UInt32) :
    ∃ place', Places (w.attachNew o start) out called place' := by
  have h' : Places (w.slotErase 0 []) out called place := by rwa [Wheel.slotErase_nil]
  obtain ⟨place', hp, -⟩ := h'.attachNew (by decide) (fun o' ho' => absurd ho' List.not_mem_nil) ho hrun
    hfresh hout start
  rw [Wheel.slotErase_nil] at hp
  exact ⟨place', hp⟩

/-- The timers of slots are under their ids. -/
theorem Places.keyed (h : Places w out called place) : w.Keyed where
  made hat := (h.known _ (by rw [((h.at_iff _ _ _).mp hat).1]; exact Option.some_ne_none _)).1
  id hat := ((h.at_iff _ _ _).mp hat).2
  isRunning hat := (h.known _ (by rw [((h.at_iff _ _ _).mp hat).1]; exact Option.some_ne_none _)).2

end

end ChatShow.CommBase.TimerPlaces
