import ChatShow.CommBase.TimerMgr

/-! # Timers that are deleted

`Slot::OnTick` looks at `IsDelete` when it takes the timers of the slot, and not when their turn comes:
a timer that is deleted in between, by a callback of the same batch, is called if it is due. It is the
only way to a callback of a deleted timer (`cancelled_run`). -/

namespace ChatShow.CommBase.TimerCancel

open ChatShow.CommBase.TimerWheel ChatShow.CommBase.TimerMgr ChatShow.Lib.Maps ChatShow.Lib.Runs

/-- No callback comes after `SetDelete`. -/
def Cancelled (events : List Event) : Prop :=
  events.Pairwise fun a b => ∀ o, a = .setDelete o → b ≠ .onTimeout o

/-- The timer is to be called when its turn comes. -/
def Due (s : TimerManager) (b : Batch) (o : ℕ) : Prop := ((s.wheel.timer o).onTickEx b.tick).1 = true

/-- A timer that is deleted is not due in the rest of the batch. -/
def Ok (s : TimerManager) : Label → Prop
  | .setDelete o => ∀ b ∈ s.batch, o ∈ b.rest → ¬ Due s b o
  | _ => True

instance (s : TimerManager) (b : Batch) (o : ℕ) : Decidable (Due s b o) :=
  inferInstanceAs (Decidable (_ = true))

instance (s : TimerManager) : ∀ a, Decidable (Ok s a)
  | .setDelete o => inferInstanceAs (Decidable (∀ b ∈ s.batch, o ∈ b.rest → ¬ Due s b o))
  | .newTimer .. | .addTimer _ | .onTick _ | .turn | .returned | .endTick _ => .isTrue trivial

/-! ### The invariant -/

/-- What holds of a batch. -/
structure InBatch (w : Wheel) (b : Batch) : Prop where
  nodup : b.rest.Nodup
  rest : ∀ o ∈ b.rest, o < w.made ∧ (w.timer o).isRunning = true
  due : ∀ o ∈ b.rest, ((w.timer o).onTickEx b.tick).1 = true → (w.timer o).delflag = false
  calling : ∀ o, b.calling = some o → o < w.made ∧ o ∉ b.rest
  loop : ∀ o ∈ b.timeoutLoop, o < w.made

structure Good (s : TimerManager) : Prop where
  keyed : s.wheel.Keyed
  deleted : ∀ o, .setDelete o ∈ s.wheel.events → (s.wheel.timer o).delflag = true ∧ o < s.wheel.made
  cancelled : Cancelled s.wheel.events
  batch : ∀ b, s.batch = some b → InBatch s.wheel b

theorem good_start : Good {} where
  keyed := Wheel.keyed_start
  deleted o ho := by cases ho
  cancelled := List.Pairwise.nil
  batch b hb := by cases hb

theorem Cancelled.setDelete {events : List Event} (h : Cancelled events) (o : ℕ) :
    Cancelled (events ++ [.setDelete o]) := by
  refine List.pairwise_append.mpr ⟨h, List.pairwise_singleton _ _, fun a _ b hb o' _ => ?_⟩
  rw [List.mem_singleton.mp hb]
  exact fun heq => by cases heq

theorem Cancelled.onTimeout {events : List Event} (h : Cancelled events) {o : ℕ}
    (ho : .setDelete o ∉ events) : Cancelled (events ++ [.onTimeout o]) := by
  refine List.pairwise_append.mpr ⟨h, List.pairwise_singleton _ _, fun a ha b hb o' hao hbo => ?_⟩
  rw [List.mem_singleton.mp hb] at hbo
  cases hbo
  exact ho (hao ▸ ha)

/-! ### Steps -/

theorem onTickEx_delflag (t : Timer) (tick : Int64) (d : Bool) :
    ({ t with delflag := d }.onTickEx tick).1 = (t.onTickEx tick).1 := by
  unfold Timer.onTickEx
  split_ifs <;> rfl

section

variable {s : TimerManager} {w w' : Wheel} {b : Batch} {o : ℕ}

theorem InBatch.congr (h : InBatch w b) (hmade : w.made ≤ w'.made)
    (ht : ∀ o ∈ b.rest, w'.timer o = w.timer o) : InBatch w' b where
  nodup := h.nodup
  rest o ho := by
    rw [ht o ho]
    exact ⟨Nat.lt_of_lt_of_le (h.rest o ho).1 hmade, (h.rest o ho).2⟩
  due o ho := by
    rw [ht o ho]
    exact h.due o ho
  calling o ho := ⟨Nat.lt_of_lt_of_le (h.calling o ho).1 hmade, (h.calling o ho).2⟩
  loop o ho := Nat.lt_of_lt_of_le (h.loop o ho) hmade

/-- A wheel that differs in one timer only. -/
theorem Good.kept (h : Good s) (hkeyed : w.Keyed) (hkept : Wheel.Kept o s.wheel w)
    (hbatch : ∀ b, s.batch = some b → InBatch w b) : Good { s with wheel := w } where
  keyed := hkeyed
  deleted o' ho' := by
    change .setDelete o' ∈ w.events at ho'
    rw [hkept.events] at ho'
    obtain ⟨hdel, hlt⟩ := h.deleted o' ho'
    refine ⟨?_, hkept.made ▸ hlt⟩
    by_cases heq : o' = o
    · subst heq
      exact hkept.delflag.trans hdel
    · exact (congrArg Timer.delflag (hkept.other o' heq)).trans hdel
  cancelled := by
    change Cancelled w.events
    rw [hkept.events]
    exact h.cancelled
  batch := hbatch

theorem good_newTimer (h : Good s) (type : TimerType) (interval : Int64) (start : UInt32)
    (bePoint : Int64) : Good { s with wheel := s.wheel.newTimer type interval start bePoint } := by
  have hold {o : ℕ} (ho : o < s.wheel.made) :
      (s.wheel.newTimer type interval start bePoint).timer o = s.wheel.timer o :=
    Wheel.setTimer_of_ne (Nat.ne_of_lt ho) _
  exact
    { keyed := h.keyed.newTimer type interval start bePoint
      deleted := fun o ho => by
        obtain ⟨hdel, hlt⟩ := h.deleted o ho
        exact ⟨(congrArg Timer.delflag (hold hlt)).trans hdel, Nat.lt_succ_of_lt hlt⟩
      cancelled := h.cancelled
      batch := fun b hb => (h.batch b hb).congr (Nat.le_succ _)
        fun o ho => hold ((h.batch b hb).rest o ho).1 }

theorem good_attachNew (h : Good s) (ho : o < s.wheel.made)
    (hrun : ¬ (s.wheel.timer o).isRunning = true) (start : UInt32) :
    Good { s with wheel := s.wheel.attachNew o start } := by
  have hkept := Wheel.kept_attachNew s.wheel o start
  refine h.kept (h.keyed.attachNew ho (Bool.eq_false_iff.mpr hrun) _) hkept fun b hb => ?_
  refine (h.batch b hb).congr (Nat.le_of_eq hkept.made.symm) fun o' ho' => hkept.other o' ?_
  rintro rfl
  exact hrun ((h.batch b hb).rest o' ho').2

theorem good_addTimer (h : Good s) (ho : o < s.wheel.made)
    (hrun : ¬ (s.wheel.timer o).isRunning = true) :
    Good { s with wheel := TimerManager.addTimer s.wheel o } := by
  unfold TimerManager.addTimer
  split_ifs
  · exact h
  · exact good_attachNew h ho hrun _

theorem good_setDelete (h : Good s) (ho : o < s.wheel.made) (hok : Ok s (.setDelete o)) :
    Good { s with wheel := s.wheel.setDelete o } := by
  have hself : (s.wheel.setDelete o).timer o = { s.wheel.timer o with delflag := true } :=
    Wheel.setTimer_self ..
  have hother {o' : ℕ} (hne : o' ≠ o) : (s.wheel.setDelete o).timer o' = s.wheel.timer o' :=
    Wheel.setTimer_of_ne hne _
  constructor
  case keyed =>
    have hset : (s.wheel.setTimer o { s.wheel.timer o with delflag := true }).Keyed :=
      h.keyed.setTimer rfl id
    exact hset.mono (fun hat => hat) rfl rfl
  case deleted =>
    intro o' ho'
    by_cases heq : o' = o
    · subst heq
      exact ⟨congrArg Timer.delflag hself, ho⟩
    · have hmem : Event.setDelete o' ∈ s.wheel.events := by
        refine (List.mem_append.mp ho').resolve_right fun hm => heq ?_
        cases List.mem_singleton.mp hm
        rfl
      obtain ⟨hdel, hlt⟩ := h.deleted o' hmem
      exact ⟨(congrArg Timer.delflag (hother heq)).trans hdel, hlt⟩
  case cancelled => exact h.cancelled.setDelete o
  case batch =>
    intro b hb
    have hin := h.batch b hb
    constructor
    case nodup => exact hin.nodup
    case rest =>
      intro o' ho'
      refine ⟨(hin.rest o' ho').1, ?_⟩
      by_cases heq : o' = o
      · subst heq
        exact (congrArg Timer.isRunning hself).trans (hin.rest o' ho').2
      · exact (congrArg Timer.isRunning (hother heq)).trans (hin.rest o' ho').2
    case due =>
      intro o' ho' hdue
      by_cases heq : o' = o
      · subst heq
        change (((s.wheel.setDelete o').timer o').onTickEx b.tick).1 = true at hdue
        rw [hself, onTickEx_delflag] at hdue
        exact absurd hdue (hok b hb ho')
      · change ((s.wheel.setDelete o).timer o').delflag = false
        change (((s.wheel.setDelete o).timer o').onTickEx b.tick).1 = true at hdue
        rw [hother heq] at hdue ⊢
        exact hin.due o' ho' hdue
    case calling => exact hin.calling
    case loop => exact hin.loop

theorem Good.setBatch (h : Good s) {batch : Option Batch}
    (hbatch : ∀ b, batch = some b → InBatch s.wheel b) : Good { s with batch := batch } where
  keyed := h.keyed
  deleted := h.deleted
  cancelled := h.cancelled
  batch := hbatch

/-- A batch has timers that are not deleted. -/
theorem good_onTick (h : Good s) (tick : Int64) : Good (s.onTick tick) := by
  have hadv : s.wheel.advance.2.Keyed := h.keyed.mono (fun hat => hat) rfl rfl
  constructor
  case keyed => exact hadv.mono (fun hat => (TimerManager.at_collect.mp hat).1) rfl rfl
  case deleted => exact h.deleted
  case cancelled => exact h.cancelled
  case batch =>
    intro b hb
    cases hb
    constructor
    case nodup => exact hadv.nodup_timersOf _ _
    case rest =>
      intro o ho
      obtain ⟨⟨k, hat⟩, -⟩ := TimerManager.mem_collect.mp ho
      exact ⟨hadv.made hat, hadv.isRunning hat⟩
    case due => exact fun o ho _ => (TimerManager.mem_collect.mp ho).2
    case calling => exact fun o ho => by cases ho
    case loop => exact fun o ho => by cases ho

/-- The batch after the turn of its first timer. -/
theorem InBatch.turned {b' : Batch} {rest : List ℕ} {t : Timer} (h : InBatch w b)
    (hrest : b.rest = o :: rest) (hrest' : b'.rest = rest) (htick : b'.tick = b.tick)
    (hloop : b'.timeoutLoop = b.timeoutLoop) (hcalling : ∀ o', b'.calling = some o' → o' = o)
    (hmade : w'.made = w.made) (ht : w'.timer = Function.update w.timer o t) : InBatch w' b' := by
  have hmem (o' : ℕ) (ho' : o' ∈ b'.rest) : o' ∈ b.rest := by
    rw [hrest, ← hrest']
    exact List.mem_cons_of_mem o ho'
  have hnodup := h.nodup
  rw [hrest, ← hrest', List.nodup_cons] at hnodup
  have hold (o' : ℕ) (ho' : o' ∈ b'.rest) : w'.timer o' = w.timer o' := by
    have hne : o' ≠ o := by
      rintro rfl
      exact hnodup.1 ho'
    rw [ht]
    exact Function.update_of_ne hne ..
  constructor
  case nodup => exact hnodup.2
  case rest =>
    intro o' ho'
    rw [hmade, hold o' ho']
    exact h.rest o' (hmem o' ho')
  case due =>
    intro o' ho'
    rw [htick, hold o' ho']
    exact h.due o' (hmem o' ho')
  case calling =>
    intro o' ho'
    rw [hcalling o' ho', hmade]
    exact ⟨(h.rest o (hrest ▸ List.mem_cons_self)).1, hnodup.1⟩
  case loop =>
    rw [hmade, hloop]
    exact h.loop

theorem good_turn {rest : List ℕ} (h : Good s) (hb : s.batch = some b) (hcalling : b.calling = none)
    (hrest : b.rest = o :: rest) : Good (TimerManager.turn s.wheel b o rest) := by
  have hin := h.batch b hb
  have hmem : o ∈ b.rest := hrest ▸ List.mem_cons_self
  have hset {t : Timer} (ht : Timer.Same (s.wheel.timer o) t) :
      Good { wheel := s.wheel.setTimer o t, batch := none } :=
    (h.setBatch fun _ hb => by cases hb).kept
      (h.keyed.setTimer ht.id fun hrun => ht.isRunning.trans hrun) (Wheel.kept_setTimer ht.delflag)
      fun _ hb => by cases hb
  have hturned := TimerManager.turned s.wheel b o rest
  generalize TimerManager.turn s.wheel b o rest = s' at hturned
  rcases hturned with ⟨ht, hdue⟩ | ⟨ht⟩ | @⟨t, slot, ht, -, -⟩
  case called =>
    have hno : Event.setDelete o ∉ s.wheel.events := fun hdel => by
      have hfalse := (h.deleted o hdel).1
      rw [hin.due o hmem hdue] at hfalse
      cases hfalse
    have hgood := hset ht
    constructor
    case keyed => exact hgood.keyed.mono (fun hat => hat) rfl rfl
    case deleted =>
      intro o' ho'
      refine hgood.deleted o' ((List.mem_append.mp ho').resolve_right fun hm => ?_)
      cases List.mem_singleton.mp hm
    case cancelled => exact h.cancelled.onTimeout hno
    case batch =>
      intro b' hb'
      cases hb'
      exact hin.turned hrest rfl rfl rfl (fun o' ho' => (Option.some.inj ho').symm) rfl rfl
  case stays =>
    refine (hset ht).setBatch fun b' hb' => ?_
    cases hb'
    refine hin.turned hrest rfl rfl rfl (fun o' ho' => ?_) rfl rfl
    rw [hcalling] at ho'
    cases ho'
  case moved =>
    have hgood := hset ht
    have hrun := congrArg Timer.isRunning (Wheel.setTimer_self s.wheel o t)
    exact
      { keyed := hgood.keyed.slotAdd (hin.rest o hmem).1
          (hrun.trans (ht.isRunning.trans (hin.rest o hmem).2))
        deleted := hgood.deleted
        cancelled := h.cancelled
        batch := fun b' hb' => by
          cases hb'
          refine hin.turned hrest rfl rfl rfl (fun o' ho' => ?_) rfl rfl
          rw [hcalling] at ho'
          cases ho' }

theorem good_returned (h : Good s) (hb : s.batch = some b) (hcalling : b.calling = some o) :
    Good (TimerManager.returned s.wheel b o) := by
  have hin := h.batch b hb
  obtain ⟨ho, hnot⟩ := hin.calling o hcalling
  unfold TimerManager.returned
  dsimp only
  split_ifs
  · refine h.setBatch fun b' hb' => ?_
    cases hb'
    refine ⟨hin.nodup, hin.rest, hin.due, fun o' ho' => (by cases ho'), fun o' ho' => ?_⟩
    rcases List.mem_append.mp ho' with ho' | ho'
    · exact hin.loop o' ho'
    · rwa [List.mem_singleton.mp ho']
  · have hok : Ok s (.setDelete o) := fun b' hb' hmem => by
      rw [hb] at hb'
      cases hb'
      exact absurd hmem hnot
    have hgood := good_setDelete h ho hok
    refine hgood.setBatch fun b' hb' => ?_
    cases hb'
    have hin' := hgood.batch b hb
    exact ⟨hin'.nodup, hin'.rest, hin'.due, fun o' ho' => (by cases ho'), hin'.loop⟩

theorem good_attachAgain {os : List ℕ} (h : Good { wheel := w }) (hos : ∀ o ∈ os, o < w.made)
    (tick : Int64) (next : ℕ → Int64) :
    Good { wheel := os.foldl (fun w o => w.attachAgain o tick (next o)) w } := by
  induction os generalizing w with
  | nil => exact h
  | cons o os ih =>
    have hkept := Wheel.kept_attachAgain w o tick (next o)
    refine ih (w := w.attachAgain o tick (next o)) ?_ fun o' ho' => ?_
    · exact h.kept (h.keyed.attachAgain (hos o List.mem_cons_self) tick (next o)) hkept
        fun b hb => by cases hb
    · rw [hkept.made]
      exact hos o' (List.mem_cons_of_mem o ho')

theorem good_endTick (h : Good s) (hb : s.batch = some b) (next : ℕ → Int64) :
    Good (TimerManager.endTick s.wheel b next) := by
  refine good_attachAgain (w := s.wheel.slotErase b.slot b.timeoutAll) ?_ (h.batch b hb).loop b.tick next
  exact
    { keyed := h.keyed.mono (fun hat => (Wheel.at_slotErase.mp hat).1) rfl rfl
      deleted := h.deleted
      cancelled := h.cancelled
      batch := fun b hb => by cases hb }

end

theorem good_step (s : TimerManager) (a : Label) (s' : TimerManager) (h : Good s) (hok : Ok s a)
    (hs : s.step a = some s') : Good s' := by
  cases TimerManager.stepped hs with
  | newTimer type interval start bePoint => exact good_newTimer h type interval start bePoint
  | addTimer ho hrun => exact good_addTimer h ho hrun
  | setDelete ho => exact good_setDelete h ho hok
  | onTick tick hb => exact good_onTick h tick
  | turn hb hcalling hrest => exact good_turn h hb hcalling hrest
  | returned hb hcalling => exact good_returned h hb hcalling
  | endTick next hb hcalling hrest => exact good_endTick h hb next

/-- **No callback of a deleted timer**, in a run in which no timer is deleted that is due in the rest of
the batch. -/
theorem cancelled_run {l : List Label} {s : TimerManager} (hs : run TimerManager.step {} l = some s)
    (hok : Along TimerManager.step Ok {} l) : Cancelled s.wheel.events :=
  (run_inv_along (Q := fun _ => True) (fun s a s' h _ hok hs => good_step s a s' h hok hs) hs
    (fun _ _ => trivial) hok good_start).cancelled

/-- A timer of the batch that is due is called, also where it has been deleted. -/
theorem not_cancelled_turn {s : TimerManager} {b : Batch} {o : ℕ} {rest : List ℕ} (hdue : Due s b o)
    (hdel : .setDelete o ∈ s.wheel.events) :
    ¬ Cancelled (TimerManager.turn s.wheel b o rest).wheel.events := by
  have hevents : (TimerManager.turn s.wheel b o rest).wheel.events =
      s.wheel.events ++ [.onTimeout o] := by
    unfold Due at hdue
    unfold TimerManager.turn
    generalize (s.wheel.timer o).onTickEx b.tick = r at hdue
    obtain ⟨due, t⟩ := r
    cases hdue
    rfl
  rw [hevents]
  exact fun h => (List.pairwise_append.mp h).2.2 _ hdel _ List.mem_cons_self o rfl rfl

/-! ### Two timers of a slot -/

/-- Two timers are attached to one slot, with one deadline. -/
def twoTimers : List Label :=
  [.newTimer .onceTimer 0 50 50, .newTimer .onceTimer 0 50 50, .addTimer 0, .addTimer 1]

/-- The second is deleted before the tick. -/
def deletedBefore : List Label :=
  twoTimers ++ [.setDelete 1, .onTick 50, .turn, .returned, .endTick fun _ => 0]

theorem cancelled_run_two : ∃ s, run TimerManager.step {} deletedBefore = some s ∧
    s.wheel.events = [.setDelete 1, .onTimeout 0, .setDelete 0] ∧ Cancelled s.wheel.events :=
  ⟨_, rfl, by decide +kernel, cancelled_run (l := deletedBefore) rfl (by decide +kernel)⟩

/-- The callback of the first deletes the second, which is called all the same. -/
theorem deleted_called : ∃ s, run TimerManager.step {}
      (twoTimers ++ [.onTick 50, .turn, .setDelete 1, .returned, .turn]) = some s ∧
    s.wheel.events = [.onTimeout 0, .setDelete 1, .setDelete 0, .onTimeout 1] ∧
      ¬ Cancelled s.wheel.events := by
  refine ⟨_, rfl, by decide +kernel, fun h => ?_⟩
  have hsub : [Event.setDelete 1, .onTimeout 1].Sublist
      [.onTimeout 0, .setDelete 1, .setDelete 0, .onTimeout 1] := by decide
  exact (List.pairwise_pair.mp (List.Pairwise.sublist hsub h)) 1 rfl rfl

end ChatShow.CommBase.TimerCancel
