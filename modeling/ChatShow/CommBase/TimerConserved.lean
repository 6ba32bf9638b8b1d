import ChatShow.CommBase.SingleTimerPlaces
import ChatShow.CommBase.TimerMgrPlaces

/-! # Timers are conserved

In both managers, a timer that has been attached is in one place as long as it is neither deleted nor
finished, and a timer for one call is called once at most: whatever the ticks are, and whatever the
callbacks attach and delete (`conserved_run`). It takes ids that are free: they are counted in a `DWORD`,
from 1 again after 2^32 - 1, and where the id of a new timer is that of another in the slot, the slot
does not take it (`timer_lost`). -/

namespace ChatShow.CommBase.TimerConserved

open ChatShow.CommBase.TimerWheel ChatShow.CommBase.TimerMgr ChatShow.CommBase.TimerPlaces
open ChatShow.CommBase.SingleTimerMgr (SingleTimerManager)
open ChatShow.Lib.Maps ChatShow.Lib.Runs

/-- Where a timer can be: in a slot, under an id, or in the list of those to be called. -/
inductive Spot
  | slot (c : ℕ) (k : UInt32)
  | pending (i : ℕ)

def Has (w : Wheel) (pending : List ℕ) (o : ℕ) : Spot → Prop
  | .slot c k => c < SLOT_COUNT ∧ w.At c k o
  | .pending i => pending[i]? = some o

/-- The timer has been attached, is not deleted, and is to be called yet. -/
def Live (w : Wheel) (o : ℕ) : Prop :=
  (w.timer o).isRunning = true ∧ (w.timer o).delflag = false ∧ ¬ Finished w o

instance (w : Wheel) (o : ℕ) : Decidable (Live w o) := inferInstanceAs (Decidable (_ ∧ _ ∧ ¬ _))

/-- A timer for one call is called once at most. -/
def OnceOnly (w : Wheel) : Prop := ∀ o, (w.timer o).type = .onceTimer → calls w o ≤ 1

theorem existsUnique_has {w : Wheel} {out called : List ℕ} {place : ℕ → Option Place} {o : ℕ}
    (h : Places w out called place) (ho : Live w o) : ∃! x, Has w out o x := by
  obtain ⟨p, hp⟩ := Option.ne_none_iff_exists'.mp (h.placed o ho.1 ho.2.1 ho.2.2)
  have hslot {c : ℕ} {k : UInt32} : Has w out o (.slot c k) → p = .slot c ∧ (w.timer o).id = k := by
    rintro ⟨-, hat⟩
    obtain ⟨hplace, hid⟩ := (h.at_iff c k o).mp hat
    exact ⟨Option.some.inj (hp.symm.trans hplace), hid⟩
  have hpending {i : ℕ} (hi : Has w out o (.pending i)) : p = .out := by
    have hmem : o ∈ out := List.mem_of_getElem? hi
    exact Option.some.inj (hp.symm.trans ((h.out_iff o).mp hmem))
  cases p with
  | slot c =>
    refine ⟨.slot c (w.timer o).id, ⟨h.lt c o hp, (h.at_iff c _ o).mpr ⟨hp, rfl⟩⟩, ?_⟩
    rintro (⟨c', k⟩ | i) hx
    · obtain ⟨hc, rfl⟩ := hslot hx
      cases hc
      rfl
    · cases hpending hx
  | out =>
    obtain ⟨i, hi⟩ := List.mem_iff_getElem?.mp ((h.out_iff o).mpr hp)
    refine ⟨.pending i, hi, ?_⟩
    rintro (⟨c', k⟩ | j) hx
    · cases (hslot hx).1
    · refine congrArg Spot.pending ?_
      obtain ⟨hlt, -⟩ := List.getElem?_eq_some_iff.mp hi
      exact ((List.getElem?_inj hlt h.nodup).mp (hi.trans (Eq.symm hx))).symm

/-! ### Runs -/

/-- **Timers are conserved** in runs in which new timers get free ids: in all their states for the calls,
and between the ticks for the places. -/
theorem conserved_run (l : List Label) (l' : List SingleTimerMgr.Label) :
    (∀ s, run TimerManager.step {} l = some s → Along TimerManager.step TimerMgrPlaces.Fresh {} l →
      OnceOnly s.wheel ∧ (s.batch = none → ∀ o, Live s.wheel o → ∃! x, Has s.wheel [] o x)) ∧
    ∀ s, run SingleTimerManager.step {} l' = some s →
      Along SingleTimerManager.step SingleTimerPlaces.Fresh {} l' →
      OnceOnly s.wheel ∧ (s.batch = none → ∀ o, Live s.wheel o → ∃! x, Has s.wheel s.timeout o x) := by
  constructor
  · intro s hs hfresh
    have hgood : TimerMgrPlaces.Good s := run_inv_along (Q := fun _ => True)
      (fun s a s' h _ hf hs => TimerMgrPlaces.good_step s a s' h hf hs) hs (fun _ _ => trivial) hfresh
      TimerMgrPlaces.good_start
    constructor
    · cases hb : s.batch with
      | none =>
        obtain ⟨place, hp⟩ := hgood.idle hb
        exact hp.calls_le
      | some b =>
        obtain ⟨place, hin⟩ := hgood.batch b hb
        exact hin.places.calls_le
    · intro hb o ho
      obtain ⟨place, hp⟩ := hgood.idle hb
      exact existsUnique_has hp ho
  · intro s hs hfresh
    have hgood : SingleTimerPlaces.Good s := run_inv_along (Q := fun _ => True)
      (fun s a s' h _ hf hs => SingleTimerPlaces.good_step s a s' h hf hs) hs (fun _ _ => trivial) hfresh
      SingleTimerPlaces.good_start
    obtain ⟨place, hp⟩ := hgood.places
    refine ⟨hp.calls_le, fun hb o ho => ?_⟩
    have htaken : SingleTimerPlaces.taken s = s.timeout := by
      unfold SingleTimerPlaces.taken
      rw [hb]
      exact List.append_nil _
    exact htaken ▸ existsUnique_has hp ho

/-- A tick in which a timer for one call is called, and one for several. -/
def oneTick : List Label :=
  [.newTimer .onceTimer 0 50 50, .newTimer .loopTimer 300 50 50, .addTimer 0, .addTimer 1, .onTick 50,
    .turn, .returned, .turn, .returned, .endTick fun _ => 0]

theorem conserved_run_tick : ∃ s, run TimerManager.step {} oneTick = some s ∧
    s.wheel.events = [.onTimeout 0, .setDelete 0, .onTimeout 1] ∧ OnceOnly s.wheel ∧
      ∃! x, Has s.wheel [] 1 x := by
  refine ⟨_, rfl, by decide +kernel, ?_⟩
  have h := (conserved_run oneTick []).1 _ rfl (by decide +kernel)
  exact ⟨h.1, h.2 rfl 1 (by decide +kernel)⟩

/-! ### Timers with the id of another -/

/-- So many timers are attached, without a tick. -/
def fill : ℕ → List Label
  | 0 => []
  | n + 1 => fill n ++ [.newTimer .onceTimer 0 50 50, .addTimer n]

/-- The wheel with another timer. -/
def added (w : Wheel) : Wheel := (w.newTimer .onceTimer 0 50 50).attachNew w.made 50

/-- What holds of a wheel with `n` timers, of which the first has the id 1. -/
structure Filled (n : ℕ) (w : Wheel) : Prop where
  curr : w.currSlot = 0
  made : w.made = n
  lastID : w.lastTimerID.toNat = n
  events : w.events = []
  lt : ∀ {c k o}, w.At c k o → o < n
  first : 0 < n → (w.slots 0)[(1 : UInt32)]? = some 0

section

variable {w : Wheel} {n : ℕ}

theorem added_eq (hcurr : w.currSlot = 0) :
    added w = ((w.newTimer .onceTimer 0 50 50).setNew w.made 50).slotAdd 0 w.made := by
  refine (w.attached_eq 50 50).trans (congrArg (Wheel.slotAdd _ · _) ?_)
  unfold Wheel.slotNum
  rw [hcurr]
  rfl

theorem at_added (hcurr : w.currSlot = 0) {c o : ℕ} {k : UInt32} :
    (added w).At c k o ↔ w.At c k o ∨ c = 0 ∧ k = w.nextID ∧ o = w.made ∧ (w.slots 0)[w.nextID]? = none := by
  have hid : (((w.newTimer .onceTimer 0 50 50).setNew w.made 50).timer w.made).id = w.nextID :=
    congrArg Timer.id (Wheel.setTimer_self ..)
  rw [added_eq hcurr, Wheel.at_slotAdd, hid]
  exact Iff.rfl

/-- What the two steps do. -/
theorem run_added {s : TimerManager} (l : List Label) :
    run TimerManager.step s (.newTimer .onceTimer 0 50 50 :: .addTimer s.wheel.made :: l) =
      run TimerManager.step { s with wheel := added s.wheel } l := by
  have htimer := s.wheel.timer_newTimer_once 50 50
  have hadd : TimerManager.addTimer (s.wheel.newTimer .onceTimer 0 50 50) s.wheel.made = added s.wheel := by
    unfold TimerManager.addTimer added
    rw [htimer]
    rfl
  have hstep : TimerManager.step { s with wheel := s.wheel.newTimer .onceTimer 0 50 50 }
      (.addTimer s.wheel.made) = some { s with wheel := added s.wheel } := by
    have hrun : ¬ ((s.wheel.newTimer .onceTimer 0 50 50).timer s.wheel.made).isRunning = true := by
      rw [htimer]
      exact Bool.false_ne_true
    refine (if_pos ⟨Nat.lt_succ_self _, hrun⟩).trans ?_
    exact congrArg (fun w => some { s with wheel := w }) hadd
  exact run_cons_eq rfl (run_cons_eq hstep rfl)

theorem filled_added (h : Filled n w) (hn : n + 1 < UInt32.size) : Filled (n + 1) (added w) := by
  have hlast : (w.lastTimerID + 1).toNat = n + 1 := by
    rw [UInt32.toNat_add, h.lastID]
    exact Nat.mod_eq_of_lt hn
  have hnext : w.nextID.toNat = n + 1 := by
    unfold Wheel.nextID
    rw [if_neg, hlast]
    intro hzero
    rw [hzero] at hlast
    cases hlast
  have heq := added_eq h.curr
  constructor
  case curr => rw [heq]; exact h.curr
  case made => rw [heq]; exact congrArg (· + 1) h.made
  case lastID => rw [heq]; exact hnext
  case events => rw [heq]; exact h.events
  case lt =>
    intro c k o hat
    rcases (at_added h.curr).mp hat with hat | ⟨-, -, rfl, -⟩
    · exact Nat.lt_succ_of_lt (h.lt hat)
    · rw [h.made]
      exact Nat.lt_succ_self n
  case first =>
    intro _
    refine (at_added h.curr (c := 0) (o := 0) (k := 1)).mpr ?_
    rcases Nat.eq_zero_or_pos n with rfl | hpos
    · have hnone : (w.slots 0)[w.nextID]? = none := by
        by_contra hsome
        obtain ⟨o, hat⟩ := Option.ne_none_iff_exists'.mp hsome
        exact Nat.not_lt_zero o (h.lt hat)
      exact Or.inr ⟨rfl, (UInt32.toNat_inj.mp hnext).symm, h.made.symm, hnone⟩
    · exact Or.inl (h.first hpos)

theorem run_fill (hn : n < UInt32.size) :
    ∃ s, run TimerManager.step {} (fill n) = some s ∧ s.batch = none ∧ Filled n s.wheel := by
  induction n with
  | zero =>
    refine ⟨{}, rfl, rfl, rfl, rfl, rfl, rfl, fun hat => (by cases hat), fun h => absurd h (Nat.lt_irrefl 0)⟩
  | succ n ih =>
    obtain ⟨s, hs, hb, hf⟩ := ih (Nat.lt_of_succ_lt hn)
    refine ⟨{ s with wheel := added s.wheel }, run_append_some.mpr ⟨s, hs, ?_⟩, hb, filled_added hf hn⟩
    rw [← hf.made]
    exact run_added []

/-- The timer that gets the id 1 again is in no slot. -/
theorem lost_of_filled (h : Filled n w) (hn : n + 1 = UInt32.size) :
    Live (added w) n ∧ ∀ x, ¬ Has (added w) [] n x := by
  have hnext : w.nextID = 1 := by
    have hlast : w.lastTimerID + 1 = 0 := by
      refine UInt32.toNat_inj.mp ?_
      rw [UInt32.toNat_add, h.lastID]
      change (n + 1) % UInt32.size = 0
      rw [hn, Nat.mod_self]
    exact if_pos hlast
  constructor
  · have hadded : (added w).timer n = (Wheel.once 50 50).begin w.nextID 50 := by
      rw [← h.made]
      exact w.timer_attached_self 50 50
    refine ⟨congrArg Timer.isRunning hadded, congrArg Timer.delflag hadded, fun hfin => ?_⟩
    have hcalls : calls (added w) n = 0 := by
      rw [added_eq h.curr]
      change w.events.count _ = 0
      rw [h.events]
      rfl
    exact absurd hfin.2 (by omega)
  · rintro (⟨c, k⟩ | i) hx
    · rcases (at_added h.curr).mp hx.2 with hat | ⟨-, -, -, hnone⟩
      · exact Nat.lt_irrefl n (h.lt hat)
      · have hpos : 0 < n := by
          refine Nat.pos_of_ne_zero ?_
          rintro rfl
          exact absurd hn (by decide)
        rw [hnext, h.first hpos] at hnone
        cases hnone
    · cases hx

theorem fill_lost (hn : n + 1 = UInt32.size) : ∃ s, run TimerManager.step {} (fill (n + 1)) = some s ∧
    s.batch = none ∧ Live s.wheel n ∧ ∀ x, ¬ Has s.wheel [] n x := by
  obtain ⟨s, hs, hb, hf⟩ := run_fill (n := n) (hn ▸ Nat.lt_succ_self n)
  refine ⟨{ s with wheel := added s.wheel }, run_append_some.mpr ⟨s, hs, ?_⟩, hb, lost_of_filled hf hn⟩
  rw [← hf.made]
  exact run_added []

end

/-- **A timer is lost**: the last of so many timers of a slot gets the id of the first, which is there. -/
theorem timer_lost : ∃ s, run TimerManager.step {} (fill UInt32.size) = some s ∧ s.batch = none ∧
    Live s.wheel (UInt32.size - 1) ∧ ¬ ∃! x, Has s.wheel [] (UInt32.size - 1) x := by
  have hn : UInt32.size - 1 + 1 = UInt32.size := Nat.sub_add_cancel (by decide)
  obtain ⟨s, hs, hb, hlive, hno⟩ := fill_lost hn
  rw [hn] at hs
  exact ⟨s, hs, hb, hlive, fun ⟨x, hx, _⟩ => hno x hx⟩

end ChatShow.CommBase.TimerConserved
